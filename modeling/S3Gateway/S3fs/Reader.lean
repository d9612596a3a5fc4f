import S3Gateway.S3fs.World

/-!
# Ranged reads with adaptive prefetch (`internal/s3fs/reader.go`)

A read-only handle fetches the object in chunks through `chunkReader`: the chunk
size grows with consecutive sequential reads, the last chunk is kept as a
buffer, and small files go through the data cache.

`buf` is the backing array of the prefetch buffer: its length is the slice's
capacity, and the code names the bounds of the slice wherever it uses it.
`ReadAt` loops until it has enough bytes. The loop need not end (a fetch may
deliver nothing), so the model bounds its iterations by `fuel`; a result `none`
means that the loop is still running then.
-/

namespace S3Gateway

open Lib

/-- The value of an `int64` expression: wrapped into the 64-bit range. -/
def wrap64 (i : Int) : Int := i.bmod (2 ^ 64)

theorem wrap64_eq {i : Int} (h₁ : -2 ^ 63 ≤ i) (h₂ : i < 2 ^ 63) : wrap64 i = i := by
  rw [wrap64, Int.bmod_eq_of_le] <;> omega

/-- `io.ReadFull` into a slice of length `n`: the bytes read and the error. -/
def readFull (body : Body) (n : Nat) : Bytes × Option GoError :=
  if n ≤ body.data.length then (body.data.take n, none)
  else if body.data ≠ [] ∧ body.err = .eof then (body.data, some .unexpectedEOF)
  else (body.data, some body.err)

def chunkSize1MB : Int := 1 * 2 ^ 20
def chunkSize4MB : Int := 4 * 2 ^ 20
def chunkSize16MB : Int := 16 * 2 ^ 20
def seqThreshold1 : Nat := 4
def seqThreshold2 : Nat := 12

/-- Files up to this size go into the data cache. -/
def smallFileLimit : Int := 128 * 1024

/-- `chunkReader`. -/
structure ChunkReader where
  s3Key : GoString
  size : Int
  /-- The logical read position. -/
  offset : Int
  buf : Bytes
  bufStart : Int
  /-- The number of valid bytes in `buf`. -/
  bufLen : Nat
  chunkSize : Int
  seqCount : Nat
  /-- The offset right after the previous read. -/
  lastEnd : Int
  etag : GoString

/-- What `ReadAt` and `Read` return: the bytes put into the caller's slice, and
the error. -/
abbrev ReadResult := Bytes × Option GoError

/-- `newChunkReader`. -/
def newChunkReader (key : GoString) (size : Int) (etag : GoString) : ChunkReader :=
  { s3Key := key, size, offset := 0, buf := [], bufStart := 0, bufLen := 0
    chunkSize := chunkSize1MB, seqCount := 0, lastEnd := -1, etag }

namespace ChunkReader

/-- Whether a file offset is covered by the buffer. -/
def inBuffer (r : ChunkReader) (off : Int) : Bool :=
  r.bufLen > 0 && off ≥ r.bufStart && off < r.bufStart + r.bufLen

/-- The number of bytes `fetchChunk` asks for at `off`. -/
def fetchLength (r : ChunkReader) (off : Int) : Int :=
  if wrap64 (off + r.chunkSize) > r.size then r.size - off else r.chunkSize

/-- The buffer once it has room for `length` bytes: `make` clears, reslicing
does not. -/
def ensureCap (buf : Bytes) (length : Nat) : Bytes :=
  if buf.length < length then List.replicate length 0 else buf

/-- The reader after `io.ReadFull` has put `got` into its buffer of `length`
bytes. The window `bufStart`, `bufLen` is not yet touched. -/
def readInto (r : ChunkReader) (length : Int) (got : Bytes) : ChunkReader :=
  { r with buf := got ++ (ensureCap r.buf length.toNat).drop got.length }

/-- The window becomes the `n` bytes just read at `off`. -/
def setWindow (r : ChunkReader) (off : Int) (n : Nat) : ChunkReader :=
  { r with bufStart := off, bufLen := n }

/-- The part of `fetchChunk` that goes to S3. -/
def fetchFromS3 (r : ChunkReader) (off length : Int) : Gw (Except GoError Unit × ChunkReader) := do
  match ← Prog.call (.getObjectRange r.s3Key off length) with
  | .error err => pure (.error (.wrap (gs "fetch chunk at " ++ itoa off) err), r)
  | .ok body =>
    let (got, err) := readFull body length.toNat
    let r := r.readInto length got
    match err with
    | none | some .unexpectedEOF | some .eof =>
      -- a partial read is fine, the server may return less than requested
      let r := r.setWindow off got.length
      if r.etag ≠ [] ∧ r.size ≤ smallFileLimit then
        let _ ← Prog.call (.dataPut r.s3Key r.etag got)
        pure (.ok (), r)
      else pure (.ok (), r)
    | some err => pure (.error (.wrap (gs "read chunk") err), r)

/-- `fetchChunk` once the data cache has answered: a cached file is read at
`off`, unless the seek fails. -/
def fetchWith (r : ChunkReader) (off length : Int) :
    Option Bytes → Gw (Except GoError Unit × ChunkReader)
  | some content =>
    if 0 ≤ off then
      let got := (content.drop off.toNat).take length.toNat
      pure (.ok (), (r.readInto length got).setWindow off got.length)
    else r.fetchFromS3 off length
  | none => r.fetchFromS3 off length

/-- `fetchChunk`. -/
def fetchChunk (r : ChunkReader) (off : Int) : Gw (Except GoError Unit × ChunkReader) :=
  let length := r.fetchLength off
  if length ≤ 0 then pure (.error .eof, r)
  else if r.etag ≠ [] then do
    let cached ← Prog.call (.dataGet r.s3Key r.etag)
    r.fetchWith off length cached
  else r.fetchWith off length none

/-- `adaptChunkSize`. -/
def adaptChunkSize (r : ChunkReader) : ChunkReader :=
  if r.seqCount ≥ seqThreshold2 ∧ r.chunkSize < chunkSize16MB then
    { r with chunkSize := chunkSize16MB }
  else if r.seqCount ≥ seqThreshold1 ∧ r.chunkSize < chunkSize4MB then
    { r with chunkSize := chunkSize4MB }
  else r

/-- What `ReadAt` does before its loop: track sequential access. -/
def track (r : ChunkReader) (off : Int) : ChunkReader :=
  if off = r.lastEnd then adaptChunkSize { r with seqCount := r.seqCount + 1 }
  else { r with seqCount := 0, chunkSize := chunkSize1MB }

/-- The bytes one iteration copies out of the buffer at `off`. -/
def copyOut (r : ChunkReader) (off : Int) (room : Nat) : Bytes :=
  ((r.buf.take r.bufLen).drop (off - r.bufStart).toNat).take room

/-- How the loop of `ReadAt` ended: the reader, the offset reached, the bytes
read, and the error of the fetch that stopped it, if one did. -/
structure LoopEnd where
  reader : ChunkReader
  off : Int
  data : Bytes
  err : Option GoError

/-- The loop of `ReadAt` for a slice of `n` bytes, with `data` read so far. -/
def readLoop (n : Nat) : Nat → ChunkReader → Int → Bytes → Gw (Option LoopEnd)
  | 0, _, _, _ => pure none
  | fuel + 1, r, off, data =>
    if data.length < n ∧ off < r.size then
      if r.inBuffer off then
        let chunk := r.copyOut off (n - data.length)
        readLoop n fuel r (off + chunk.length) (data ++ chunk)
      else do
        match ← r.fetchChunk off with
        | (.ok (), r) => readLoop n fuel r off data
        | (.error err, r) => pure (some ⟨r, off, data, some err⟩)
    else pure (some ⟨r, off, data, none⟩)

/-- What `ReadAt` returns once its loop has ended. -/
def finish (e : LoopEnd) : ReadResult × ChunkReader :=
  match e.err, e.data with
  | some err, [] => (([], some err), e.reader)
  | _, data =>
    let r := { e.reader with lastEnd := e.off }
    if data = [] then (([], some .eof), r)
    else ((data, if e.off ≥ r.size then some .eof else none), r)

/-- `ReadAt` for a slice of `n` bytes. -/
def readAt (fuel : Nat) (r : ChunkReader) (n : Nat) (off : Int) :
    Gw (Option (ReadResult × ChunkReader)) :=
  if off ≥ r.size then pure (some (([], some .eof), r))
  else do
    let e ← readLoop n fuel (r.track off) off []
    pure (e.map finish)

/-- `SeekTo`. -/
def seekTo (r : ChunkReader) (offset : Int) : Except GoError Unit × ChunkReader :=
  if offset < 0 then (.error (.text (gs "negative offset")), r)
  else
    let r := { r with offset }
    let r := if r.bufLen > 0 ∧ (offset < r.bufStart ∨ offset ≥ r.bufStart + r.bufLen) then
      { r with bufLen := 0 } else r
    (.ok (), { r with seqCount := 0, chunkSize := chunkSize1MB, lastEnd := -1 })

/-- `chunkReader.Close`. -/
def close (r : ChunkReader) : ChunkReader := { r with buf := [], bufLen := 0 }

end ChunkReader

end S3Gateway
