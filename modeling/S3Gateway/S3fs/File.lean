import S3Gateway.Lib.ByteFile
import S3Gateway.S3fs.Reader

/-!
# Open files (`internal/s3fs/file.go`, `internal/s3fs/cache_integration.go`)

`OpenFile` returns one of two kinds of files. An `s3File` reads an object through
a `chunkReader`, or lists a directory. An `s3WritableFile` works on a local temp
file: the object is downloaded into it by the first read, write or seek, and
`Close` uploads it. The temp file is a `ByteFile` of its own, so that contents
and cursor after a broken download are what the system calls left behind.

A file method returns the file's new state next to its result. Its mutex makes
the method atomic with respect to the other methods of the same file, not with
respect to the services.
-/

namespace S3Gateway

open Lib

/-! ## Cache integration -/

/-- `cacheGet`: `none` is a miss, `some none` a negative entry. -/
def cacheGet (s3Key : GoString) : Gw (Option (Option FileInfo)) := do
  match ← Prog.call (.getEntry s3Key) with
  | none => pure none
  | some entry =>
    if entry.negative then pure (some none)
    else
      match ← Prog.call (.getOrCreateInode s3Key) with
      | .error _ => pure none
      | .ok inode =>
        pure (some (some
          { name := nameFromS3Key s3Key, size := entry.size, mode := entry.mode
            modTime := entry.modTime, isDir := entry.isDir, inode
            numLinks := numLinksOf entry.isDir, etag := [] }))

/-- The cache entry of a file: what `cachePut` and `Readdir` store. -/
def cacheEntryOf (s3Key : GoString) (info : FileInfo) : CacheEntry :=
  { CacheEntry.zero with
    s3Key, size := info.size, modTime := info.modTime, mode := info.mode, isDir := info.isDir
    inode := info.inode }

/-- `cachePut`. -/
def cachePut (s3Key : GoString) (info : FileInfo) : Gw Unit :=
  Prog.call (.putEntry s3Key (cacheEntryOf s3Key info))

/-- `cachePutNegative`. -/
def cachePutNegative (s3Key : GoString) : Gw Unit := Prog.call (.putNegative s3Key)

/-- `cacheInvalidate`. -/
def cacheInvalidate (s3Key : GoString) : Gw Unit := Prog.call (.invalidate s3Key)

/-- `dataCacheInvalidate`. -/
def dataCacheInvalidate (s3Key : GoString) : Gw Unit := Prog.call (.dataInvalidate s3Key)

/-- `cacheInvalidateParent`. -/
def cacheInvalidateParent (s3Key : GoString) : Gw Unit :=
  Prog.call (.invalidate (parentPrefix s3Key))

/-- `cacheEntryToFileInfo`. -/
def cacheEntryToFileInfo (entry : CacheEntry) (name : GoString) (inode : UInt64) : FileInfo :=
  let mode :=
    if entry.mode = 0 then
      if entry.isDir then modeDir ||| defaultDirMode else defaultFileMode
    else entry.mode
  { name, size := entry.size, mode, modTime := entry.modTime, isDir := entry.isDir, inode
    numLinks := numLinksOf entry.isDir, etag := [] }

/-! ## Read-only files and directories -/

/-- `s3File`. -/
structure S3File where
  path : GoString
  s3Key : GoString
  info : FileInfo
  isDir : Bool
  writable : Bool
  offset : Int
  chunked : Option ChunkReader
  closed : Bool
  etag : GoString

namespace S3File

/-- The reader `Read` works with, created on first use. -/
def reader (f : S3File) : ChunkReader :=
  f.chunked.getD (newChunkReader f.s3Key f.info.size f.etag)

/-- `s3File.Read` into a slice of `n` bytes. -/
def read (fuel : Nat) (f : S3File) (n : Nat) : Gw (Option (ReadResult × S3File)) :=
  if f.closed then pure (some (([], some .errClosed), f))
  else if f.isDir then pure (some (([], some (.text (gs "cannot read directory"))), f))
  else do
    match ← f.reader.readAt fuel n f.offset with
    | none => pure none
    | some (res, r) =>
      pure (some (res, { f with chunked := some r, offset := f.offset + res.1.length }))

/-- `s3File.Write`. -/
def write (f : S3File) (_ : Bytes) : Except GoError Nat × S3File :=
  (.error (.text (gs "write not supported yet")), f)

/-- The target of `s3File.Seek`. -/
def seekOffset (f : S3File) (offset : Int64) (whence : Int) : Except GoError Int :=
  if whence = 0 then .ok offset.toInt
  else if whence = 1 then .ok (wrap64 (f.offset + offset.toInt))
  else if whence = 2 then .ok (wrap64 (f.info.size + offset.toInt))
  else .error (.text (gs "invalid whence: " ++ itoa whence))

/-- `s3File.Seek`. -/
def seek (f : S3File) (offset : Int64) (whence : Int) : Except GoError Int × S3File :=
  match f.seekOffset offset whence with
  | .error err => (.error err, f)
  | .ok newOffset =>
    if newOffset < 0 then (.error (.text (gs "negative offset")), f)
    else
      match f.chunked with
      | some r =>
        if newOffset ≠ f.offset then
          match r.seekTo newOffset with
          | (.error err, r) => (.error err, { f with chunked := some r })
          | (.ok (), r) => (.ok newOffset, { f with chunked := some r, offset := newOffset })
        else (.ok newOffset, { f with offset := newOffset })
      | none => (.ok newOffset, { f with offset := newOffset })

/-- `s3File.Truncate`. -/
def truncate (f : S3File) : Gw (Except GoError Unit × S3File) :=
  if f.closed then pure (.error .errClosed, f)
  else if !f.writable then
    pure (.error (.text (gs "truncate " ++ f.path ++ gs ": read-only file descriptor")), f)
  else do
    match ← Prog.call (.putObject f.s3Key [] defaultMetadata) with
    | .error err => pure (.error (.wrap (gs "truncate") err), f)
    | .ok () =>
      let f := { f with info := { f.info with size := 0 }, offset := 0, chunked := none }
      cacheInvalidate f.s3Key
      dataCacheInvalidate f.s3Key
      pure (.ok (), f)

/-- The prefix `Readdir` lists. -/
def listPrefix (f : S3File) : GoString :=
  if f.s3Key ≠ [] ∧ !hasSuffixSlash f.s3Key then f.s3Key ++ [slash] else f.s3Key

/-- The loop of `Readdir` over a cached listing. -/
def readdirCached : List CacheEntry → List FileInfo → Gw (Except GoError (List FileInfo))
  | [], infos => pure (.ok infos)
  | ce :: entries, infos =>
    let name := nameFromS3Key ce.s3Key
    if name = [] then readdirCached entries infos
    else do
      match ← Prog.call (.getOrCreateInode ce.s3Key) with
      | .error err =>
        pure (.error (.wrap (gs "allocate inode for \"" ++ ce.s3Key ++ gs "\"") err))
      | .ok inode => readdirCached entries (infos ++ [cacheEntryToFileInfo ce name inode])

/-- The metadata `Readdir` uses for a listing entry: that of the object for a
file, none for a directory or when the object cannot be read. -/
def entryMeta (isDir : Bool) (key : GoString) : Gw Metadata :=
  if isDir then pure ∅
  else do
    match ← Prog.call (.headObject key) with
    | .ok info => pure info.userMetadata
    | .error _ => pure ∅

/-- The loop of `Readdir` over a listing from S3: the infos and cache entries of
the entries, in order. -/
def readdirList (pfx : GoString) : List ListEntry → List FileInfo → List CacheEntry →
    Gw (Except GoError (List FileInfo × List CacheEntry))
  | [], infos, cached => pure (.ok (infos, cached))
  | entry :: entries, infos, cached =>
    let name := trimSuffixSlash (trimPrefix entry.key pfx)
    if name = [] then readdirList pfx entries infos cached -- skip self
    else do
      let isDir := entry.isDir || hasSuffixSlash entry.key
      match ← Prog.call (.getOrCreateInode entry.key) with
      | .error err =>
        pure (.error (.wrap (gs "allocate inode for \"" ++ entry.key ++ gs "\"") err))
      | .ok inode =>
        let userMeta ← entryMeta isDir entry.key
        let fi := newFileInfoFromS3 name entry.size entry.lastModified isDir inode userMeta
        cachePut entry.key fi
        readdirList pfx entries (infos ++ [fi]) (cached ++ [cacheEntryOf entry.key fi])

/-- `Readdir` returns at most `count` entries if `count` is positive. -/
def limitInfos (count : Int) (infos : List FileInfo) : List FileInfo :=
  if count > 0 ∧ (infos.length : Int) > count then infos.take count.toNat else infos

/-- `s3File.Readdir`. -/
def readdir (f : S3File) (count : Int) : Gw (Except GoError (List FileInfo)) :=
  if !f.isDir then pure (.error (.text (gs "not a directory")))
  else do
    match ← Prog.call (.getDirListing f.listPrefix) with
    | some cachedEntries =>
      let infos ← readdirCached cachedEntries []
      pure (infos.map (limitInfos count))
    | none =>
      match ← Prog.call (.listObjects f.listPrefix) with
      | .error err => pure (.error err)
      | .ok entries =>
        match ← readdirList f.listPrefix entries [] [] with
        | .error err => pure (.error err)
        | .ok (infos, cached) =>
          Prog.call (.putDirListing f.listPrefix cached)
          pure (.ok (limitInfos count infos))

/-- `s3File.Close`. -/
def close (f : S3File) : S3File :=
  if f.closed then f else { f with closed := true, chunked := f.chunked.map ChunkReader.close }

end S3File

/-! ## Writable files -/

/-- `s3WritableFile`. -/
structure S3WritableFile where
  path : GoString
  s3Key : GoString
  info : FileInfo
  tmp : ByteFile UInt8
  /-- `tmp` holds the S3 contents, or the file is newly created. -/
  downloaded : Bool
  closed : Bool

/-- `newWritableFile`. -/
def newWritableFile (path s3Key : GoString) (info : FileInfo) :
    Gw (Except GoError S3WritableFile) := do
  match ← Prog.call .createTemp with
  | .error err => pure (.error (.wrap (gs "create temp file") err))
  | .ok () => pure (.ok { path, s3Key, info, tmp := .empty, downloaded := false, closed := false })

/-- `newEmptyWritableFile`. -/
def newEmptyWritableFile (path s3Key : GoString) (info : FileInfo) :
    Gw (Except GoError S3WritableFile) := do
  match ← newWritableFile path s3Key info with
  | .error err => pure (.error err)
  | .ok f => pure (.ok { f with downloaded := true })

namespace S3WritableFile

/-- `ensureDownloaded`. `io.Copy` writes at the temp file's cursor what the body
delivers, also when the body then fails. -/
def ensureDownloaded (f : S3WritableFile) : Gw (Except GoError Unit × S3WritableFile) :=
  if f.downloaded then pure (.ok (), f)
  else do
    match ← Prog.call (.getObject f.s3Key) with
    | .error err => pure (.error (.wrap (gs "download " ++ f.s3Key) err), f)
    | .ok body =>
      let f := { f with tmp := f.tmp.write body.data }
      if body.err ≠ .eof then
        pure (.error (.wrap (gs "buffer " ++ f.s3Key ++ gs " to temp") body.err), f)
      else pure (.ok (), { f with tmp := { f.tmp with pos := 0 }, downloaded := true })

/-- A method that works on the temp file: refuse a closed file, make sure the
contents are there, then act. -/
def onTmp {α : Type} (f : S3WritableFile) (act : ByteFile UInt8 → Except GoError α × ByteFile UInt8) :
    Gw (Except GoError α × S3WritableFile) :=
  if f.closed then pure (.error .errClosed, f)
  else do
    match ← f.ensureDownloaded with
    | (.error err, f) => pure (.error err, f)
    | (.ok (), f) => pure ((act f.tmp).1, { f with tmp := (act f.tmp).2 })

/-- `os.File.Read` into a slice of `n` bytes: `io.EOF` at the end, except for an
empty slice. -/
def tmpRead (n : Nat) (tmp : ByteFile UInt8) : Except GoError Bytes × ByteFile UInt8 :=
  if 0 < n ∧ (tmp.read n).1 = [] then (.error .eof, tmp) else (.ok (tmp.read n).1, (tmp.read n).2)

/-- `os.File.Write`. -/
def tmpWrite (p : Bytes) (tmp : ByteFile UInt8) : Except GoError Nat × ByteFile UInt8 :=
  (.ok p.length, tmp.write p)

/-- `os.File.Seek`. -/
def tmpSeek (offset : Int64) (whence : Int) (tmp : ByteFile UInt8) :
    Except GoError Nat × ByteFile UInt8 :=
  match tmp.seek offset.toInt whence with
  | some tmp => (.ok tmp.pos, tmp)
  | none => (.error (.errno (gs "invalid argument")), tmp)

/-- `s3WritableFile.Read`. -/
def read (f : S3WritableFile) (n : Nat) : Gw (Except GoError Bytes × S3WritableFile) :=
  f.onTmp (tmpRead n)

/-- `s3WritableFile.Write`. -/
def write (f : S3WritableFile) (p : Bytes) : Gw (Except GoError Nat × S3WritableFile) :=
  f.onTmp (tmpWrite p)

/-- `s3WritableFile.Seek`. -/
def seek (f : S3WritableFile) (offset : Int64) (whence : Int) :
    Gw (Except GoError Nat × S3WritableFile) :=
  f.onTmp (tmpSeek offset whence)

/-- `s3WritableFile.Truncate`. -/
def truncate (f : S3WritableFile) : Except GoError Unit × S3WritableFile :=
  if f.closed then (.error .errClosed, f)
  else (.ok (), { f with downloaded := true, tmp := f.tmp.truncate })

/-- `s3WritableFile.Close`. -/
def close (f : S3WritableFile) : Gw (Except GoError Unit × S3WritableFile) :=
  if f.closed then pure (.ok (), f)
  else do
    let f := { f with closed := true }
    let size : Int := f.tmp.data.length
    match ← Prog.call (.putObject f.s3Key f.tmp.data defaultMetadata) with
    | .error err => pure (.error (.wrap (gs "upload to S3") err), f)
    | .ok () =>
      cacheInvalidate f.s3Key
      cacheInvalidateParent f.s3Key
      dataCacheInvalidate f.s3Key
      -- the refreshed attributes, for read-after-write consistency
      let now ← Prog.call .now
      cachePut f.s3Key
        { name := nameFromPath f.path, size, mode := defaultFileMode, modTime := now, isDir := false
          inode := f.info.inode, numLinks := 1, etag := [] }
      pure (.ok (), f)

end S3WritableFile

/-- `nfs.File`, as far as `OpenFile` returns one. -/
inductive File where
  | s3File (f : S3File)
  | s3WritableFile (f : S3WritableFile)

/-- `Stat` of an open file. -/
def File.info : File → FileInfo
  | .s3File f => f.info
  | .s3WritableFile f => f.info

end S3Gateway
