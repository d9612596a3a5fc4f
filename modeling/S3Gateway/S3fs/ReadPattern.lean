import S3Gateway.Lib.Run
import S3Gateway.S3fs.ReaderProof

/-!
# Ranged requests and the access pattern

`chunkReader` counts consecutive sequential reads and derives from the count how much it
asks S3 for at once. Here a reader is followed through any run of `ReadAt` and `SeekTo`,
on services that may answer anything: errors, short bodies, bodies that break off, cached
files of any contents. What it should have counted is read off the calls that returned
and their results alone (`Pattern`).

The count has two peculiarities. `SeekTo` forgets where the last read ended, so the read
that follows it is never sequential, and a read at or behind the end of the file returns
before it is counted at all. `Pattern.next` has a switch for each, and
`prefetch_follows_pattern` holds with both off only (`prefetch_not_as_counted`).
-/

namespace S3Gateway

open Lib

/-! ## The pattern of a run -/

/-- A call that has returned. -/
inductive ReturnedCall where
  | readAt (off : Nat) (res : ReadResult)
  | seekTo (offset : Nat)

/-- The read returned an error other than `io.EOF`. -/
def ReadFailed (res : ReadResult) : Prop := res.2 ≠ none ∧ res.2 ≠ some .eof

instance (res : ReadResult) : Decidable (ReadFailed res) :=
  inferInstanceAs (Decidable (_ ∧ _))

/-- Where the last read that did not fail ended, and the number of consecutive sequential
reads since the last other read or `SeekTo`. -/
structure Pattern where
  lastEnd : Option Nat
  count : Nat

namespace Pattern

/-- Nothing has been read. -/
def start : Pattern := ⟨none, 0⟩

/-- One read: it is sequential if it begins where the last one that did not fail ended. -/
def read (p : Pattern) (off : Nat) (res : ReadResult) : Pattern where
  lastEnd := if ReadFailed res then p.lastEnd else some (off + res.1.length)
  count := if p.lastEnd = some off then p.count + 1 else 0

/-- One call on a file of this size. `keepEnd`: `SeekTo` keeps the end of the last read.
`countEnd`: reads at or behind the end of the file count. -/
def next (keepEnd countEnd : Bool) (size : Int) (p : Pattern) : ReturnedCall → Pattern
  | .readAt off res => if size ≤ off ∧ countEnd = false then p else p.read off res
  | .seekTo _ => ⟨if keepEnd then p.lastEnd else none, 0⟩

end Pattern

/-- The chunk size for a number of sequential reads. -/
def prefetchSize (count : Nat) : Int :=
  if count < 4 then chunkSize1MB else if count < 12 then chunkSize4MB else chunkSize16MB

theorem prefetchSize_bounds (count : Nat) :
    1 ≤ prefetchSize count ∧ prefetchSize count ≤ chunkSize16MB := by
  unfold prefetchSize
  split
  · decide
  · split <;> decide

/-! ## The calls -/

/-- A call on a `chunkReader`, with an offset that is not negative. -/
inductive ReaderOp where
  /-- `ReadAt` into a slice of `n` bytes, followed for at most `fuel` iterations. -/
  | readAt (fuel n off : Nat)
  | seekTo (offset : Nat)

/-- The services, a reader on them, and whether a `ReadAt` has not returned. -/
structure ReaderRun (σ : Type) where
  services : σ
  reader : ChunkReader
  hung : Bool

namespace ReaderRun

variable {σ : Type}

/-- A new reader. -/
def start (key : GoString) (size : Int) (etag : GoString) (services : σ) : ReaderRun σ :=
  ⟨services, newChunkReader key size etag, false⟩

/-- The run after the next call. Nothing is called while a `ReadAt` has not returned. -/
def step (h : Handler Eff σ) (s : ReaderRun σ) (op : ReaderOp) : ReaderRun σ :=
  if s.hung then s
  else
    match op with
    | .readAt fuel n off =>
      match (s.reader.readAt fuel n off).run h s.services with
      | (some (_, r), services) => ⟨services, r, false⟩
      | (none, services) => ⟨services, s.reader, true⟩
    | .seekTo offset => { s with reader := (s.reader.seekTo offset).2 }

/-- The call, if it returns. -/
def returns (h : Handler Eff σ) (s : ReaderRun σ) (op : ReaderOp) : Option ReturnedCall :=
  if s.hung then none
  else
    match op with
    | .readAt fuel n off =>
      ((s.reader.readAt fuel n off).run h s.services).1.map fun res => .readAt off res.1
    | .seekTo offset => some (.seekTo offset)

/-- The calls that have returned along a run, in order. -/
def calls (h : Handler Eff σ) (s : ReaderRun σ) (ops : List ReaderOp) : List ReturnedCall :=
  (outputs (step h) (returns h) s ops).reduceOption

end ReaderRun

/-- A ranged request lies within the file and asks for at least one and at most 16 MB. -/
def Eff.RangeWithin (size : Int) : (β : Type) → Eff β → Prop
  | _, .getObjectRange _ off length =>
    0 ≤ off ∧ 1 ≤ length ∧ length ≤ chunkSize16MB ∧ off + length ≤ size
  | _, _ => True

/-- The requests the next call makes, whatever the answers, are within the file. -/
def ReaderRun.AsksWithin {σ : Type} (size : Int) (s : ReaderRun σ) : ReaderOp → Prop
  | .readAt fuel n off => (s.reader.readAt fuel n off).Only (Eff.RangeWithin size)
  | .seekTo _ => True

/-! ## Fetches -/

namespace ChunkReader

variable {r r' r'' : ChunkReader} {off : Int}

/-- The file and the bookkeeping of sequential access are the same. -/
structure SameTracking (r r' : ChunkReader) : Prop where
  size : r'.size = r.size
  chunkSize : r'.chunkSize = r.chunkSize
  seqCount : r'.seqCount = r.seqCount
  lastEnd : r'.lastEnd = r.lastEnd

theorem SameTracking.refl (r : ChunkReader) : r.SameTracking r := ⟨rfl, rfl, rfl, rfl⟩

theorem SameTracking.trans (h : r.SameTracking r') (h' : r'.SameTracking r'') :
    r.SameTracking r'' :=
  ⟨h'.size.trans h.size, h'.chunkSize.trans h.chunkSize, h'.seqCount.trans h.seqCount,
    h'.lastEnd.trans h.lastEnd⟩

/-- A fetch touches the buffer only, and its errors are not `io.EOF`. -/
def FetchedOnly (r : ChunkReader) (res : Except GoError Unit × ChunkReader) : Prop :=
  r.SameTracking res.2 ∧ ∀ err, res.1 = .error err → err ≠ .eof

theorem wrap_ne_eof (msg : GoString) (err : GoError) : GoError.wrap msg err ≠ .eof := by
  intro h
  cases h

theorem fetchedOnly_receive (r : ChunkReader) (off length : Int) (reply : Except GoError Body) :
    r.FetchedOnly (r.receive off length reply) := by
  have hok : ∀ r', r.SameTracking r' → r.FetchedOnly (.ok (), r') := by
    refine fun r' hr' => ⟨hr', fun err herr => ?_⟩
    cases herr
  have herror : ∀ msg err r', r.SameTracking r' → r.FetchedOnly (.error (.wrap msg err), r') := by
    refine fun msg err r' hr' => ⟨hr', fun err' herr => ?_⟩
    cases herr
    exact wrap_ne_eof msg err
  unfold receive
  cases reply with
  | error err => exact herror _ _ _ (.refl r)
  | ok body =>
    dsimp only
    split
    · exact hok _ ⟨rfl, rfl, rfl, rfl⟩
    · exact hok _ ⟨rfl, rfl, rfl, rfl⟩
    · exact hok _ ⟨rfl, rfl, rfl, rfl⟩
    · exact herror _ _ _ ⟨rfl, rfl, rfl, rfl⟩

/-- The request of a fetch that starts within the file: never empty, never beyond the end. -/
theorem fetchLength_bounds (hchunk : 1 ≤ r.chunkSize ∧ r.chunkSize ≤ chunkSize16MB)
    (hsize : r.size + chunkSize16MB < 2 ^ 63) (hoff : 0 ≤ off) (hlt : off < r.size) :
    1 ≤ r.fetchLength off ∧ r.fetchLength off ≤ chunkSize16MB ∧
      off + r.fetchLength off ≤ r.size := by
  -- no overflow: the end of the chunk is below `size` plus the largest chunk
  have hwrap : wrap64 (off + r.chunkSize) = off + r.chunkSize := wrap64_eq (by omega) (by omega)
  unfold fetchLength
  rw [hwrap]
  split <;> omega

theorem always_fetchFromS3 {length : Int} (hoff : 0 ≤ off) (hlength : 1 ≤ length ∧
    length ≤ chunkSize16MB ∧ off + length ≤ r.size) :
    (r.fetchFromS3 off length).Always (Eff.RangeWithin r.size) r.FetchedOnly := by
  rw [fetchFromS3_eq]
  refine Prog.always_bind (φ := fun _ => True)
    (Prog.always_call ⟨hoff, hlength⟩ fun _ => trivial) fun reply _ => ?_
  split
  · exact Prog.always_pure (fetchedOnly_receive r off length reply)
  · refine Prog.always_bind (φ := fun _ => True) (Prog.always_call trivial fun _ => trivial)
      fun _ _ => ?_
    exact Prog.always_pure (fetchedOnly_receive r off length reply)

theorem always_fetchChunk (hchunk : 1 ≤ r.chunkSize ∧ r.chunkSize ≤ chunkSize16MB)
    (hsize : r.size + chunkSize16MB < 2 ^ 63) (hoff : 0 ≤ off) (hlt : off < r.size) :
    (r.fetchChunk off).Always (Eff.RangeWithin r.size) r.FetchedOnly := by
  have hlength := fetchLength_bounds hchunk hsize hoff hlt
  have hwith : ∀ cached, (r.fetchWith off (r.fetchLength off) cached).Always
      (Eff.RangeWithin r.size) r.FetchedOnly := by
    intro cached
    cases cached with
    | none => exact always_fetchFromS3 hoff hlength
    | some content =>
      simp only [fetchWith]
      rw [if_pos hoff]
      refine Prog.always_pure ⟨⟨rfl, rfl, rfl, rfl⟩, fun err herr => ?_⟩
      cases herr
  unfold fetchChunk
  dsimp only
  rw [if_neg (by omega)]
  split
  · exact Prog.always_bind (φ := fun _ => True) (Prog.always_call trivial fun _ => trivial)
      fun cached _ => hwith cached
  · exact hwith none

/-- How the loop of `ReadAt` ends, if it does: the bookkeeping is untouched, the offset has
moved by what was read, and the error of a fetch is not `io.EOF`. -/
def LoopedTo (r : ChunkReader) (off : Int) (data : Bytes) (res : Option LoopEnd) : Prop :=
  ∀ e, res = some e → r.SameTracking e.reader ∧ e.off + data.length = off + e.data.length ∧
    ∀ err, e.err = some err → err ≠ .eof

theorem always_readLoop (n : Nat) (hchunk : 1 ≤ r.chunkSize ∧ r.chunkSize ≤ chunkSize16MB)
    (hsize : r.size + chunkSize16MB < 2 ^ 63) (hoff : 0 ≤ off) (fuel : Nat) (data : Bytes) :
    (readLoop n fuel r off data).Always (Eff.RangeWithin r.size) (r.LoopedTo off data) := by
  induction fuel generalizing r off data with
  | zero =>
    refine Prog.always_pure fun e he => ?_
    cases he
  | succ fuel ih =>
    unfold readLoop
    split
    · next hcond =>
      split
      · -- copy out of the buffer
        refine (ih hchunk hsize (by omega) _).post fun res hres e he => ?_
        obtain ⟨hsame, hmoved, herr⟩ := hres e he
        rw [List.length_append] at hmoved
        exact ⟨hsame, by omega, herr⟩
      · refine Prog.always_bind (always_fetchChunk hchunk hsize hoff hcond.2) fun res hres => ?_
        obtain ⟨res, r'⟩ := res
        obtain ⟨hsame, herr⟩ := hres
        have hsame : r.SameTracking r' := hsame
        cases res with
        | ok _ =>
          have hloop := ih (hsame.chunkSize ▸ hchunk) (hsame.size ▸ hsize) hoff data
          rw [hsame.size] at hloop
          refine hloop.post fun res hres e he => ?_
          obtain ⟨hsame', hmoved, herr'⟩ := hres e he
          exact ⟨hsame.trans hsame', hmoved, herr'⟩
        | error err =>
          refine Prog.always_pure fun e he => ?_
          cases he
          refine ⟨hsame, rfl, fun err' herr' => ?_⟩
          cases herr'
          exact herr err rfl
    · refine Prog.always_pure fun e he => ?_
      cases he
      refine ⟨.refl r, rfl, fun err herr => ?_⟩
      cases herr

end ChunkReader

/-! ## Tracking -/

/-- The reader has counted what the pattern says. -/
structure Pattern.TrackedBy (size : Int) (p : Pattern) (r : ChunkReader) : Prop where
  size : r.size = size
  seqCount : r.seqCount = p.count
  chunkSize : r.chunkSize = prefetchSize p.count
  lastEnd : r.lastEnd = (p.lastEnd.map Int.ofNat).getD (-1)

namespace Pattern

variable {size : Int} {p : Pattern} {r : ChunkReader}

theorem trackedBy_start (key : GoString) (size : Int) (etag : GoString) :
    start.TrackedBy size (newChunkReader key size etag) := ⟨rfl, rfl, rfl, rfl⟩

theorem TrackedBy.lastEnd_iff (h : p.TrackedBy size r) (off : Nat) :
    (off : Int) = r.lastEnd ↔ p.lastEnd = some off := by
  rw [h.lastEnd]
  cases p.lastEnd with
  | none =>
    refine iff_of_false ?_ fun hnone => by cases hnone
    show (off : Int) ≠ -1
    omega
  | some e =>
    show (off : Int) = (e : Int) ↔ _
    rw [Option.some.injEq]
    omega

/-- Growing by one threshold at a time is enough: the count grows by one. -/
theorem chunkSize_adaptChunkSize {count : Nat} (hcount : r.seqCount = count + 1)
    (hchunk : r.chunkSize = prefetchSize count) :
    r.adaptChunkSize.chunkSize = prefetchSize (count + 1) := by
  have h1 : chunkSize1MB < chunkSize4MB := by decide
  have h4 : chunkSize4MB < chunkSize16MB := by decide
  have hadapt : r.adaptChunkSize.chunkSize
      = if r.seqCount ≥ 12 ∧ r.chunkSize < chunkSize16MB then chunkSize16MB
        else if r.seqCount ≥ 4 ∧ r.chunkSize < chunkSize4MB then chunkSize4MB
        else r.chunkSize := by
    unfold ChunkReader.adaptChunkSize seqThreshold1 seqThreshold2
    split
    · rfl
    · split <;> rfl
  rw [hadapt, hcount, hchunk]
  unfold prefetchSize
  split_ifs <;> omega

theorem sameFile_adaptChunkSize (r : ChunkReader) :
    r.adaptChunkSize.size = r.size ∧ r.adaptChunkSize.seqCount = r.seqCount ∧
      r.adaptChunkSize.lastEnd = r.lastEnd := by
  unfold ChunkReader.adaptChunkSize
  split
  · exact ⟨rfl, rfl, rfl⟩
  · split <;> exact ⟨rfl, rfl, rfl⟩

/-- What `ReadAt` counts before its loop. -/
theorem TrackedBy.track (h : p.TrackedBy size r) (off : Nat) :
    (⟨p.lastEnd, if p.lastEnd = some off then p.count + 1 else 0⟩ : Pattern).TrackedBy size
      (r.track off) := by
  unfold ChunkReader.track
  by_cases hseq : p.lastEnd = some off
  · rw [if_pos hseq, if_pos ((h.lastEnd_iff off).mpr hseq)]
    obtain ⟨hsize, hcount, hlast⟩ := sameFile_adaptChunkSize { r with seqCount := r.seqCount + 1 }
    have hsucc : r.seqCount + 1 = p.count + 1 := by rw [h.seqCount]
    exact ⟨hsize.trans h.size, hcount.trans hsucc, chunkSize_adaptChunkSize hsucc h.chunkSize,
      hlast.trans h.lastEnd⟩
  · rw [if_neg hseq, if_neg fun heq => hseq ((h.lastEnd_iff off).mp heq)]
    exact ⟨h.size, rfl, rfl, h.lastEnd⟩

theorem TrackedBy.of_sameTracking (h : p.TrackedBy size r) {r' : ChunkReader}
    (hsame : r.SameTracking r') : p.TrackedBy size r' :=
  ⟨hsame.size.trans h.size, hsame.seqCount.trans h.seqCount, hsame.chunkSize.trans h.chunkSize,
    hsame.lastEnd.trans h.lastEnd⟩

/-- A read that ended moves the end of the last read, unless it failed. -/
theorem TrackedBy.finish (h : p.TrackedBy size r) {off : Nat} {e : ChunkReader.LoopEnd}
    (hsame : r.SameTracking e.reader) (hmoved : e.off = off + e.data.length)
    (heof : ∀ err, e.err = some err → err ≠ .eof) :
    (⟨if ReadFailed (ChunkReader.finish e).1 then p.lastEnd
        else some (off + (ChunkReader.finish e).1.1.length), p.count⟩ : Pattern).TrackedBy size
      (ChunkReader.finish e).2 := by
  have hreader := h.of_sameTracking hsame
  have hended : ∀ n : Nat, e.off = off + n →
      (⟨some (off + n), p.count⟩ : Pattern).TrackedBy size { e.reader with lastEnd := e.off } := by
    intro n hn
    exact ⟨hreader.size, hreader.seqCount, hreader.chunkSize, by rw [hn]; rfl⟩
  have hread : ∀ b : Bytes, ¬ ReadFailed (b, if e.off ≥ e.reader.size then some .eof else none) := by
    intro b hfailed
    unfold ReadFailed at hfailed
    dsimp only at hfailed
    split at hfailed
    · exact hfailed.2 rfl
    · exact hfailed.1 rfl
  cases herr : e.err with
  | none =>
    rw [ChunkReader.finish_none herr]
    by_cases hdata : e.data = []
    · rw [hdata] at hmoved
      rw [if_pos hdata, if_neg fun hfailed => hfailed.2 rfl]
      exact hended 0 hmoved
    · rw [if_neg hdata, if_neg (hread _)]
      exact hended _ hmoved
  | some err =>
    rw [ChunkReader.finish_some herr]
    by_cases hdata : e.data = []
    · have hfailed : ReadFailed (([], some err) : ReadResult) :=
        ⟨Option.some_ne_none err, fun hsome => heof err herr (Option.some.inj hsome)⟩
      rw [if_pos hdata, if_pos hfailed]
      exact hreader
    · rw [if_neg hdata, if_neg (hread _)]
      exact hended _ hmoved

/-- `ReadAt` on a reader that has counted so far: its requests are within the file, and
if it returns, it has counted itself. -/
theorem TrackedBy.readAt (h : p.TrackedBy size r) (hsize : size + chunkSize16MB < 2 ^ 63)
    (fuel n off : Nat) :
    (r.readAt fuel n off).Always (Eff.RangeWithin size) fun out => ∀ res r', out = some (res, r') →
      (p.next false false size (.readAt off res)).TrackedBy size r' := by
  unfold ChunkReader.readAt
  rw [h.size]
  split
  · next hend =>
    refine Prog.always_pure fun res r' hout => ?_
    cases hout
    show (if _ then p else _ : Pattern).TrackedBy size r
    rw [if_pos ⟨hend, rfl⟩]
    exact h
  · next hlt =>
    have htrack := h.track off
    have hchunk : 1 ≤ (r.track off).chunkSize ∧ (r.track off).chunkSize ≤ chunkSize16MB := by
      rw [htrack.chunkSize]
      exact prefetchSize_bounds _
    have hloop := ChunkReader.always_readLoop n hchunk (by rw [htrack.size]; exact hsize)
      (Int.natCast_nonneg off) fuel []
    rw [htrack.size] at hloop
    refine Prog.always_bind hloop fun last hend => Prog.always_pure fun res r' hout => ?_
    obtain ⟨e, rfl, hfin⟩ := Option.map_eq_some_iff.mp hout
    obtain ⟨hsame, hmoved, heof⟩ := hend e rfl
    have hdone := htrack.finish hsame (by simpa using hmoved) heof
    rw [hfin] at hdone
    show (if _ then p else p.read off res : Pattern).TrackedBy size r'
    rw [if_neg fun hcond => hlt hcond.1]
    exact hdone

theorem TrackedBy.seekTo (h : p.TrackedBy size r) (offset : Nat) :
    (p.next false false size (.seekTo offset)).TrackedBy size (r.seekTo offset).2 := by
  obtain ⟨bufLen, -, hseek⟩ := r.seekTo_eq offset
  rw [hseek]
  exact ⟨h.size, rfl, rfl, rfl⟩

end Pattern

/-! ## Runs -/

namespace ReaderRun

variable {σ : Type} {h : Handler Eff σ} {size : Int} {p : Pattern} {s : ReaderRun σ}

/-- One call: its requests are within the file, and the reader has counted it if it
returns. -/
theorem step_spec (hsize : size + chunkSize16MB < 2 ^ 63) (hs : p.TrackedBy size s.reader)
    (op : ReaderOp) :
    s.AsksWithin size op ∧
      ((s.returns h op).elim p (p.next false false size)).TrackedBy size (s.step h op).reader := by
  constructor
  · cases op with
    | readAt fuel n off => exact (hs.readAt hsize fuel n off).only
    | seekTo offset => trivial
  · unfold returns step
    cases s.hung with
    | true => exact hs
    | false =>
      rw [if_neg Bool.false_ne_true, if_neg Bool.false_ne_true]
      cases op with
      | seekTo offset => exact hs.seekTo offset
      | readAt fuel n off =>
        have hread := (hs.readAt hsize fuel n off).run h s.services
        dsimp only
        generalize (s.reader.readAt fuel n off).run h s.services = out at hread ⊢
        obtain ⟨_ | ⟨res, r⟩, services⟩ := out
        · exact hs
        · exact hread res r rfl

/-- A whole run. -/
theorem run_spec (hsize : size + chunkSize16MB < 2 ^ 63) (hs : p.TrackedBy size s.reader)
    (ops : List ReaderOp) :
    EachStep (step h) (AsksWithin size) s ops ∧
      ((s.calls h ops).foldl (Pattern.next false false size) p).TrackedBy size
        (ops.foldl (step h) s).reader := by
  induction ops generalizing s p with
  | nil => exact ⟨trivial, hs⟩
  | cons op ops ih =>
    obtain ⟨hasks, hstep⟩ := step_spec (h := h) hsize hs op
    obtain ⟨hrest, hlast⟩ := ih hstep
    refine ⟨⟨hasks, hrest⟩, ?_⟩
    unfold calls at hlast ⊢
    rw [outputs, List.foldl_cons]
    cases hret : s.returns h op with
    | none =>
      rw [hret] at hlast
      exact hlast
    | some call =>
      rw [hret] at hlast
      exact hlast

end ReaderRun

/-- On services that answer anything, along every run of `ReadAt` and `SeekTo` with
offsets that are not negative, on a file whose size leaves room for the largest chunk:
every ranged request lies within the file and asks for 1 byte to 16 MB, and after every
call that has returned the chunk size is 1 MB, 4 MB or 16 MB according to the number of
consecutive sequential reads since the last other read or `SeekTo`. Here `SeekTo` forgets
the end of the last read, and reads at or behind the end of the file do not count. -/
theorem prefetch_follows_pattern {σ : Type} (h : Handler Eff σ) (key etag : GoString) {size : Int}
    (hsize : size + chunkSize16MB < 2 ^ 63) (services : σ) (ops : List ReaderOp) :
    let start := ReaderRun.start key size etag services
    EachStep (ReaderRun.step h) (ReaderRun.AsksWithin size) start ops ∧
      ((ops.foldl (ReaderRun.step h) start).hung = false →
        (ops.foldl (ReaderRun.step h) start).reader.chunkSize = prefetchSize
          (((start.calls h ops).foldl (Pattern.next false false size) .start).count)) := by
  obtain ⟨hasks, hlast⟩ := ReaderRun.run_spec (h := h) hsize
    (s := .start key size etag services) (Pattern.trackedBy_start key size etag) ops
  exact ⟨hasks, fun _ => hlast.chunkSize⟩

/-- Reads of one byte each. -/
def readBytes (offs : List Nat) : List ReaderOp := offs.map fun off => .readAt 3 1 off

/-- A reader on a file of ten bytes. -/
def tenByteReader : ReaderRun World :=
  .start (gs "f") 10 [] (World.start (.onlyF (List.replicate 10 0) []))

/-- After five reads in a row, four of them sequential, the chunk size is 4 MB. -/
theorem prefetch_five_reads :
    (10 : Int) + chunkSize16MB < 2 ^ 63 ∧
      ((readBytes [0, 1, 2, 3, 4]).foldl (ReaderRun.step World.handle) tenByteReader).reader.chunkSize
        = chunkSize4MB := by
  have hsize : (10 : Int) + chunkSize16MB < 2 ^ 63 := by decide
  have h := prefetch_follows_pattern World.handle (gs "f") [] hsize
    (World.start (.onlyF (List.replicate 10 0) [])) (readBytes [0, 1, 2, 3, 4])
  exact ⟨hsize, (h.2 (by decide)).trans (by decide)⟩

/-- A `SeekTo` to where the last read ended, then four reads in a row: were the first of
them sequential, the chunk size would have to be 4 MB. A read at the end of the file among
sequential ones: did it count, the chunk size would have to be 1 MB. -/
theorem prefetch_not_as_counted :
    let sought := readBytes [0] ++ .seekTo 1 :: readBytes [1, 2, 3, 4]
    let ended := readBytes [0, 1, 2, 3, 10, 4]
    let chunkSize := fun ops =>
      (ops.foldl (ReaderRun.step World.handle) tenByteReader).reader.chunkSize
    let count := fun keepEnd countEnd ops =>
      ((tenByteReader.calls World.handle ops).foldl (Pattern.next keepEnd countEnd 10) .start).count
    (∀ countEnd, count true countEnd sought = 4 ∧ chunkSize sought = chunkSize1MB) ∧
      ∀ keepEnd, count keepEnd true ended = 0 ∧ chunkSize ended = chunkSize4MB := by
  decide

end S3Gateway
