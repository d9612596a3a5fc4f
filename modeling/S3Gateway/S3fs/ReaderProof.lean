import S3Gateway.Lib.Run
import S3Gateway.Lib.Slice
import S3Gateway.S3fs.Rules

/-!
# What the chunk reader returns

The invariant of the reader is about its window: the first `bufLen` bytes of the
buffer are the object's bytes from `bufStart` on (`Window`). This module says what
one fetch does to it (`receive`), and derives from that, once, what the loop of
`ReadAt` and a whole `Read` return.

The rule for the loop (`triple_readLoop_rule`) leaves open what fetches are like. Its
user chooses an assertion `B off` that holds between fetches, at offset `off`, and an
assertion `K` for the state a failed fetch leaves behind, and shows that a fetch
maintains them. The three statements about reads (short answers, broken bodies, the
data cache) are instances.
-/

namespace S3Gateway

open Lib

/-- Bytes of a fetch come from the front of the body. -/
theorem readFull_isPrefix (body : Body) (n : Nat) : (readFull body n).1 <+: body.data := by
  unfold readFull
  split
  · exact List.take_prefix _ _
  · split <;> exact List.prefix_refl _

theorem chunkSize1MB_bounds : chunkSize1MB ≤ chunkSize1MB ∧ chunkSize1MB ≤ chunkSize16MB := by
  decide

theorem chunkSize4MB_bounds : chunkSize1MB ≤ chunkSize4MB ∧ chunkSize4MB ≤ chunkSize16MB := by
  decide

theorem chunkSize16MB_bounds : chunkSize1MB ≤ chunkSize16MB ∧ chunkSize16MB ≤ chunkSize16MB := by
  decide

namespace ChunkReader

/-- The reader is on the object `key` with contents `c`. -/
structure On (key : GoString) (c : Bytes) (r : ChunkReader) : Prop where
  s3Key : r.s3Key = key
  size : r.size = c.length
  chunkSize : chunkSize1MB ≤ r.chunkSize ∧ r.chunkSize ≤ chunkSize16MB

/-- The window shows the object's bytes. -/
def Window (c : Bytes) (r : ChunkReader) : Prop :=
  0 < r.bufLen → 0 ≤ r.bufStart ∧ r.bufStart.toNat + r.bufLen ≤ c.length ∧
    r.buf.take r.bufLen = slice c r.bufStart.toNat r.bufLen

variable {key : GoString} {c : Bytes} {r : ChunkReader} {off : Int}

theorem window_of_bufLen_eq_zero (h : r.bufLen = 0) : r.Window c := by
  intro h'
  omega

theorem inBuffer_iff :
    r.inBuffer off = true ↔
      0 < r.bufLen ∧ r.bufStart ≤ off ∧ off < r.bufStart + r.bufLen := by
  simp [inBuffer, and_assoc]

/-- What is copied out of a good window at `off` are the object's bytes there, at
least one if there is room. -/
theorem Window.copyOut (h : r.Window c) (hin : r.inBuffer off = true) (room : Nat) :
    r.copyOut off room = slice c off.toNat (r.copyOut off room).length ∧
      (r.copyOut off room).length ≤ room ∧ (0 < room → 0 < (r.copyOut off room).length) ∧
      off.toNat + (r.copyOut off room).length ≤ c.length := by
  obtain ⟨hpos, hlo, hhi⟩ := inBuffer_iff.mp hin
  obtain ⟨hstart, hfit, hbuf⟩ := h hpos
  have heq : r.copyOut off room =
      slice c off.toNat (min room (r.bufLen - (off - r.bufStart).toNat)) := by
    rw [ChunkReader.copyOut, hbuf, slice_drop_take]
    congr 1
    omega
  have hpre : r.copyOut off room <+:
      slice c off.toNat (min room (r.bufLen - (off - r.bufStart).toNat)) := by
    rw [heq]
  refine ⟨eq_slice_of_isPrefix hpre, ?_, fun hroom => ?_, ?_⟩
  all_goals
    rw [heq, length_slice]
    omega

/-! ## One fetch -/

/-- A fetch of a positive length is due at every position of the object. -/
theorem On.fetchLength_pos (h : r.On key c) (hlt : off < c.length) : 0 < r.fetchLength off := by
  have hpos : 0 < r.chunkSize := lt_of_lt_of_le (by decide) h.chunkSize.1
  have := h.size
  unfold fetchLength
  split <;> omega

/-- The chunk sizes are larger than small files, which are fetched to their end. -/
theorem On.fetchLength_small (h : r.On key c) (hsmall : r.size ≤ smallFileLimit) (hoff : 0 ≤ off)
    (hlt : off < c.length) : r.fetchLength off = r.size - off := by
  have hlo : 1048576 ≤ r.chunkSize := h.chunkSize.1
  have hhi : r.chunkSize ≤ 16777216 := h.chunkSize.2
  have hlimit : r.size ≤ 131072 := hsmall
  have hsize := h.size
  unfold fetchLength
  rw [wrap64_eq (by omega) (by omega)]
  split <;> omega

/-- What `fetchChunk` makes of the answer to its ranged request. -/
def receive (r : ChunkReader) (off length : Int) :
    Except GoError Body → Except GoError Unit × ChunkReader
  | .error err => (.error (.wrap (gs "fetch chunk at " ++ itoa off) err), r)
  | .ok body =>
    let (got, err) := readFull body length.toNat
    match err with
    | none | some .unexpectedEOF | some .eof =>
      (.ok (), (r.readInto length got).setWindow off got.length)
    | some err => (.error (.wrap (gs "read chunk") err), r.readInto length got)

/-- Whatever the answer, the reader stays on its object. -/
theorem On.receive (h : r.On key c) (off length : Int) (reply : Except GoError Body) :
    (r.receive off length reply).2.On key c := by
  unfold ChunkReader.receive
  cases reply with
  | error err => exact h
  | ok body =>
    dsimp only
    split <;> exact ⟨h.s3Key, h.size, h.chunkSize⟩

/-- A fetch that succeeds leaves a good window, if what S3 sent is a prefix of the
range. -/
theorem window_receive {length : Int} {reply : Except GoError Body} (hoff : 0 ≤ off)
    (hpre : ∀ body, reply = .ok body → body.data <+: slice c off.toNat length.toNat)
    (hok : (r.receive off length reply).1 = .ok ()) : (r.receive off length reply).2.Window c := by
  cases reply with
  | error err => cases hok
  | ok body =>
    have hgot : (readFull body length.toNat).1 <+: slice c off.toNat length.toNat :=
      (readFull_isPrefix body _).trans (hpre body rfl)
    unfold ChunkReader.receive at hok ⊢
    dsimp only at hok ⊢
    have hwin : ((r.readInto length (readFull body length.toNat).1).setWindow off
        (readFull body length.toNat).1.length).Window c := by
      intro hpos
      refine ⟨hoff, ?_, ?_⟩
      · have hlen := hgot.length_le
        rw [length_slice] at hlen
        dsimp only [setWindow] at hpos ⊢
        omega
      · dsimp only [setWindow, readInto]
        rw [List.take_left]
        exact eq_slice_of_isPrefix hgot
    split at hok
    · exact hwin
    · exact hwin
    · exact hwin
    · cases hok

/-- Tracking touches no more than the bookkeeping of sequential access. -/
theorem track_eq (r : ChunkReader) (off : Int) :
    ∃ seqCount chunkSize, r.track off = { r with seqCount, chunkSize } := by
  unfold track adaptChunkSize
  split
  · split
    · exact ⟨_, _, rfl⟩
    · split <;> exact ⟨_, _, rfl⟩
  · exact ⟨_, _, rfl⟩

theorem On.track (h : r.On key c) (off : Int) :
    (r.track off).On key c := by
  unfold ChunkReader.track adaptChunkSize
  split
  · split
    · exact ⟨h.s3Key, h.size, chunkSize16MB_bounds⟩
    · split
      · exact ⟨h.s3Key, h.size, chunkSize4MB_bounds⟩
      · exact ⟨h.s3Key, h.size, h.chunkSize⟩
  · exact ⟨h.s3Key, h.size, chunkSize1MB_bounds⟩

theorem Window.track (h : r.Window c) (off : Int) :
    (r.track off).Window c := by
  obtain ⟨_, _, htrack⟩ := r.track_eq off
  rw [htrack]
  exact h

/-- Seeking keeps the window or drops it, and forgets about sequential access. -/
theorem seekTo_eq (r : ChunkReader) (t : Nat) :
    ∃ bufLen, (bufLen = 0 ∨ bufLen = r.bufLen) ∧
      (r.seekTo t).2 = { r with
        offset := t, bufLen, seqCount := 0, chunkSize := chunkSize1MB, lastEnd := -1 } := by
  unfold seekTo
  rw [if_neg (by omega)]
  dsimp only
  split
  · exact ⟨0, Or.inl rfl, rfl⟩
  · exact ⟨r.bufLen, Or.inr rfl, rfl⟩

/-- The bytes `fetchChunk` hands to the data cache. -/
def putBytes (r : ChunkReader) (length : Int) : Except GoError Body → Option Bytes
  | .error _ => none
  | .ok body =>
    match (readFull body length.toNat).2 with
    | none | some .unexpectedEOF | some .eof =>
      if r.etag ≠ [] ∧ r.size ≤ smallFileLimit then some (readFull body length.toNat).1 else none
    | some _ => none

/-- Only small files are put, with what was read of the body. -/
theorem putBytes_ok {body : Body} {length : Int} {got : Bytes}
    (h : r.putBytes length (.ok body) = some got) :
    (r.etag ≠ [] ∧ r.size ≤ smallFileLimit) ∧ got = (readFull body length.toNat).1 := by
  have hput : ∀ {x : Bytes}, (if r.etag ≠ [] ∧ r.size ≤ smallFileLimit then some x else none) =
      some got → (r.etag ≠ [] ∧ r.size ≤ smallFileLimit) ∧ got = x := by
    intro x hx
    split at hx
    · next hsmall => exact ⟨hsmall, (Option.some.inj hx).symm⟩
    · cases hx
  unfold putBytes at h
  dsimp only at h
  split at h
  · exact hput h
  · exact hput h
  · exact hput h
  · cases h

/-- A fetch from S3 is one ranged request, and one `Put` for a small file. -/
theorem fetchFromS3_eq (r : ChunkReader) (off length : Int) :
    r.fetchFromS3 off length = (Prog.call (.getObjectRange r.s3Key off length) >>= fun reply =>
      match r.putBytes length reply with
      | none => pure (r.receive off length reply)
      | some got => Prog.call (.dataPut r.s3Key r.etag got) >>= fun _ =>
          pure (r.receive off length reply)) := by
  unfold fetchFromS3
  congr 1
  funext reply
  cases reply with
  | error err => rfl
  | ok body =>
    dsimp only [putBytes, ChunkReader.receive, setWindow, readInto]
    generalize readFull body length.toNat = res
    obtain ⟨got, err⟩ := res
    by_cases hsmall : r.etag ≠ [] ∧ r.size ≤ smallFileLimit
    · simp only [if_pos hsmall]
      rcases err with _ | err
      · rfl
      · cases err <;> rfl
    · simp only [if_neg hsmall]
      rcases err with _ | err
      · rfl
      · cases err <;> rfl

/-! ## The loop of `ReadAt` -/

/-- What the loop has read, for a slice of `n` bytes at `start`. -/
structure Progress (c : Bytes) (n : Nat) (start off : Int) (data : Bytes) : Prop where
  nonneg : 0 ≤ start
  reached : off = start + data.length
  bytes : data = slice c start.toNat data.length
  fits : start.toNat + data.length ≤ c.length
  room : data.length ≤ n

theorem Progress.append {n : Nat} {start : Int} {data chunk : Bytes}
    (h : Progress c n start off data) (hchunk : chunk = slice c off.toNat chunk.length)
    (hroom : chunk.length ≤ n - data.length) (hfits : off.toNat + chunk.length ≤ c.length) :
    Progress c n start (off + chunk.length) (data ++ chunk) := by
  have hoff : off.toNat = start.toNat + data.length := by
    have := h.nonneg
    have := h.reached
    omega
  have hlen : (data ++ chunk).length = data.length + chunk.length := List.length_append
  refine ⟨h.nonneg, ?_, ?_, ?_, ?_⟩
  · rw [h.reached, hlen]
    push_cast
    omega
  · rw [hlen, ← slice_append, ← h.bytes, ← hoff, ← hchunk]
  · omega
  · have := h.room
    omega

section Loop

variable {B : Int → ChunkReader → World → Prop} {K : GoError → ChunkReader → World → Prop}
  {advances : Prop}

/-- The loop of `ReadAt`. `B off` holds before each round at `off` and `K` after a failed
fetch; a fetch that succeeds leaves a good window. The loop reads the object's bytes;
when it ends without an error it has read as many as were asked for, or all there are.
If fetches always advance, twice as many rounds as bytes are enough. -/
theorem triple_readLoop_rule (hon : ∀ off r w, B off r w → r.On key c)
    (hcopy : ∀ off r w room, B off r w → r.inBuffer off = true →
      B (off + (r.copyOut off room).length) r w)
    (hfetch : ∀ (off : Int) r, 0 ≤ off → off < c.length → r.inBuffer off = false →
      Prog.Triple World.handle (B off r) (r.fetchChunk off) fun res w =>
        match res.1 with
        | .ok _ => B off res.2 w ∧ res.2.Window c ∧ (advances → res.2.inBuffer off = true)
        | .error err => K err res.2 w)
    (n fuel : Nat) (r : ChunkReader) (start off : Int) (data : Bytes)
    (hp : Progress c n start off data) :
    Prog.Triple World.handle (fun w => B off r w ∧ (r.inBuffer off = true → r.Window c))
      (readLoop n fuel r off data) fun res w =>
        (∀ e, res = some e → Progress c n start e.off e.data ∧
          match e.err with
          | none => B e.off e.reader w ∧ (e.data.length = n ∨ c.length ≤ e.off)
          | some err => K err e.reader w ∧ e.data.length < n ∧ e.off < c.length) ∧
        (advances → 2 * (n - data.length) < fuel ∨
          r.inBuffer off = true ∧ data.length < n ∧ 2 * (n - data.length) ≤ fuel →
            res.isSome = true) := by
  induction fuel generalizing r off data with
  | zero =>
    refine Prog.triple_pure fun w _ => ⟨fun e he => ?_, fun _ hfuel => ?_⟩
    · cases he
    · omega
  | succ fuel ih =>
    rintro w ⟨hB, hwin⟩
    have hsize := (hon off r w hB).size
    have hoff : 0 ≤ off := by
      have := hp.nonneg
      have := hp.reached
      omega
    unfold readLoop
    split
    · next hmore =>
      split
      · -- the bytes are in the buffer
        next hin =>
        have hgood := hwin hin
        obtain ⟨hchunk, hroom, hpos, hfits⟩ := hgood.copyOut hin (n - data.length)
        obtain ⟨hend, hfuel⟩ := ih r (off + (r.copyOut off (n - data.length)).length)
          (data ++ r.copyOut off (n - data.length)) (hp.append hchunk hroom hfits) w
          ⟨hcopy off r w _ hB hin, fun _ => hgood⟩
        refine ⟨hend, fun hadv hbound => hfuel hadv (Or.inl ?_)⟩
        have := hpos (by omega)
        rw [List.length_append]
        omega
      · -- a chunk has to be fetched, and the loop goes on or fails
        next hin =>
        have hpost := hfetch off r hoff (by omega) (Bool.eq_false_iff.mpr hin) w hB
        rw [Prog.run_bind]
        rcases hres : (r.fetchChunk off).run World.handle w with ⟨⟨_ | _, r'⟩, w'⟩
        · rw [hres] at hpost
          refine ⟨fun e he => ?_, fun _ _ => rfl⟩
          cases he
          exact ⟨hp, hpost, hmore.1, by rw [← hsize]; exact hmore.2⟩
        · rw [hres] at hpost
          obtain ⟨hB', hwin', hadv⟩ := hpost
          obtain ⟨hend, hfuel⟩ := ih r' off data hp w' ⟨hB', fun _ => hwin'⟩
          refine ⟨hend, fun hadvances hbound => hfuel hadvances (Or.inr ⟨hadv hadvances, hmore.1, ?_⟩)⟩
          rcases hbound with hbound | ⟨hin', -⟩
          · omega
          · exact absurd hin' hin
    · next hmore =>
      refine ⟨fun e he => ?_, fun _ _ => rfl⟩
      cases he
      refine ⟨hp, hB, ?_⟩
      rcases Nat.lt_or_ge data.length n with hlt | hge
      · exact Or.inr (by rw [← hsize]; exact Int.not_lt.mp fun h => hmore ⟨hlt, h⟩)
      · exact Or.inl (Nat.le_antisymm hp.room hge)

/-! ## `ReadAt` -/

/-- What a read of `n` bytes at `off` returns when nothing fails. A read of no bytes
counts as being at the end. -/
def wholeRead (c : Bytes) (n : Nat) (off : Int) : ReadResult :=
  if 0 < n ∧ off < c.length then
    (slice c off.toNat n, if (c.length : Int) ≤ off + n then some .eof else none)
  else ([], some .eof)

theorem wholeRead_bytes (c : Bytes) (n : Nat) (off : Int) :
    (wholeRead c n off).1 = slice c off.toNat (wholeRead c n off).1.length := by
  unfold wholeRead
  split
  · exact eq_slice_of_isPrefix (List.prefix_refl _)
  · rfl

/-- Nothing and `io.EOF` is returned exactly at or behind the end. -/
theorem wholeRead_eq_eof {n : Nat} (hn : 0 < n) (hoff : 0 ≤ off) :
    wholeRead c n off = ([], some .eof) ↔ (c.length : Int) ≤ off := by
  unfold wholeRead
  split
  · next hlt =>
    have hne : slice c off.toNat n ≠ [] := by
      rw [← List.length_pos_iff, length_slice]
      omega
    simp only [Prod.mk.injEq, hne, false_and, false_iff]
    omega
  · next hlt =>
    simp only [true_iff]
    exact Int.not_lt.mp fun h => hlt ⟨hn, h⟩

/-- What `ReadAt` returns, and the reader it leaves behind: the object's bytes,
all that were asked for unless a fetch failed, and that fetch's error if there are
no bytes. -/
structure ReadSpec (B : Int → ChunkReader → World → Prop) (K : GoError → ChunkReader → World → Prop)
    (c : Bytes) (n : Nat) (off : Int) (x : ReadResult) (r : ChunkReader) (w : World) : Prop where
  bytes : x.1 = slice c off.toNat x.1.length
  room : x.1.length ≤ n
  outcome : (∃ off', B off' r w) ∧ x = wholeRead c n off ∨
    ∃ err, K err r w ∧ off + x.1.length < c.length ∧ x.2 = if x.1 = [] then some err else none

theorem finish_none {e : LoopEnd} (h : e.err = none) :
    finish e = (if e.data = [] then ([], some .eof)
      else (e.data, if e.off ≥ e.reader.size then some .eof else none),
        { e.reader with lastEnd := e.off }) := by
  unfold finish
  rw [h]
  dsimp only
  split <;> rfl

theorem finish_some {e : LoopEnd} {err : GoError} (h : e.err = some err) :
    finish e = if e.data = [] then (([], some err), e.reader)
      else ((e.data, if e.off ≥ e.reader.size then some .eof else none),
        { e.reader with lastEnd := e.off }) := by
  unfold finish
  rw [h]
  cases e.data with
  | nil => rfl
  | cons b data => rfl

/-- The results of the loop, as `ReadAt` returns them. -/
theorem readSpec_finish (hon : ∀ off r w, B off r w → r.On key c)
    (hon' : ∀ err r w, K err r w → r.On key c)
    (hend : ∀ off r w lastEnd, B off r w → B off { r with lastEnd } w)
    (hend' : ∀ err r w lastEnd, K err r w → K err { r with lastEnd } w)
    {n : Nat} {off : Int} (hlt : off < c.length) {e : LoopEnd} {w : World}
    (hp : Progress c n off e.off e.data)
    (h : match e.err with
      | none => B e.off e.reader w ∧ (e.data.length = n ∨ c.length ≤ e.off)
      | some err => K err e.reader w ∧ e.data.length < n ∧ e.off < c.length) :
    ReadSpec B K c n off (finish e).1 (finish e).2 w := by
  have hreached := hp.reached
  have hroom := hp.room
  cases herr : e.err with
  | none =>
    rw [herr] at h
    obtain ⟨hB, hdone⟩ := h
    have hsize := (hon _ _ _ hB).size
    rw [finish_none herr]
    by_cases hdata : e.data = []
    · rw [if_pos hdata]
      refine ⟨rfl, Nat.zero_le _, Or.inl ⟨⟨_, hend _ _ _ _ hB⟩, ?_⟩⟩
      rw [hdata, List.length_nil] at hdone hreached
      rw [wholeRead, if_neg (by omega)]
    · rw [if_neg hdata]
      refine ⟨hp.bytes, hroom, Or.inl ⟨⟨_, hend _ _ _ _ hB⟩, ?_⟩⟩
      have hinside : 0 < n ∧ off < c.length :=
        ⟨Nat.lt_of_lt_of_le (List.length_pos_iff.mpr hdata) hroom, hlt⟩
      have hslice : e.data = slice c off.toNat n := by
        rw [hp.bytes]
        rcases hdone with hdone | hdone
        · rw [hdone]
        · exact slice_eq_of_le (by have := hp.nonneg; omega) hroom
      have heof : (e.off ≥ e.reader.size) ↔ (c.length : Int) ≤ off + n := by
        rw [hsize]
        omega
      rw [wholeRead, if_pos hinside, ← hslice]
      simp only [heof]
  | some err =>
    rw [herr] at h
    obtain ⟨hK, -, hbefore⟩ := h
    rw [finish_some herr]
    by_cases hdata : e.data = []
    · rw [if_pos hdata]
      refine ⟨rfl, Nat.zero_le _, Or.inr ⟨err, hK, ?_, rfl⟩⟩
      simpa using hlt
    · rw [if_neg hdata, (hon' _ _ _ hK).size, if_neg (by omega)]
      exact ⟨hp.bytes, hroom, Or.inr ⟨err, hend' _ _ _ _ hK, by rw [← hreached]; exact hbefore,
        (if_neg hdata).symm⟩⟩

/-- `ReadAt`, for assertions that do not depend on the reader's bookkeeping of
sequential access. -/
theorem triple_readAt_rule (hon : ∀ off r w, B off r w → r.On key c)
    (hon' : ∀ err r w, K err r w → r.On key c)
    (hcopy : ∀ off r w room, B off r w → r.inBuffer off = true →
      B (off + (r.copyOut off room).length) r w)
    (hfetch : ∀ (off : Int) r, 0 ≤ off → off < c.length → r.inBuffer off = false →
      Prog.Triple World.handle (B off r) (r.fetchChunk off) fun res w =>
        match res.1 with
        | .ok _ => B off res.2 w ∧ res.2.Window c ∧ (advances → res.2.inBuffer off = true)
        | .error err => K err res.2 w)
    (htrack : ∀ off r w, B off r w → B off (r.track off) w)
    (hend : ∀ off r w lastEnd, B off r w → B off { r with lastEnd } w)
    (hend' : ∀ err r w lastEnd, K err r w → K err { r with lastEnd } w)
    (n fuel : Nat) (r : ChunkReader) (off : Int) (hoff : 0 ≤ off) :
    Prog.Triple World.handle (fun w => B off r w ∧ (r.inBuffer off = true → r.Window c))
      (readAt fuel r n off) fun res w =>
        (∀ x r', res = some (x, r') → ReadSpec B K c n off x r' w) ∧
        (advances → 2 * n < fuel → res.isSome = true) := by
  rintro w ⟨hB, hwin⟩
  have hsize := (hon off r w hB).size
  unfold readAt
  split
  · next hge =>
    refine ⟨fun x r' hx => ?_, fun _ _ => rfl⟩
    cases hx
    refine ⟨rfl, Nat.zero_le _, Or.inl ⟨⟨off, hB⟩, ?_⟩⟩
    rw [wholeRead, if_neg (by omega)]
  · next hlt =>
    have hstart : Progress c n off off [] :=
      ⟨hoff, (Int.add_zero _).symm, rfl, by simp only [List.length_nil]; omega, Nat.zero_le _⟩
    have htracked : (r.track off).inBuffer off = r.inBuffer off ∧
        ((r.track off).Window c ↔ r.Window c) := by
      obtain ⟨_, _, htrack⟩ := r.track_eq off
      rw [htrack]
      exact ⟨rfl, Iff.rfl⟩
    obtain ⟨hloop, hfuel⟩ := triple_readLoop_rule hon hcopy hfetch n fuel (r.track off) off off []
      hstart w ⟨htrack off r w hB, fun h => htracked.2.mpr (hwin (htracked.1 ▸ h))⟩
    rw [Prog.run_bind]
    rcases hres : (readLoop n fuel (r.track off) off []).run World.handle w with ⟨res, w'⟩
    rw [hres] at hloop hfuel
    refine ⟨fun x r' hx => ?_, fun hadv hbound => ?_⟩
    · obtain ⟨e, rfl, he⟩ := Option.map_eq_some_iff.mp hx
      obtain ⟨hp, hspec⟩ := hloop e rfl
      have hfin := readSpec_finish hon hon' hend hend' (by omega) hp hspec
      rwa [he] at hfin
    · simpa using hfuel hadv (Or.inl (by simpa using hbound))

end Loop

end ChunkReader

/-! ## Files -/

/-- The services and one read-only file. -/
structure ReadSession where
  world : World
  file : S3File

/-- A call on a read-only file. -/
inductive ReadOp where
  /-- `Read` into a slice of `n` bytes, followed for at most `fuel` iterations. -/
  | read (fuel n : Nat)
  | seek (offset : Int64) (whence : Int)

/-- What the call returns; a `Read` that is still running has not returned. -/
inductive ReadReply where
  | read (r : Option ReadResult)
  | seek (r : Except GoError Int)
deriving DecidableEq

namespace ReadSession

/-- What the next call returns. -/
def reply (s : ReadSession) : ReadOp → ReadReply
  | .read fuel n => .read (((s.file.read fuel n).run World.handle s.world).1.map Prod.fst)
  | .seek offset whence => .seek (s.file.seek offset whence).1

/-- The session after the next call. -/
def step (s : ReadSession) : ReadOp → ReadSession
  | .read fuel n =>
    match (s.file.read fuel n).run World.handle s.world with
    | (none, w) => { s with world := w }
    | (some (_, f), w) => ⟨w, f⟩
  | .seek offset whence => { s with file := (s.file.seek offset whence).2 }

end ReadSession

namespace S3File

/-- An open file on the object `key` with contents `c`. -/
structure On (key : GoString) (c : Bytes) (f : S3File) : Prop where
  opened : f.closed = false
  file : f.isDir = false
  offset : 0 ≤ f.offset ∧ f.offset < offsetLimit
  size : f.info.size = c.length
  reader : f.reader.On key c

/-- What `OpenFile` returns for an object. -/
theorem on_of_fresh {f : S3File} {c : Bytes} (hc : f.closed = false) (hd : f.isDir = false)
    (ho : f.offset = 0) (hsize : f.info.size = c.length) (hr : f.chunked = none) :
    f.On f.s3Key c ∧ f.reader.Window c := by
  have hreader : f.reader = newChunkReader f.s3Key f.info.size f.etag := by
    rw [S3File.reader, hr]
    rfl
  refine ⟨⟨hc, hd, by rw [ho]; decide, hsize, ?_⟩, ?_⟩
  · rw [hreader]
    exact ⟨rfl, hsize, chunkSize1MB_bounds⟩
  · rw [hreader]
    exact ChunkReader.window_of_bufLen_eq_zero rfl

/-- `Read` is `ReadAt` at the cursor, which it advances. -/
theorem run_read {key : GoString} {c : Bytes} {f : S3File} (h : f.On key c) (fuel n : Nat)
    (w : World) :
    (f.read fuel n).run World.handle w =
      match (f.reader.readAt fuel n f.offset).run World.handle w with
      | (none, w) => (none, w)
      | (some (res, r), w) =>
        (some (res, { f with chunked := some r, offset := f.offset + res.1.length }), w) := by
  unfold read
  rw [if_neg (by simp [h.opened]), if_neg (by simp [h.file]), Prog.run_bind]
  rcases (f.reader.readAt fuel n f.offset).run World.handle w with ⟨_ | ⟨res, r⟩, w'⟩ <;> rfl

/-- The sum of two offsets, if it is not negative after wrapping around. -/
theorem wrap64_add {a b : Int} (ha : 0 ≤ a ∧ a < 2 ^ 63) (hb : -2 ^ 63 ≤ b ∧ b < 2 ^ 63) :
    if 0 ≤ a + b ∧ a + b < 2 ^ 63 then wrap64 (a + b) = a + b else wrap64 (a + b) < 0 := by
  rw [wrap64, Int.bmod_def]
  split <;> omega

/-- The target `Seek` computes, which is negative if the sum does not fit. -/
theorem seekTarget_eq {key : GoString} {c : Bytes} {f : S3File} (h : f.On key c)
    (hlen : (c.length : Int) < offsetLimit) (offset : Int64) (whence : Int) :
    seekTarget c.length f.offset.toNat offset.toInt whence =
      match f.seekOffset offset whence with
      | .ok i => if 0 ≤ i then some i.toNat else none
      | .error _ => none := by
  have hoffset : -2 ^ 63 ≤ offset.toInt ∧ offset.toInt < 2 ^ 63 :=
    ⟨offset.le_toInt, offset.toInt_lt⟩
  have hsum : ∀ base : Int, 0 ≤ base ∧ base < 2 ^ 63 →
      (if 0 ≤ base + offset.toInt ∧ base + offset.toInt < 2 ^ 63 then
        some (base + offset.toInt).toNat else none) =
      if 0 ≤ wrap64 (base + offset.toInt) then some (wrap64 (base + offset.toInt)).toNat
        else none := by
    intro base hbase
    have hwrap := wrap64_add hbase hoffset
    split at hwrap
    · next hfits => rw [hwrap, if_pos hfits, if_pos hfits.1]
    · next hfits => rw [if_neg hfits, if_neg (by omega)]
  have hpos : ((f.offset.toNat : Nat) : Int) = f.offset := Int.toNat_of_nonneg h.offset.1
  unfold seekTarget seekOffset offsetLimit
  rw [hpos, h.size]
  by_cases h0 : whence = 0
  · subst h0
    have hfits : offset.toInt < 9223372036854775808 := hoffset.2
    simp [hfits]
  · by_cases h1 : whence = 1
    · subst h1
      simpa using hsum f.offset h.offset
    · by_cases h2 : whence = 2
      · subst h2
        simpa using hsum c.length ⟨by omega, hlen⟩
      · simp [h0, h1, h2]

/-- `Seek` goes where `lseek` would on a file of that size, and is refused where it
would be. The reader is told, unless the position stays the same. -/
theorem seek_spec {key : GoString} {c : Bytes} {f : S3File} (h : f.On key c)
    (hlen : (c.length : Int) < offsetLimit) (offset : Int64) (whence : Int) :
    match seekTarget c.length f.offset.toNat offset.toInt whence with
    | none => ∃ err, f.seek offset whence = (.error err, f)
    | some t => ∃ chunked, f.seek offset whence = (.ok t, { f with offset := t, chunked }) ∧
        (chunked = f.chunked ∨ ∃ r, f.chunked = some r ∧ chunked = some (r.seekTo t).2) := by
  rw [seekTarget_eq h hlen]
  unfold seek
  cases f.seekOffset offset whence with
  | error err => exact ⟨err, rfl⟩
  | ok i =>
    dsimp only
    by_cases hi : 0 ≤ i
    · have hnat : ((i.toNat : Nat) : Int) = i := Int.toNat_of_nonneg hi
      rw [if_pos hi, if_neg (Int.not_lt.mpr hi)]
      dsimp only
      rw [hnat]
      split
      · next r hr =>
        split
        · have hseek : r.seekTo i = (.ok (), (r.seekTo i).2) := by
            rw [ChunkReader.seekTo, if_neg (by omega)]
          rw [hseek]
          exact ⟨_, rfl, Or.inr ⟨r, hr, rfl⟩⟩
        · exact ⟨_, rfl, Or.inl rfl⟩
      · exact ⟨_, rfl, Or.inl rfl⟩
    · rw [if_neg hi, if_pos (Int.not_le.mp hi)]
      exact ⟨_, rfl⟩

/-- What `Seek` returns, and where it leaves the cursor. -/
theorem seek_reply (f : S3File) (offset : Int64) (whence : Int) :
    (f.seek offset whence).1 = (f.seekOffset offset whence).bind (fun i =>
      if i < 0 then .error (.text (gs "negative offset")) else .ok i) ∧
    (f.seek offset whence).2.offset = match (f.seek offset whence).1 with
      | .ok i => i
      | .error _ => f.offset := by
  unfold seek
  cases f.seekOffset offset whence with
  | error err => exact ⟨rfl, rfl⟩
  | ok i =>
    dsimp only [Except.bind]
    by_cases hi : i < 0
    · rw [if_pos hi, if_pos hi]
      exact ⟨rfl, rfl⟩
    · rw [if_neg hi, if_neg hi]
      split
      · next r _ =>
        have hseek : r.seekTo i = (.ok (), (r.seekTo i).2) := by rw [ChunkReader.seekTo, if_neg hi]
        rw [hseek]
        split <;> exact ⟨rfl, rfl⟩
      · exact ⟨rfl, rfl⟩

/-- A file after a `Read` that returned bytes of the object. -/
theorem On.advance {key : GoString} {c : Bytes} {f : S3File} (h : f.On key c)
    (hlen : (c.length : Int) < offsetLimit) {r : ChunkReader} (hr : r.On key c) {data : Bytes}
    (hdata : data = slice c f.offset.toNat data.length) :
    ({ f with chunked := some r, offset := f.offset + data.length } : S3File).On key c := by
  have hoff := h.offset
  have hfits : data.length ≤ c.length - f.offset.toNat := by
    have hl := congrArg List.length hdata
    rw [length_slice] at hl
    omega
  refine ⟨h.opened, h.file, ⟨?_, ?_⟩, h.size, hr⟩
  all_goals
    dsimp only
    omega

/-- A file after a `Seek`. -/
theorem On.sought {key : GoString} {c : Bytes} {f : S3File} (h : f.On key c) {t : Nat}
    (ht : (t : Int) < offsetLimit) {chunked : Option ChunkReader}
    (hc : chunked = f.chunked ∨ ∃ r, f.chunked = some r ∧ chunked = some (r.seekTo t).2) :
    ({ f with offset := t, chunked } : S3File).On key c := by
  refine ⟨h.opened, h.file, ⟨Int.natCast_nonneg t, ht⟩, h.size, ?_⟩
  rcases hc with rfl | ⟨r, hr, rfl⟩
  · exact h.reader
  · have hon : r.On key c := by
      have hreader := h.reader
      rwa [S3File.reader, hr] at hreader
    obtain ⟨_, -, hseek⟩ := r.seekTo_eq t
    rw [S3File.reader, Option.getD_some, hseek]
    exact ⟨hon.s3Key, hon.size, chunkSize1MB_bounds⟩

/-- Seeking drops the window or leaves it alone. -/
theorem window_sought {c : Bytes} {f : S3File} (h : f.reader.Window c) {t : Nat}
    {chunked : Option ChunkReader}
    (hc : chunked = f.chunked ∨ ∃ r, f.chunked = some r ∧ chunked = some (r.seekTo t).2) :
    ({ f with offset := t, chunked } : S3File).reader.Window c := by
  rcases hc with rfl | ⟨r, hr, rfl⟩
  · exact h
  · have hwin : r.Window c := by rwa [S3File.reader, hr] at h
    obtain ⟨_, rfl | rfl, hseek⟩ := r.seekTo_eq t
    · rw [S3File.reader, Option.getD_some, hseek]
      exact ChunkReader.window_of_bufLen_eq_zero rfl
    · rw [S3File.reader, Option.getD_some, hseek]
      exact hwin

end S3File

/-- The target of a seek fits. -/
theorem lt_of_seekTarget {size pos : Nat} {offset whence : Int} {t : Nat}
    (h : seekTarget size pos offset whence = some t) : (t : Int) < offsetLimit := by
  unfold seekTarget at h
  obtain ⟨i, -, hi⟩ := Option.bind_eq_some_iff.mp h
  split at hi
  · next hfits =>
    cases hi
    omega
  · cases hi

/-- Where `Seek` leaves a file, refused or not. -/
theorem S3File.On.seek {key : GoString} {c : Bytes} {f : S3File} (h : f.On key c)
    (hlen : (c.length : Int) < offsetLimit) (offset : Int64) (whence : Int) :
    ∃ (t : Nat) (chunked : Option ChunkReader),
      (f.seek offset whence).2 = { f with offset := t, chunked } ∧ (t : Int) < offsetLimit ∧
      (chunked = f.chunked ∨ ∃ r, f.chunked = some r ∧ chunked = some (r.seekTo t).2) := by
  have hseek := S3File.seek_spec h hlen offset whence
  split at hseek
  · obtain ⟨err, hseek⟩ := hseek
    have hoff : ((f.offset.toNat : Nat) : Int) = f.offset := Int.toNat_of_nonneg h.offset.1
    refine ⟨f.offset.toNat, f.chunked, ?_, ?_, Or.inl rfl⟩
    · rw [hseek, hoff]
    · rw [hoff]
      exact h.offset.2
  · next t htarget =>
    obtain ⟨chunked, hseek, hchunked⟩ := hseek
    exact ⟨t, chunked, by rw [hseek], lt_of_seekTarget htarget, hchunked⟩

namespace ReadSession

/-- A `Read` of a session, in terms of `ReadAt`. -/
theorem read_eq {s : ReadSession} {key : GoString} {c : Bytes} (h : s.file.On key c)
    (fuel n : Nat) :
    match (s.file.reader.readAt fuel n s.file.offset).run World.handle s.world with
    | (none, w) => s.reply (.read fuel n) = .read none ∧ s.step (.read fuel n) = { s with world := w }
    | (some (x, r), w) => s.reply (.read fuel n) = .read (some x) ∧
        s.step (.read fuel n) =
          ⟨w, { s.file with chunked := some r, offset := s.file.offset + x.1.length }⟩ := by
  have hrun := S3File.run_read h fuel n s.world
  rcases hres : (s.file.reader.readAt fuel n s.file.offset).run World.handle s.world with
    ⟨_ | ⟨x, r⟩, w⟩
  all_goals
    rw [hres] at hrun
    exact ⟨by simp [reply, hrun], by simp [step, hrun]⟩

end ReadSession

end S3Gateway
