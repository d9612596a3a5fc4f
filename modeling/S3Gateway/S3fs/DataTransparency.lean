import S3Gateway.Cache.DataProof
import S3Gateway.S3fs.Prefetch

/-!
# The data cache seen through reads

`fetchChunk` takes what the data cache has under an object's key and ETag for the
whole object, and puts there whatever it has fetched of a small one. The two agree if
it fetches small objects from their start. The chunks are larger than small objects,
so a fetch reaches the end, and what matters is where a read begins that finds neither
its buffer nor the data cache filled.

This module follows successive handles on one object that share a data cache. If
every read begins at a harmless position, they cannot tell that there is one.
-/

namespace S3Gateway

open Lib

/-! ## One fetch -/

/-- Whether a look into the data cache would hit now. -/
def World.cached (w : World) (s3Key etag : GoString) : Bool :=
  (World.handle (.dataGet s3Key etag) w).1.isSome

/-- S3 holds `c` under `key`, no call fails, and what the data cache has under `key` and
`etag`, if anything, is `c`. -/
structure Shared (key etag : GoString) (c : Bytes) (w : World) : Prop where
  stored : w.bucket.dataAt key = some c
  noFaults : w.NoFaults
  serves : ∀ dc, w.dataCache = some dc → dc.Serves (dc.cacheKey key etag) c

section Calls

variable {key etag : GoString} {c : Bytes} {w : World}

/-- A call on the data cache that goes on serving `c`. -/
theorem Shared.onDataCache (h : Shared key etag c w) {α : Type} {φ : α → Prop} {dflt : α}
    (hdflt : φ dflt) {f : DataCache → Option (α × DataCache)}
    (hf : ∀ dc a dc', dc.Serves (dc.cacheKey key etag) c → f dc = some (a, dc') →
      (dc'.Serves (dc.cacheKey key etag) c ∧ dc'.sha256 = dc.sha256) ∧ φ a) :
    φ (w.begin.onDataCache dflt f).1 ∧ Shared key etag c (w.begin.onDataCache dflt f).2 := by
  have hkeep : ∀ dc a dc', dc.Serves (dc.cacheKey key etag) c → f dc = some (a, dc') →
      dc'.Serves (dc'.cacheKey key etag) c ∧ φ a := by
    intro dc a dc' hserves hres
    obtain ⟨⟨hserves', hsha⟩, ha⟩ := hf dc a dc' hserves hres
    exact ⟨by rwa [DataCache.cacheKey, hsha], ha⟩
  obtain ⟨ha, _, _, heq, hserves⟩ := World.onDataCache_spec (w := w.begin) h.serves hdflt hkeep
  rw [heq]
  exact ⟨ha, h.stored, h.noFaults, hserves⟩

/-- The data cache misses or has the object. -/
theorem triple_dataGet_shared :
    Prog.Triple World.handle (Shared key etag c) (Prog.call (.dataGet key etag)) fun cached w =>
      (∀ content, cached = some content → content = c) ∧ Shared key etag c w :=
  fun _ h => h.onDataCache nofun fun _ _ _ hserves hget => hserves.get hget

/-- Putting the object, or putting anything where there is no data cache. -/
theorem triple_dataPut_shared (got : Bytes) :
    Prog.Triple World.handle (fun w => Shared key etag c w ∧ (w.dataCache = none ∨ got = c))
      (Prog.call (.dataPut key etag got)) fun _ => Shared key etag c := by
  rintro w ⟨h, hnone | rfl⟩
  · refine ⟨?_, ?_, fun dc hdc => ?_⟩
    · rw [Prog.run_call, World.handle_bucket rfl]
      exact h.stored
    · intro i
      rw [Prog.run_call, World.handle_env]
      exact h.noFaults i
    · rw [Prog.run_call, World.handle_dataCache_eq_none _ hnone] at hdc
      cases hdc
  · exact (h.onDataCache (φ := fun _ => True) trivial
      fun _ _ _ hserves hput => ⟨hserves.put hput, trivial⟩).2

/-- S3 sends the range. -/
theorem triple_getObjectRange_shared (P : Option DataCache → Prop) (off length : Int) :
    Prog.Triple World.handle (fun w => Shared key etag c w ∧ P w.dataCache)
      (Prog.call (.getObjectRange key off length)) fun reply w =>
        reply = .ok ⟨slice c off.toNat length.toNat, .eof⟩ ∧ Shared key etag c w ∧ P w.dataCache := by
  rintro w ⟨h, hP⟩
  obtain ⟨o, ho, rfl⟩ := Option.map_eq_some_iff.mp h.stored
  have hfault := h.noFaults.outcome
  refine ⟨?_, ⟨h.stored, h.noFaults, h.serves⟩, hP⟩
  simp only [Prog.run_call, World.handle, World.begin_bucket, Bucket.getObjectRange,
    Bucket.getObject, ho]
  unfold World.answer
  rw [hfault]
  rfl

end Calls

/-- A body of exactly the range is read whole. -/
theorem readFull_slice (c : Bytes) (i n : Nat) : (readFull ⟨slice c i n, .eof⟩ n).1 = slice c i n := by
  unfold readFull
  split
  · exact List.take_of_length_le (by rw [length_slice]; omega)
  · split <;> rfl

namespace ChunkReader

/-- The reader after a fetch at `off` has got all it asked for. -/
def fetched (c : Bytes) (r : ChunkReader) (off : Int) : ChunkReader :=
  let got := slice c off.toNat (r.fetchLength off).toNat
  (r.readInto (r.fetchLength off) got).setWindow off got.length

/-- A window into a small object extends to its end. -/
def ToEnd (r : ChunkReader) : Prop :=
  r.size ≤ smallFileLimit → 0 < r.bufLen → r.bufStart + r.bufLen = r.size

/-- If `ReadAt` fetches at `off`, what it hands to the data cache is the whole object: there is
no data cache, or the object is not put there, or it is fetched from its start, or nothing
is fetched, or the data cache has it. -/
def Harmless (r : ChunkReader) (off : Int) (w : World) : Prop :=
  w.dataCache.isNone = true ∨ r.etag = [] ∨ smallFileLimit < r.size ∨ off = 0 ∨ r.size ≤ off ∨
    r.inBuffer off = true ∨ w.cached r.s3Key r.etag = true

instance (r : ChunkReader) (off : Int) (w : World) : Decidable (r.Harmless off w) := by
  unfold Harmless
  infer_instance

variable {key etag : GoString} {c : Bytes} {r : ChunkReader} {off : Int}

theorem receive_slice (r : ChunkReader) (hlen : 0 < r.fetchLength off) (hoff : 0 ≤ off)
    (hlt : off < c.length) :
    r.receive off (r.fetchLength off)
      (.ok ⟨slice c off.toNat (r.fetchLength off).toNat, .eof⟩) = (.ok (), r.fetched c off) := by
  have hne : slice c off.toNat (r.fetchLength off).toNat ≠ [] := by
    rw [← List.length_pos_iff, length_slice]
    omega
  have hbytes := readFull_slice c off.toNat (r.fetchLength off).toNat
  have hok := (r.receive_eof off hlen hne).1
  unfold receive at hok ⊢
  dsimp only at hok ⊢
  split at hok
  · rw [hbytes]
    rfl
  · rw [hbytes]
    rfl
  · rw [hbytes]
    rfl
  · cases hok

/-- After such a fetch the position is in a good window. -/
theorem On.fetched (h : r.On key c) (hoff : 0 ≤ off) (hlt : off < c.length) :
    (r.fetched c off).On key c ∧ (r.fetched c off).Window c ∧ (r.fetched c off).ToEnd ∧
      (r.fetched c off).inBuffer off = true := by
  have hlen := h.fetchLength_pos hlt
  have hreceive := r.receive_slice hlen hoff hlt
  have hlength : (slice c off.toNat (r.fetchLength off).toNat).length =
      min (r.fetchLength off).toNat (c.length - off.toNat) := length_slice _ _ _
  refine ⟨⟨h.s3Key, h.size, h.chunkSize⟩, ?_, fun hsmall _ => ?_, ?_⟩
  · have hwin : (r.receive off (r.fetchLength off)
        (.ok ⟨slice c off.toNat (r.fetchLength off).toNat, .eof⟩)).2.Window c :=
      window_receive hoff (fun body hbody => by cases hbody; exact List.prefix_refl _)
        (by rw [hreceive])
    rwa [hreceive] at hwin
  · have hsmall := h.fetchLength_small hsmall hoff hlt
    have hsize := h.size
    dsimp only [ChunkReader.fetched, setWindow, readInto]
    omega
  · rw [inBuffer_iff]
    dsimp only [ChunkReader.fetched, setWindow, readInto]
    omega

/-- Fetching from S3 at a harmless position. -/
theorem triple_fetchFromS3_shared (hon : r.On key c) (hetag : r.etag = etag) (hoff : 0 ≤ off)
    (hlt : off < c.length) :
    Prog.Triple World.handle (fun w => Shared key etag c w ∧
        (w.dataCache = none ∨ (r.etag ≠ [] ∧ r.size ≤ smallFileLimit → off = 0)))
      (r.fetchFromS3 off (r.fetchLength off)) fun res w =>
        res = (.ok (), r.fetched c off) ∧ Shared key etag c w := by
  subst hetag
  rw [fetchFromS3_eq, hon.s3Key]
  refine (triple_getObjectRange_shared (fun dc => dc = none ∨ _) off _).step ?_
  rintro _ rfl
  rw [receive_slice r (hon.fetchLength_pos hlt) hoff hlt]
  split
  · exact Prog.triple_pure fun w h => ⟨rfl, h.1⟩
  · next got hgot =>
    refine Prog.triple_bind ((triple_dataPut_shared got).pre fun w h => ⟨h.1, h.2.imp id ?_⟩)
      fun _ => Prog.triple_pure fun w h => ⟨rfl, h⟩
    -- what is put was fetched from the start, and therefore is the whole object
    intro hstart
    obtain ⟨hsmall, rfl⟩ := putBytes_ok hgot
    obtain rfl : off = 0 := hstart hsmall
    rw [readFull_slice, hon.fetchLength_small hsmall.2 hoff hlt, hon.size]
    exact List.take_of_length_le (by rw [List.length_drop]; omega)

/-- Fetching at a harmless position outside the buffer, whether the data cache has the object or
not. -/
theorem triple_fetchChunk_shared (hon : r.On key c) (hetag : r.etag = etag) (hoff : 0 ≤ off)
    (hlt : off < c.length) (hin : r.inBuffer off = false) :
    Prog.Triple World.handle (fun w => Shared key etag c w ∧ r.Harmless off w) (r.fetchChunk off)
      fun res w => res = (.ok (), r.fetched c off) ∧ Shared key etag c w := by
  rintro w ⟨h, hharmless⟩
  have hsize := hon.size
  have hs3 := triple_fetchFromS3_shared hon hetag hoff hlt
  unfold fetchChunk
  dsimp only
  rw [if_neg (Int.not_le.mpr (hon.fetchLength_pos hlt))]
  split
  · next hne =>
    have hget := triple_dataGet_shared w h
    rw [Prog.run_bind, hon.s3Key, hetag]
    rw [Prog.run_call] at hget ⊢
    rcases hres : World.handle (.dataGet key etag) w with ⟨_ | content, w'⟩
    · -- a miss: the position is harmless for another reason
      rw [hres] at hget
      refine hs3 w' ⟨hget.2, ?_⟩
      have hmiss : w.cached r.s3Key r.etag = false := by
        rw [World.cached, hon.s3Key, hetag, hres]
        rfl
      rcases hharmless with hnone | hno | hbig | hzero | hend | hbuf | hhit
      · left
        have hkeep := World.handle_dataCache_eq_none (.dataGet key etag)
          (Option.isNone_iff_eq_none.mp hnone)
        rwa [hres] at hkeep
      · exact absurd hno hne
      · right
        intro hsmall
        omega
      · exact Or.inr fun _ => hzero
      · omega
      · rw [hin] at hbuf
        cases hbuf
      · rw [hmiss] at hhit
        cases hhit
    · -- a hit: the cached file is the object
      rw [hres] at hget
      obtain rfl := hget.1 content rfl
      unfold fetchWith
      dsimp only
      rw [if_pos hoff]
      exact ⟨rfl, hget.2⟩
  · next hno =>
    exact hs3 w ⟨h, Or.inr fun hsmall => absurd hsmall.1 hno⟩

/-! ## Reads -/

/-- Between the rounds of a read, at `off`. -/
structure SharedAt (key etag : GoString) (c : Bytes) (off : Int) (r : ChunkReader) (w : World) :
    Prop where
  reader : r.On key c
  readerEtag : r.etag = etag
  window : r.Window c
  toEnd : r.ToEnd
  world : Shared key etag c w
  harmless : r.Harmless off w

/-- Copying out of the window of a small object leads to another position in it, or to the end. -/
theorem SharedAt.copied {w : World} (h : SharedAt key etag c off r w) (hin : r.inBuffer off = true)
    (room : Nat) : SharedAt key etag c (off + (r.copyOut off room).length) r w := by
  refine { h with harmless := ?_ }
  by_cases hsmall : r.size ≤ smallFileLimit
  · obtain ⟨hpos, hlo, hhi⟩ := inBuffer_iff.mp hin
    have hend := h.toEnd hsmall hpos
    by_cases hmore : off + (r.copyOut off room).length < r.size
    · exact Or.inr (Or.inr (Or.inr (Or.inr (Or.inr (Or.inl
        (inBuffer_iff.mpr ⟨hpos, by omega, by omega⟩))))))
    · exact Or.inr (Or.inr (Or.inr (Or.inr (Or.inl (Int.not_lt.mp hmore)))))
  · exact Or.inr (Or.inr (Or.inl (Int.not_le.mp hsmall)))

theorem triple_fetchChunk_sharedAt (off : Int) (r : ChunkReader) (hoff : 0 ≤ off)
    (hlt : off < c.length) (hin : r.inBuffer off = false) :
    Prog.Triple World.handle (SharedAt key etag c off r) (r.fetchChunk off) fun res w =>
      match res.1 with
      | .ok _ => SharedAt key etag c off res.2 w ∧ res.2.Window c ∧
          (True → res.2.inBuffer off = true)
      | .error _ => False := by
  intro w h
  obtain ⟨hres, hworld⟩ := triple_fetchChunk_shared h.reader h.readerEtag hoff hlt hin w
    ⟨h.world, h.harmless⟩
  obtain ⟨hon, hwin, hend, hin'⟩ := h.reader.fetched hoff hlt
  rw [hres]
  exact ⟨⟨hon, h.readerEtag, hwin, hend, hworld,
    Or.inr (Or.inr (Or.inr (Or.inr (Or.inr (Or.inl hin')))))⟩, hwin, fun _ => hin'⟩

/-- A read that begins at a harmless position. -/
theorem triple_readAt_shared (n fuel : Nat) (r : ChunkReader) (off : Int) (hoff : 0 ≤ off)
    (hfuel : 2 * n < fuel) :
    Prog.Triple World.handle (SharedAt key etag c off r) (readAt fuel r n off) fun res w =>
      ∃ r' off', res = some (wholeRead c n off, r') ∧ SharedAt key etag c off' r' w := by
  intro w h
  have htrack : ∀ off r w, SharedAt key etag c off r w → SharedAt key etag c off (r.track off) w := by
    intro off r w hB
    have hon := hB.reader.track off
    obtain ⟨_, _, htrack⟩ := r.track_eq off
    rw [htrack] at hon ⊢
    exact ⟨hon, hB.readerEtag, hB.window, hB.toEnd, hB.world, hB.harmless⟩
  obtain ⟨hspec, hsome⟩ := triple_readAt_rule (K := fun _ _ _ => False)
    (fun _ _ _ hB => hB.reader) (fun _ _ _ hK => hK.elim)
    (fun _ _ _ room hB hin => hB.copied hin room) triple_fetchChunk_sharedAt htrack
    (fun _ _ _ _ hB => ⟨⟨hB.reader.s3Key, hB.reader.size, hB.reader.chunkSize⟩, hB.readerEtag,
      hB.window, hB.toEnd, hB.world, hB.harmless⟩)
    (fun _ _ _ _ hK => hK.elim) n fuel r off hoff w ⟨h, fun _ => h.window⟩
  obtain ⟨⟨x, r'⟩, hres⟩ := Option.isSome_iff_exists.mp (hsome trivial hfuel)
  rcases (hspec x r' hres).outcome with ⟨⟨off', hB⟩, rfl⟩ | ⟨err, hK, -⟩
  · exact ⟨r', off', hres, hB⟩
  · exact hK.elim

end ChunkReader

/-! ## Successive handles -/

/-- What happens in a session: a call on the current handle, or a new handle on the object. -/
inductive ReadEvent where
  | call (op : ReadOp)
  | reopen

namespace ReadSession

/-- The session after the next event. The object has not changed, so `OpenFile` returns a
file with the same size and ETag again. -/
def perform (s : ReadSession) : ReadEvent → ReadSession
  | .call op => s.step op
  | .reopen => { s with file := { s.file with offset := 0, chunked := none, closed := false } }

/-- What the next call returns. -/
def answer (s : ReadSession) : ReadEvent → Option ReadReply
  | .call op => some (s.reply op)
  | .reopen => none

/-- The same session with a `nil` data cache. -/
def withoutDataCache (s : ReadSession) : ReadSession :=
  { s with world := { s.world with dataCache := none } }

end ReadSession

/-- A `Read` is followed to its end, and begins at a harmless position. -/
def ReadEvent.Careful (s : ReadSession) : ReadEvent → Prop
  | .call (.read fuel n) => 2 * n < fuel ∧ s.file.reader.Harmless s.file.offset s.world
  | _ => True

/-- A `Read` returns the bytes of `c` at the cursor. -/
def ReadsExactly (c : Bytes) (s : ReadSession) : ReadEvent → Prop
  | .call (.read fuel n) =>
    s.reply (.read fuel n) = .read (some (ChunkReader.wholeRead c n s.file.offset))
  | _ => True

/-- The state of such a session. -/
structure SharedSession (key etag : GoString) (c : Bytes) (s : ReadSession) : Prop where
  file : s.file.On key c
  fileKey : s.file.s3Key = key
  fileEtag : s.file.etag = etag
  readerEtag : s.file.reader.etag = etag
  window : s.file.reader.Window c
  toEnd : s.file.reader.ToEnd
  world : Shared key etag c s.world

section Steps

variable {key etag : GoString} {c : Bytes} {s : ReadSession}

/-- A new handle on the object, as the first one was. -/
theorem SharedSession.of_fresh (hs : s.Fresh key c) (hetag : s.file.etag = etag)
    (hworld : Shared key etag c s.world) : SharedSession key etag c s := by
  obtain ⟨hon, hwin⟩ := S3File.on_of_fresh hs.opened hs.isFile hs.offset hs.size hs.chunked
  have hreader : s.file.reader = newChunkReader s.file.s3Key s.file.info.size s.file.etag := by
    rw [S3File.reader, hs.chunked]
    rfl
  rw [hs.s3Key] at hon
  refine ⟨hon, hs.s3Key, hetag, ?_, hwin, ?_, hworld⟩
  · rw [hreader]
    exact hetag
  · rw [hreader]
    intro _ hpos
    cases hpos

theorem SharedSession.reopen (h : SharedSession key etag c s) :
    SharedSession key etag c (s.perform .reopen) :=
  .of_fresh ⟨h.world.stored, h.fileKey, h.file.size, rfl, h.file.file, rfl, rfl⟩ h.fileEtag h.world

theorem SharedSession.read (h : SharedSession key etag c s) (hlen : (c.length : Int) < offsetLimit)
    {fuel n : Nat} (hop : ReadEvent.Careful s (.call (.read fuel n))) :
    s.reply (.read fuel n) = .read (some (ChunkReader.wholeRead c n s.file.offset)) ∧
      (s.step (.read fuel n)).file.offset =
        s.file.offset + (ChunkReader.wholeRead c n s.file.offset).1.length ∧
      SharedSession key etag c (s.step (.read fuel n)) := by
  obtain ⟨r, off', hres, hat⟩ := ChunkReader.triple_readAt_shared n fuel s.file.reader s.file.offset
    h.file.offset.1 hop.1 s.world ⟨h.file.reader, h.readerEtag, h.window, h.toEnd, h.world, hop.2⟩
  have hread := ReadSession.read_eq h.file fuel n
  rcases hrun : (s.file.reader.readAt fuel n s.file.offset).run World.handle s.world with ⟨res, w⟩
  rw [hrun] at hread hat
  rw [hrun] at hres
  subst hres
  obtain ⟨hreply, hstep⟩ := hread
  refine ⟨hreply, by rw [hstep], ?_⟩
  rw [hstep]
  exact ⟨h.file.advance hlen hat.reader (ChunkReader.wholeRead_bytes c n _), h.fileKey, h.fileEtag,
    hat.readerEtag, hat.window, hat.toEnd, hat.world⟩

/-- Seeking changes neither the reader's ETag nor how far its window extends. -/
theorem toEnd_sought {f : S3File} (h : f.reader.ToEnd) {t : Nat} {chunked : Option ChunkReader}
    (hc : chunked = f.chunked ∨ ∃ r, f.chunked = some r ∧ chunked = some (r.seekTo t).2) :
    ({ f with offset := t, chunked } : S3File).reader.etag = f.reader.etag ∧
      ({ f with offset := t, chunked } : S3File).reader.ToEnd := by
  rcases hc with rfl | ⟨r, hr, rfl⟩
  · exact ⟨rfl, h⟩
  · have hreader : f.reader = r := by
      rw [S3File.reader, hr]
      rfl
    rw [hreader] at h ⊢
    obtain ⟨_, rfl | rfl, hseek⟩ := r.seekTo_eq t
    · rw [S3File.reader, Option.getD_some, hseek]
      exact ⟨rfl, fun _ hpos => absurd hpos (Nat.lt_irrefl 0)⟩
    · rw [S3File.reader, Option.getD_some, hseek]
      exact ⟨rfl, h⟩

theorem SharedSession.seek (h : SharedSession key etag c s) (hlen : (c.length : Int) < offsetLimit)
    (offset : Int64) (whence : Int) : SharedSession key etag c (s.step (.seek offset whence)) := by
  obtain ⟨t, chunked, hseek, ht, hchunked⟩ := h.file.seek hlen offset whence
  obtain ⟨hetag, hend⟩ := toEnd_sought h.toEnd hchunked
  unfold ReadSession.step
  dsimp only
  rw [hseek]
  exact ⟨h.file.sought ht hchunked, h.fileKey, h.fileEtag, hetag.trans h.readerEtag,
    S3File.window_sought h.window hchunked, hend, h.world⟩

theorem ReadSession.step_dataCache (h : s.world.dataCache = none) (op : ReadOp) :
    (s.step op).world.dataCache = none := by
  cases op with
  | read fuel n =>
    have hkeep := Prog.run_preserves (I := fun w : World => w.dataCache = none)
      (fun e _ => World.handle_dataCache_eq_none e) (s.file.read fuel n) h
    unfold step
    dsimp only
    rcases hrun : (s.file.read fuel n).run World.handle s.world with ⟨_ | _, w⟩
    all_goals
      rw [hrun] at hkeep
      exact hkeep
  | seek offset whence => exact h

/-- A session with a data cache and one without, on the same object with the cursor at the same
place. -/
structure Transparent (key etag : GoString) (c : Bytes) (s t : ReadSession) : Prop where
  cached : SharedSession key etag c s
  plain : SharedSession key etag c t
  dataCache : t.world.dataCache = none
  offset : s.file.offset = t.file.offset

/-- What is read without a data cache is read with one. -/
theorem Transparent.perform {t : ReadSession} (h : Transparent key etag c s t)
    (hlen : (c.length : Int) < offsetLimit) {op : ReadEvent} (hop : op.Careful s) :
    s.answer op = t.answer op ∧ Transparent key etag c (s.perform op) (t.perform op) := by
  match op, hop with
  | .reopen, _ => exact ⟨rfl, h.cached.reopen, h.plain.reopen, h.dataCache, rfl⟩
  | .call (.read fuel n), hop =>
    have hplain : ReadEvent.Careful t (.call (.read fuel n)) :=
      ⟨hop.1, Or.inl (by rw [h.dataCache]; rfl)⟩
    obtain ⟨hreply, hoffset, hs⟩ := h.cached.read hlen hop
    obtain ⟨hreply', hoffset', ht⟩ := h.plain.read hlen hplain
    refine ⟨?_, hs, ht, ReadSession.step_dataCache h.dataCache _, ?_⟩
    · rw [ReadSession.answer, ReadSession.answer, hreply, hreply', h.offset]
    · exact hoffset.trans (h.offset ▸ hoffset'.symm)
  | .call (.seek offset whence), _ =>
    have hsame : (s.file.seek offset whence).1 = (t.file.seek offset whence).1 := by
      rw [(s.file.seek_reply offset whence).1, (t.file.seek_reply offset whence).1,
        S3File.seekOffset, S3File.seekOffset, h.cached.file.size, h.plain.file.size, h.offset]
    refine ⟨?_, h.cached.seek hlen offset whence, h.plain.seek hlen offset whence, h.dataCache, ?_⟩
    · simp only [ReadSession.answer, ReadSession.reply, hsame]
    · show (s.file.seek offset whence).2.offset = (t.file.seek offset whence).2.offset
      rw [(s.file.seek_reply offset whence).2, (t.file.seek_reply offset whence).2, hsame, h.offset]

end Steps

/-- The data cache is transparent to careful reads: if it starts without the object, and no
call to S3 fails, then in every run over any number of handles whose reads begin at harmless
positions each `Read` returns the object's bytes, and every call returns what it would return
without a data cache. -/
theorem reads_transparent_of_careful {key : GoString} {c : Bytes} {s : ReadSession}
    (hs : s.Fresh key c)
    (hcold : ∀ dc, s.world.dataCache = some dc →
      dc.items.lookup (dc.cacheKey key s.file.etag) = none)
    (hfaults : s.world.NoFaults) (hlen : (c.length : Int) < offsetLimit) {ops : List ReadEvent}
    (hops : EachStep ReadSession.perform ReadEvent.Careful s ops) :
    EachStep ReadSession.perform (ReadsExactly c) s ops ∧
      outputs ReadSession.perform ReadSession.answer s ops =
        outputs ReadSession.perform ReadSession.answer s.withoutDataCache ops := by
  have hworld : Shared key s.file.etag c s.world := by
    refine ⟨hs.stored, hfaults, fun dc hdc elem hitem => ?_⟩
    rw [hcold dc hdc] at hitem
    cases hitem
  have hcached : SharedSession key s.file.etag c s := .of_fresh hs rfl hworld
  have hplain : SharedSession key s.file.etag c s.withoutDataCache :=
    .of_fresh ⟨hs.stored, hs.s3Key, hs.size, hs.opened, hs.isFile, hs.offset, hs.chunked⟩ rfl
      ⟨hs.stored, hfaults, nofun⟩
  constructor
  · refine EachStep.of_invariant (I := SharedSession key s.file.etag c) (fun s' op h hop => ?_)
      hcached hops
    match op, hop with
    | .reopen, _ => exact ⟨trivial, h.reopen⟩
    | .call (.read _ _), hop => exact ⟨(h.read hlen hop).1, (h.read hlen hop).2.2⟩
    | .call (.seek offset whence), _ => exact ⟨trivial, h.seek hlen offset whence⟩
  · refine (outputs_eq_of_simulation (R := Transparent key s.file.etag c)
      (fun s' t op h hop => ?_) ⟨hcached, hplain, rfl, rfl⟩ hops).1
    exact h.perform hlen hop

/-- An empty data cache for up to 1000 bytes. The digest stands in for SHA-256. -/
def emptyDataCache : DataCache :=
  { sha256 := DataCache.padded
    config := ⟨1000, 0⟩, items := ∅, order := .empty, currentSize := 0, disk := ∅ }

/-- A session on an object of three bytes, with a data cache. -/
def cachedSession : ReadSession :=
  let s := threeByteSession fun _ => .fine
  { s with world := { s.world with dataCache := some emptyDataCache } }

theorem fresh_cachedSession : cachedSession.Fresh (gs "f") [1, 2, 3] :=
  ⟨rfl, rfl, rfl, rfl, rfl, rfl, rfl⟩

theorem cold_cachedSession (dc : DataCache) (h : cachedSession.world.dataCache = some dc) :
    dc.items.lookup (dc.cacheKey (gs "f") cachedSession.file.etag) = none := by
  cases h
  rfl

/-- One handle reads two bytes, and a second handle reads at the end what the first has left in
the data cache. -/
theorem reads_transparent_second_handle :
    outputs ReadSession.perform ReadSession.answer cachedSession
        [.call (.read 5 2), .reopen, .call (.seek 2 0), .call (.read 5 2)] =
      [some (.read (some ([1, 2], none))), none, some (.seek (.ok 2)),
        some (.read (some ([3], some .eof)))] ∧
    outputs ReadSession.perform ReadSession.answer cachedSession
        [.call (.read 5 2), .reopen, .call (.seek 2 0), .call (.read 5 2)] =
      outputs ReadSession.perform ReadSession.answer cachedSession.withoutDataCache
        [.call (.read 5 2), .reopen, .call (.seek 2 0), .call (.read 5 2)] := by
  refine ⟨by decide, (reads_transparent_of_careful fresh_cachedSession cold_cachedSession
    (fun _ => rfl) (by decide) ?_).2⟩
  exact ⟨⟨by decide, by decide⟩, trivial, trivial, ⟨by decide, by decide⟩, trivial⟩

/-- The first handle begins in the middle. What it fetches is put into the data cache for the
whole object, and the second handle reads the second byte in place of the first. -/
theorem read_from_middle_not_transparent :
    cachedSession.Fresh (gs "f") [1, 2, 3] ∧ cachedSession.world.NoFaults ∧
    (∀ dc, cachedSession.world.dataCache = some dc →
      dc.items.lookup (dc.cacheKey (gs "f") cachedSession.file.etag) = none) ∧
    outputs ReadSession.perform ReadSession.answer cachedSession
        [.call (.seek 1 0), .call (.read 5 1), .reopen, .call (.read 5 1)] =
      [some (.seek (.ok 1)), some (.read (some ([2], none))), none,
        some (.read (some ([2], none)))] ∧
    outputs ReadSession.perform ReadSession.answer cachedSession.withoutDataCache
        [.call (.seek 1 0), .call (.read 5 1), .reopen, .call (.read 5 1)] =
      [some (.seek (.ok 1)), some (.read (some ([2], none))), none,
        some (.read (some ([1], none)))] :=
  ⟨fresh_cachedSession, fun _ => rfl, cold_cachedSession, by decide, by decide⟩

end S3Gateway
