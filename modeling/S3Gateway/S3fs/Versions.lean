import S3Gateway.S3fs.Concurrent
import S3Gateway.S3fs.DataTransparency
import S3Gateway.S3fs.ReadFaults

/-!
# Reading while the object is overwritten

A handle on a file remembers the size and ETag its object had when it was opened and
then fetches the contents in ranges, as needed. The ranged requests name the key only,
so each is answered from the version S3 has at that moment: a handle that has to fetch
again after an upload returns bytes of another version, and puts them into the data
cache under the ETag of its own (`reads_mix_versions`).

Here other clients upload versions of the object before any call of a `Read`
(`World.handleAmong`). `reads_one_version`: if the object is as it was at every ranged
request, though it may be overwritten before, between and after them, then the handle
cannot tell that there were uploads; what it returns are pieces of the contents it was
opened on, and so is what the data cache has under the object's ETag.
-/

namespace S3Gateway

open Lib

/-! ## Uploads by other clients -/

/-- Other clients upload versions of the object before the next call. -/
def World.overwritten (key : GoString) (uploads : Nat → List Object) (w : World) : World :=
  { w with bucket := (uploads w.calls).foldl (fun b o => (b.putObject key o).2) w.bucket }

/-- The services answer a call after the uploads before it. -/
def World.handleAmong (key : GoString) (uploads : Nat → List Object) : Handler Eff World :=
  fun e w => World.handle e (w.overwritten key uploads)

namespace ReadSession

variable (uploads : Nat → List Object)

/-- What the next call returns when other clients upload `uploads n` before call `n`. -/
def replyAmong (s : ReadSession) : ReadOp → ReadReply
  | .read fuel n =>
    .read (((s.file.read fuel n).run (World.handleAmong s.file.s3Key uploads) s.world).1.map
      Prod.fst)
  | .seek offset whence => .seek (s.file.seek offset whence).1

/-- The session after the next call. -/
def stepAmong (s : ReadSession) : ReadOp → ReadSession
  | .read fuel n =>
    match (s.file.read fuel n).run (World.handleAmong s.file.s3Key uploads) s.world with
    | (none, w) => { s with world := w }
    | (some (_, f), w) => ⟨w, f⟩
  | .seek offset whence => { s with file := (s.file.seek offset whence).2 }

/-- The session as if the bucket were still `b`. -/
def asOpened (b : Bucket) (s : ReadSession) : ReadSession :=
  { s with world := { s.world with bucket := b } }

end ReadSession

/-- A ranged request finds the contents the object had in `b`. -/
def Eff.FindsAsIn (b : Bucket) {β : Type} : Eff β → World → Prop
  | .getObjectRange key _ _, w => w.bucket.dataAt key = b.dataAt key
  | _, _ => True

/-- Every ranged request of the call finds the contents the object had in `b`. -/
def ReadOp.FindsAsIn (b : Bucket) (uploads : Nat → List Object) (s : ReadSession) : ReadOp → Prop
  | .read fuel n =>
    (s.file.read fuel n).Performs (World.handleAmong s.file.s3Key uploads)
      (fun _ e w => e.FindsAsIn b (w.overwritten s.file.s3Key uploads)) s.world
  | .seek .. => True

/-! ## Uploads that no request sees -/

theorem Bucket.getObjectRange_congr {b b' : Bucket} {key : GoString}
    (h : b.dataAt key = b'.dataAt key) (off length : Int) :
    b.getObjectRange key off length = b'.getObjectRange key off length := by
  unfold dataAt at h
  unfold getObjectRange getObject
  cases hb : b.get key <;> cases hb' : b'.get key <;> simp_all

/-- `Seek` moves the cursor and may tell the reader. -/
theorem S3File.seek_eq (f : S3File) (offset : Int64) (whence : Int) :
    ∃ offset' chunked, (f.seek offset whence).2 = { f with offset := offset', chunked } ∧
      (chunked = f.chunked ∨ ∃ r t, f.chunked = some r ∧ chunked = some (r.seekTo t).2) := by
  unfold seek
  cases f.seekOffset offset whence with
  | error err => exact ⟨_, _, rfl, Or.inl rfl⟩
  | ok t =>
    dsimp only
    split
    · exact ⟨_, _, rfl, Or.inl rfl⟩
    · split
      · next r hr =>
        split
        · rcases hseek : r.seekTo t with ⟨_ | _, r'⟩
          all_goals exact ⟨_, _, rfl, Or.inr ⟨r, t, hr, by rw [hseek]⟩⟩
        · exact ⟨_, _, rfl, Or.inl rfl⟩
      · exact ⟨_, _, rfl, Or.inl rfl⟩

/-- A call of a `Read` whose request finds the contents of `b` does what it would do
with `b`. -/
theorem World.handle_of_findsAsIn {w : World} {b : Bucket} {β : Type} {e : Eff β}
    (he : e.fetches = true) (hfind : e.FindsAsIn b w) :
    World.handle e { w with bucket := b }
      = ((World.handle e w).1, { (World.handle e w).2 with bucket := b }) := by
  have hdata : ∀ {α : Type} (dflt : α) (f : DataCache → Option (α × DataCache)),
      ({ w with bucket := b } : World).begin.onDataCache dflt f
        = ((w.begin.onDataCache dflt f).1,
            { (w.begin.onDataCache dflt f).2 with bucket := b }) := by
    intro α dflt f
    have hdc : ({ w with bucket := b } : World).begin.dataCache = w.begin.dataCache := rfl
    unfold World.onDataCache
    rw [hdc]
    cases w.begin.dataCache with
    | none => rfl
    | some dc =>
      dsimp only
      cases f dc <;> rfl
  cases e
  case getObjectRange key off length =>
    have hrange := Bucket.getObjectRange_congr hfind off length
    simp only [World.handle, World.begin_bucket, ← hrange]
    rfl
  case dataGet => exact hdata _ _
  case dataPut => exact hdata _ _
  all_goals cases he

theorem ReadSession.asOpened_among {s : ReadSession} {b : Bucket} {uploads : Nat → List Object}
    {op : ReadOp} (hfind : op.FindsAsIn b uploads s) :
    s.replyAmong uploads op = (s.asOpened b).reply op ∧
      (s.stepAmong uploads op).asOpened b = (s.asOpened b).step op := by
  cases op with
  | seek offset whence => exact ⟨rfl, rfl⟩
  | read fuel n =>
    obtain ⟨hres, hworld⟩ := Prog.run_eq_of_simulation
      (h := World.handleAmong s.file.s3Key uploads) (g := World.handle)
      (R := fun w w' => w' = { w with bucket := b }) (fun e w w' he hfind hR => by
        subst hR
        have hans : World.handle e { w with bucket := b } = _ :=
          World.handle_of_findsAsIn (w := w.overwritten s.file.s3Key uploads) he hfind
        rw [hans]
        exact ⟨rfl, rfl⟩)
      (fetches_s3File_read fuel s.file n) hfind rfl
    unfold replyAmong reply stepAmong step
    dsimp only
    generalize (s.file.read fuel n).run (World.handleAmong s.file.s3Key uploads) s.world = run
      at hres hworld
    have hrun : (s.file.read fuel n).run World.handle { s.world with bucket := b }
        = (run.1, { run.2 with bucket := b }) := Prod.ext hres.symm hworld
    have hrun' : ((s.asOpened b).file.read fuel n).run World.handle (s.asOpened b).world
        = (run.1, { run.2 with bucket := b }) := hrun
    rw [hrun']
    obtain ⟨_ | ⟨res, f⟩, w⟩ := run <;> exact ⟨rfl, rfl⟩

/-! ## Pieces of the contents -/

/-- The bytes are put together from pieces of `c`. -/
def PiecesOf (c data : Bytes) : Prop := ∃ ps : List Bytes, data = ps.flatten ∧ ∀ p ∈ ps, p <:+: c

theorem PiecesOf.nil (c : Bytes) : PiecesOf c [] := ⟨[], rfl, fun _ hp => nomatch hp⟩

theorem PiecesOf.append {c data p : Bytes} (h : PiecesOf c data) (hp : p <:+: c) :
    PiecesOf c (data ++ p) := by
  obtain ⟨ps, rfl, hps⟩ := h
  refine ⟨ps ++ [p], by simp, fun q hq => ?_⟩
  rcases List.mem_append.mp hq with hq | hq
  · exact hps q hq
  · rw [List.mem_singleton.mp hq]
    exact hp

theorem PiecesOf.mem {c data : Bytes} (h : PiecesOf c data) {x : UInt8} (hx : x ∈ data) :
    x ∈ c := by
  obtain ⟨ps, rfl, hps⟩ := h
  obtain ⟨p, hp, hxp⟩ := List.mem_flatten.mp hx
  exact (hps p hp).subset hxp

/-- The file the data cache has under key and ETag is a piece of `c`. -/
def World.HoldsPieceOf (key etag : GoString) (c : Bytes) (w : World) : Prop :=
  ∀ dc, w.dataCache = some dc → dc.FileIs (dc.cacheKey key etag) (· <:+: c)

/-- S3 has `c` under the key, and so does the data cache under key and ETag, as far as
it has anything. With `reliable`, no call fails. -/
structure World.Pieces (key etag : GoString) (c : Bytes) (reliable : Prop) (w : World) : Prop where
  stored : w.bucket.dataAt key = some c
  holds : w.HoldsPieceOf key etag c
  noFaults : reliable → w.NoFaults

/-- The reader is on key and ETag. With `reliable`, its window shows a piece of `c`. -/
structure ChunkReader.Pieces (key etag : GoString) (c : Bytes) (reliable : Prop)
    (r : ChunkReader) : Prop where
  s3Key : r.s3Key = key
  etag : r.etag = etag
  window : reliable → r.buf.take r.bufLen <:+: c

section Reads

variable {key etag : GoString} {c : Bytes} {reliable : Prop}

theorem World.Pieces.onDataCache {w : World} (h : w.Pieces key etag c reliable) {α : Type}
    {φ : α → Prop} {dflt : α} (hdflt : φ dflt) {f : DataCache → Option (α × DataCache)}
    (hf : ∀ dc a dc', dc.FileIs (dc.cacheKey key etag) (· <:+: c) → f dc = some (a, dc') →
      (dc'.FileIs (dc.cacheKey key etag) (· <:+: c) ∧ dc'.sha256 = dc.sha256) ∧ φ a) :
    φ (w.begin.onDataCache dflt f).1 ∧
      (w.begin.onDataCache dflt f).2.Pieces key etag c reliable := by
  have hkeep : ∀ dc a dc', dc.FileIs (dc.cacheKey key etag) (· <:+: c) → f dc = some (a, dc') →
      dc'.FileIs (dc'.cacheKey key etag) (· <:+: c) ∧ φ a := by
    intro dc a dc' hfile hres
    obtain ⟨⟨hfile', hsha⟩, ha⟩ := hf dc a dc' hfile hres
    exact ⟨by rwa [DataCache.cacheKey, hsha], ha⟩
  obtain ⟨ha, _, _, heq, hholds⟩ := World.onDataCache_spec (w := w.begin) h.holds hdflt hkeep
  rw [heq]
  exact ⟨ha, h.stored, hholds, h.noFaults⟩

theorem triple_dataGet_pieces :
    Prog.Triple World.handle (World.Pieces key etag c reliable) (Prog.call (.dataGet key etag))
      fun cached w => (∀ content, cached = some content → content <:+: c) ∧
        w.Pieces key etag c reliable := by
  intro w h
  refine h.onDataCache (φ := fun cached => ∀ content, cached = some content → content <:+: c)
    (fun _ hc => by cases hc) fun dc cached dc' hfile hget => ?_
  obtain ⟨hsub, hcontent⟩ := hfile.get hget
  exact ⟨⟨hfile.of_diskSub hsub, hsub.sha256⟩, hcontent⟩

theorem triple_dataPut_pieces {got : Bytes} (hgot : got <:+: c) :
    Prog.Triple World.handle (World.Pieces key etag c reliable) (Prog.call (.dataPut key etag got))
      fun _ => World.Pieces key etag c reliable := by
  intro w h
  exact (h.onDataCache (φ := fun _ => True) trivial fun dc res dc' hfile hput =>
    ⟨hfile.put hgot hput, trivial⟩).2

/-- What a ranged request brings is a piece; on a reliable S3 the body ends properly. -/
theorem triple_getObjectRange_pieces (off length : Int) :
    Prog.Triple World.handle (World.Pieces key etag c reliable)
      (Prog.call (.getObjectRange key off length)) fun reply w =>
        (∀ body, reply = .ok body → body.data <:+: c ∧ (reliable → body.err = .eof)) ∧
          w.Pieces key etag c reliable := by
  intro w h
  refine ⟨fun body hbody => ?_, h.stored, h.holds, h.noFaults⟩
  obtain ⟨o, ho, rfl⟩ := Option.map_eq_some_iff.mp h.stored
  have hreply : rangeReply w.outcome (slice o.data off.toNat length.toNat) = .ok body := by
    rw [← hbody]
    simp only [Prog.run_call, World.handle, World.begin_bucket, Bucket.getObjectRange,
      Bucket.getObject, ho]
    rfl
  constructor
  · exact (rangeReply_isPrefix hreply).isInfix.trans (slice_isInfix _ _ _)
  · intro hr
    unfold rangeReply World.answer at hreply
    rw [(h.noFaults hr).outcome] at hreply
    cases hreply
    rfl

theorem brokeOff_of_eof {body : Body} (h : body.err = .eof) (length : Int) :
    brokeOff body length = false := by
  have hend : (readFull body length.toNat).2 = none ∨
      (readFull body length.toNat).2 = some .unexpectedEOF ∨
      (readFull body length.toNat).2 = some .eof := by
    unfold readFull
    rw [h]
    split
    · exact Or.inl rfl
    · split
      · exact Or.inr (Or.inl rfl)
      · exact Or.inr (Or.inr rfl)
  unfold brokeOff
  rcases hend with hend | hend | hend <;> rw [hend]

/-- A fetch leaves a piece in the window. -/
theorem ChunkReader.Pieces.receive {r : ChunkReader} (h : r.Pieces key etag c reliable) {off : Int}
    {length : Int} {reply : Except GoError Body}
    (hreply : ∀ body, reply = .ok body → body.data <:+: c ∧ (reliable → body.err = .eof)) :
    (r.receive off length reply).2.Pieces key etag c reliable := by
  cases reply with
  | error err => exact h
  | ok body =>
    obtain ⟨hdata, heof⟩ := hreply body rfl
    have hwin : ((r.readInto length (readFull body length.toNat).1).setWindow off
        (readFull body length.toNat).1.length).Pieces key etag c reliable := by
      refine ⟨h.s3Key, h.etag, fun _ => ?_⟩
      dsimp only [ChunkReader.setWindow, ChunkReader.readInto]
      rw [List.take_left]
      exact (readFull_isPrefix body _).isInfix.trans hdata
    have hok : reliable → (r.receive off length (.ok body)).1 = .ok () :=
      fun hr => receive_isOk (brokeOff_of_eof (heof hr) length)
    unfold ChunkReader.receive at hok ⊢
    dsimp only at hok ⊢
    split at hok
    · exact hwin
    · exact hwin
    · exact hwin
    · exact ⟨h.s3Key, h.etag, fun hr => nomatch hok hr⟩

/-- Reader and world as they are between the calls of a `Read`. -/
def PiecesIn (key etag : GoString) (c : Bytes) (reliable : Prop) (r : ChunkReader) (w : World) :
    Prop :=
  r.Pieces key etag c reliable ∧ w.Pieces key etag c reliable

theorem triple_fetchFromS3_pieces {r : ChunkReader} (h : r.Pieces key etag c reliable)
    (off length : Int) :
    Prog.Triple World.handle (World.Pieces key etag c reliable) (r.fetchFromS3 off length)
      fun res => PiecesIn key etag c reliable res.2 := by
  rw [ChunkReader.fetchFromS3_eq, h.s3Key, h.etag]
  refine Prog.triple_bind (triple_getObjectRange_pieces off length) fun reply =>
    Prog.triple_and fun hreply => ?_
  split
  · exact Prog.triple_pure fun w hw => ⟨h.receive hreply, hw⟩
  · next got hgot =>
    -- what is put is what was read of the body
    have hpiece : got <:+: c := by
      cases reply with
      | error err => cases hgot
      | ok body =>
        obtain ⟨-, rfl⟩ := ChunkReader.putBytes_ok hgot
        exact (readFull_isPrefix body _).isInfix.trans (hreply body rfl).1
    exact Prog.triple_bind (triple_dataPut_pieces hpiece) fun _ =>
      Prog.triple_pure fun w hw => ⟨h.receive hreply, hw⟩

theorem triple_fetchChunk_pieces {r : ChunkReader} (h : r.Pieces key etag c reliable) (off : Int) :
    Prog.Triple World.handle (World.Pieces key etag c reliable) (r.fetchChunk off)
      fun res => PiecesIn key etag c reliable res.2 := by
  have hs3 := triple_fetchFromS3_pieces h off (r.fetchLength off)
  unfold ChunkReader.fetchChunk
  dsimp only
  split
  · exact Prog.triple_pure fun w hw => ⟨h, hw⟩
  · split
    · rw [h.s3Key, h.etag]
      refine Prog.triple_bind triple_dataGet_pieces fun cached => Prog.triple_and fun hcached => ?_
      cases cached with
      | none => exact hs3
      | some content =>
        unfold ChunkReader.fetchWith
        dsimp only
        split
        · refine Prog.triple_pure fun w hw => ⟨⟨h.s3Key, h.etag, fun _ => ?_⟩, hw⟩
          dsimp only [ChunkReader.setWindow, ChunkReader.readInto]
          rw [List.take_left]
          exact (slice_isInfix content _ _).trans (hcached content rfl)
        · exact hs3
    · exact hs3

/-- The loop of `ReadAt` puts pieces together. -/
theorem triple_readLoop_pieces (n fuel : Nat) {r : ChunkReader} (h : r.Pieces key etag c reliable)
    (off : Int) {data : Bytes} (hdata : reliable → PiecesOf c data) :
    Prog.Triple World.handle (World.Pieces key etag c reliable)
      (ChunkReader.readLoop n fuel r off data) fun res w => w.Pieces key etag c reliable ∧ ∀ e, res = some e →
        e.reader.Pieces key etag c reliable ∧ (reliable → PiecesOf c e.data) := by
  induction fuel generalizing r off data with
  | zero => exact Prog.triple_pure fun w hw => ⟨hw, fun e he => by cases he⟩
  | succ fuel ih =>
    unfold ChunkReader.readLoop
    split
    · split
      · -- a part of the window is copied out
        refine ih h _ fun hr => (hdata hr).append ?_
        exact (slice_isInfix _ _ _).trans (h.window hr)
      · refine Prog.triple_bind (triple_fetchChunk_pieces h off) fun res =>
          Prog.triple_and fun hr' => ?_
        obtain ⟨_ | _, r'⟩ := res
        · refine Prog.triple_pure fun w hw => ⟨hw, fun e he => ?_⟩
          cases he
          exact ⟨hr', hdata⟩
        · exact ih hr' off hdata
    · refine Prog.triple_pure fun w hw => ⟨hw, fun e he => ?_⟩
      cases he
      exact ⟨h, hdata⟩

theorem ChunkReader.Pieces.track {r : ChunkReader} (h : r.Pieces key etag c reliable) (off : Int) :
    (r.track off).Pieces key etag c reliable := by
  obtain ⟨_, _, htrack⟩ := r.track_eq off
  rw [htrack]
  exact ⟨h.s3Key, h.etag, h.window⟩

theorem ChunkReader.Pieces.seekTo {r : ChunkReader} (h : r.Pieces key etag c reliable) (t : Int) :
    (r.seekTo t).2.Pieces key etag c reliable := by
  unfold ChunkReader.seekTo
  split
  · exact h
  · dsimp only
    split
    · exact ⟨h.s3Key, h.etag, fun _ => List.nil_infix⟩
    · exact ⟨h.s3Key, h.etag, h.window⟩

/-- What `ReadAt` returns of the loop's data is all of it. -/
theorem ChunkReader.Pieces.finish {e : ChunkReader.LoopEnd}
    (h : e.reader.Pieces key etag c reliable) :
    (ChunkReader.finish e).1.1 = e.data ∧ (ChunkReader.finish e).2.Pieces key etag c reliable := by
  cases herr : e.err with
  | none =>
    rw [ChunkReader.finish_none herr]
    refine ⟨?_, h.s3Key, h.etag, h.window⟩
    split
    · next hnil => exact hnil.symm
    · rfl
  | some err =>
    rw [ChunkReader.finish_some herr]
    split
    · next hnil => exact ⟨hnil.symm, h⟩
    · exact ⟨rfl, h.s3Key, h.etag, h.window⟩

theorem triple_readAt_pieces (fuel n : Nat) {r : ChunkReader} (h : r.Pieces key etag c reliable)
    (off : Int) :
    Prog.Triple World.handle (World.Pieces key etag c reliable) (r.readAt fuel n off)
      fun res w => w.Pieces key etag c reliable ∧ ∀ x r', res = some (x, r') →
        r'.Pieces key etag c reliable ∧ (reliable → PiecesOf c x.1) := by
  unfold ChunkReader.readAt
  split
  · refine Prog.triple_pure fun w hw => ⟨hw, fun x r' hx => ?_⟩
    cases hx
    exact ⟨h, fun _ => .nil c⟩
  · refine Prog.triple_bind (triple_readLoop_pieces n fuel (h.track off) off fun _ => .nil c)
      fun res => Prog.triple_pure fun w hw => ⟨hw.1, fun x r' hx => ?_⟩
    obtain ⟨e, rfl, he⟩ := Option.map_eq_some_iff.mp hx
    obtain ⟨hreader, hdata⟩ := hw.2 e rfl
    obtain ⟨hall, hreader⟩ := hreader.finish
    rw [he] at hall hreader
    exact ⟨hreader, fun hr => hall ▸ hdata hr⟩

/-- A session whose reader is on key and ETag. -/
structure ReadSession.Pieces (key etag : GoString) (c : Bytes) (reliable : Prop) (s : ReadSession) :
    Prop where
  reader : s.file.reader.Pieces key etag c reliable
  world : s.world.Pieces key etag c reliable

/-- The call returns bytes put together from pieces of `c`. -/
def ReadReply.PiecesOf (c : Bytes) : ReadReply → Prop
  | .read (some (data, _)) => S3Gateway.PiecesOf c data
  | _ => True

theorem ReadSession.Pieces.step {s : ReadSession} (h : s.Pieces key etag c reliable) (op : ReadOp) :
    (reliable → (s.reply op).PiecesOf c) ∧ (s.step op).Pieces key etag c reliable := by
  cases op with
  | seek offset whence =>
    obtain ⟨_, _, hseek, hchunked⟩ := s.file.seek_eq offset whence
    refine ⟨fun _ => trivial, ?_, h.world⟩
    show (s.file.seek offset whence).2.reader.Pieces key etag c reliable
    rw [hseek]
    rcases hchunked with rfl | ⟨r, t, hr, rfl⟩
    · exact h.reader
    · have hreader := h.reader
      rw [S3File.reader, hr] at hreader
      exact hreader.seekTo t
  | read fuel n =>
    have hread : Prog.Triple World.handle (World.Pieces key etag c reliable) (s.file.read fuel n)
        fun res w => w.Pieces key etag c reliable ∧ ∀ x f, res = some (x, f) →
          f.reader.Pieces key etag c reliable ∧ (reliable → S3Gateway.PiecesOf c x.1) := by
      unfold S3File.read
      split
      · refine Prog.triple_pure fun w hw => ⟨hw, fun x f hx => ?_⟩
        cases hx
        exact ⟨h.reader, fun _ => .nil c⟩
      · split
        · refine Prog.triple_pure fun w hw => ⟨hw, fun x f hx => ?_⟩
          cases hx
          exact ⟨h.reader, fun _ => .nil c⟩
        · refine Prog.triple_bind (triple_readAt_pieces fuel n h.reader s.file.offset) fun res => ?_
          rcases res with _ | ⟨x, r⟩
          · refine Prog.triple_pure fun w hw => ⟨hw.1, fun x f hx => ?_⟩
            cases hx
          · refine Prog.triple_pure fun w hw => ⟨hw.1, fun x' f hx => ?_⟩
            cases hx
            exact hw.2 _ _ rfl
    obtain ⟨hworld, hresult⟩ := hread s.world h.world
    unfold ReadSession.reply ReadSession.step
    dsimp only
    rcases hrun : (s.file.read fuel n).run World.handle s.world with ⟨_ | ⟨x, f⟩, w⟩
    · rw [hrun] at hworld
      exact ⟨fun _ => trivial, h.reader, hworld⟩
    · rw [hrun] at hworld hresult
      obtain ⟨hreader, hdata⟩ := hresult x f rfl
      exact ⟨hdata, hreader, hworld⟩

end Reads

/-- A handle returns bytes of the version it was opened on: if every ranged request of a run
finds the object as it was at the start, whatever other clients upload between them, then the
calls return what they would return without the uploads, the bytes they return on a reliable
S3 are pieces of that version, and so is what the data cache has under its ETag. -/
theorem reads_one_version {key : GoString} {c : Bytes} {s : ReadSession} (hs : s.Fresh key c)
    (hcache : s.world.HoldsPieceOf key s.file.etag c) {uploads : Nat → List Object}
    {ops : List ReadOp} (hops : EachStep (ReadSession.stepAmong uploads)
      (ReadOp.FindsAsIn s.world.bucket uploads) s ops) :
    outputs (ReadSession.stepAmong uploads) (ReadSession.replyAmong uploads) s ops =
        outputs ReadSession.step ReadSession.reply s ops ∧
      (s.world.NoFaults → EachStep (ReadSession.stepAmong uploads)
        (fun s' op => (s'.replyAmong uploads op).PiecesOf c) s ops) ∧
      Throughout (ReadSession.stepAmong uploads)
        (fun s' => s'.world.HoldsPieceOf key s.file.etag c) s ops := by
  -- the run as if nothing had been uploaded, from which all three follow
  have hstart : (s.asOpened s.world.bucket).Pieces key s.file.etag c s.world.NoFaults := by
    refine ⟨?_, hs.stored, hcache, id⟩
    show s.file.reader.Pieces key s.file.etag c s.world.NoFaults
    rw [S3File.reader, hs.chunked]
    exact ⟨hs.s3Key, rfl, fun _ => List.nil_infix⟩
  have hstep : ∀ (s' : ReadSession) (op : ReadOp),
      (s'.asOpened s.world.bucket).Pieces key s.file.etag c s.world.NoFaults →
      op.FindsAsIn s.world.bucket uploads s' →
      ((s.world.NoFaults → (s'.replyAmong uploads op).PiecesOf c) ∧
        ((s'.stepAmong uploads op).asOpened s.world.bucket).Pieces key s.file.etag c
          s.world.NoFaults) := by
    intro s' op hI hop
    obtain ⟨hreply, hnext⟩ := ReadSession.asOpened_among hop
    rw [hreply, hnext]
    exact hI.step op
  refine ⟨?_, fun hnf => ?_, ?_⟩
  · refine (outputs_eq_of_simulation (R := fun s' t => t = s'.asOpened s.world.bucket)
      (fun s' t op hR hop => ?_) rfl hops).1
    subst hR
    obtain ⟨hreply, hnext⟩ := ReadSession.asOpened_among hop
    exact ⟨hreply, hnext.symm⟩
  · refine EachStep.of_invariant (I := fun s' => (s'.asOpened s.world.bucket).Pieces key s.file.etag
      c s.world.NoFaults) (fun s' op hI hop => ?_) hstart hops
    exact ⟨(hstep s' op hI hop).1 hnf, (hstep s' op hI hop).2⟩
  · exact throughout_of_eachStep (fun s' op hI hop => (hstep s' op hI hop).2)
      (fun s' hI => hI.world.holds) hstart hops

/-- Another client uploads a version of three other bytes before call `n`. -/
def uploadBefore (n : Nat) : Nat → List Object :=
  fun i => if i = n then [⟨[9, 8, 7], ∅, 1, gs "e2"⟩] else []

/-- The upload comes between the request for the contents and the second read, which is
answered from the buffer. -/
theorem reads_one_version_buffered :
    outputs (ReadSession.stepAmong (uploadBefore 2)) (ReadSession.replyAmong (uploadBefore 2))
        (threeByteSession fun _ => .fine) [.read 5 1, .read 5 2] =
      [.read (some ([1], none)), .read (some ([2, 3], some .eof))] ∧
    outputs (ReadSession.stepAmong (uploadBefore 2)) (ReadSession.replyAmong (uploadBefore 2))
        (threeByteSession fun _ => .fine) [.read 5 1, .read 5 2] =
      outputs ReadSession.step ReadSession.reply (threeByteSession fun _ => .fine)
        [.read 5 1, .read 5 2] := by
  refine ⟨by decide, (reads_one_version (fresh_threeByteSession _) (fun dc hdc => ?_) ?_).1⟩
  · cases hdc
  · exact ⟨⟨trivial, rfl, trivial, trivial⟩, trivial, trivial⟩

/-- A handle reads the first byte, seeks away and back after an upload, and gets the rest from
the new version. With a data cache, an upload before the first request leaves the new version
there under the ETag of the old one. -/
theorem reads_mix_versions :
    ((threeByteSession fun _ => .fine).Fresh (gs "f") [1, 2, 3] ∧
      (threeByteSession fun _ => .fine).world.NoFaults ∧
      outputs (ReadSession.stepAmong (uploadBefore 3)) (ReadSession.replyAmong (uploadBefore 3))
          (threeByteSession fun _ => .fine) [.read 5 1, .seek 0 2, .seek 1 0, .read 5 2] =
        [.read (some ([1], none)), .seek (.ok 3), .seek (.ok 1),
          .read (some ([8, 7], some .eof))] ∧
      ¬ PiecesOf [1, 2, 3] [8, 7] ∧ ¬ PiecesOf [9, 8, 7] [1]) ∧
    (cachedSession.Fresh (gs "f") [1, 2, 3] ∧ cachedSession.world.NoFaults ∧
      cachedSession.file.etag = gs "e" ∧
      cachedSession.world.HoldsPieceOf (gs "f") (gs "e") [1, 2, 3] ∧
      ¬ (cachedSession.stepAmong (uploadBefore 0) (.read 5 3)).world.HoldsPieceOf
        (gs "f") (gs "e") [1, 2, 3]) := by
  refine ⟨⟨fresh_threeByteSession _, fun _ => rfl, by decide, fun h => ?_, fun h => ?_⟩,
    fresh_cachedSession, fun _ => rfl, rfl, fun dc hdc path hpath file hfile => ?_, fun h => ?_⟩
  · have := h.mem (x := 8) (by decide)
    revert this
    decide
  · have := h.mem (x := 1) (by decide)
    revert this
    decide
  · cases hdc
    cases hfile
  · have hfile := h _ rfl _ rfl _ rfl
    revert hfile
    decide

end S3Gateway
