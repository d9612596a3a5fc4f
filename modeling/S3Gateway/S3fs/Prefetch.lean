import S3Gateway.S3fs.ReaderProof

/-!
# Prefetching is invisible

Without a data cache, a read-only file behaves like the object's contents and a
cursor, however the chunks are sized and however short S3's answers are, as long
as they are not empty.
-/

namespace S3Gateway

open Lib

/-- What S3 answers to a ranged request for `data`. -/
def rangeReply (o : Outcome) (data : Bytes) : Except GoError Body :=
  World.answer o (.ok (o.fault.deliver data))

/-- There is no data cache; S3 holds `c` under `key`, follows the schedule `env` and
has answered the ranged requests `log`. -/
structure Plain (key : GoString) (c : Bytes) (env : Nat → Outcome) (log : List RangeCall)
    (w : World) : Prop where
  dataCache : w.dataCache = none
  stored : w.bucket.dataAt key = some c
  schedule : w.env = env
  ranges : w.ranges = log

section Fetch

variable {key : GoString} {c : Bytes} {env : Nat → Outcome} {log : List RangeCall} {w : World}

theorem Plain.onDataCache (h : Plain key c env log w) {α : Type} (dflt : α)
    (f : DataCache → Option (α × DataCache)) :
    (w.begin.onDataCache dflt f).1 = dflt ∧ Plain key c env log (w.begin.onDataCache dflt f).2 := by
  have hnone : w.begin.dataCache = none := h.dataCache
  rw [World.onDataCache_eq_none hnone]
  exact ⟨rfl, h.dataCache, h.stored, h.schedule, h.ranges⟩

theorem triple_dataGet_plain (s3Key etag : GoString) :
    Prog.Triple World.handle (Plain key c env log) (Prog.call (.dataGet s3Key etag))
      fun cached w => cached = none ∧ Plain key c env log w :=
  fun _ h => h.onDataCache _ _

theorem triple_dataPut_plain (s3Key etag : GoString) (data : Bytes) :
    Prog.Triple World.handle (Plain key c env log) (Prog.call (.dataPut s3Key etag data))
      fun _ => Plain key c env log :=
  fun _ h => (h.onDataCache _ _).2

theorem triple_getObjectRange_plain (off length : Int) :
    Prog.Triple World.handle (Plain key c env log) (Prog.call (.getObjectRange key off length))
      fun reply w => ∃ i, reply = rangeReply (env i) (slice c off.toNat length.toNat) ∧
        Plain key c env (⟨key, off, length, reply⟩ :: log) w := by
  intro w h
  obtain ⟨o, ho, rfl⟩ := Option.map_eq_some_iff.mp h.stored
  refine ⟨w.calls, ?_, h.dataCache, h.stored, h.schedule, ?_⟩
  · simp only [Prog.run_call, World.handle, World.begin_bucket, Bucket.getObjectRange,
      Bucket.getObject, ho, ← h.schedule]
    rfl
  · rw [← h.ranges]
    rfl

/-- A fetch without a data cache is one ranged request. -/
theorem triple_fetchChunk_plain {r : ChunkReader} {off : Int} (hon : r.On key c)
    (hlt : off < c.length) :
    Prog.Triple World.handle (Plain key c env log) (r.fetchChunk off) fun res w =>
      ∃ i reply, reply = rangeReply (env i) (slice c off.toNat (r.fetchLength off).toNat) ∧
        res = r.receive off (r.fetchLength off) reply ∧
        Plain key c env (⟨key, off, r.fetchLength off, reply⟩ :: log) w := by
  have hs3 : Prog.Triple World.handle (Plain key c env log) (r.fetchFromS3 off (r.fetchLength off))
      fun res w => ∃ i reply, reply = rangeReply (env i) (slice c off.toNat (r.fetchLength off).toNat) ∧
        res = r.receive off (r.fetchLength off) reply ∧
        Plain key c env (⟨key, off, r.fetchLength off, reply⟩ :: log) w := by
    rw [ChunkReader.fetchFromS3_eq, hon.s3Key]
    refine Prog.triple_bind (triple_getObjectRange_plain off _) fun reply => ?_
    refine Prog.triple_exists fun i => Prog.triple_and fun hreply => ?_
    split
    · exact Prog.triple_pure fun w h => ⟨i, reply, hreply, rfl, h⟩
    · exact Prog.triple_bind (triple_dataPut_plain _ _ _) fun _ =>
        Prog.triple_pure fun w h => ⟨i, reply, hreply, rfl, h⟩
  unfold ChunkReader.fetchChunk
  dsimp only
  rw [if_neg (Int.not_le.mpr (hon.fetchLength_pos hlt))]
  split
  · refine (triple_dataGet_plain _ _).step ?_
    rintro _ rfl
    exact hs3
  · exact hs3

end Fetch

/-! ## Answers that may be short -/

/-- A download is refused, or it delivers at least one byte and ends normally. -/
def Outcome.Answers (o : Outcome) : Prop :=
  match o.fault with
  | .none | .call _ => True
  | .body n err => 0 < n ∧ err = .eof

theorem rangeReply_of_answers {o : Outcome} (h : o.Answers) {data : Bytes} (hne : data ≠ []) :
    (∃ err, rangeReply o data = .error err) ∨
      ∃ got, rangeReply o data = .ok ⟨got, .eof⟩ ∧ got ≠ [] ∧ got <+: data := by
  unfold rangeReply World.answer
  unfold Outcome.Answers at h
  cases hf : o.fault with
  | none => exact Or.inr ⟨data, rfl, hne, List.prefix_refl _⟩
  | call err => exact Or.inl ⟨err, rfl⟩
  | body n err =>
    rw [hf] at h
    obtain ⟨hn, rfl⟩ := h
    refine Or.inr ⟨data.take n, rfl, ?_, List.take_prefix _ _⟩
    rw [ne_eq, List.take_eq_nil_iff]
    rintro (h0 | h0)
    · omega
    · exact hne h0

namespace ChunkReader

/-- A fetch whose body delivers something and ends normally puts its position into
the window. -/
theorem receive_eof (r : ChunkReader) (off : Int) {length : Int} (hlen : 0 < length) {got : Bytes}
    (hgot : got ≠ []) :
    (r.receive off length (.ok ⟨got, .eof⟩)).1 = .ok () ∧
      (r.receive off length (.ok ⟨got, .eof⟩)).2.inBuffer off = true := by
  have hpos : 0 < got.length := List.length_pos_iff.mpr hgot
  have hwin : ∀ x : Bytes, 0 < x.length →
      ((r.readInto length x).setWindow off x.length).inBuffer off = true := by
    intro x hx
    rw [inBuffer_iff]
    exact ⟨hx, Int.le_refl _, by simp only [setWindow]; omega⟩
  by_cases hfull : length.toNat ≤ got.length
  · have hread : readFull ⟨got, .eof⟩ length.toNat = (got.take length.toNat, none) := if_pos hfull
    simp only [receive, hread]
    refine ⟨trivial, hwin _ ?_⟩
    rw [List.length_take]
    omega
  · have hread : readFull ⟨got, .eof⟩ length.toNat = (got, some .unexpectedEOF) := by
      rw [readFull, if_neg hfull, if_pos ⟨hgot, rfl⟩]
    simp only [receive, hread]
    exact ⟨trivial, hwin got hpos⟩

end ChunkReader

section Reads

variable {key : GoString} {c : Bytes} {env : Nat → Outcome}

/-- Between the fetches of a read that began when S3 had answered `log`: all of them
have been answered. -/
def AllFetched (key : GoString) (c : Bytes) (env : Nat → Outcome) (log : List RangeCall)
    (r : ChunkReader) (w : World) : Prop :=
  r.On key c ∧ r.Window c ∧ ∃ new, Plain key c env (new ++ log) w ∧ ∀ rc ∈ new, rc.reply.isOk = true

/-- After a fetch that was refused. -/
def FetchRefused (key : GoString) (c : Bytes) (env : Nat → Outcome) (log : List RangeCall)
    (err : GoError) (r : ChunkReader) (w : World) : Prop :=
  err ≠ .eof ∧ r.On key c ∧ r.Window c ∧
    ∃ new, Plain key c env (new ++ log) w ∧ ∃ rc ∈ new, rc.reply.isOk = false

/-- One fetch of such a read. -/
theorem triple_fetchChunk_answers (henv : ∀ i, (env i).Answers) (log : List RangeCall)
    (r : ChunkReader) (off : Int) (hoff : 0 ≤ off) (hlt : off < c.length) :
    Prog.Triple World.handle (AllFetched key c env log r) (r.fetchChunk off) fun res w =>
      match res.1 with
      | .ok _ => AllFetched key c env log res.2 w ∧ res.2.Window c ∧
          (True → res.2.inBuffer off = true)
      | .error err => FetchRefused key c env log err res.2 w := by
  rintro w ⟨hon, hwin, new, hplain, hnew⟩
  obtain ⟨i, reply, hreply, hres, hplain'⟩ := triple_fetchChunk_plain hon hlt w hplain
  have hlen := hon.fetchLength_pos hlt
  have hne : slice c off.toNat (r.fetchLength off).toNat ≠ [] := by
    rw [← List.length_pos_iff, length_slice]
    omega
  rw [hres]
  have hon' := hon.receive off (r.fetchLength off) reply
  rcases rangeReply_of_answers (henv i) hne with ⟨err, herr⟩ | ⟨got, hgot, hgotne, hpre⟩
  · rw [herr] at hreply
    subst hreply
    exact ⟨nofun, hon', hwin, _ :: new, hplain', _, List.mem_cons_self, rfl⟩
  · rw [hgot] at hreply
    subst hreply
    obtain ⟨hok, hin⟩ := r.receive_eof off hlen hgotne
    have hwin' : (r.receive off (r.fetchLength off) (.ok ⟨got, .eof⟩)).2.Window c :=
      ChunkReader.window_receive hoff (fun body hbody => by cases hbody; exact hpre) hok
    rw [hok]
    refine ⟨⟨hon', hwin', _ :: new, hplain', ?_⟩, hwin', fun _ => hin⟩
    intro rc hrc
    rcases List.mem_cons.mp hrc with rfl | hrc
    · rfl
    · exact hnew rc hrc

/-- The state of a session without a data cache. -/
structure PlainSession (key : GoString) (c : Bytes) (env : Nat → Outcome) (s : ReadSession) :
    Prop where
  file : s.file.On key c
  window : s.file.reader.Window c
  world : Plain key c env s.world.ranges s.world

end Reads

/-- The ranged requests of a call, newest first. -/
def ReadSession.fetches (s : ReadSession) (op : ReadOp) : List RangeCall :=
  (s.step op).world.ranges.take ((s.step op).world.ranges.length - s.world.ranges.length)

/-- Buffers are not empty, and reads are followed to their end. -/
def ReadOp.Admissible : ReadOp → Prop
  | .read fuel n => 0 < n ∧ 2 * n < fuel
  | .seek .. => True

/-- The call does what it would do to the contents `c` and a cursor. A `Read` returns
bytes at the cursor and advances it by their number; if all its fetches are answered
it returns all that was asked for, with `io.EOF` exactly if it reached the end; and it
returns no bytes and `io.EOF` exactly if the cursor was at or behind the end. A `Seek`
moves the cursor as `lseek` does. -/
def ReadsLikeFile (c : Bytes) (s : ReadSession) (op : ReadOp) : Prop :=
  match op with
  | .read _ n => ∃ data err, s.reply op = .read (some (data, err)) ∧
      data <+: c.drop s.file.offset.toNat ∧
      (s.step op).file.offset = s.file.offset + data.length ∧
      ((∀ rc ∈ s.fetches op, rc.reply.isOk = true) →
        (data, err) = ChunkReader.wholeRead c n s.file.offset) ∧
      (data = [] ∧ err = some .eof ↔ c.length ≤ s.file.offset)
  | .seek offset whence =>
    match seekTarget c.length s.file.offset.toNat offset.toInt whence with
    | some t => s.reply op = .seek (.ok t) ∧ (s.step op).file.offset = t
    | none => (∃ err, s.reply op = .seek (.error err)) ∧
        (s.step op).file.offset = s.file.offset

section Steps

variable {key : GoString} {c : Bytes} {env : Nat → Outcome} {s : ReadSession}

theorem PlainSession.read (h : PlainSession key c env s) (henv : ∀ i, (env i).Answers)
    (hlen : (c.length : Int) < offsetLimit) {fuel n : Nat} (hn : 0 < n) (hfuel : 2 * n < fuel) :
    ReadsLikeFile c s (.read fuel n) ∧ PlainSession key c env (s.step (.read fuel n)) := by
  obtain ⟨hspec, hsome⟩ := ChunkReader.triple_readAt_rule
    (B := fun _ => AllFetched key c env s.world.ranges)
    (K := FetchRefused key c env s.world.ranges)
    (fun _ _ _ hB => hB.1) (fun _ _ _ hK => hK.2.1) (fun _ _ _ _ hB _ => hB)
    (fun off r hoff hlt _ => triple_fetchChunk_answers henv s.world.ranges r off hoff hlt)
    (fun off r w hB => ⟨hB.1.track off, hB.2.1.track off, hB.2.2⟩)
    (fun _ _ _ _ hB => ⟨⟨hB.1.s3Key, hB.1.size, hB.1.chunkSize⟩, hB.2⟩)
    (fun _ _ _ _ hK => ⟨hK.1, ⟨hK.2.1.s3Key, hK.2.1.size, hK.2.1.chunkSize⟩, hK.2.2⟩)
    n fuel s.file.reader s.file.offset h.file.offset.1 s.world
    ⟨⟨h.file.reader, h.window, [], h.world, nofun⟩, fun _ => h.window⟩
  have hread := ReadSession.read_eq h.file fuel n
  rcases hrun : (s.file.reader.readAt fuel n s.file.offset).run World.handle s.world with
    ⟨_ | ⟨⟨data, err⟩, r⟩, w⟩
  · rw [hrun] at hsome
    cases hsome trivial hfuel
  · rw [hrun] at hspec hread
    obtain ⟨hreply, hstep⟩ := hread
    obtain ⟨hbytes, -, houtcome⟩ := hspec (data, err) r rfl
    dsimp only at hbytes houtcome
    have hpre : data <+: c.drop s.file.offset.toNat := hbytes ▸ List.take_prefix _ _
    -- the requests of this read, and what is known of its last state
    obtain ⟨new, hplain, hon, hwin, hwhole, heof⟩ : ∃ new,
        Plain key c env (new ++ s.world.ranges) w ∧ r.On key c ∧ r.Window c ∧
        ((∀ rc ∈ new, rc.reply.isOk = true) →
          (data, err) = ChunkReader.wholeRead c n s.file.offset) ∧
        (data = [] ∧ err = some .eof ↔ c.length ≤ s.file.offset) := by
      rcases houtcome with ⟨⟨-, hon, hwin, new, hplain, -⟩, hx⟩ |
        ⟨e, ⟨he, hon, hwin, new, hplain, rc, hrc, hfail⟩, hbefore, herr⟩
      · refine ⟨new, hplain, hon, hwin, fun _ => hx, ?_⟩
        rw [← ChunkReader.wholeRead_eq_eof hn h.file.offset.1, ← hx, Prod.mk.injEq]
      · refine ⟨new, hplain, hon, hwin, fun hall => ?_, ?_⟩
        · rw [hall rc hrc] at hfail
          cases hfail
        · refine iff_of_false (fun ⟨hnil, heof⟩ => ?_) (by omega)
          rw [if_pos hnil] at herr
          exact he (Option.some.inj (herr.symm.trans heof))
    have hfetches : s.fetches (.read fuel n) = new := by
      rw [ReadSession.fetches, hstep, hplain.ranges, List.length_append, Nat.add_sub_cancel,
        List.take_left]
    refine ⟨⟨data, err, hreply, hpre, by rw [hstep], fun hall => hwhole (hfetches ▸ hall), heof⟩, ?_⟩
    rw [hstep]
    exact ⟨h.file.advance hlen hon hbytes, hwin, hplain.ranges ▸ hplain⟩

theorem PlainSession.seek (h : PlainSession key c env s) (hlen : (c.length : Int) < offsetLimit)
    (offset : Int64) (whence : Int) :
    ReadsLikeFile c s (.seek offset whence) ∧ PlainSession key c env (s.step (.seek offset whence)) := by
  have hseek := S3File.seek_spec h.file hlen offset whence
  unfold ReadsLikeFile ReadSession.reply ReadSession.step
  dsimp only
  split at hseek
  · next htarget =>
    obtain ⟨err, hseek⟩ := hseek
    rw [htarget, hseek]
    exact ⟨⟨⟨err, rfl⟩, rfl⟩, h⟩
  · next t htarget =>
    obtain ⟨chunked, hseek, hchunked⟩ := hseek
    rw [htarget, hseek]
    exact ⟨⟨rfl, rfl⟩, h.file.sought (lt_of_seekTarget htarget) hchunked,
      S3File.window_sought h.window hchunked, h.world⟩

end Steps

/-- A session on a file as `OpenFile` returns it for the object `key` with contents `c`. -/
structure ReadSession.Fresh (key : GoString) (c : Bytes) (s : ReadSession) : Prop where
  stored : s.world.bucket.dataAt key = some c
  s3Key : s.file.s3Key = key
  size : s.file.info.size = c.length
  opened : s.file.closed = false
  isFile : s.file.isDir = false
  offset : s.file.offset = 0
  chunked : s.file.chunked = none

/-- Prefetching is invisible: on a file without a data cache, and with an S3 that
refuses a ranged request or answers it with some bytes of the range, every `Read` and
`Seek` of every run does what it would do to the contents and a cursor. -/
theorem readsLikeFile_eachStep {key : GoString} {c : Bytes} {s : ReadSession}
    (hs : s.Fresh key c) (hcache : s.world.dataCache = none)
    (henv : ∀ i, (s.world.env i).Answers) (hlen : (c.length : Int) < offsetLimit)
    {ops : List ReadOp} (hops : ∀ op ∈ ops, op.Admissible) :
    EachStep ReadSession.step (ReadsLikeFile c) s ops := by
  obtain ⟨hon, hwin⟩ := S3File.on_of_fresh hs.opened hs.isFile hs.offset hs.size hs.chunked
  rw [hs.s3Key] at hon
  refine EachStep.of_invariant (I := PlainSession key c s.world.env) (fun s' op h hop => ?_)
    ⟨hon, hwin, hcache, hs.stored, rfl, rfl⟩ (EachStep.of_forall hops)
  cases op with
  | read fuel n => exact h.read henv hlen hop.1 hop.2
  | seek offset whence => exact h.seek hlen offset whence

/-- A session on an object of three bytes. -/
def threeByteSession (env : Nat → Outcome) : ReadSession :=
  { world := { World.start (.onlyF [1, 2, 3] (gs "e")) with env }
    file :=
      { path := gs "/f", s3Key := gs "f", info := newFileInfoFromS3 (gs "f") 3 0 false 2 ∅
        isDir := false, writable := false, offset := 0, chunked := none, closed := false
        etag := gs "e" } }

theorem fresh_threeByteSession (env : Nat → Outcome) :
    (threeByteSession env).Fresh (gs "f") [1, 2, 3] :=
  ⟨rfl, rfl, rfl, rfl, rfl, rfl, rfl⟩

/-- S3 sends one byte at a time; two bytes are read, then one from the end. -/
theorem readsLikeFile_byte_by_byte :
    EachStep ReadSession.step (ReadsLikeFile [1, 2, 3])
      (threeByteSession fun _ => { Outcome.fine with fault := .body 1 .eof })
      [.read 5 2, .seek (-1) 2, .read 5 2] ∧
    outputs ReadSession.step ReadSession.reply
      (threeByteSession fun _ => { Outcome.fine with fault := .body 1 .eof })
      [.read 5 2, .seek (-1) 2, .read 5 2] =
      [.read (some ([1, 2], none)), .seek (.ok 2), .read (some ([3], some .eof))] := by
  have hanswers : ({ Outcome.fine with fault := .body 1 .eof } : Outcome).Answers :=
    ⟨Nat.one_pos, rfl⟩
  refine ⟨readsLikeFile_eachStep (fresh_threeByteSession _) rfl (fun _ => hanswers)
    (by decide) fun op hop => ?_, by decide⟩
  simp only [List.mem_cons, List.not_mem_nil, or_false] at hop
  rcases hop with rfl | rfl | rfl
  · exact ⟨by decide, by decide⟩
  · trivial
  · exact ⟨by decide, by decide⟩

end S3Gateway
