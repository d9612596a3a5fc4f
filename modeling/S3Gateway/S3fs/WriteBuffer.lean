import S3Gateway.S3fs.Summary

/-!
# The write buffer as a file

An `s3WritableFile` buffers an object in a temp file that is filled by the first
read, write or seek, so its meaning depends on the whole history of calls. Seen
from outside it is nothing but a file: from the first call on its contents, every
call returns, and `Close` uploads, what a plain file (`ByteFile`) would that held
the object's bytes from the moment it was opened.

`Buffers data f ref` is the simulation behind this: either nothing has been
downloaded, and the reference file is still as it was opened, or the temp file is
the reference file. In the first case `Close` uploads an empty temp file, which
is why a handle that is opened and closed at once empties the object.
-/

namespace S3Gateway

open Lib

/-! ## Calls on one writable file -/

/-- The services and one writable file. -/
structure WriteSession where
  world : World
  file : S3WritableFile

namespace WriteSession

/-- What the next call returns. -/
def reply (s : WriteSession) (op : FileOp) : Reply :=
  ((s.file.call op).run World.handle s.world).1.1

/-- The session after the next call. -/
def step (s : WriteSession) (op : FileOp) : WriteSession :=
  { world := ((s.file.call op).run World.handle s.world).2
    file := ((s.file.call op).run World.handle s.world).1.2 }

end WriteSession

/-- The session of a writable file that `OpenFile` returns. -/
def openWritable (path : GoString) (flags : Nat) (w : World) : Option WriteSession :=
  match (openFile path flags).run World.handle w with
  | (.ok (.s3WritableFile f), w) => some ⟨w, f⟩
  | _ => none

/-- The same call on a plain file. `Stat`, `Sync`, `Readdir` and `Close` do not
concern the contents. -/
def referenceCall (ref : ByteFile UInt8) : FileOp → Reply × ByteFile UInt8
  | .read _ n => (.bytes (S3WritableFile.tmpRead n ref).1, (S3WritableFile.tmpRead n ref).2)
  | .write p => (.count (S3WritableFile.tmpWrite p ref).1, (S3WritableFile.tmpWrite p ref).2)
  | .seek offset whence =>
    (.count (S3WritableFile.tmpSeek offset whence ref).1,
      (S3WritableFile.tmpSeek offset whence ref).2)
  | .truncate => (.unit (.ok ()), ref.truncate)
  | _ => (.unit (.ok ()), ref)

/-- The plain file after the call. -/
def referenceStep (ref : ByteFile UInt8) (op : FileOp) : ByteFile UInt8 := (referenceCall ref op).2

/-- What the call on the plain file returns. -/
def referenceReply (ref : ByteFile UInt8) (op : FileOp) : Reply := (referenceCall ref op).1

/-- `Read`, `Write`, `Seek` and `Truncate`. -/
def FileOp.onContents : FileOp → Bool
  | .read .. | .write .. | .seek .. | .truncate => true
  | _ => false

/-- Calls that are not meant to change the object: anything but `Truncate`,
`Close` and a `Write` of some bytes. -/
def FileOp.unmodifying : FileOp → Bool
  | .write p => p = []
  | .truncate | .close => false
  | _ => true

/-! ## The temp file -/

namespace S3WritableFile

/-- A download fills the temp file at its cursor, as far as the transport lets it. -/
theorem run_ensureDownloaded {f : S3WritableFile} {w : World} {data : Bytes}
    (hd : f.downloaded = false) (hdata : w.bucket.dataAt f.s3Key = some data) :
    f.ensureDownloaded.run World.handle w =
      match w.outcome.fault with
      | .none =>
        ((.ok (), { f with tmp := ⟨(f.tmp.write data).data, 0⟩, downloaded := true }), w.begin)
      | .call err => ((.error (.wrap (gs "download " ++ f.s3Key) err), f), w.begin)
      | .body n err =>
        if err ≠ .eof then
          ((.error (.wrap (gs "buffer " ++ f.s3Key ++ gs " to temp") err),
            { f with tmp := f.tmp.write (data.take n) }), w.begin)
        else
          ((.ok (), { f with tmp := ⟨(f.tmp.write (data.take n)).data, 0⟩, downloaded := true }),
            w.begin) := by
  obtain ⟨o, ho, rfl⟩ := Option.map_eq_some_iff.mp hdata
  have hget : w.begin.bucket.getObject f.s3Key = .ok o.data := by
    rw [World.begin_bucket, Bucket.getObject, ho]
  unfold ensureDownloaded
  rw [hd, if_neg (by decide)]
  simp only [Prog.run_bind, Prog.run_call, World.handle, World.answer, hget]
  cases w.outcome.fault with
  | none => rfl
  | call err => rfl
  | body n err =>
    by_cases herr : err = .eof
    · subst herr
      rfl
    · simp [Fault.callError, Fault.deliver, Except.map, herr]

/-- A call on the temp file acts on it once the contents are there. -/
theorem run_onTmp {α : Type} {f : S3WritableFile} (hc : f.closed = false)
    (act : ByteFile UInt8 → Except GoError α × ByteFile UInt8) (w : World) :
    (f.onTmp act).run World.handle w =
      match f.ensureDownloaded.run World.handle w with
      | ((.error err, f), w) => ((.error err, f), w)
      | ((.ok (), f), w) => (((act f.tmp).1, { f with tmp := (act f.tmp).2 }), w) := by
  unfold onTmp
  rw [hc, if_neg (by decide)]
  simp only [Prog.run_bind]
  rcases f.ensureDownloaded.run World.handle w with ⟨⟨_ | _, f'⟩, w'⟩ <;> rfl

/-- The first `Close` uploads the temp file, unless the transport fails the
upload. -/
theorem run_close {f : S3WritableFile} (hc : f.closed = false) (hk : f.s3Key ≠ []) (w : World) :
    match w.outcome.fault.callError with
    | some err => f.close.run World.handle w =
        ((.error (.wrap (gs "upload to S3") err), { f with closed := true }), w.begin)
    | none => (f.close.run World.handle w).1 = (.ok (), { f with closed := true }) ∧
        (f.close.run World.handle w).2.env = w.env ∧
        ∃ o, o.data = f.tmp.data ∧
          (f.close.run World.handle w).2.bucket = w.bucket.put f.s3Key o hk := by
  unfold close
  rw [hc, if_neg (by decide)]
  cases hf : w.outcome.fault.callError with
  | some err => simp [World.handle, World.mutate, hf]
  | none =>
    let o : Object := ⟨f.tmp.data, defaultMetadata, w.begin.clock, w.outcome.etag⟩
    have hput : World.handle (.putObject f.s3Key f.tmp.data defaultMetadata) w =
        (.ok (), { w.begin with bucket := w.bucket.put f.s3Key o hk }) := by
      simp only [World.handle, World.mutate, hf]
      rw [Bucket.putObject_of_ne _ hk]
      rfl
    simp only [Prog.run_bind, Prog.run_call, hput, cacheInvalidate, cacheInvalidateParent,
      dataCacheInvalidate, cachePut, Prog.run_pure, World.handle_env]
    refine ⟨trivial, rfl, o, rfl, ?_⟩
    repeat rw [World.handle_bucket rfl]

end S3WritableFile

/-! ## The simulation -/

/-- The file buffers a plain file `ref` that held `data` when it was opened. -/
structure Buffers (data : Bytes) (f : S3WritableFile) (ref : ByteFile UInt8) : Prop where
  opened : f.closed = false
  fresh : f.downloaded = false → f.tmp = .empty ∧ ref = .ofData data
  filled : f.downloaded = true → f.tmp = ref

/-- On a reliable S3, a call on the temp file is the same call on the reference
file, whether or not it has to download first. -/
theorem Buffers.run_onTmp {α : Type} {data : Bytes} {f : S3WritableFile} {ref : ByteFile UInt8}
    (h : Buffers data f ref) {w : World} (hw : w.NoFaults)
    (hdata : w.bucket.dataAt f.s3Key = some data)
    (act : ByteFile UInt8 → Except GoError α × ByteFile UInt8) :
    ∃ w', (f.onTmp act).run World.handle w =
        (((act ref).1, { f with tmp := (act ref).2, downloaded := true }), w') ∧
      w'.bucket = w.bucket ∧ w'.NoFaults := by
  rw [S3WritableFile.run_onTmp h.opened]
  cases hd : f.downloaded with
  | true =>
    have hskip : f.ensureDownloaded = pure (.ok (), f) := by
      rw [S3WritableFile.ensureDownloaded, if_pos hd]
    rw [hskip, ← h.filled hd]
    refine ⟨w, ?_, rfl, hw⟩
    simp [← hd]
  | false =>
    obtain ⟨htmp, rfl⟩ := h.fresh hd
    rw [S3WritableFile.run_ensureDownloaded hd hdata, hw.outcome]
    refine ⟨w.begin, ?_, rfl, hw⟩
    simp [htmp, ByteFile.write_empty, ByteFile.ofData]

/-- On a reliable S3 that stores `data` under `key`, the session's file buffers
`ref`. -/
structure WriteSession.Refines (key : GoString) (data : Bytes) (s : WriteSession)
    (ref : ByteFile UInt8) : Prop where
  noFaults : s.world.NoFaults
  s3Key : s.file.s3Key = key
  stored : s.world.bucket.dataAt key = some data
  buffers : Buffers data s.file ref

namespace WriteSession.Refines

variable {key : GoString} {data : Bytes} {s : WriteSession} {ref : ByteFile UInt8}

/-- A call that acts on the temp file. -/
theorem onTmp (h : s.Refines key data ref) {α : Type} (op : FileOp)
    (act : ByteFile UInt8 → Except GoError α × ByteFile UInt8) (toReply : Except GoError α → Reply)
    (hcall : s.file.call op = do
      let (r, f) ← s.file.onTmp act
      pure (toReply r, f)) :
    s.reply op = toReply (act ref).1 ∧ (s.step op).Refines key data (act ref).2 ∧
      (s.step op).file.downloaded = true := by
  obtain ⟨w', hrun, hbucket, hw'⟩ :=
    h.buffers.run_onTmp h.noFaults (h.s3Key ▸ h.stored) act
  have hcallrun : (s.file.call op).run World.handle s.world =
      ((toReply (act ref).1, { s.file with tmp := (act ref).2, downloaded := true }), w') := by
    rw [hcall, Prog.run_bind, hrun]
    rfl
  unfold WriteSession.reply WriteSession.step
  rw [hcallrun]
  refine ⟨rfl, ⟨hw', h.s3Key, ?_, h.buffers.opened, fun hd => ?_, fun _ => rfl⟩, rfl⟩
  · exact hbucket ▸ h.stored
  · cases hd

/-- Every call but `Close` keeps the simulation. Calls on the contents return what
the reference file returns, and after them the temp file is filled. -/
theorem step (h : s.Refines key data ref) {op : FileOp} (hop : op ≠ .close) :
    (s.step op).Refines key data (referenceStep ref op) ∧
      (op.onContents = true → s.reply op = referenceReply ref op) ∧
      (s.step op).file.downloaded = (s.file.downloaded || op.onContents) := by
  cases op with
  | read fuel n =>
    obtain ⟨hr, hs, hd⟩ := h.onTmp (.read fuel n) (S3WritableFile.tmpRead n) .bytes rfl
    exact ⟨hs, fun _ => hr, by rw [hd]; simp [FileOp.onContents]⟩
  | write p =>
    obtain ⟨hr, hs, hd⟩ := h.onTmp (.write p) (S3WritableFile.tmpWrite p) .count rfl
    exact ⟨hs, fun _ => hr, by rw [hd]; simp [FileOp.onContents]⟩
  | seek offset whence =>
    obtain ⟨hr, hs, hd⟩ :=
      h.onTmp (.seek offset whence) (S3WritableFile.tmpSeek offset whence) .count rfl
    exact ⟨hs, fun _ => hr, by rw [hd]; simp [FileOp.onContents]⟩
  | truncate =>
    have htrunc : s.file.truncate =
        (.ok (), { s.file with downloaded := true, tmp := s.file.tmp.truncate }) := by
      rw [S3WritableFile.truncate, if_neg (by simp [h.buffers.opened])]
    -- emptied before it was filled, the temp file has its cursor at the start, too
    have htmp : s.file.tmp.truncate = ref.truncate := by
      cases hd : s.file.downloaded with
      | true => rw [h.buffers.filled hd]
      | false =>
        obtain ⟨htmp, rfl⟩ := h.buffers.fresh hd
        rw [htmp]
        rfl
    simp only [WriteSession.step, WriteSession.reply, S3WritableFile.call, Prog.run_pure, htrunc]
    refine ⟨⟨h.noFaults, h.s3Key, h.stored, h.buffers.opened, fun hd => ?_, fun _ => htmp⟩,
      fun _ => rfl, by simp [FileOp.onContents]⟩
    cases hd
  | readdir count =>
    refine ⟨h, fun hd => ?_, (Bool.or_false _).symm⟩
    cases hd
  | stat =>
    refine ⟨h, fun hd => ?_, (Bool.or_false _).symm⟩
    cases hd
  | sync =>
    refine ⟨h, fun hd => ?_, (Bool.or_false _).symm⟩
    cases hd
  | close => exact absurd rfl hop

/-- The first `Close` uploads the temp file. -/
theorem close (h : s.Refines key data ref) (hk : key ≠ []) :
    s.reply .close = .unit (.ok ()) ∧
      (s.step .close).world.bucket.dataAt key = some s.file.tmp.data := by
  have hk' : s.file.s3Key ≠ [] := by rwa [h.s3Key]
  have hclose := S3WritableFile.run_close h.buffers.opened hk' s.world
  rw [h.noFaults.outcome] at hclose
  obtain ⟨hr, -, o, ho, hb⟩ := hclose
  simp only [WriteSession.reply, WriteSession.step, S3WritableFile.call, Prog.run_bind, hr,
    Prog.run_pure, hb, ← ho]
  refine ⟨trivial, ?_⟩
  rw [← h.s3Key]
  exact Bucket.dataAt_put _ _ _ _

/-- A run without `Close`: the reference file follows, and the temp file is filled
by the first call on the contents. -/
theorem foldl (h : s.Refines key data ref) {ops : List FileOp} (hops : ∀ op ∈ ops, op ≠ .close) :
    (ops.foldl WriteSession.step s).Refines key data (ops.foldl referenceStep ref) ∧
      (ops.foldl WriteSession.step s).file.downloaded =
        (s.file.downloaded || ops.any FileOp.onContents) := by
  induction ops generalizing s ref with
  | nil => exact ⟨h, (Bool.or_false _).symm⟩
  | cons op ops ih =>
    obtain ⟨hstep, -, hd⟩ := h.step (hops op List.mem_cons_self)
    obtain ⟨hrun, hd'⟩ := ih hstep fun op' hop' => hops op' (List.mem_cons_of_mem _ hop')
    exact ⟨hrun, by rw [List.foldl_cons, hd', hd, List.any_cons, Bool.or_assoc]⟩

end WriteSession.Refines

/-- What `OpenFile` has done when it returns a writable file. -/
theorem Opened.writableFile {b b' : Bucket} {path : GoString} {f : S3WritableFile}
    (h : Opened b path b' (.s3WritableFile f)) :
    s3KeyFromPath path ≠ [] ∧ f.s3Key = s3KeyFromPath path ∧ f.tmp = .empty ∧ f.closed = false ∧
      b'.dataAt (s3KeyFromPath path) = some ((b.dataAt (s3KeyFromPath path)).getD []) ∧
      f.downloaded = (b.get (s3KeyFromPath path)).isNone := by
  cases h with
  | writable info ho =>
    exact ⟨Bucket.ne_nil_of_get ho, rfl, rfl, rfl, by simp [Bucket.dataAt, ho], by simp [ho]⟩
  | created info hk hnone ho =>
    exact ⟨hk, rfl, rfl, rfl, by simp [Bucket.dataAt, hnone, ho], by simp [hnone]⟩

/-- A writable file that was just opened buffers the object's bytes, or nothing if
there was no object. -/
theorem refines_of_openWritable {path : GoString} {flags : Nat} {w : World} {s : WriteSession}
    (hw : w.NoFaults) (hopen : openWritable path flags w = some s) :
    s3KeyFromPath path ≠ [] ∧ s.file.downloaded = (w.bucket.get (s3KeyFromPath path)).isNone ∧
      s.Refines (s3KeyFromPath path) ((w.bucket.dataAt (s3KeyFromPath path)).getD [])
        (.ofData ((w.bucket.dataAt (s3KeyFromPath path)).getD [])) := by
  have hopened : s.world.NoFaults ∧ Opened w.bucket path s.world.bucket (.s3WritableFile s.file) := by
    have htriple := triple_openFile path flags w ⟨hw, rfl, rfl, Int.le_refl _⟩
    unfold openWritable at hopen
    split at hopen
    · next f w' hrun =>
      cases hopen
      rw [hrun] at htriple
      rcases htriple with ⟨⟨c', -, hat⟩, hf⟩ | ⟨hk, o, -, -, -, -, ⟨c', -, hat⟩, hf⟩
      all_goals exact ⟨hat.noFaults, hat.bucket ▸ hf _ rfl⟩
    · cases hopen
  obtain ⟨hw', hopened⟩ := hopened
  obtain ⟨hk, hkey, htmp, hclosed, hdata, hdown⟩ := hopened.writableFile
  refine ⟨hk, hdown, hw', hkey, hdata, hclosed, fun _ => ⟨htmp, rfl⟩, fun hd => ?_⟩
  -- a file that needs no download is new, and its object empty
  rw [hdown, Option.isNone_iff_eq_none] at hd
  simp only [Bucket.dataAt, hd]
  exact htmp

/-! ## Refinement -/

/-- A bucket with one object, `f`, of one byte. -/
def oneByteBucket : Bucket := .onlyF [1] []

/-- Calls that are not meant to change a file leave the contents of a plain file
alone. -/
theorem referenceStep_data_of_unmodifying {op : FileOp} (hop : op.unmodifying = true)
    (ref : ByteFile UInt8) : (referenceStep ref op).data = ref.data := by
  cases op with
  | read fuel n =>
    simp only [referenceStep, referenceCall, S3WritableFile.tmpRead]
    split <;> rfl
  | write p =>
    have hp : p = [] := by simpa [FileOp.unmodifying] using hop
    simp [referenceStep, referenceCall, S3WritableFile.tmpWrite, hp]
  | seek offset whence =>
    simp only [referenceStep, referenceCall, S3WritableFile.tmpSeek]
    split
    · next ref' h => exact ByteFile.seek_data h
    · rfl
  | truncate => cases hop
  | close => cases hop
  | readdir _ => rfl
  | stat => rfl
  | sync => rfl

theorem foldl_referenceStep_data_of_unmodifying {ops : List FileOp}
    (hops : ∀ op ∈ ops, op.unmodifying = true) (ref : ByteFile UInt8) :
    (ops.foldl referenceStep ref).data = ref.data := by
  induction ops generalizing ref with
  | nil => rfl
  | cons op ops ih =>
    rw [List.foldl_cons, ih fun op' hop' => hops op' (List.mem_cons_of_mem _ hop'),
      referenceStep_data_of_unmodifying (hops op List.mem_cons_self)]

/-- A handle on an existing object that is closed without having been modified
leaves the object's bytes alone exactly if the object is empty or some `Read`,
`Seek` or empty `Write` has downloaded it. -/
theorem close_unmodified_keeps_data_iff {path : GoString} {flags : Nat} {w : World}
    {s : WriteSession} {o : Object} (hw : w.NoFaults)
    (ho : w.bucket.get (s3KeyFromPath path) = some o) (hopen : openWritable path flags w = some s)
    {ops : List FileOp} (hops : ∀ op ∈ ops, op.unmodifying = true) :
    ((ops.foldl WriteSession.step s).step .close).world.bucket.dataAt (s3KeyFromPath path) =
        some o.data ↔
      o.data = [] ∨ ∃ op ∈ ops, op.onContents = true := by
  obtain ⟨hk, hd, hopened⟩ := refines_of_openWritable hw hopen
  have hdata : (w.bucket.dataAt (s3KeyFromPath path)).getD [] = o.data := by
    rw [Bucket.dataAt, ho]
    rfl
  have hnotclose : ∀ op ∈ ops, op ≠ .close := by
    rintro op hop rfl
    cases hops _ hop
  rw [hdata] at hopened
  obtain ⟨hrun, hd'⟩ := hopened.foldl hnotclose
  rw [hd, ho] at hd'
  rw [(hrun.close hk).2, Option.some_inj]
  cases hany : ops.any FileOp.onContents with
  | true =>
    rw [hany] at hd'
    rw [hrun.buffers.filled hd', foldl_referenceStep_data_of_unmodifying hops]
    exact iff_of_true rfl (Or.inr (List.any_eq_true.mp hany))
  | false =>
    rw [hany] at hd'
    rw [(hrun.buffers.fresh hd').1]
    have hnone : ¬ ∃ op ∈ ops, op.onContents = true := by
      rw [← List.any_eq_true, hany]
      exact Bool.false_ne_true
    rw [or_iff_left hnone]
    exact eq_comm

/-- Reading the object first saves it. -/
theorem close_after_read_keeps_data :
    ∃ s, openWritable (gs "/f") oRDWR (.start oneByteBucket) = some s ∧
      (([.read 0 0].foldl WriteSession.step s).step .close).world.bucket.dataAt (gs "f") =
        some [1] := by
  obtain ⟨s, hs⟩ := Option.isSome_iff_exists.mp
    (show (openWritable (gs "/f") oRDWR (.start oneByteBucket)).isSome by decide)
  have hops : ∀ op ∈ [FileOp.read 0 0], op.unmodifying = true := by simp [FileOp.unmodifying]
  have ho : (World.start oneByteBucket).bucket.get (s3KeyFromPath (gs "/f")) =
      some ⟨[1], ∅, 0, []⟩ := rfl
  exact ⟨s, hs, (close_unmodified_keeps_data_iff (fun _ => rfl) ho hs hops).mpr
    (Or.inr ⟨.read 0 0, List.mem_singleton_self _, rfl⟩)⟩

/-- Opening an object for writing and closing the handle at once empties it. -/
theorem open_close_empties_object :
    (World.start oneByteBucket).NoFaults ∧ oneByteBucket.dataAt (gs "f") = some [1] ∧
      (openWritable (gs "/f") oRDWR (.start oneByteBucket)).map
        (fun s => (s.step .close).world.bucket.dataAt (gs "f")) = some (some []) :=
  ⟨fun _ => rfl, by decide, by decide⟩

end S3Gateway
