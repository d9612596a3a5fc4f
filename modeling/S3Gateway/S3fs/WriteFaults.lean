import S3Gateway.S3fs.WriteBuffer

/-!
# Writable files on an unreliable S3

What a writable file promises when transfers fail: the object keeps its bytes
until a `Close` has returned `nil`, and from then on it holds the bytes it had,
with exactly the successful writes and truncations applied. A run carries what
the promise is about: the reference file that follows the successful calls, and
whether a `Close` has returned `nil`.

A download that dies midway leaves its bytes in the temp file, the cursor behind
them, and the file not downloaded (`Torn`). The next call then downloads the
object behind those bytes, or truncates without moving the cursor back; and
`Close` uploads whatever the temp file holds, downloaded or not, and returns `nil`
when it is called again after a failed upload. `Careful` excludes these calls,
and in runs without them the promise is kept.
-/

namespace S3Gateway

open Lib

/-- A body that is cut off does not look like one that has ended. -/
def World.BodiesFail (w : World) : Prop := ∀ i n err, (w.env i).fault = .body n err → err ≠ .eof

/-- Whether the call succeeded. -/
def Reply.ok : Reply → Bool
  | .bytes r => r.isOk
  | .count r => r.isOk
  | .unit r => r.isOk
  | .info _ => true

/-- A session on a writable file, the reference file that follows its successful
calls, and whether a `Close` has returned `nil`. -/
structure WriteRun where
  session : WriteSession
  ref : ByteFile UInt8
  closedOk : Bool

/-- A download died midway and left bytes in the temp file. -/
def S3WritableFile.Torn (f : S3WritableFile) : Prop :=
  f.closed = false ∧ f.downloaded = false ∧ f.tmp.data ≠ []

instance (f : S3WritableFile) : Decidable f.Torn := inferInstanceAs (Decidable (_ ∧ _ ∧ _))

namespace WriteRun

/-- The bytes S3 has. -/
def stored (r : WriteRun) : Option Bytes := r.session.world.bucket.dataAt r.session.file.s3Key

/-- The next call. -/
def step (r : WriteRun) (op : FileOp) : WriteRun :=
  let ok := (r.session.reply op).ok
  { session := r.session.step op
    ref := if ok then referenceStep r.ref op else r.ref
    closedOk := r.closedOk || (ok && decide (op = .close)) }

/-- The promise, for an object that held `data`. -/
def Safe (data : Bytes) (r : WriteRun) : Prop :=
  r.stored = some (if r.closedOk then r.ref.data else data)

/-- The calls that keep the promise. On a torn file, a call that would download
again must fail to; a torn file is not truncated; a file is first closed once it
has been downloaded, or if its temp file holds the object's bytes anyway, or if
the upload fails; and it is closed again only if the object is as it should be. -/
def Careful (r : WriteRun) : FileOp → Prop
  | .read .. | .write .. | .seek .. =>
    r.session.file.Torn → r.session.world.outcome.fault ≠ .none
  | .truncate => ¬ r.session.file.Torn
  | .close =>
    if r.session.file.closed then r.stored = some r.ref.data
    else r.session.file.downloaded = true ∨ r.stored = some r.session.file.tmp.data ∨
      r.session.world.outcome.fault.callError ≠ none
  | .readdir _ | .stat | .sync => True

instance (r : WriteRun) (op : FileOp) : Decidable (r.Careful op) :=
  match op with
  | .read .. | .write .. | .seek .. => inferInstanceAs (Decidable (_ → _))
  | .truncate => inferInstanceAs (Decidable (¬ _))
  | .close => inferInstanceAs (Decidable (ite ..))
  | .readdir _ | .stat | .sync => inferInstanceAs (Decidable True)

/-! ## The invariant -/

/-- While the file is open the object is untouched and the reference file is the
temp file, or nothing has happened to it because the download is still due; in
the latter case the temp file's cursor is at its end. -/
structure Inv (data : Bytes) (r : WriteRun) : Prop where
  bodies : r.session.world.BodiesFail
  safe : r.Safe data
  opened : r.session.file.closed = false → r.closedOk = false
  filled : r.session.file.closed = false → r.session.file.downloaded = true →
    r.session.file.tmp = r.ref
  due : r.session.file.closed = false → r.session.file.downloaded = false →
    r.ref = .ofData data ∧ r.session.file.tmp.pos = r.session.file.tmp.data.length

variable {data : Bytes} {r : WriteRun}

theorem Inv.stored_eq (h : r.Inv data) (hc : r.session.file.closed = false) :
    r.session.world.bucket.dataAt r.session.file.s3Key = some data := by
  have hs := h.safe
  rwa [Safe, h.opened hc] at hs

/-- A file whose download is due and that is not torn is empty. -/
theorem Inv.tmp_of_not_torn (h : r.Inv data) (hc : r.session.file.closed = false)
    (hd : r.session.file.downloaded = false) (ht : ¬ r.session.file.Torn) :
    r.session.file.tmp = .empty := by
  have hdata : r.session.file.tmp.data = [] := by
    by_contra hne
    exact ht ⟨hc, hd, hne⟩
  have hpos := (h.due hc hd).2
  rw [hdata] at hpos
  exact ByteFile.ext hdata hpos

/-- What a call on the temp file does, whatever the transport does to its
download: the buffer and the reference file, which follows if the call succeeds,
stay as the invariant has them. -/
theorem Inv.run_onTmp (h : r.Inv data) {α : Type}
    (act : ByteFile UInt8 → Except GoError α × ByteFile UInt8)
    (hfail : ∀ t, (act t).1.isOk = false → (act t).2 = t)
    (hcare : r.session.file.Torn → r.session.world.outcome.fault ≠ .none) :
    ∃ x f w, (r.session.file.onTmp act).run World.handle r.session.world = ((x, f), w) ∧
      w.env = r.session.world.env ∧ w.bucket = r.session.world.bucket ∧
      f.s3Key = r.session.file.s3Key ∧ f.closed = r.session.file.closed ∧
      (f.closed = false → f.downloaded = true →
        f.tmp = if x.isOk then (act r.ref).2 else r.ref) ∧
      (f.closed = false → f.downloaded = false →
        (if x.isOk then (act r.ref).2 else r.ref) = .ofData data ∧
          f.tmp.pos = f.tmp.data.length) := by
  -- acting on the reference file leaves what the successful calls make of it
  have hact : (act r.ref).2 = if (act r.ref).1.isOk then (act r.ref).2 else r.ref := by
    cases hok : (act r.ref).1.isOk with
    | true => rfl
    | false => exact hfail r.ref hok
  cases hc : r.session.file.closed with
  | true =>
    have hrun : (r.session.file.onTmp act).run World.handle r.session.world =
        ((.error .errClosed, r.session.file), r.session.world) := by
      rw [S3WritableFile.onTmp, if_pos hc]
      rfl
    refine ⟨_, _, _, hrun, rfl, rfl, rfl, hc, fun hc' => ?_, fun hc' => ?_⟩
    all_goals
      rw [hc] at hc'
      cases hc'
  | false =>
    rw [S3WritableFile.run_onTmp hc]
    cases hd : r.session.file.downloaded with
    | true =>
      have hskip : r.session.file.ensureDownloaded.run World.handle r.session.world =
          ((.ok (), r.session.file), r.session.world) := by
        rw [S3WritableFile.ensureDownloaded, if_pos hd]
        rfl
      rw [hskip]
      dsimp only
      rw [h.filled hc hd]
      refine ⟨_, _, _, rfl, rfl, rfl, rfl, hc, fun _ _ => hact, fun _ hd' => ?_⟩
      rw [hd] at hd'
      cases hd'
    | false =>
      obtain ⟨href, hpos⟩ := h.due hc hd
      rw [S3WritableFile.run_ensureDownloaded hd (h.stored_eq hc)]
      cases hfault : r.session.world.outcome.fault with
      | none =>
        have htmp := h.tmp_of_not_torn hc hd fun ht => hcare ht hfault
        have hfull : (⟨(r.session.file.tmp.write data).data, 0⟩ : ByteFile UInt8) = r.ref := by
          rw [htmp, ByteFile.write_empty, href]
          rfl
        rw [hfull]
        refine ⟨_, _, _, rfl, rfl, rfl, rfl, hc, fun _ _ => hact, fun _ hd' => ?_⟩
        cases hd'
      | call err =>
        refine ⟨_, _, _, rfl, rfl, rfl, rfl, hc, fun _ hd' => ?_, fun _ _ => ⟨href, hpos⟩⟩
        rw [hd] at hd'
        cases hd'
      | body n err =>
        dsimp only
        rw [if_pos (h.bodies _ n err hfault)]
        refine ⟨_, _, _, rfl, rfl, rfl, rfl, hc, fun _ hd' => ?_, fun _ _ => ⟨href, ?_⟩⟩
        · rw [hd] at hd'
          cases hd'
        · show (r.session.file.tmp.write (data.take n)).pos =
            (r.session.file.tmp.write (data.take n)).data.length
          rw [ByteFile.write_end hpos]
          simp

/-- A call on the temp file keeps the invariant. -/
theorem Inv.onTmp (h : r.Inv data) {α : Type} (op : FileOp)
    (act : ByteFile UInt8 → Except GoError α × ByteFile UInt8) (toReply : Except GoError α → Reply)
    (hcall : r.session.file.call op = do
      let (x, f) ← r.session.file.onTmp act
      pure (toReply x, f))
    (href : referenceStep r.ref op = (act r.ref).2) (hok : ∀ x, (toReply x).ok = x.isOk)
    (hfail : ∀ t, (act t).1.isOk = false → (act t).2 = t) (hop : op ≠ .close)
    (hcare : r.session.file.Torn → r.session.world.outcome.fault ≠ .none) :
    (r.step op).Inv data := by
  obtain ⟨x, f, w, hrun, henv, hbucket, hkey, hclosed, hfilled, hdue⟩ :=
    h.run_onTmp act hfail hcare
  have hstep : r.step op =
      ⟨⟨w, f⟩, if x.isOk then (act r.ref).2 else r.ref, r.closedOk⟩ := by
    have hcallrun : (r.session.file.call op).run World.handle r.session.world =
        ((toReply x, f), w) := by
      rw [hcall, Prog.run_bind, hrun]
      rfl
    simp [WriteRun.step, WriteSession.step, WriteSession.reply, hcallrun, hok, href, hop]
  rw [hstep]
  refine ⟨fun i => henv ▸ h.bodies i, ?_, fun hc => h.opened (hclosed ▸ hc), hfilled, hdue⟩
  have hs := h.safe
  unfold Safe stored at hs ⊢
  dsimp only
  rw [hbucket, hkey, hs]
  -- only an open file's reference moves, and then no `Close` has returned `nil`
  cases hcl : r.session.file.closed with
  | false =>
    rw [h.opened hcl]
    rfl
  | true =>
    have hx : x.isOk = false := by
      rw [S3WritableFile.onTmp, if_pos hcl] at hrun
      cases hrun
      rfl
    rw [hx]
    rfl

theorem tmpRead_failed (n : Nat) (t : ByteFile UInt8)
    (h : (S3WritableFile.tmpRead n t).1.isOk = false) : (S3WritableFile.tmpRead n t).2 = t := by
  unfold S3WritableFile.tmpRead at h ⊢
  split at h
  · next hcond => rw [if_pos hcond]
  · cases h

theorem tmpSeek_failed (offset : Int64) (whence : Int) (t : ByteFile UInt8)
    (h : (S3WritableFile.tmpSeek offset whence t).1.isOk = false) :
    (S3WritableFile.tmpSeek offset whence t).2 = t := by
  unfold S3WritableFile.tmpSeek at h ⊢
  split at h
  · cases h
  · rfl

theorem Inv.truncate (h : r.Inv data) (hcare : r.Careful .truncate) :
    (r.step .truncate).Inv data := by
  cases hc : r.session.file.closed with
  | true =>
    have htrunc : r.session.file.truncate = (.error .errClosed, r.session.file) := by
      rw [S3WritableFile.truncate, if_pos hc]
    have hstep : r.step .truncate = r := by
      simp [WriteRun.step, WriteSession.step, WriteSession.reply, S3WritableFile.call, htrunc,
        Reply.ok, Except.isOk, Except.toBool]
    rwa [hstep]
  | false =>
    have htrunc : r.session.file.truncate = (.ok (),
        { r.session.file with downloaded := true, tmp := r.session.file.tmp.truncate }) := by
      rw [S3WritableFile.truncate, if_neg (by simp [hc])]
    have hstep : r.step .truncate =
        ⟨⟨r.session.world, { r.session.file with
          downloaded := true, tmp := r.session.file.tmp.truncate }⟩, r.ref.truncate,
          r.closedOk⟩ := by
      simp [WriteRun.step, WriteSession.step, WriteSession.reply, S3WritableFile.call, htrunc,
        Reply.ok, Except.isOk, Except.toBool, referenceStep, referenceCall]
    have htmp : r.session.file.tmp.truncate = r.ref.truncate := by
      cases hd : r.session.file.downloaded with
      | true => rw [h.filled hc hd]
      | false =>
        rw [h.tmp_of_not_torn hc hd hcare, (h.due hc hd).1]
        rfl
    rw [hstep]
    refine ⟨h.bodies, ?_, h.opened, fun _ _ => htmp, fun _ hd => ?_⟩
    · have hs := h.safe
      unfold Safe at hs ⊢
      rw [h.opened hc] at hs ⊢
      exact hs
    · cases hd

theorem Inv.close (h : r.Inv data) (hcare : r.Careful .close) : (r.step .close).Inv data := by
  unfold Careful at hcare
  cases hc : r.session.file.closed with
  | true =>
    rw [if_pos hc] at hcare
    have hclose : r.session.file.close = pure (.ok (), r.session.file) := by
      rw [S3WritableFile.close, if_pos hc]
    have hstep : r.step .close = ⟨r.session, r.ref, true⟩ := by
      simp [WriteRun.step, WriteSession.step, WriteSession.reply, S3WritableFile.call, hclose,
        Reply.ok, Except.isOk, Except.toBool, referenceStep, referenceCall]
    rw [hstep]
    refine ⟨h.bodies, hcare, fun hc' => ?_, h.filled, h.due⟩
    rw [hc] at hc'
    cases hc'
  | false =>
    rw [if_neg (by simp [hc])] at hcare
    have hk : r.session.file.s3Key ≠ [] := by
      obtain ⟨o, ho, -⟩ := Option.map_eq_some_iff.mp (h.stored_eq hc)
      exact Bucket.ne_nil_of_get ho
    have hrun := S3WritableFile.run_close hc hk r.session.world
    cases hfault : r.session.world.outcome.fault.callError with
    | some err =>
      rw [hfault] at hrun
      have hstep : r.step .close = ⟨⟨r.session.world.begin, { r.session.file with closed := true }⟩,
          r.ref, r.closedOk⟩ := by
        simp [WriteRun.step, WriteSession.step, WriteSession.reply, S3WritableFile.call, hrun,
          Reply.ok, Except.isOk, Except.toBool]
      rw [hstep]
      refine ⟨h.bodies, h.safe, fun hc' => ?_, fun hc' => ?_, fun hc' => ?_⟩
      all_goals cases hc'
    | none =>
      rw [hfault] at hrun hcare
      obtain ⟨hres, henv, o, ho, hb⟩ := hrun
      -- what is uploaded is the reference file
      have hup : r.session.file.tmp.data = r.ref.data := by
        cases hd : r.session.file.downloaded with
        | true => rw [h.filled hc hd]
        | false =>
          rw [hd, WriteRun.stored, h.stored_eq hc] at hcare
          rw [(h.due hc hd).1]
          rcases hcare with hcare | hcare | hcare
          · cases hcare
          · exact (Option.some.inj hcare).symm
          · exact absurd rfl hcare
      have hstep : r.step .close = ⟨⟨(r.session.file.close.run World.handle r.session.world).2,
          { r.session.file with closed := true }⟩, r.ref, true⟩ := by
        simp [WriteRun.step, WriteSession.step, WriteSession.reply, S3WritableFile.call, hres,
          Reply.ok, Except.isOk, Except.toBool, referenceStep, referenceCall]
      rw [hstep]
      refine ⟨fun i => ?_, ?_, fun hc' => ?_, fun hc' => ?_, fun hc' => ?_⟩
      · show ∀ n err, (((_ : World).env i).fault = .body n err) → _
        rw [henv]
        exact h.bodies i
      · show Bucket.dataAt _ _ = some r.ref.data
        rw [hb, ← hup, ← ho]
        exact Bucket.dataAt_put _ _ _ _
      all_goals cases hc'

/-- `Stat`, `Sync` and `Readdir` change nothing. -/
theorem step_of_not_onContents (op : FileOp) (h : op.onContents = false) (hop : op ≠ .close) :
    r.step op = r := by
  cases op with
  | readdir count =>
    simp [WriteRun.step, WriteSession.step, WriteSession.reply, S3WritableFile.call, Reply.ok,
      Except.isOk, Except.toBool]
  | stat =>
    simp [WriteRun.step, WriteSession.step, WriteSession.reply, S3WritableFile.call, Reply.ok,
      referenceStep, referenceCall]
  | sync =>
    simp [WriteRun.step, WriteSession.step, WriteSession.reply, S3WritableFile.call, Reply.ok,
      Except.isOk, Except.toBool, referenceStep, referenceCall]
  | close => exact absurd rfl hop
  | read _ _ => cases h
  | write _ => cases h
  | seek _ _ => cases h
  | truncate => cases h

/-- Every careful call keeps the invariant. -/
theorem Inv.step (h : r.Inv data) {op : FileOp} (hop : r.Careful op) : (r.step op).Inv data := by
  cases op with
  | read fuel n =>
    exact h.onTmp (.read fuel n) _ .bytes rfl rfl (fun _ => rfl) (tmpRead_failed n) nofun hop
  | write p =>
    refine h.onTmp (.write p) _ .count rfl rfl (fun _ => rfl) (fun t ht => ?_) nofun hop
    cases ht
  | seek offset whence =>
    exact h.onTmp (.seek offset whence) _ .count rfl rfl (fun _ => rfl)
      (tmpSeek_failed offset whence) nofun hop
  | truncate => exact h.truncate hop
  | close => exact h.close hop
  | readdir count => rwa [step_of_not_onContents (.readdir count) rfl nofun]
  | stat => rwa [step_of_not_onContents .stat rfl nofun]
  | sync => rwa [step_of_not_onContents .sync rfl nofun]

end WriteRun

/-- A run on a file that `newWritableFile` has just returned. -/
def WriteRun.start (w : World) (f : S3WritableFile) (data : Bytes) : WriteRun :=
  { session := ⟨w, f⟩, ref := .ofData data, closedOk := false }

theorem WriteRun.inv_start {path key : GoString} {info : FileInfo} {w w' : World}
    {f : S3WritableFile} {data : Bytes} (hbodies : w.BodiesFail)
    (hdata : w.bucket.dataAt key = some data)
    (hnew : (newWritableFile path key info).run World.handle w = (.ok f, w')) :
    (WriteRun.start w' f data).Inv data := by
  cases htmp : w.outcome.tmpOk with
  | false => simp [newWritableFile, World.handle, htmp] at hnew
  | true =>
    simp only [newWritableFile, Prog.run_bind, Prog.run_call, World.handle, htmp, if_true,
      Prog.run_pure] at hnew
    cases hnew
    exact ⟨hbodies, hdata, fun _ => rfl, fun _ hd => Bool.noConfusion hd, fun _ _ => ⟨rfl, rfl⟩⟩

end S3Gateway
