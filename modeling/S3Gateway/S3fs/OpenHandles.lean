import S3Gateway.S3fs.Stores

/-!
# Open handles and the namespace

An `s3WritableFile` takes the key of its path when it is opened and uploads to that
key when it is closed. `Remove` and `Rename` in between do not tell it: a `Close`
after a `Remove` brings the object back, and a `Close` after a `Rename` creates the
old key again and leaves the new one without what was written.

That is all that goes wrong: `handles_follow_iff` says that an object stays removed,
respectively renamed, until another operation creates it, exactly if no handle on its
key is closed for the first time.
-/

namespace S3Gateway

open Lib

/-- The operation may create an object at a file key. -/
def Op.Creates (key : GoString) : Op → Prop
  | .openFile path flags => writableFlags flags = true ∧ s3KeyFromPath path = key
  | .symlink _ linkPath => s3KeyFromPath linkPath = key
  | .copy _ dstPath => s3KeyFromPath dstPath = key
  | .rename _ newpath => s3KeyFromPath newpath = key
  | _ => False

/-- The operation is the first `Close` of a writable file on the key. -/
def Op.Uploads (s : Session) (key : GoString) (op : Op) : Prop :=
  ∃ fd f, op = .file fd .close ∧ s.files.lookup fd = some (.s3WritableFile f) ∧
    f.closed = false ∧ f.s3Key = key

/-- Closing a writable file on `key`, which has been renamed to `newKey`, leaves the old
key absent and what was written at the new one. -/
def Op.Follows (key newKey : GoString) (s : Session) (op : Op) : Prop :=
  ∀ fd f, op = .file fd .close → s.files.lookup fd = some (.s3WritableFile f) →
    f.closed = false → f.s3Key = key →
    (s.step op).world.bucket.get key = none ∧
      (s.step op).world.bucket.dataAt newKey = some f.tmp.data

section Steps

variable {s : Session} {key : GoString} {op : Op}

/-- A key of a file is no directory key. -/
theorem ne_s3DirKey (hs : hasSuffixSlash key = false) {path : GoString}
    (hk : s3DirKey (s3KeyFromPath path) ≠ []) : key ≠ s3DirKey (s3KeyFromPath path) := by
  rintro rfl
  have hne : s3KeyFromPath path ≠ [] := by
    intro h0
    rw [h0] at hk
    exact hk rfl
  rw [hasSuffixSlash_s3DirKey hne] at hs
  cases hs

/-- What an operation stores under an absent file key, it creates or uploads. -/
theorem Puts.ne_of_absent {key' : GoString} {o : Object} (h : Puts s op key' o) (hk : key' ≠ [])
    (hnone : s.world.bucket.get key = none) (hs : hasSuffixSlash key = false)
    (hcreate : ¬ op.Creates key) (hupload : ¬ op.Uploads s key) : key ≠ key' := by
  cases h with
  | placeholder hflags _ => exact fun h => hcreate ⟨hflags, h.symm⟩
  | upload hfd hopen _ _ => exact fun h => hupload ⟨_, _, rfl, hfd, hopen, h.symm⟩
  | metadata hop ho hdata =>
    rintro rfl
    rw [ho] at hnone
    cases hnone
  | link _ _ _ => exact fun h => hcreate h.symm
  | marker _ => exact ne_s3DirKey hs hk
  | copy _ _ => exact fun h => hcreate h.symm

/-- An absent file key stays absent unless the operation creates it or uploads to it. -/
theorem Stores.absent {b' : Bucket} (h : Stores s op b') (hnone : s.world.bucket.get key = none)
    (hs : hasSuffixSlash key = false) (hcreate : ¬ op.Creates key) (hupload : ¬ op.Uploads s key) :
    b'.get key = none := by
  cases h with
  | unchanged => exact hnone
  | put hk h => rw [Bucket.get_put, if_neg (h.ne_of_absent hk hnone hs hcreate hupload), hnone]
  | @move oldpath newpath o o' ho hsame hk =>
    have hne : key ≠ renameTarget s.world.bucket oldpath newpath := by
      unfold renameTarget at hk ⊢
      split at hk
      · next h => exact if_pos h ▸ fun h' => hcreate h'.symm
      · next h => exact if_neg h ▸ ne_s3DirKey hs hk
    rw [Bucket.get_remove, Bucket.get_put, if_neg hne, hnone, ite_self]
  | remove => rw [Bucket.get_remove, hnone, ite_self]

/-- An upload to a key makes it present. -/
theorem present_of_uploads (hok : s.Ok) (h : op.Uploads s key) :
    (s.step op).world.bucket.get key ≠ none := by
  obtain ⟨fd, f, rfl, hfd, hopen, rfl⟩ := h
  obtain ⟨hk, o, -, -, hb⟩ := stores_close hok hfd hopen
  rw [hb, Bucket.get_put_self]
  exact nofun

end Steps

/-- An absent file key stays absent in a run that does not create it, exactly if no
handle on it is closed for the first time. -/
theorem absent_throughout_iff {s : Session} (hok : s.Ok) {key : GoString}
    (hnone : s.world.bucket.get key = none) (hs : hasSuffixSlash key = false) {ops : List Op}
    (hcreate : EachStep Session.step (fun _ op => ¬ op.Creates key) s ops) :
    Throughout Session.step (fun s => s.world.bucket.get key = none) s ops ↔
      EachStep Session.step (fun s op => ¬ op.Uploads s key) s ops :=
  throughout_iff_eachStep_of (I := fun s => s.Ok ∧ s.world.bucket.get key = none)
    (fun _ op h hD hC => ⟨h.1.step op, (step_stores h.1 op).absent h.2 hs hD hC⟩) (fun _ h => h.2)
    (fun _ _ h _ hP hup => present_of_uploads h.1 hup hP) ⟨hok, hnone⟩ hcreate

/-- After a `Remove` that returned nil there is no object at the path's key. -/
theorem absent_of_remove {s : Session} (hok : s.Ok) {path : GoString}
    (hr : ((remove path).run World.handle s.world).1 = .ok ()) :
    (s.step (.remove path)).world.bucket.get (s3KeyFromPath path) = none := by
  have hb : (s.step (.remove path)).world = ((remove path).run World.handle s.world).2 := rfl
  rcases remove_outcome s.world.cache path s.world hok.at with ⟨-, -, ks, hupd⟩ | ⟨-, herr, -⟩
  · rw [hb, hupd.bucket_eq, Bucket.get_remove]
    split
    · rfl
    · next hne =>
      cases hget : s.world.bucket.get (s3KeyFromPath path) with
      | none => rfl
      | some o => exact absurd (by rw [objectKey, hget]; rfl) hne
  · rw [hr] at herr
    cases herr

/-- After a `Rename` to another key that returned nil there is no object at the old
path's key, and what it held is at the new one. -/
theorem moved_of_rename {s : Session} (hok : s.Ok) {path newpath : GoString}
    (hne : s3KeyFromPath newpath ≠ s3KeyFromPath path)
    (hr : ((rename path newpath).run World.handle s.world).1 = .ok ()) :
    (s.step (.rename path newpath)).world.bucket.get (s3KeyFromPath path) = none ∧
      ∀ data, s.world.bucket.dataAt (s3KeyFromPath path) = some data →
        (s.step (.rename path newpath)).world.bucket.dataAt (s3KeyFromPath newpath)
          = some data := by
  rcases stores_rename hok path newpath with ⟨herr, -⟩ | ⟨-, hk, o, o', ho, hsame, hb⟩
  · exact absurd hr herr
  · rw [hb]
    cases hget : s.world.bucket.get (s3KeyFromPath path) with
    | some o₁ =>
      have hsrc : objectKey s.world.bucket path = s3KeyFromPath path := by
        rw [objectKey, hget]
        rfl
      have hdst : renameTarget s.world.bucket path newpath = s3KeyFromPath newpath := by
        rw [renameTarget, hget]
        rfl
      rw [hsrc, hget] at ho
      cases ho
      refine ⟨by rw [hsrc, Bucket.get_remove, if_pos rfl], fun data hdata => ?_⟩
      rw [Bucket.dataAt, hget] at hdata
      cases hdata
      rw [Bucket.dataAt, Bucket.get_remove, hsrc, if_neg hne, Bucket.get_put, if_pos hdst.symm]
      exact congrArg some (congrArg Prod.fst hsame)
    | none =>
      have hdst : renameTarget s.world.bucket path newpath = s3DirKey (s3KeyFromPath newpath) := by
        rw [renameTarget, hget]
        rfl
      have hkey : s3KeyFromPath path ≠ renameTarget s.world.bucket path newpath := by
        rw [hdst] at hk ⊢
        exact ne_s3DirKey (hasSuffixSlash_s3KeyFromPath path) hk
      refine ⟨?_, fun data hdata => ?_⟩
      · rw [Bucket.get_remove, Bucket.get_put, if_neg hkey, hget, ite_self]
      · rw [Bucket.dataAt, hget] at hdata
        cases hdata

/-- Handles follow the namespace as long as none that is open on a removed or renamed
file is closed. While no operation creates the key again: after a `Remove` the key is
absent throughout exactly if no handle on it is closed for the first time. After a
`Rename` the new key has what the old one had; and the old key is absent throughout and
every handle on it that is closed leaves its contents at the new key, exactly if none
is closed for the first time. -/
theorem handles_follow_iff {s : Session} (hok : s.Ok) (path newpath : GoString) (ops : List Op) :
    (((remove path).run World.handle s.world).1 = .ok () →
      EachStep Session.step (fun _ op => ¬ op.Creates (s3KeyFromPath path))
        (s.step (.remove path)) ops →
      (Throughout Session.step (fun s => s.world.bucket.get (s3KeyFromPath path) = none)
          (s.step (.remove path)) ops ↔
        EachStep Session.step (fun s op => ¬ op.Uploads s (s3KeyFromPath path))
          (s.step (.remove path)) ops)) ∧
    (((rename path newpath).run World.handle s.world).1 = .ok () →
      s3KeyFromPath newpath ≠ s3KeyFromPath path →
      EachStep Session.step (fun _ op => ¬ op.Creates (s3KeyFromPath path))
        (s.step (.rename path newpath)) ops →
      (∀ data, s.world.bucket.dataAt (s3KeyFromPath path) = some data →
        (s.step (.rename path newpath)).world.bucket.dataAt (s3KeyFromPath newpath)
          = some data) ∧
      (Throughout Session.step (fun s => s.world.bucket.get (s3KeyFromPath path) = none)
          (s.step (.rename path newpath)) ops ∧
        EachStep Session.step (Op.Follows (s3KeyFromPath path) (s3KeyFromPath newpath))
          (s.step (.rename path newpath)) ops ↔
        EachStep Session.step (fun s op => ¬ op.Uploads s (s3KeyFromPath path))
          (s.step (.rename path newpath)) ops)) := by
  have hslash := hasSuffixSlash_s3KeyFromPath path
  refine ⟨fun hr hcreate => ?_, fun hr hne hcreate => ?_⟩
  · exact absent_throughout_iff (hok.step _) (absent_of_remove hok hr) hslash hcreate
  · obtain ⟨hnone, hdata⟩ := moved_of_rename hok hne hr
    have hiff := absent_throughout_iff (hok.step (.rename path newpath)) hnone hslash hcreate
    refine ⟨hdata, fun h => hiff.mp h.1, fun h => ⟨hiff.mpr h, ?_⟩⟩
    -- without a first `Close` there is nothing to follow
    refine EachStep.of_invariant (I := fun _ => True) (fun s op _ hC => ⟨?_, trivial⟩) trivial h
    intro fd f hop hfd hopen hkey
    exact absurd ⟨fd, f, hop, hfd, hopen, hkey⟩ hC

/-- Whether the file has been closed. -/
def File.closed : File → Bool
  | .s3File f => f.closed
  | .s3WritableFile f => f.closed

/-- A file that is opened, written and closed, then removed, and closed once more. -/
theorem handles_follow_closed :
    let s := [Op.openFile (gs "/f") oRDWR, .file 0 (.write [2]), .file 0 .close].foldl Session.step
      (.start (.onlyF [1] []))
    Throughout Session.step (fun s => s.world.bucket.get (gs "f") = none)
      (s.step (.remove (gs "/f"))) [.file 0 .close, .stat (gs "/f")] := by
  intro s
  have hok : s.Ok := (Session.ok_start _).run _
  refine ((handles_follow_iff hok (gs "/f") (gs "/f") [.file 0 .close, .stat (gs "/f")]).1
    (by decide) ⟨id, id, trivial⟩).mpr ⟨?_, nofun, trivial⟩
  rintro ⟨fd, f, hop, hfd, hopen, -⟩
  cases hop
  have hclosed : ((s.step (.remove (gs "/f"))).files.lookup 0).map File.closed = some true := by
    decide
  rw [hfd] at hclosed
  cases (Option.some.inj hclosed).symm.trans hopen

/-- A `Close` after a `Remove` brings the object back. A `Close` after a `Rename` brings
the old key back, with what was written, and leaves the new key without it. -/
theorem close_ignores_namespace :
    let s := (Session.start (.onlyF [1] [])).step (.openFile (gs "/f") oRDWR)
    let removed := s.step (.remove (gs "/f"))
    let written := s.step (.file 0 (.write [2]))
    let renamed := written.step (.rename (gs "/f") (gs "/g"))
    ((remove (gs "/f")).run World.handle s.world).1 = .ok () ∧
      removed.world.bucket.dataAt (gs "f") = none ∧
      (removed.step (.file 0 .close)).world.bucket.dataAt (gs "f") = some [] ∧
      ((rename (gs "/f") (gs "/g")).run World.handle written.world).1 = .ok () ∧
      (renamed.step (.file 0 .close)).world.bucket.dataAt (gs "f") = some [2] ∧
      (renamed.step (.file 0 .close)).world.bucket.dataAt (gs "g") = some [1] := by
  decide

end S3Gateway
