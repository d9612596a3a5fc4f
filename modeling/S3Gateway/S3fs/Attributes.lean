import S3Gateway.S3fs.Stores

/-!
# Attributes persist

Mode, owner, symlink target and extended attributes live in an object's user metadata.
An operation `Persists` if it changes them only where it is meant to (`Op.Replaces`),
and if `Rename` and `Copy` carry them to the new key. Most operations do. Three do not
always: the first `Close` of a writable file and `MkdirAll` store an object with
metadata of their own, whatever was there, and a `Rename` onto its own key deletes what
it has just copied. `persists_iff` says exactly when they do (`Op.Carries`), and
`attributes_persist_iff` lifts that to runs.
-/

namespace S3Gateway

open Lib

/-- The metadata keys of POSIX attributes. -/
def isAttribute (key : GoString) : Bool :=
  key == metaKeyMode || key == metaKeyUID || key == metaKeyGID || key == metaKeySymlinkTarget ||
    xattrMetaPrefix.isPrefixOf key

/-- The attributes are the same in both. -/
def SameAttributes (m m' : Metadata) : Prop :=
  ∀ key, isAttribute key = true → m'.lookup key = m.lookup key

theorem SameAttributes.refl (m : Metadata) : SameAttributes m m := fun _ _ => rfl

/-- There is an object at the key and it has the attributes `m`. -/
def Bucket.HasAttributes (b : Bucket) (key : GoString) (m : Metadata) : Prop :=
  ∃ o, b.get key = some o ∧ SameAttributes m o.userMetadata

theorem Bucket.hasAttributes_iff {b : Bucket} {key : GoString} {m : Metadata} {o : Object}
    (ho : b.get key = some o) : b.HasAttributes key m ↔ SameAttributes m o.userMetadata := by
  constructor
  · rintro ⟨o', ho', hsame⟩
    rw [ho] at ho'
    cases ho'
    exact hsame
  · exact fun h => ⟨o, ho, h⟩

/-- The operations that set attributes of the object at the key, remove it, or replace
it by another. -/
def Op.Replaces (b : Bucket) (key : GoString) : Op → Prop
  | .chmod path _ | .chown path _ _ | .setXattr path _ _ _ | .removeXattr path _ | .remove path =>
    key = objectKey b path
  | .rename oldpath newpath => key = objectKey b oldpath ∨ key = renameTarget b oldpath newpath
  | .copy _ dstPath => key = s3KeyFromPath dstPath
  | _ => False

/-- The operation leaves the attributes of every object that it does not replace, and
`Rename` and `Copy` carry them over. -/
structure Persists (s : Session) (op : Op) : Prop where
  frame : ∀ key o, s.world.bucket.get key = some o → ¬ op.Replaces s.world.bucket key →
    (s.step op).world.bucket.HasAttributes key o.userMetadata
  rename : ∀ oldpath newpath o, op = .rename oldpath newpath →
    ((rename oldpath newpath).run World.handle s.world).1 = .ok () →
    s.world.bucket.get (objectKey s.world.bucket oldpath) = some o →
    (s.step op).world.bucket.HasAttributes (renameTarget s.world.bucket oldpath newpath)
      o.userMetadata
  copy : ∀ srcPath dstPath o, op = .copy srcPath dstPath →
    ((copy srcPath dstPath).run World.handle s.world).1 = .ok () →
    s.world.bucket.get (s3KeyFromPath srcPath) = some o →
    (s.step op).world.bucket.HasAttributes (s3KeyFromPath dstPath) o.userMetadata

/-- The first `Close` of a writable file finds the attributes a new file has, `MkdirAll`
finds none, and `Rename` moves to another key. -/
def Op.Carries (s : Session) : Op → Prop
  | .file fd .close => ∀ f o, s.files.lookup fd = some (.s3WritableFile f) → f.closed = false →
    s.world.bucket.get f.s3Key = some o → SameAttributes o.userMetadata defaultMetadata
  | .mkdirAll path => ∀ o, s.world.bucket.get (s3DirKey (s3KeyFromPath path)) = some o →
    SameAttributes o.userMetadata ∅
  | .rename oldpath newpath =>
    ((S3Gateway.rename oldpath newpath).run World.handle s.world).1 = .ok () →
    objectKey s.world.bucket oldpath ≠ renameTarget s.world.bucket oldpath newpath
  | _ => True

section Persists

variable {s : Session} {op : Op}

/-- An object that the operation stores and that does not replace another has the
attributes of the one it is stored over. -/
theorem Puts.sameAttributes {key : GoString} {o o' : Object} (h : Puts s op key o')
    (ho : s.world.bucket.get key = some o) (hkeep : ¬ op.Replaces s.world.bucket key)
    (hC : op.Carries s) : SameAttributes o.userMetadata o'.userMetadata := by
  cases h with
  | placeholder _ hnone | link _ _ hnone =>
    rw [hnone] at ho
    cases ho
  | upload hfd hopen _ hmeta =>
    rw [hmeta]
    exact hC _ o hfd hopen ho
  | metadata hop _ _ =>
    cases op <;> cases hop <;> exact absurd rfl hkeep
  | marker hmeta =>
    rw [hmeta]
    exact hC o ho
  | copy _ _ => exact absurd rfl hkeep

/-- The frame of an operation that carries attributes. -/
theorem Stores.hasAttributes {b' : Bucket} (h : Stores s op b') (hC : op.Carries s)
    {key : GoString} {o : Object} (ho : s.world.bucket.get key = some o)
    (hkeep : ¬ op.Replaces s.world.bucket key) : b'.HasAttributes key o.userMetadata := by
  cases h with
  | unchanged => exact ⟨o, ho, .refl _⟩
  | @put _ putKey o' hk hput =>
    by_cases heq : key = putKey
    · subst heq
      exact ⟨o', Bucket.get_put_self .., hput.sameAttributes ho hkeep hC⟩
    · exact ⟨o, by rw [Bucket.get_put, if_neg heq, ho], .refl _⟩
  | move _ _ hk =>
    obtain ⟨hsrc, hdst⟩ := not_or.mp hkeep
    exact ⟨o, by rw [Bucket.get_remove, if_neg hsrc, Bucket.get_put, if_neg hdst, ho], .refl _⟩
  | @remove path =>
    have hne : key ≠ objectKey s.world.bucket path := hkeep
    exact ⟨o, by rw [Bucket.get_remove, if_neg hne, ho], .refl _⟩

theorem sameAttributes_of_contents {o o' : Object} (h : o'.contents = o.contents) :
    SameAttributes o.userMetadata o'.userMetadata := by
  rw [show o'.userMetadata = o.userMetadata from congrArg Prod.snd h]
  exact .refl _

/-- An operation that carries attributes lets them persist. -/
theorem persists_of_carries (hs : s.Ok) (hC : op.Carries s) : Persists s op where
  frame key o ho hkeep := (step_stores hs op).hasAttributes hC ho hkeep
  rename oldpath newpath o hop hr ho := by
    subst hop
    rcases stores_rename hs oldpath newpath with ⟨herr, -⟩ | ⟨-, hk, o₁, o', ho₁, hsame, hb⟩
    · exact absurd hr herr
    · rw [ho] at ho₁
      cases ho₁
      refine ⟨o', ?_, sameAttributes_of_contents hsame⟩
      rw [hb, Bucket.get_remove, if_neg (hC hr).symm, Bucket.get_put_self]
  copy srcPath dstPath o hop hr ho := by
    subst hop
    rcases stores_copy hs srcPath dstPath with ⟨herr, -⟩ | ⟨-, hk, o₁, o', ho₁, hsame, hb⟩
    · exact absurd hr herr
    · rw [ho] at ho₁
      cases ho₁
      exact ⟨o', by rw [hb, Bucket.get_put_self], sameAttributes_of_contents hsame⟩

/-- Where attributes persist the operation carries them: the three that may not store
something whenever they can. -/
theorem carries_of_persists (hs : s.Ok) (h : Persists s op) : op.Carries s := by
  unfold Op.Carries
  split
  next fd =>
    intro f o hfd hopen ho
    obtain ⟨hk, o', -, hmeta, hb⟩ := stores_close hs hfd hopen
    have hput : (s.step (.file fd .close)).world.bucket.get f.s3Key = some o' := by
      rw [hb, Bucket.get_put_self]
    exact hmeta ▸ (Bucket.hasAttributes_iff hput).mp (h.frame _ o ho id)
  next path =>
    intro o ho
    have hk : s3DirKey (s3KeyFromPath path) ≠ [] := by
      intro hnil
      rw [hnil, Bucket.get_nil] at ho
      cases ho
    obtain ⟨o', -, hmeta, hb⟩ := stores_mkdirAll hs hk
    have hput : (s.step (.mkdirAll path)).world.bucket.get (s3DirKey (s3KeyFromPath path))
        = some o' := by
      rw [hb, Bucket.get_put_self]
    exact hmeta ▸ (Bucket.hasAttributes_iff hput).mp (h.frame _ o ho id)
  next oldpath newpath =>
    intro hr heq
    rcases stores_rename hs oldpath newpath with ⟨herr, -⟩ | ⟨-, hk, o, o', ho, -, hb⟩
    · exact absurd hr herr
    · obtain ⟨o₁, ho₁, -⟩ := h.rename oldpath newpath o rfl hr ho
      rw [hb, Bucket.get_remove, if_pos heq.symm] at ho₁
      cases ho₁
  next => trivial

theorem persists_iff (hs : s.Ok) (op : Op) : Persists s op ↔ op.Carries s :=
  ⟨carries_of_persists hs, persists_of_carries hs⟩

end Persists

/-- POSIX attributes persist in a run exactly if every first `Close` of a writable file
finds the attributes of a new file, or no object, every `MkdirAll` finds a marker
without attributes, or none, and no successful `Rename` is onto the key it renames. -/
theorem attributes_persist_iff {s : Session} (hs : s.Ok) (ops : List Op) :
    EachStep Session.step Persists s ops ↔ EachStep Session.step (fun s op => op.Carries s) s ops :=
  EachStep.iff_of_invariant (I := Session.Ok) (fun _ op hs => hs.step op)
    (fun _ op hs => persists_iff hs op) hs

/-- A new file is written, gets its mode, and is renamed. -/
theorem attributes_persist_new_file :
    EachStep Session.step Persists (.start (.onlyF [1] []))
      [.openFile (gs "/g") oCREATE, .file 0 (.write [2]), .file 0 .close, .chmod (gs "/g") 0o600,
        .rename (gs "/g") (gs "/h")] := by
  refine (attributes_persist_iff (Session.ok_start _) _).mpr
    ⟨trivial, trivial, ?_, trivial, fun _ => by decide, trivial⟩
  intro f o hfd _ ho
  let s := [Op.openFile (gs "/g") oCREATE, .file 0 (.write [2])].foldl Session.step
    (.start (.onlyF [1] []))
  obtain ⟨f', hf', hmeta⟩ : ∃ f', s.files.lookup 0 = some (.s3WritableFile f') ∧
      (s.world.bucket.get f'.s3Key).map Object.userMetadata = some defaultMetadata :=
    ⟨_, rfl, rfl⟩
  cases hf'.symm.trans hfd
  rw [show s.world.bucket.get f.s3Key = some o from ho] at hmeta
  rw [Option.some.inj hmeta]
  exact .refl _

/-- A file that is opened for writing and closed again loses the mode `Chmod` gave it,
and so does a directory when `MkdirAll` is called on it again. A `Rename` of a file onto
itself returns nil, and the file is gone. -/
theorem attributes_lost :
    let mode := fun (b : Bucket) key => (b.get key).map fun o => o.userMetadata.lookup metaKeyMode
    let s := (Session.start (.onlyF [1] [])).step (.chmod (gs "/f") 0o600)
    let closed := (s.step (.openFile (gs "/f") oRDWR)).step (.file 0 .close)
    let d := ((Session.start .empty).step (.mkdirAll (gs "/d"))).step (.chmod (gs "/d") 0o700)
    mode s.world.bucket (gs "f") = some (some (gs "600")) ∧
      mode closed.world.bucket (gs "f") = some (some (gs "644")) ∧
      mode d.world.bucket (gs "d/") = some (some (gs "700")) ∧
      mode (d.step (.mkdirAll (gs "/d"))).world.bucket (gs "d/") = some none ∧
      ((rename (gs "/f") (gs "/f")).run World.handle s.world).1 = .ok () ∧
      (s.step (.rename (gs "/f") (gs "/f"))).world.bucket.dataAt (gs "f") = none := by
  decide

end S3Gateway
