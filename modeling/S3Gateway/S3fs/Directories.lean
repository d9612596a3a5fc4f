import S3Gateway.S3fs.Summary

/-!
# Renaming and removing

S3 has no directories, so `Rename` and `Remove` on a directory can only be as good
as what they do to the keys below it. They touch one object each: the one at the
path's key or, failing that, the directory marker. This file states what becomes of
the bucket, whatever calls fail (`RenameOutcome`, `RemoveOutcome`), and derives what
it means for a file that is renamed, for a directory with a subtree, and for a path
that is removed.

- `rename_keeps_file_iff`: a file is safe in a rename unless the rename succeeds on
  the same key (copied onto itself, then deleted), or succeeds on the directory
  marker because the request for the file's attributes failed.
- `rename_moves_subtree_iff`: a directory is moved if there is nothing but its marker.
- `remove_exact_iff`: a removed path is gone if the object removed was all there was
  at and below the path.
-/

namespace S3Gateway

open Lib

/-- Data and metadata of an object. -/
def Object.contents (o : Object) : Bytes × Metadata := (o.data, o.userMetadata)

/-- Data and metadata stored under a key. -/
def Bucket.contents (b : Bucket) (key : GoString) : Option (Bytes × Metadata) :=
  (b.get key).map Object.contents

namespace Bucket

theorem contents_put (b : Bucket) (key key' : GoString) (o : Object) (hk : key ≠ []) :
    (b.put key o hk).contents key' = if key' = key then some o.contents else b.contents key' := by
  rw [contents, get_put]
  split
  · rfl
  · rfl

theorem contents_remove (b : Bucket) (key key' : GoString) :
    (b.remove key).contents key' = if key' = key then none else b.contents key' := by
  rw [contents, get_remove]
  split
  · rfl
  · rfl

end Bucket

/-! ## What becomes of the bucket -/

/-- What either branch of `Rename` returns and leaves: nothing was done, the object
was copied but not deleted, or it was moved. -/
inductive RenameOutcome (b : Bucket) (oldKey newKey : GoString) :
    Except GoError Unit → Bucket → Prop where
  | failed (err : GoError) : RenameOutcome b oldKey newKey (.error err) b
  | copied (err : GoError) {o o' : Object} (ho : b.get oldKey = some o)
      (hsame : o'.contents = o.contents) (hk : newKey ≠ []) :
      RenameOutcome b oldKey newKey (.error err) (b.put newKey o' hk)
  | moved {o o' : Object} (ho : b.get oldKey = some o) (hsame : o'.contents = o.contents)
      (hk : newKey ≠ []) :
      RenameOutcome b oldKey newKey (.ok ()) ((b.put newKey o' hk).remove oldKey)

section Outcomes

variable {b : Bucket}

/-- Programs that leave the bucket alone. -/
theorem triple_bucket {α : Type} {p : Gw α}
    (hp : Prog.Only (fun _ e => e.writesBucket = false) p) :
    Prog.Triple World.handle (fun w => w.bucket = b) p fun _ w => w.bucket = b :=
  hp.triple fun _ w he hw => (World.handle_bucket he w).trans hw

/-- A copy that fails has no effect, whether S3 or the transport fails it. -/
theorem copyObject_outcome (srcKey dstKey : GoString) :
    Prog.Triple World.handle (fun w => w.bucket = b) (Prog.call (.copyObject srcKey dstKey))
      fun r w => match r with
      | .error _ => w.bucket = b
      | .ok _ => ∃ o o' hk, b.get srcKey = some o ∧ o'.contents = o.contents ∧
          w.bucket = b.put dstKey o' hk := by
  rintro w rfl
  simp only [Prog.run_call, World.handle, World.mutate, Bucket.copyObject]
  cases w.outcome.fault.callError with
  | some err => rfl
  | none =>
    cases ho : w.begin.bucket.get srcKey with
    | none => rfl
    | some o =>
      dsimp only
      by_cases hk : dstKey = []
      · subst hk
        rw [Bucket.putObject_nil]
        rfl
      · rw [Bucket.putObject_of_ne _ hk]
        exact ⟨o, { o with lastModified := w.begin.clock, etag := w.outcome.etag }, hk, ho, rfl,
          rfl⟩

theorem deleteObject_outcome (key : GoString) :
    Prog.Triple World.handle (fun w => w.bucket = b) (Prog.call (.deleteObject key))
      fun r w => match r with
      | .error _ => w.bucket = b
      | .ok _ => w.bucket = b.remove key := by
  rintro w rfl
  simp only [Prog.run_call, World.handle, World.mutate]
  cases w.outcome.fault.callError with
  | some err => rfl
  | none =>
    by_cases hk : key = []
    · subst hk
      rfl
    · rw [Bucket.deleteObject_of_ne hk]
      rfl

theorem renameObject_outcome (what which oldKey newKey : GoString) :
    Prog.Triple World.handle (fun w => w.bucket = b) (renameObject what which oldKey newKey)
      fun r w => RenameOutcome b oldKey newKey r w.bucket := by
  refine Prog.triple_bind (copyObject_outcome oldKey newKey) fun r => ?_
  cases r with
  | error err =>
    refine Prog.triple_pure fun w hb => ?_
    rw [hb]
    exact .failed _
  | ok _ =>
    refine Prog.triple_exists fun o => Prog.triple_exists fun o' => Prog.triple_exists fun hk =>
      Prog.triple_and fun ho => Prog.triple_and fun hsame => ?_
    refine Prog.triple_bind (deleteObject_outcome oldKey) fun r => ?_
    cases r with
    | error err =>
      refine Prog.triple_pure fun w hb => ?_
      rw [hb]
      exact .copied _ ho hsame hk
    | ok _ =>
      -- the rest is bookkeeping
      have hrest : ∀ {β : Type} {e : Eff β}, e.writesBucket = false →
          Prog.Triple World.handle (fun w => w.bucket = (b.put newKey o' hk).remove oldKey)
            (Prog.call e) fun _ w => w.bucket = (b.put newKey o' hk).remove oldKey :=
        fun he => triple_bucket (Prog.only_call he)
      refine Prog.triple_bind (hrest rfl) fun _ => ?_
      refine Prog.triple_bind (hrest rfl) fun _ => ?_
      refine Prog.triple_bind (hrest rfl) fun _ => ?_
      refine Prog.triple_bind (hrest rfl) fun _ => ?_
      refine Prog.triple_bind (hrest rfl) fun _ => ?_
      refine Prog.triple_bind (hrest rfl) fun _ => ?_
      refine Prog.triple_bind (hrest rfl) fun _ => ?_
      refine Prog.triple_pure fun w hb => ?_
      rw [hb]
      exact .moved ho hsame hk

/-- `Rename` works on the file if S3 says that there is one, else on the directory
marker. -/
theorem rename_outcome (w : World) (oldpath newpath : GoString) :
    let run := (rename oldpath newpath).run World.handle w
    (w.outcome.fault.callError = none → (w.bucket.get (s3KeyFromPath oldpath)).isSome →
      RenameOutcome w.bucket (s3KeyFromPath oldpath) (s3KeyFromPath newpath) run.1 run.2.bucket) ∧
    (w.outcome.fault.callError ≠ none ∨ w.bucket.get (s3KeyFromPath oldpath) = none →
      RenameOutcome w.bucket (s3DirKey (s3KeyFromPath oldpath)) (s3DirKey (s3KeyFromPath newpath))
        run.1 run.2.bucket) := by
  dsimp only
  rw [rename, Prog.run_bind, Prog.run_call]
  have hbucket : (World.handle (.headObject (s3KeyFromPath oldpath)) w).2.bucket = w.bucket := rfl
  constructor
  · intro hf hsome
    obtain ⟨o, ho⟩ := Option.isSome_iff_exists.mp hsome
    have hr : ∃ info, (World.handle (.headObject (s3KeyFromPath oldpath)) w).1 = .ok info := by
      simp only [World.handle, World.answer, hf, Bucket.headObject, World.begin_bucket, ho]
      exact ⟨_, rfl⟩
    obtain ⟨info, hr⟩ := hr
    rw [hr]
    exact renameObject_outcome _ _ _ _ _ hbucket
  · intro h
    have hr : ∃ err, (World.handle (.headObject (s3KeyFromPath oldpath)) w).1 = .error err := by
      simp only [World.handle, World.answer, Bucket.headObject, World.begin_bucket]
      cases hf : w.outcome.fault.callError with
      | some err => exact ⟨err, rfl⟩
      | none =>
        rw [h.resolve_left fun hne => hne hf]
        exact ⟨_, rfl⟩
    obtain ⟨err, hr⟩ := hr
    rw [hr]
    refine Prog.triple_bind (P := fun w' : World => w'.bucket = w.bucket)
      (R := fun r (w' : World) => RenameOutcome w.bucket _ _ r w'.bucket)
      (triple_bucket (Prog.only_call rfl)) (fun r => ?_) _ hbucket
    cases r with
    | ok info => exact renameObject_outcome _ _ _ _
    | error err =>
      refine Prog.triple_pure fun w' hb => ?_
      rw [hb]
      exact .failed _

end Outcomes

/-! ## Renaming a file -/

/-- What a rename of the object `o` must leave: on success the object at the new key
and at no other, on failure the object where it was. -/
structure KeepsFile (b : Bucket) (oldKey newKey : GoString) (o : Object) (r : Except GoError Unit)
    (b' : Bucket) : Prop where
  moved : r = .ok () → b'.contents newKey = some o.contents ∧
    (oldKey ≠ newKey → b'.get oldKey = none) ∧
    ∀ key, key ≠ oldKey → key ≠ newKey → b'.get key = b.get key
  kept : ∀ err, r = .error err → b'.contents oldKey = some o.contents

theorem s3KeyFromPath_ne_s3DirKey {path path' : GoString} (h : s3KeyFromPath path ≠ []) :
    s3KeyFromPath path ≠ s3DirKey (s3KeyFromPath path') := by
  intro heq
  by_cases hk : s3KeyFromPath path' = []
  · rw [hk] at heq
    exact h heq
  · have hs := hasSuffixSlash_s3DirKey hk
    rw [← heq, hasSuffixSlash_s3KeyFromPath] at hs
    cases hs

theorem keepsFile_of_error {b b' : Bucket} {oldKey newKey : GoString} {o : Object} {err : GoError}
    (h : b'.contents oldKey = some o.contents) :
    KeepsFile b oldKey newKey o (.error err) b' := by
  constructor
  · intro hr
    cases hr
  · intro _ _
    exact h

/-- The file branch keeps the file unless it succeeds on one and the same key. -/
theorem RenameOutcome.keepsFile_iff {b b' : Bucket} {oldKey newKey : GoString} {o : Object}
    {r : Except GoError Unit} (h : RenameOutcome b oldKey newKey r b')
    (ho : b.get oldKey = some o) :
    KeepsFile b oldKey newKey o r b' ↔ (r = .ok () → newKey ≠ oldKey) := by
  have hold : b.contents oldKey = some o.contents := by
    rw [Bucket.contents, ho]
    rfl
  cases h with
  | failed err =>
    refine iff_of_true (keepsFile_of_error hold) ?_
    intro hr
    cases hr
  | copied err ho₁ hsame hk =>
    cases ho.symm.trans ho₁
    refine iff_of_true (keepsFile_of_error ?_) ?_
    · rw [Bucket.contents_put]
      split
      · rw [hsame]
      · exact hold
    · intro hr
      cases hr
  | moved ho₁ hsame hk =>
    cases ho.symm.trans ho₁
    constructor
    · rintro hkeep - rfl
      have hnew := (hkeep.moved rfl).1
      rw [Bucket.contents_remove, if_pos rfl] at hnew
      cases hnew
    · intro hne
      have hne := hne rfl
      constructor
      · intro _
        refine ⟨?_, fun _ => ?_, fun key hko hkn => ?_⟩
        · rw [Bucket.contents_remove, if_neg hne, Bucket.contents_put, if_pos rfl, hsame]
        · rw [Bucket.get_remove, if_pos rfl]
        · rw [Bucket.get_remove, if_neg hko, Bucket.get_put, if_neg hkn]
      · intro err hr
        cases hr

/-- The directory branch, when there is a file, keeps the file unless it succeeds. -/
theorem RenameOutcome.keepsFile_iff_of_dir {b b' : Bucket} {oldpath newpath : GoString} {o : Object}
    {r : Except GoError Unit}
    (h : RenameOutcome b (s3DirKey (s3KeyFromPath oldpath)) (s3DirKey (s3KeyFromPath newpath)) r b')
    (ho : b.get (s3KeyFromPath oldpath) = some o) :
    KeepsFile b (s3KeyFromPath oldpath) (s3KeyFromPath newpath) o r b' ↔ r ≠ .ok () := by
  have hold : b.contents (s3KeyFromPath oldpath) = some o.contents := by
    rw [Bucket.contents, ho]
    rfl
  have hne : ∀ path, s3KeyFromPath oldpath ≠ s3DirKey (s3KeyFromPath path) := fun path =>
    s3KeyFromPath_ne_s3DirKey (Bucket.ne_nil_of_get ho)
  cases h with
  | failed err =>
    refine iff_of_true (keepsFile_of_error hold) ?_
    intro hr
    cases hr
  | copied err ho₁ hsame hk =>
    refine iff_of_true (keepsFile_of_error ?_) ?_
    · rw [Bucket.contents_put, if_neg (hne newpath)]
      exact hold
    · intro hr
      cases hr
  | @moved om om' ho₁ hsame hk =>
    refine iff_of_false (fun hkeep => ?_) fun hr => hr rfl
    obtain ⟨-, hgone, hother⟩ := hkeep.moved rfl
    -- the file is still there, so the keys must be one; but then the marker was lost
    by_cases heq : s3KeyFromPath oldpath = s3KeyFromPath newpath
    · have hmark := hother (s3DirKey (s3KeyFromPath oldpath)) (hne oldpath).symm
        (heq ▸ (hne oldpath).symm)
      rw [Bucket.get_remove, if_pos rfl, ho₁] at hmark
      cases hmark
    · have hfile := hgone heq
      rw [Bucket.get_remove, if_neg (hne oldpath), Bucket.get_put, if_neg (hne newpath), ho]
        at hfile
      cases hfile

/-- `Rename` of a file, whatever calls fail: the file is kept exactly if a successful
rename goes to another key and its request for the file's attributes was answered. -/
theorem rename_keeps_file_iff (w : World) (oldpath newpath : GoString) {o : Object}
    (ho : w.bucket.get (s3KeyFromPath oldpath) = some o) :
    let run := (rename oldpath newpath).run World.handle w
    KeepsFile w.bucket (s3KeyFromPath oldpath) (s3KeyFromPath newpath) o run.1 run.2.bucket ↔
      (run.1 = .ok () → s3KeyFromPath newpath ≠ s3KeyFromPath oldpath ∧
        w.outcome.fault.callError = none) := by
  intro run
  obtain ⟨hfile, hdir⟩ := rename_outcome w oldpath newpath
  by_cases hf : w.outcome.fault.callError = none
  · rw [(hfile hf (by rw [ho]; rfl)).keepsFile_iff ho]
    exact imp_congr_right fun _ => (and_iff_left hf).symm
  · rw [(hdir (Or.inl hf)).keepsFile_iff_of_dir ho]
    exact forall_congr' fun _ => (iff_of_false id fun h => hf h.2)

/-- A rename to another key, with nothing failing. -/
theorem rename_keeps_file_to_other :
    let run := (rename (gs "/f") (gs "/g")).run World.handle (World.start (.onlyF [1] []))
    KeepsFile (.onlyF [1] []) (gs "f") (gs "g") ⟨[1], ∅, 0, []⟩ run.1 run.2.bucket :=
  (rename_keeps_file_iff (World.start (.onlyF [1] [])) (gs "/f") (gs "/g") rfl).mpr
    fun _ => ⟨by decide, rfl⟩

/-- Renaming `/f` to another spelling of the same path reports success and deletes
the file. -/
theorem rename_to_itself_loses_file :
    let run := (rename (gs "/f") (gs "/./f")).run World.handle (World.start (.onlyF [1] []))
    run.1 = .ok () ∧ run.2.bucket.dataAt (gs "f") = none ∧
      ¬ KeepsFile (.onlyF [1] []) (s3KeyFromPath (gs "/f")) (s3KeyFromPath (gs "/./f"))
        ⟨[1], ∅, 0, []⟩ run.1 run.2.bucket := by
  have hgone : (((rename (gs "/f") (gs "/./f")).run World.handle
      (World.start (.onlyF [1] []))).2.bucket.dataAt (gs "f")) = none := by decide
  refine ⟨by decide, hgone, fun h => ?_⟩
  have hnew := (h.moved (by decide)).1
  have hkey : s3KeyFromPath (gs "/./f") = gs "f" := by decide
  rw [hkey, Bucket.contents, Option.map_eq_none_iff.mp hgone] at hnew
  cases hnew

/-! ## Renaming a directory -/

/-- Every object with prefix `old` has moved to prefix `new`, the rest is where it
was. -/
def SubtreeMoved (b b' : Bucket) (old new : GoString) : Prop :=
  ∀ key, b'.contents key =
    if old <+: key then none
    else if new <+: key then b.contents (old ++ key.drop new.length)
    else b.contents key

theorem Bucket.contents_eq_none {b : Bucket} {key : GoString} :
    b.contents key = none ↔ key ∉ b.keys := by
  rw [contents, Option.map_eq_none_iff, mem_keys, Option.eq_none_iff_forall_ne_some]
  exact not_exists.symm

/-- The branch of `Rename` for directories moves one object: the subtree has moved if
that was all of it. -/
theorem RenameOutcome.subtreeMoved_iff {b b' : Bucket} {old new : GoString}
    (h : RenameOutcome b old new (.ok ()) b') (hfree : ∀ key ∈ b.keys, ¬ new <+: key)
    (houtside : ¬ old <+: new) :
    SubtreeMoved b b' old new ↔ ∀ key ∈ b.keys, old <+: key → key = old := by
  cases h with
  | @moved o o' ho hsame hk =>
  have hcontents : ∀ key, ((b.put new o' hk).remove old).contents key =
      if key = old then none else if key = new then some o.contents else b.contents key := by
    intro key
    rw [Bucket.contents_remove, Bucket.contents_put, hsame]
  have hne : ∀ key, old <+: key → key ≠ new := by
    rintro key hpre rfl
    exact houtside hpre
  constructor
  · intro hmoved key hkey hpre
    by_contra hold
    have hgone := hmoved key
    rw [if_pos hpre, hcontents, if_neg hold, if_neg (hne key hpre)] at hgone
    exact Bucket.contents_eq_none.mp hgone hkey
  · intro honly key
    rw [hcontents]
    by_cases hpre : old <+: key
    · -- at the old prefix: the marker was deleted, and there was nothing else
      rw [if_pos hpre]
      split
      · rfl
      · next hold =>
        rw [if_neg (hne key hpre)]
        exact Bucket.contents_eq_none.mpr fun hkey => hold (honly key hkey hpre)
    · have hold : key ≠ old := by
        rintro rfl
        exact hpre (List.prefix_refl _)
      rw [if_neg hpre, if_neg hold]
      by_cases hnew : new <+: key
      · -- at the new prefix: the marker, and nothing else
        obtain ⟨rest, rfl⟩ := hnew
        rw [if_pos (List.prefix_append _ _), List.drop_left]
        by_cases hrest : rest = []
        · subst hrest
          rw [List.append_nil, List.append_nil, if_pos rfl, Bucket.contents, ho]
          rfl
        · have hold' : old ++ rest ∉ b.keys := by
            intro hmem
            have heq := honly _ hmem (List.prefix_append _ _)
            exact hrest (List.append_right_eq_self.mp heq)
          rw [if_neg (fun heq => hrest (List.append_right_eq_self.mp heq)),
            Bucket.contents_eq_none.mpr hold', Bucket.contents_eq_none]
          exact fun hmem => hfree _ hmem (List.prefix_append _ _)
      · rw [if_neg hnew, if_neg]
        rintro rfl
        exact hnew (List.prefix_refl _)

/-- `Rename` of a path that is no file, to a path with nothing below it that is not
inside the old one, whatever calls fail: when it succeeds, the subtree has moved
exactly if there was nothing in it but the directory's marker. -/
theorem rename_moves_subtree_iff (w : World) (oldpath newpath : GoString)
    (hfile : w.bucket.get (s3KeyFromPath oldpath) = none)
    (hfree : ∀ key ∈ w.bucket.keys, ¬ s3DirKey (s3KeyFromPath newpath) <+: key)
    (houtside : ¬ s3DirKey (s3KeyFromPath oldpath) <+: s3DirKey (s3KeyFromPath newpath))
    (hok : ((rename oldpath newpath).run World.handle w).1 = .ok ()) :
    SubtreeMoved w.bucket ((rename oldpath newpath).run World.handle w).2.bucket
        (s3DirKey (s3KeyFromPath oldpath)) (s3DirKey (s3KeyFromPath newpath)) ↔
      ∀ key ∈ w.bucket.keys, s3DirKey (s3KeyFromPath oldpath) <+: key →
        key = s3DirKey (s3KeyFromPath oldpath) := by
  have hout := (rename_outcome w oldpath newpath).2 (Or.inr hfile)
  rw [hok] at hout
  exact hout.subtreeMoved_iff hfree houtside

/-- A bucket with the marker of a directory `d`. -/
def Bucket.onlyD : Bucket := empty.put (gs "d/") ⟨[], ∅, 0, []⟩ (by decide)

/-- A directory `d` with a file in it. -/
def Bucket.dWithF : Bucket := onlyD.put (gs "d/f") ⟨[1], ∅, 0, []⟩ (by decide)

/-- An empty directory is moved. -/
theorem rename_moves_empty_directory :
    SubtreeMoved .onlyD
      ((rename (gs "/d") (gs "/e")).run World.handle (World.start .onlyD)).2.bucket
      (gs "d/") (gs "e/") :=
  (rename_moves_subtree_iff (World.start .onlyD) (gs "/d") (gs "/e") rfl (by decide) (by decide)
    (by decide)).mpr (by decide)

/-- Renaming `/d` to `/e` succeeds and leaves `/d/f` where it was. -/
theorem rename_leaves_children_behind :
    let run := (rename (gs "/d") (gs "/e")).run World.handle (World.start .dWithF)
    run.1 = .ok () ∧ run.2.bucket.dataAt (gs "d/f") = some [1] ∧
      ¬ SubtreeMoved .dWithF run.2.bucket (gs "d/") (gs "e/") := by
  have hleft : (((rename (gs "/d") (gs "/e")).run World.handle
      (World.start .dWithF)).2.bucket.dataAt (gs "d/f")) = some [1] := by decide
  refine ⟨by decide, hleft, fun h => ?_⟩
  obtain ⟨o, ho, -⟩ := Option.map_eq_some_iff.mp hleft
  have hgone := h (gs "d/f")
  rw [if_pos (by decide), Bucket.contents, ho] at hgone
  cases hgone

/-! ## Removing -/

section Removing

variable {t : Time} {b : Bucket} {c : Option MetadataCache}

/-- What `Remove` does on a reliable S3: it deletes the object the path names, if
there is one. -/
theorem remove_outcome (c : Option MetadataCache) (path : GoString) :
    Prog.Triple World.handle (At t b c) (remove path) fun r w =>
      ((∃ o, b.get (objectKey b path) = some o) ∧ r = .ok () ∧
        ∃ ks, Upd t c (b.remove (objectKey b path)) ks w) ∨
      b.get (objectKey b path) = none ∧ r = .error .errNotExist ∧ Upd t c b [] w := by
  refine (triple_headObject _).step fun r hr => ?_
  cases r with
  | ok info =>
    obtain ⟨o, ho, -⟩ := Bucket.headObject_ok hr.symm
    rw [objectKey_of_ok hr.symm]
    refine (triple_removeObject _ (Bucket.ne_nil_of_get ho)).post fun r w h => ?_
    exact Or.inl ⟨⟨o, ho⟩, h.1, _, h.2⟩
  | error err =>
    rw [objectKey_of_error hr.symm]
    refine (triple_headObject _).step fun r hr => ?_
    cases r with
    | ok info =>
      obtain ⟨o, ho, -⟩ := Bucket.headObject_ok hr.symm
      refine (triple_removeObject _ (Bucket.ne_nil_of_get ho)).post fun r w h => ?_
      exact Or.inl ⟨⟨o, ho⟩, h.1, _, h.2⟩
    | error err =>
      exact Prog.triple_pure fun w h => Or.inr ⟨Bucket.headObject_error hr.symm, rfl, h.upd⟩

/-- Without a cache nothing is found in it. -/
theorem cacheGet_none (key : GoString) :
    Prog.Triple World.handle (At t b none) (cacheGet key)
      fun r w => r = none ∧ At t b none w := by
  have hget : Prog.Triple World.handle (At t b none) (Prog.call (.getEntry key))
      fun r w => r = none ∧ At t b none w :=
    fun w h => h.onCache none fun mc => mc.getEntry w.begin.clock key
  refine hget.step fun r hr => ?_
  subst hr
  exact Prog.triple_pure fun w h => ⟨rfl, h⟩

/-- Allocating an inode never says that a path does not exist. -/
theorem HandleStore.getOrCreateInode_ne_errNotExist (s : HandleStore) (key : GoString)
    (commit : Bool) : (s.getOrCreateInode key commit).1 ≠ .error .errNotExist := by
  unfold HandleStore.getOrCreateInode HandleStore.createInode HandleStore.getInode
  cases s.keyToInode.lookup key with
  | some inode => simp
  | none =>
    dsimp only
    split
    · simp
    · cases commit <;> simp

theorem getOrCreateInode_found (key : GoString) :
    Prog.Triple World.handle (At t b c) (Prog.call (.getOrCreateInode key))
      fun r w => r ≠ .error .errNotExist ∧ At t b c w :=
  fun w h => ⟨w.handles.getOrCreateInode_ne_errNotExist key _, h.onHandles _⟩

theorem statFound_found (path key : GoString) (isDir : Bool) (info : ObjectInfo) :
    Prog.Triple World.handle (At t b c) (statFound path key isDir info)
      fun r _ => r ≠ .error .errNotExist := by
  refine (getOrCreateInode_found key).step fun r hr => ?_
  cases r with
  | error err => exact Prog.triple_pure fun _ _ => by simpa using hr
  | ok inode =>
    refine Prog.triple_bind (Prog.triple_true _) fun _ => ?_
    exact Prog.triple_pure fun _ _ => by simp

theorem implicitDirInfo_found (path dirKey : GoString) :
    Prog.Triple World.handle (At t b c) (implicitDirInfo path dirKey)
      fun r _ => r ≠ .error .errNotExist := by
  refine (getOrCreateInode_found dirKey).step fun r hr => ?_
  cases r with
  | error err => exact Prog.triple_pure fun _ _ => by simpa using hr
  | ok inode =>
    refine Prog.triple_bind (Prog.triple_true _) fun now => ?_
    refine Prog.triple_bind (Prog.triple_true _) fun _ => ?_
    exact Prog.triple_pure fun _ _ => by simp

/-- A listing without entries has nothing below its prefix. -/
theorem listObjects_eq_nil_iff {pfx : GoString} :
    b.listObjects pfx = [] ↔ ∀ key ∈ b.keys, ¬ pfx <+: key := by
  constructor
  · intro h key hkey hpre
    have hchild := Bucket.mem_listKeys.mpr ⟨key, hkey, hpre, rfl⟩
    rw [List.map_eq_nil_iff.mp h] at hchild
    cases hchild
  · intro h
    by_contra hne
    obtain ⟨key, hkey, hpre⟩ := exists_mem_of_listObjects_ne_nil hne
    exact h key hkey hpre

/-- There is nothing at the path: no object at its key, none at or below its
directory key. -/
def Absent (b : Bucket) (path : GoString) : Prop :=
  b.get (s3KeyFromPath path) = none ∧ ∀ key ∈ b.keys, ¬ s3DirKey (s3KeyFromPath path) <+: key

theorem statS3_errNotExist_iff (path : GoString) :
    Prog.Triple World.handle (At t b c)
      (statS3 path (s3KeyFromPath path) (s3DirKey (s3KeyFromPath path)))
      fun r _ => (r = .error .errNotExist ↔ Absent b path) := by
  refine (triple_headObject _).step fun r hr => ?_
  cases r with
  | ok info =>
    obtain ⟨o, ho, -⟩ := Bucket.headObject_ok hr.symm
    refine (statFound_found _ _ _ _).post fun r w h => iff_of_false h fun habs => ?_
    rw [habs.1] at ho
    cases ho
  | error err =>
    have hnone := Bucket.headObject_error hr.symm
    refine (triple_headObject _).step fun r hr => ?_
    cases r with
    | ok info =>
      obtain ⟨o, ho, -⟩ := Bucket.headObject_ok hr.symm
      refine (statFound_found _ _ _ _).post fun r w h => iff_of_false h fun habs => ?_
      exact habs.2 _ (Bucket.mem_keys.mpr ⟨o, ho⟩) (List.prefix_refl _)
    | error err =>
      refine (triple_listObjects _).step fun r hr => ?_
      subst hr
      dsimp only
      split
      · next hnil =>
        refine Prog.triple_bind (Prog.triple_true _) fun _ => ?_
        refine Prog.triple_bind (Prog.triple_true _) fun _ => ?_
        exact Prog.triple_pure fun _ _ => iff_of_true rfl ⟨hnone, listObjects_eq_nil_iff.mp hnil⟩
      · next hne =>
        refine (implicitDirInfo_found _ _).post fun r w h => iff_of_false h fun habs => ?_
        exact hne (listObjects_eq_nil_iff.mpr habs.2)

/-- Without a cache, `Stat` says that a path does not exist exactly if there is
nothing; the root always exists. -/
theorem stat_errNotExist_iff (path : GoString) :
    Prog.Triple World.handle (At t b none) (stat path) fun r _ =>
      (r = .error .errNotExist ↔ s3KeyFromPath path ≠ [] ∧ Absent b path) := by
  unfold stat
  dsimp only
  split
  · next hk =>
    refine Prog.triple_bind (Prog.triple_true _) fun r => ?_
    refine Prog.triple_bind (Prog.triple_true _) fun now => ?_
    exact Prog.triple_pure fun _ _ => iff_of_false (by simp) fun h => h.1 hk
  · next hk =>
    refine (cacheGet_none _).step fun r hr => ?_
    subst hr
    refine (cacheGet_none _).step fun r hr => ?_
    subst hr
    exact (statS3_errNotExist_iff path).post fun r w h => h.trans (and_iff_right hk).symm

end Removing

/-- What a removal must do: if it succeeds, one object was deleted and the path is
gone (`stat` is what `Stat` returns afterwards); if the path is a directory with
something in it, it fails and changes nothing. -/
structure RemovesPath (path : GoString) (b : Bucket) (r : Except GoError Unit) (b' : Bucket)
    (stat : Except GoError FileInfo) : Prop where
  gone : r = .ok () → stat = .error .errNotExist ∧ ∃ key o, b.get key = some o ∧ b' = b.remove key
  refused : (∃ key ∈ b.keys, s3DirKey (s3KeyFromPath path) <+: key ∧
    key ≠ s3DirKey (s3KeyFromPath path)) → (∃ err, r = .error err) ∧ b' = b

/-- After the object a path names has been deleted, the path is gone if that object
was all there was at and below the path's directory key. -/
theorem absent_remove_iff {b : Bucket} {path : GoString} :
    Absent (b.remove (objectKey b path)) path ↔
      ∀ key ∈ b.keys, s3DirKey (s3KeyFromPath path) <+: key → key = objectKey b path := by
  have hmem : ∀ key, key ∈ (b.remove (objectKey b path)).keys ↔
      key ≠ objectKey b path ∧ key ∈ b.keys := by
    intro key
    rw [Bucket.mem_keys, Bucket.mem_keys, Bucket.get_remove]
    by_cases h : key = objectKey b path <;> simp [h]
  have hfile : (b.remove (objectKey b path)).get (s3KeyFromPath path) = none := by
    rw [Bucket.get_remove]
    split
    · rfl
    · next hne =>
      unfold objectKey at hne
      split at hne
      · exact absurd rfl hne
      · next hnone => simpa using hnone
  constructor
  · intro h key hkey hpre
    by_contra hne
    exact h.2 key ((hmem key).mpr ⟨hne, hkey⟩) hpre
  · intro h
    refine ⟨hfile, fun key hkey hpre => ?_⟩
    obtain ⟨hne, hkey⟩ := (hmem key).mp hkey
    exact hne (h key hkey hpre)

theorem Upd.at_none {t : Time} {b : Bucket} {ks : List GoString} {w : World}
    (h : Upd t none b ks w) : At t b none w := by
  obtain ⟨c', hc, hw⟩ := h
  cases hc
  exact hw

/-- A strict descendant of a path is not the object the path names. -/
theorem ne_objectKey_of_below {b : Bucket} {path key : GoString}
    (hpre : s3DirKey (s3KeyFromPath path) <+: key) (hne : key ≠ s3DirKey (s3KeyFromPath path)) :
    key ≠ objectKey b path := by
  rintro rfl
  unfold objectKey at hpre hne
  split at hpre
  · next hsome =>
    obtain ⟨o, ho⟩ := Option.isSome_iff_exists.mp hsome
    rw [s3DirKey_s3KeyFromPath (Bucket.ne_nil_of_get ho)] at hpre
    have hlen := hpre.length_le
    rw [List.length_append, List.length_singleton] at hlen
    omega
  · next hnone => exact hne (if_neg hnone)

/-- `Remove` on a reliable S3, without a metadata cache: it does what it must exactly
if the object it deletes, if any, is all there is at and below the path's directory
key. -/
theorem remove_exact_iff (w : World) (hf : w.NoFaults) (hc : w.cache = none) (path : GoString) :
    let run := (remove path).run World.handle w
    RemovesPath path w.bucket run.1 run.2.bucket ((stat path).run World.handle run.2).1 ↔
      ((w.bucket.get (objectKey w.bucket path)).isSome → ∀ key ∈ w.bucket.keys,
        s3DirKey (s3KeyFromPath path) <+: key → key = objectKey w.bucket path) := by
  intro run
  have hat : At w.clock w.bucket none w := ⟨hf, rfl, hc, Int.le_refl _⟩
  rcases remove_outcome none path w hat with ⟨⟨o, ho⟩, hr, ks, hupd⟩ | ⟨hnone, hr, hupd⟩
  · -- an object was deleted
    have hb : run.2.bucket = w.bucket.remove (objectKey w.bucket path) := hupd.at_none.bucket
    have hroot : s3KeyFromPath path ≠ [] := by
      intro hk
      have hnil : objectKey w.bucket path = [] := by
        rw [objectKey, hk, Bucket.get_nil]
        rfl
      exact Bucket.ne_nil_of_get ho hnil
    have hstat := stat_errNotExist_iff path run.2 hupd.at_none
    rw [absent_remove_iff, and_iff_right hroot] at hstat
    rw [ho]
    constructor
    · intro h _
      exact hstat.mp (h.gone hr).1
    · intro h
      have hall := h rfl
      constructor
      · intro _
        exact ⟨hstat.mpr hall, _, o, ho, hb⟩
      · rintro ⟨key, hkey, hpre, hne⟩
        exact absurd (hall key hkey hpre) (ne_objectKey_of_below hpre hne)
  · -- there was none
    have hr : run.1 = .error .errNotExist := hr
    refine iff_of_true ⟨fun hok => ?_, fun _ => ⟨⟨_, hr⟩, hupd.at_none.bucket⟩⟩ fun hsome => ?_
    · rw [hr] at hok
      cases hok
    · rw [hnone] at hsome
      cases hsome

/-- An empty directory is removed. -/
theorem remove_exact_empty_directory :
    let w := { World.start .onlyD with cache := none }
    let run := (remove (gs "/d")).run World.handle w
    RemovesPath (gs "/d") w.bucket run.1 run.2.bucket
      ((stat (gs "/d")).run World.handle run.2).1 :=
  (remove_exact_iff { World.start .onlyD with cache := none } (fun _ => rfl) rfl (gs "/d")).mpr
    (by decide)

/-- Removing `/d` with `/d/f` in it succeeds, and `/d` still exists. -/
theorem remove_hides_live_directory :
    let w := { World.start .dWithF with cache := none }
    let run := (remove (gs "/d")).run World.handle w
    run.1 = .ok () ∧ run.2.bucket.dataAt (gs "d/f") = some [1] ∧
      ¬ RemovesPath (gs "/d") w.bucket run.1 run.2.bucket
        ((stat (gs "/d")).run World.handle run.2).1 := by
  intro w run
  have hok : run.1 = .ok () := by decide
  refine ⟨hok, by decide, fun h => ?_⟩
  obtain ⟨⟨err, herr⟩, -⟩ := h.refused ⟨gs "d/f", by decide, by decide, by decide⟩
  rw [hok] at herr
  cases herr

end S3Gateway
