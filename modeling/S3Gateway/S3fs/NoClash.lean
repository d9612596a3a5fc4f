import S3Gateway.S3fs.Stores

/-!
# Files and directories with the same path

In the bucket a file `k` is the object at `k`, and a directory `k` is whatever lies
below `k/`. Nothing in S3 keeps both from existing at once, so a path stays one or
the other only if each key that is created is checked against the keys that are
there: no file on the way down to it and, if it is a file, nothing below it
(`Bucket.Apart`). The gateway checks less: `OpenFile` and `Symlink` look for an
object at the key itself, `MkdirAll`, `Rename` and `Copy` look for nothing.

`Change` lists what an operation can do to the bucket; `Op.KeepsApart` is the check
on the key an operation creates, and with it no clash arises in any run
(`noClash_throughout`). Without it one arises from `MkdirAll` on a file
(`mkdirAll_over_file_clashes`).
-/

namespace S3Gateway

open Lib

/-! ## Clashes in a bucket -/

namespace Bucket

/-- No path is both a file and a directory. -/
def NoClash (b : Bucket) : Prop :=
  ∀ k ∈ b.keys, hasSuffixSlash k = false → ∀ k' ∈ b.keys, ¬ (k ++ [slash]) <+: k'

/-- An object at `key` clashes with no other object. -/
def Apart (b : Bucket) (key : GoString) : Prop :=
  (∀ k ∈ b.keys, hasSuffixSlash k = false → ¬ (k ++ [slash]) <+: key) ∧
    (hasSuffixSlash key = false → ∀ k ∈ b.keys, ¬ (key ++ [slash]) <+: k)

instance (b : Bucket) : Decidable b.NoClash :=
  inferInstanceAs (Decidable (∀ k ∈ b.keys, _))

instance (b : Bucket) (key : GoString) : Decidable (b.Apart key) :=
  inferInstanceAs (Decidable (_ ∧ _))

theorem mem_keys_put {b : Bucket} {key key' : GoString} {o : Object} {hk : key ≠ []} :
    key' ∈ (b.put key o hk).keys ↔ key' = key ∨ key' ∈ b.keys := by
  rw [mem_keys, mem_keys, get_put]
  by_cases h : key' = key
  · simp [h]
  · simp [h]

theorem mem_keys_remove {b : Bucket} {key key' : GoString} :
    key' ∈ (b.remove key).keys ↔ key' ≠ key ∧ key' ∈ b.keys := by
  rw [mem_keys, mem_keys, get_remove]
  by_cases h : key' = key
  · simp [h]
  · simp [h]

/-- Fewer keys clash less. -/
theorem NoClash.mono {b b' : Bucket} (h : b.NoClash) (hsub : ∀ k ∈ b'.keys, k ∈ b.keys) :
    b'.NoClash :=
  fun k hk hs k' hk' => h k (hsub k hk) hs k' (hsub k' hk')

theorem NoClash.put {b : Bucket} (h : b.NoClash) {key : GoString} (hap : b.Apart key) (o : Object)
    (hk : key ≠ []) : (b.put key o hk).NoClash := by
  intro k hmem hs k' hmem'
  rw [mem_keys_put] at hmem hmem'
  rcases hmem with rfl | hmem
  · rcases hmem' with rfl | hmem'
    · -- a key is no proper prefix of itself
      intro hpre
      have := hpre.length_le
      simp at this
    · exact hap.2 hs k' hmem'
  · rcases hmem' with rfl | hmem'
    · exact hap.1 k hmem hs
    · exact h k hmem hs k' hmem'

/-- Moving an object is storing it where the old one is gone. -/
theorem NoClash.move {b : Bucket} (h : b.NoClash) {src dst : GoString}
    (hap : (b.remove src).Apart dst) (o : Object) (hk : dst ≠ []) :
    ((b.put dst o hk).remove src).NoClash := by
  have hrem : (b.remove src).NoClash := h.mono fun k hmem => (mem_keys_remove.mp hmem).2
  refine (hrem.put hap o hk).mono fun k hmem => ?_
  rw [mem_keys_remove, mem_keys_put] at hmem
  rw [mem_keys_put, mem_keys_remove]
  exact hmem.2.imp_right fun hb => ⟨hmem.1, hb⟩

end Bucket

/-! ## What an operation does to the bucket -/

/-- The bucket after an operation on a session. -/
inductive Change (s : Session) : Op → Bucket → Prop where
  | unchanged (op : Op) : Change s op s.world.bucket
  /-- `createPlaceholder`: the file is opened for writing and does not exist. -/
  | placeholder {path : GoString} {flags : Nat} (o : Object) (hflags : writableFlags flags = true)
      (hnone : s.world.bucket.get (s3KeyFromPath path) = none) (hk : s3KeyFromPath path ≠ []) :
      Change s (.openFile path flags) (s.world.bucket.put (s3KeyFromPath path) o hk)
  /-- The first `Close` of a writable file. -/
  | upload {fd : Nat} {f : S3WritableFile} (o : Object)
      (hfd : s.files.lookup fd = some (.s3WritableFile f)) (hopen : f.closed = false)
      (hk : f.s3Key ≠ []) :
      Change s (.file fd .close) (s.world.bucket.put f.s3Key o hk)
  | metadata {op : Op} {path : GoString} {o o' : Object} (hop : op.rewrites = some path)
      (ho : s.world.bucket.get (objectKey s.world.bucket path) = some o)
      (hdata : o'.data = o.data) :
      Change s op (s.world.bucket.put (objectKey s.world.bucket path) o' (Bucket.ne_nil_of_get ho))
  | link {target linkPath : GoString} (o : Object) (htarget : target ≠ [])
      (hlen : target.length ≤ 4080) (hnone : s.world.bucket.get (s3KeyFromPath linkPath) = none)
      (hk : s3KeyFromPath linkPath ≠ []) :
      Change s (.symlink target linkPath) (s.world.bucket.put (s3KeyFromPath linkPath) o hk)
  | move {oldpath newpath : GoString} {o o' : Object}
      (ho : s.world.bucket.get (objectKey s.world.bucket oldpath) = some o)
      (hdata : o'.data = o.data) (hk : renameTarget s.world.bucket oldpath newpath ≠ []) :
      Change s (.rename oldpath newpath)
        ((s.world.bucket.put (renameTarget s.world.bucket oldpath newpath) o' hk).remove
          (objectKey s.world.bucket oldpath))
  | remove {path : GoString} :
      Change s (.remove path) (s.world.bucket.remove (objectKey s.world.bucket path))
  | marker {path : GoString} (o : Object) (hk : s3DirKey (s3KeyFromPath path) ≠ []) :
      Change s (.mkdirAll path) (s.world.bucket.put (s3DirKey (s3KeyFromPath path)) o hk)
  | copy {srcPath dstPath : GoString} {o o' : Object}
      (ho : s.world.bucket.get (s3KeyFromPath srcPath) = some o) (hdata : o'.data = o.data)
      (hk : s3KeyFromPath dstPath ≠ []) :
      Change s (.copy srcPath dstPath) (s.world.bucket.put (s3KeyFromPath dstPath) o' hk)

theorem Stores.change {s : Session} {op : Op} {b : Bucket} (h : Stores s op b) : Change s op b := by
  cases h with
  | unchanged => exact .unchanged _
  | put hk h =>
    cases h with
    | placeholder hflags hnone => exact .placeholder _ hflags hnone hk
    | upload hfd hopen _ _ => exact .upload _ hfd hopen hk
    | metadata hop ho hdata => exact .metadata hop ho hdata
    | link htarget hlen hnone => exact .link _ htarget hlen hnone hk
    | marker _ => exact .marker _ hk
    | copy ho hsame => exact .copy ho (congrArg Prod.fst hsame) hk
  | move ho hsame hk => exact .move ho (congrArg Prod.fst hsame) hk
  | remove => exact .remove

theorem step_change {s : Session} (hs : s.Ok) (op : Op) : Change s op (s.step op).world.bucket :=
  (step_stores hs op).change

/-! ## Runs without clashes -/

/-- The key the operation creates, if it creates one, clashes with no other. -/
def Op.KeepsApart (s : Session) : Op → Prop
  | .openFile path flags => writableFlags flags = true → s3KeyFromPath path ≠ [] →
      s.world.bucket.get (s3KeyFromPath path) = none → s.world.bucket.Apart (s3KeyFromPath path)
  | .file fd .close => ∀ f, s.files.lookup fd = some (.s3WritableFile f) → f.closed = false →
      s.world.bucket.Apart f.s3Key
  | .symlink target linkPath => target ≠ [] → target.length ≤ 4080 → s3KeyFromPath linkPath ≠ [] →
      s.world.bucket.get (s3KeyFromPath linkPath) = none →
      s.world.bucket.Apart (s3KeyFromPath linkPath)
  | .rename oldpath newpath =>
      s.world.bucket.get (objectKey s.world.bucket oldpath) ≠ none →
      renameTarget s.world.bucket oldpath newpath ≠ [] →
      (s.world.bucket.remove (objectKey s.world.bucket oldpath)).Apart
        (renameTarget s.world.bucket oldpath newpath)
  | .mkdirAll path => s3DirKey (s3KeyFromPath path) ≠ [] →
      s.world.bucket.Apart (s3DirKey (s3KeyFromPath path))
  | .copy srcPath dstPath => s.world.bucket.get (s3KeyFromPath srcPath) ≠ none →
      s3KeyFromPath dstPath ≠ [] → s.world.bucket.Apart (s3KeyFromPath dstPath)
  | _ => True

theorem Change.noClash {s : Session} {op : Op} {b' : Bucket} (h : Change s op b')
    (hno : s.world.bucket.NoClash) (hap : op.KeepsApart s) : b'.NoClash := by
  cases h with
  | unchanged => exact hno
  | placeholder o hflags hnone hk => exact hno.put (hap hflags hk hnone) o hk
  | upload o hfd hopen hk => exact hno.put (hap _ hfd hopen) o hk
  | metadata hop ho hdata =>
    -- the key is there already
    refine hno.mono fun k hmem => ?_
    rcases Bucket.mem_keys_put.mp hmem with rfl | hmem
    · exact Bucket.mem_keys.mpr ⟨_, ho⟩
    · exact hmem
  | link o htarget hlen hnone hk => exact hno.put (hap htarget hlen hk hnone) o hk
  | move ho hdata hk => exact hno.move (hap (by simp [ho]) hk) _ hk
  | remove => exact hno.mono fun k hmem => (Bucket.mem_keys_remove.mp hmem).2
  | marker o hk => exact hno.put (hap hk) o hk
  | copy ho hdata hk => exact hno.put (hap (by simp [ho]) hk) _ hk

/-- If every key a run creates is apart from the others, no path is ever both a file
and a directory. -/
theorem noClash_throughout (s : Session) (hs : s.Ok) (hno : s.world.bucket.NoClash) (ops : List Op)
    (hap : EachStep Session.step (fun s op => op.KeepsApart s) s ops) :
    Throughout Session.step (fun s => s.world.bucket.NoClash) s ops := by
  refine throughout_of_eachStep (I := fun s => s.Ok ∧ s.world.bucket.NoClash) ?_
    (fun s h => h.2) ⟨hs, hno⟩ hap
  rintro s op ⟨hs, hno⟩ hC
  exact ⟨hs.step op, (step_change hs op).noClash hno hC⟩

/-- A new file and a link in a directory, a second directory, a rename and a copy. -/
theorem noClash_throughout_new_tree :
    Throughout Session.step (fun s => s.world.bucket.NoClash) (.start .onlyD)
      [.openFile (gs "/d/f") 0o101, .file 0 .close, .symlink (gs "f") (gs "/d/l"),
        .mkdirAll (gs "/e"), .rename (gs "/d/f") (gs "/e/f"), .copy (gs "/e/f") (gs "/d/g")] := by
  refine noClash_throughout _ ⟨fun _ => rfl, fun fd f h => by cases h⟩ (by decide) _ ?_
  refine ⟨fun _ _ _ => by decide, fun f hf _ => ?_, fun _ _ _ _ => by decide, fun _ => by decide,
    fun _ _ => by decide, fun _ _ => by decide, trivial⟩
  have hkey : f.s3Key = gs "d/f" := by
    have := congrArg (Option.map fun f => match f with
      | .s3WritableFile f => f.s3Key
      | .s3File _ => []) hf
    exact Option.some.inj (this.symm.trans (by decide))
  rw [hkey]
  decide

/-- `MkdirAll` on a file: the marker is stored beside it. -/
theorem mkdirAll_over_file_clashes :
    (Session.start (.onlyF [1] [])).Ok ∧ (Session.start (.onlyF [1] [])).world.bucket.NoClash ∧
      ¬ Throughout Session.step (fun s => s.world.bucket.NoClash) (.start (.onlyF [1] []))
        [.mkdirAll (gs "/f")] := by
  refine ⟨⟨fun _ => rfl, fun fd f h => by cases h⟩, by decide, fun h => ?_⟩
  have hlast :
      ¬ ((Session.start (.onlyF [1] [])).step (.mkdirAll (gs "/f"))).world.bucket.NoClash := by
    decide
  exact hlast h.last

end S3Gateway
