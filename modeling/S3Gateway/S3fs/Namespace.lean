import S3Gateway.Lib.SparseTree
import S3Gateway.PathMapping
import S3Gateway.S3fs.Listing

/-!
# The namespace as a tree

What a client sees of the bucket is a tree of files and directories. The tree is stored
sparsely (`Lib.Sparse`): a file is an object at its key, a directory may have an object at
its key with a slash behind it, and whatever lies above an object is a directory.

Here is the correspondence: between the paths of the tree and the keys of the bucket, between
what is in the tree at a path and the node a client is told of (`Bucket.node_fileKey`), and
between changes of the bucket and changes of the tree.
-/

namespace S3Gateway

open Lib

/-! ## Paths -/

/-- A name a file or a directory can have. -/
abbrev Name := { c : GoString // IsName c }

/-- The key of the file with this path. -/
def fileKey (p : List Name) : GoString := [slash].intercalate (p.map Subtype.val)

/-- The key of the marker of the directory with this path. -/
def markerKey (p : List Name) : GoString := dirPrefix (p.map Subtype.val)

instance (c : GoString) : Decidable (IsName c) :=
  decidable_of_iff ((c ≠ [] ∧ slash ∉ c) ∧ c ≠ gs "." ∧ c ≠ gs "..")
    ⟨fun h => ⟨h.1, h.2.1, h.2.2⟩, fun h => ⟨h.component, h.dot, h.dotdot⟩⟩

/-- The names in a key. -/
def keyNames (key : GoString) : List Name :=
  (splitSlash key).filterMap fun c => if h : IsName c then some ⟨c, h⟩ else none

section Keys

variable {p q : List Name}

theorem isName_of_mem {c : GoString} (hc : c ∈ p.map Subtype.val) : IsName c := by
  obtain ⟨name, -, rfl⟩ := List.mem_map.mp hc
  exact name.2

theorem filterMap_names (p : List Name) :
    ((p.map Subtype.val).filterMap fun c => if h : IsName c then some ⟨c, h⟩ else none) = p := by
  induction p with
  | nil => rfl
  | cons name p ih =>
    rw [List.map_cons, List.filterMap_cons, ih]
    simp [name.2]

/-- A path is read off the key of its file. -/
@[simp]
theorem keyNames_fileKey (p : List Name) : keyNames (fileKey p) = p := by
  cases p with
  | nil => decide
  | cons name p =>
    rw [keyNames, fileKey, splitSlash_intercalate (fun c hc => isName_of_mem hc) (by simp)]
    exact filterMap_names _

theorem fileKey_concat (p : List Name) (name : Name) :
    fileKey (p ++ [name]) = markerKey p ++ name.1 := by
  rw [fileKey, List.map_append]
  exact intercalate_concat _ _

theorem markerKey_concat (p : List Name) (name : Name) :
    markerKey (p ++ [name]) = fileKey (p ++ [name]) ++ [slash] := by
  rw [fileKey_concat, markerKey, List.map_append]
  exact dirPrefix_concat _ _

/-- The marker of a directory is where a file would be, with a slash behind. -/
theorem markerKey_eq (hp : p ≠ []) : markerKey p = fileKey p ++ [slash] := by
  rcases List.eq_nil_or_concat p with hnil | ⟨init, name, rfl⟩
  · exact absurd hnil hp
  · rw [List.concat_eq_append]
    exact markerKey_concat init name

theorem fileKey_ne_nil (hp : p ≠ []) : fileKey p ≠ [] := by
  intro h
  have hnames := keyNames_fileKey p
  rw [h] at hnames
  exact hp hnames.symm

theorem hasSuffixSlash_fileKey (p : List Name) : hasSuffixSlash (fileKey p) = false := by
  rcases List.eq_nil_or_concat p with rfl | ⟨init, name, rfl⟩
  · rfl
  · rw [List.concat_eq_append, fileKey_concat]
    exact hasSuffixSlash_append_component _ name.2.component

theorem s3DirKey_fileKey (p : List Name) : s3DirKey (fileKey p) = markerKey p := by
  rcases List.eq_nil_or_concat p with rfl | ⟨init, name, rfl⟩
  · rfl
  · rw [List.concat_eq_append, markerKey_concat]
    have hdd : gs ".." ∉ splitSlash (fileKey (init ++ [name])) :=
      (intercalate_names fun c hc => isName_of_mem hc).2
    rw [s3DirKey, if_neg (fileKey_ne_nil (by simp)), if_neg hdd, hasSuffixSlash_fileKey]
    rfl

/-- A client's path leads to a path of the tree. -/
theorem fileKey_keyNames (path : GoString) :
    fileKey (keyNames (s3KeyFromPath path)) = s3KeyFromPath path := by
  obtain ⟨cs, hcs, hkey⟩ := s3KeyFromPath_names path
  have hlift : (cs.pmap Subtype.mk hcs).map Subtype.val = cs := by
    rw [List.map_pmap]
    exact List.pmap_eq_self.mpr fun _ _ => rfl
  have hfile : s3KeyFromPath path = fileKey (cs.pmap Subtype.mk hcs) := by
    rw [hkey, fileKey, hlift]
  rw [hfile, keyNames_fileKey]

/-- Up to the first slash, two strings that go on with one are the same. -/
theorem prefix_upto_slash {c d rest rest' : GoString} (hc : slash ∉ c) (hd : slash ∉ d) :
    c ++ slash :: rest <+: d ++ slash :: rest' ↔ c = d ∧ rest <+: rest' := by
  induction c generalizing d with
  | nil =>
    cases d with
    | nil => simp
    | cons b d =>
      have hb : slash ≠ b := fun h => hd (h ▸ List.mem_cons_self)
      simp [hb]
  | cons a c ih =>
    have ha : a ≠ slash := fun h => hc (h ▸ List.mem_cons_self)
    cases d with
    | nil => simp [ha]
    | cons b d =>
      have hc' : slash ∉ c := fun h => hc (List.mem_cons_of_mem _ h)
      have hd' : slash ∉ d := fun h => hd (List.mem_cons_of_mem _ h)
      rw [List.cons_append, List.cons_append, List.cons_prefix_cons, ih hc' hd', List.cons.injEq,
        and_assoc]

/-- What begins with a directory's key, up to a last part without a slash. -/
theorem markerKey_prefix_iff {rest : GoString} (hrest : slash ∉ rest) :
    markerKey p <+: markerKey q ++ rest ↔ p <+: q := by
  have hcons : ∀ (name : Name) (r : List Name),
      markerKey (name :: r) = name.1 ++ slash :: markerKey r := by
    intro name r
    simp [markerKey, dirPrefix]
  induction p generalizing q with
  | nil => exact iff_of_true List.nil_prefix List.nil_prefix
  | cons name p ih =>
    cases q with
    | nil =>
      refine iff_of_false (fun h => hrest ?_) (by simp)
      rw [hcons] at h
      exact h.subset (by simp)
    | cons name' q =>
      rw [hcons, hcons, List.append_assoc, List.cons_append,
        prefix_upto_slash name.2.component.2 name'.2.component.2, List.cons_prefix_cons,
        Subtype.ext_iff]
      exact and_congr_right fun _ => ih

theorem markerKey_prefix_markerKey : markerKey p <+: markerKey q ↔ p <+: q := by
  have h : markerKey p <+: markerKey q ++ [] ↔ p <+: q := markerKey_prefix_iff List.not_mem_nil
  rwa [List.append_nil] at h

theorem markerKey_prefix_fileKey (hq : q ≠ []) :
    markerKey p <+: fileKey q ↔ p <+: q ∧ q ≠ p := by
  rcases List.eq_nil_or_concat q with hnil | ⟨init, name, rfl⟩
  · exact absurd hnil hq
  · rw [List.concat_eq_append, fileKey_concat, markerKey_prefix_iff name.2.component.2]
    constructor
    · intro h
      refine ⟨h.trans (List.prefix_append _ _), ?_⟩
      rintro rfl
      have hlen := h.length_le
      simp at hlen
    · rintro ⟨h, hne⟩
      rcases List.prefix_concat_iff.mp h with heq | h
      · exact absurd heq.symm hne
      · exact h

end Keys

/-! ## The tree of a bucket -/

/-- A canonical key is that of a file or that of a marker. -/
theorem CanonicalKey.cases {key : GoString} (h : CanonicalKey key) :
    ∃ p : List Name, p ≠ [] ∧ (key = fileKey p ∨ key = markerKey p) := by
  obtain ⟨cs, hne, hnames, hkey⟩ := h
  have hlift : (cs.pmap Subtype.mk hnames).map Subtype.val = cs := by
    rw [List.map_pmap]
    exact List.pmap_eq_self.mpr fun _ _ => rfl
  have hp : cs.pmap Subtype.mk hnames ≠ [] := fun h => hne (List.pmap_eq_nil_iff.mp h)
  refine ⟨cs.pmap Subtype.mk hnames, hp, ?_⟩
  rw [markerKey_eq hp, fileKey, hlift]
  exact hkey

theorem canonicalKey_fileKey {p : List Name} (hp : p ≠ []) : CanonicalKey (fileKey p) :=
  ⟨p.map Subtype.val, fun h => hp (List.map_eq_nil_iff.mp h), fun _ hc => isName_of_mem hc,
    Or.inl rfl⟩

theorem canonicalKey_markerKey {p : List Name} (hp : p ≠ []) : CanonicalKey (markerKey p) :=
  ⟨p.map Subtype.val, fun h => hp (List.map_eq_nil_iff.mp h), fun _ hc => isName_of_mem hc,
    Or.inr (markerKey_eq hp)⟩

namespace Bucket

variable {b : Bucket} {p q : List Name}

/-- The tree in a bucket. -/
def tree (b : Bucket) : Sparse Name Bytes where
  file p := b.dataAt (fileKey p)
  marker p := b.get (markerKey p) ≠ none

theorem ne_nil_of_file (h : b.tree.file p ≠ none) : p ≠ [] := by
  rintro rfl
  refine h ?_
  show (b.get []).map Object.data = none
  rw [get_nil]
  rfl

theorem mem_keys_of_ne_none {key : GoString} : b.get key ≠ none ↔ key ∈ b.keys := by
  rw [mem_keys, Option.ne_none_iff_exists']

theorem file_ne_none_iff : b.tree.file p ≠ none ↔ fileKey p ∈ b.keys := by
  rw [← mem_keys_of_ne_none]
  show (b.get (fileKey p)).map Object.data ≠ none ↔ _
  simp

theorem key_of_dir (h : b.tree.Dir p) : ∃ key ∈ b.keys, markerKey p <+: key := by
  rcases h with hmarker | ⟨q, hpq, hne, hfile | hmarker⟩
  · exact ⟨_, mem_keys_of_ne_none.mp hmarker, List.prefix_refl _⟩
  · exact ⟨_, file_ne_none_iff.mp hfile,
      (markerKey_prefix_fileKey (ne_nil_of_file hfile)).mpr ⟨hpq, hne⟩⟩
  · exact ⟨_, mem_keys_of_ne_none.mp hmarker, markerKey_prefix_markerKey.mpr hpq⟩

/-- A bucket without clashes holds a proper tree. -/
theorem NoClash.proper (h : b.NoClash) : b.tree.Proper := by
  intro p hfile
  have hp := ne_nil_of_file hfile
  refine ⟨hp, fun hdir => ?_⟩
  obtain ⟨key, hkey, hpre⟩ := key_of_dir hdir
  rw [markerKey_eq hp] at hpre
  exact h _ (file_ne_none_iff.mp hfile) (hasSuffixSlash_fileKey p) key hkey hpre

/-- What a client is told of a place in the tree. -/
def nodeOf : TreeNode Bytes → Node
  | .file content => .file content.length
  | .dir => .dir

theorem Canonical.put (h : b.Canonical) {key : GoString} (hcanon : CanonicalKey key) (o : Object)
    (hk : key ≠ []) : (b.put key o hk).Canonical := by
  intro key' hmem
  rcases mem_keys_put.mp hmem with rfl | hmem
  · exact hcanon
  · exact h key' hmem

theorem Canonical.remove (h : b.Canonical) (key : GoString) : (b.remove key).Canonical :=
  fun key' hmem => h key' (mem_keys_remove.mp hmem).2

end Bucket

/-! ## Paths of clients -/

/-- The path of the tree that a client's path leads to. -/
def namesOf (path : GoString) : List Name := keyNames (s3KeyFromPath path)

theorem fileKey_namesOf (path : GoString) : fileKey (namesOf path) = s3KeyFromPath path :=
  fileKey_keyNames path

theorem markerKey_namesOf (path : GoString) :
    markerKey (namesOf path) = s3DirKey (s3KeyFromPath path) := by
  rw [← s3DirKey_fileKey, fileKey_namesOf]

theorem canonicalKey_s3KeyFromPath {path : GoString} (hk : s3KeyFromPath path ≠ []) :
    CanonicalKey (s3KeyFromPath path) := by
  rw [← fileKey_namesOf] at hk ⊢
  refine canonicalKey_fileKey fun hnil => hk ?_
  rw [hnil]
  rfl

theorem canonicalKey_s3DirKey {path : GoString} (hk : s3DirKey (s3KeyFromPath path) ≠ []) :
    CanonicalKey (s3DirKey (s3KeyFromPath path)) := by
  rw [← markerKey_namesOf] at hk ⊢
  refine canonicalKey_markerKey fun hnil => hk ?_
  rw [hnil]
  rfl

end S3Gateway
