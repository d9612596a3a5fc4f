import S3Gateway.S3fs.NoClash
import S3Gateway.S3fs.Resolve
import S3Gateway.S3fs.Tree

/-!
# `Readdir` and `Stat` describe the same tree

`Readdir` lists a prefix and cuts the names out of the keys it gets; `Stat` turns a
path into keys and asks for each of them. A listing shows the key `pfx ++ c` if there
is an object there, and `pfx ++ c ++ "/"` if there is anything at or below that
(`file_mem_listKeys`, `dir_mem_listKeys`), which is what makes `pfx ++ c` a node. So
both see the same children, provided that no name is a file and a directory at once,
and the inode is the same because both allocate it under the same key
(`readdir_describes_tree`).
-/

namespace S3Gateway

open Lib

/-! ## Children -/

/-- The key of a name below a rooted path, and its directory key. -/
theorem s3KeyFromPath_child {path name : GoString} (hroot : path.head? = some slash)
    (hname : IsName name) :
    s3KeyFromPath (joinPath path name) = s3DirKey (s3KeyFromPath path) ++ name ∧
      s3DirKey (s3KeyFromPath (joinPath path name))
        = s3DirKey (s3KeyFromPath path) ++ (name ++ [slash]) := by
  have hsplit : splitSlash name = [name] := List.splitOn_eq_singleton hname.component.2
  have hroot' : (joinPath path name).head? = some slash := by
    unfold joinPath
    split
    · rfl
    · rw [List.head?_append, hroot]
      rfl
  have helems : cleanElems (joinPath path name) = cleanElems path ++ [name] := by
    rw [cleanElems, hroot', cleanElems, hroot]
    unfold joinPath
    split
    · next h =>
      have hsp : splitSlash (slash :: name) = splitSlash [] ++ splitSlash name :=
        splitSlash_append_cons [] name
      rw [hsp, hsplit, h, List.foldl_append, List.foldl_cons, List.foldl_nil, beq_self_eq_true,
        cleanElem_name true _ hname, List.reverse_cons]
      rfl
    · rw [splitSlash_append_cons, hsplit, List.foldl_append, List.foldl_cons, List.foldl_nil,
        beq_self_eq_true, cleanElem_name true _ hname, List.reverse_cons]
  rw [s3DirKey_rooted hroot', s3DirKey_rooted hroot, s3KeyFromPath_rooted hroot', helems,
    intercalate_concat, dirPrefix_concat, List.append_assoc]
  exact ⟨rfl, rfl⟩

/-- What a listing shows of a key. -/
theorem childOf_append (pfx rest : GoString) :
    Bucket.childOf pfx (pfx ++ rest)
      = if slash ∈ rest then pfx ++ rest.takeWhile (· != slash) ++ [slash] else pfx ++ rest := by
  rw [Bucket.childOf, List.drop_left]

section Children

variable {b : Bucket} {pfx c : GoString}

/-- A file is listed if there is an object at its key. -/
theorem file_mem_listKeys (hc : IsComponent c) :
    pfx ++ c ∈ b.listKeys pfx ↔ pfx ++ c ∈ b.keys := by
  rw [Bucket.mem_listKeys]
  constructor
  · rintro ⟨key, hkey, ⟨rest, rfl⟩, hchild⟩
    rw [childOf_append] at hchild
    split at hchild
    · have hslash := hasSuffixSlash_append_component pfx hc
      rw [← hchild, hasSuffixSlash_concat] at hslash
      cases hslash
    · rwa [← hchild]
  · intro hkey
    refine ⟨_, hkey, List.prefix_append _ _, ?_⟩
    rw [childOf_append, if_neg hc.2]

/-- A directory is listed if there is an object at or below its key. -/
theorem dir_mem_listKeys (hc : IsComponent c) :
    pfx ++ (c ++ [slash]) ∈ b.listKeys pfx ↔ ∃ key ∈ b.keys, pfx ++ (c ++ [slash]) <+: key := by
  have hns : ∀ x ∈ c, (x != slash) = true := by
    intro x hx
    rw [bne_iff_ne]
    rintro rfl
    exact hc.2 hx
  rw [Bucket.mem_listKeys]
  constructor
  · rintro ⟨key, hkey, ⟨rest, rfl⟩, hchild⟩
    refine ⟨_, hkey, ?_⟩
    rw [← hchild]
    exact Bucket.childOf_prefix (List.prefix_append _ _)
  · rintro ⟨key, hkey, ⟨more, rfl⟩⟩
    refine ⟨_, hkey, ?_, ?_⟩
    · rw [List.append_assoc]
      exact List.prefix_append _ _
    · rw [List.append_assoc, childOf_append, if_pos (by simp), List.append_assoc c,
        List.takeWhile_append_of_pos hns, List.singleton_append,
        List.takeWhile_cons_of_neg (by simp), List.append_nil, List.append_assoc]

end Children

/-! ## `Readdir` -/

/-- The error is that of a failed inode allocation, possibly wrapped. -/
def AllocationError (err : GoError) : Prop :=
  ∃ (s : HandleStore) (key : GoString) (commit : Bool) (cause : GoError),
    (s.getOrCreateInode key commit).1 = .error cause ∧ (err = cause ∨ ∃ msg, err = .wrap msg cause)

namespace HandleStore

variable {s : HandleStore} {key : GoString} {inode : UInt64} {commit : Bool}

/-- An allocated inode is found again. -/
theorem lookup_getOrCreateInode_self (h : (s.getOrCreateInode key commit).1 = .ok inode) :
    (s.getOrCreateInode key commit).2.keyToInode.lookup key = some inode :=
  (s.creates key commit).keeps.2 inode h

/-- Allocating an inode leaves those of other keys. -/
theorem lookup_getOrCreateInode_of_some {key' : GoString}
    (h : s.keyToInode.lookup key' = some inode) :
    (s.getOrCreateInode key commit).2.keyToInode.lookup key' = some inode :=
  (s.creates key commit).keeps.1 key' inode h

end HandleStore

/-- The info shows the listing entry, with the inode of its key. -/
structure Listed (pfx : GoString) (h : HandleStore) (entry : ListEntry) (info : FileInfo) :
    Prop where
  name : info.name = entryName pfx entry.key
  isDir : info.isDir = (entry.isDir || hasSuffixSlash entry.key)
  size : info.size = entry.size
  inode : h.keyToInode.lookup entry.key = some info.inode

/-- The entries of a listing that `Readdir` does not skip. -/
def shownEntries (pfx : GoString) (entries : List ListEntry) : List ListEntry :=
  entries.filter fun entry => entryName pfx entry.key ≠ []

/-- The metadata `Readdir` finds for a listing entry: that of the object for a file. -/
def Bucket.entryMetadata (b : Bucket) (isDir : Bool) (key : GoString) : Metadata :=
  if isDir then ∅ else ((b.get key).map Object.userMetadata).getD ∅

/-- The info `Readdir` makes for a listing entry, and the inode of its key. -/
structure Built (b : Bucket) (pfx : GoString) (h : HandleStore) (entry : ListEntry)
    (info : FileInfo) : Prop where
  info_eq : info = newFileInfoFromS3 (entryName pfx entry.key) entry.size entry.lastModified
    (entry.isDir || hasSuffixSlash entry.key) info.inode
    (b.entryMetadata (entry.isDir || hasSuffixSlash entry.key) entry.key)
  inode : h.keyToInode.lookup entry.key = some info.inode

theorem Built.listed {b : Bucket} {pfx : GoString} {h : HandleStore} {entry : ListEntry}
    {info : FileInfo} (hb : Built b pfx h entry info) : Listed pfx h entry info := by
  refine ⟨?_, ?_, ?_, hb.inode⟩ <;> rw [hb.info_eq] <;> rfl

/-- What `Readdir` stores for the entries of a listing. -/
def cachedListing (entries : List ListEntry) (infos : List FileInfo) : List CacheEntry :=
  List.zipWith (fun entry info => cacheEntryOf entry.key info) entries infos

section Readdir

variable {b : Bucket} {h : HandleStore} {env : Nat → Outcome}

theorem steady_entryMeta (isDir : Bool) (key : GoString) :
    Prog.Triple World.handle (Steady b h env) (S3File.entryMeta isDir key)
      fun r w => r = b.entryMetadata isDir key ∧ Steady b h env w := by
  unfold S3File.entryMeta Bucket.entryMetadata
  split
  · exact Prog.triple_pure fun _ hw => ⟨rfl, hw⟩
  · refine (steady_headObject key).step fun r hr => ?_
    cases r with
    | ok info =>
      obtain ⟨o, ho, -, -, -, -, hmeta⟩ := Bucket.headObject_ok hr.symm
      refine Prog.triple_pure fun _ hw => ⟨?_, hw⟩
      rw [ho, hmeta]
      rfl
    | error _ =>
      refine Prog.triple_pure fun _ hw => ⟨?_, hw⟩
      rw [Bucket.headObject_error hr.symm]
      rfl

/-- The loop of `Readdir` shows the entries one by one, or stops because an inode cannot
be allocated. -/
theorem built_readdirList (pfx : GoString) (entries : List ListEntry) (infos : List FileInfo)
    (cached : List CacheEntry) :
    Prog.Triple World.handle (Steady b h env) (S3File.readdirList pfx entries infos cached)
      fun r w => (∃ err, r = .error err ∧ AllocationError err) ∨
        ∃ h' new, r = .ok (infos ++ new, cached ++ cachedListing (shownEntries pfx entries) new) ∧
          Steady b h' env w ∧ h.Keeps h' ∧
          List.Forall₂ (Built b pfx h') (shownEntries pfx entries) new := by
  induction entries generalizing h infos cached with
  | nil =>
    refine Prog.triple_pure fun w hw => Or.inr ⟨h, [], ?_, hw, .refl h, .nil⟩
    show _ = Except.ok (infos ++ [], cached ++ [])
    rw [List.append_nil, List.append_nil]
  | cons entry entries ih =>
    unfold S3File.readdirList
    dsimp only
    split
    · next hname =>
      have hshown : shownEntries pfx (entry :: entries) = shownEntries pfx entries :=
        List.filter_cons_of_neg fun hp => of_decide_eq_true hp hname
      rw [hshown]
      exact ih infos cached
    · next hname =>
      have hshown : shownEntries pfx (entry :: entries) = entry :: shownEntries pfx entries :=
        List.filter_cons_of_pos (decide_eq_true hname)
      rw [hshown]
      refine Prog.triple_bind (steady_getOrCreateInode _) fun r => Prog.triple_exists fun n => ?_
      refine Prog.triple_and fun hr => ?_
      cases r with
      | error err =>
        exact Prog.triple_pure fun w hw =>
          Or.inl ⟨_, rfl, h, entry.key, _, err, hr.symm, Or.inr ⟨_, rfl⟩⟩
      | ok inode =>
        have hkept := (h.creates entry.key (env n).commit).keeps
        refine (steady_entryMeta _ _).step fun userMeta hmeta => ?_
        subst hmeta
        refine Prog.triple_bind (steady_call rfl fun _ _ => rfl) fun _ => ?_
        refine (ih _ _).post ?_
        rintro r w (herr | ⟨h', new, hres, hw, hkeep, hbuilt⟩)
        · exact Or.inl herr
        · rw [List.append_assoc, List.singleton_append, List.append_assoc,
            List.singleton_append] at hres
          refine Or.inr ⟨h', _, hres, hw, hkept.1.trans hkeep, .cons ⟨rfl, ?_⟩ hbuilt⟩
          exact hkeep _ _ (hkept.2 inode hr.symm)

/-- `Readdir(0)` shows the listing, or fails because an inode cannot be allocated. -/
theorem listed_readdir {f : S3File} (hdir : f.isDir = true) :
    Prog.Triple World.handle (Bare b h env) (f.readdir 0) fun r w =>
      (∃ err, r = .error err ∧ AllocationError err) ∨
        ∃ h' infos, r = .ok infos ∧ Bare b h' env w ∧
          List.Forall₂ (Listed f.listPrefix h')
            (shownEntries f.listPrefix (b.listObjects f.listPrefix)) infos := by
  unfold S3File.readdir
  rw [hdir, Bool.not_true, if_neg Bool.false_ne_true]
  refine (bare_getDirListing _).step fun r hr => ?_
  subst hr
  refine (bare_listObjects _).step fun r hr => ?_
  subst hr
  refine Prog.triple_bind (bare_of_steady (built_readdirList _ _ [] [])) fun r => ?_
  rintro w ⟨⟨err, rfl, herr⟩ | ⟨h', infos, rfl, hw, -, hbuilt⟩, hc⟩
  · exact Or.inl ⟨err, rfl, herr⟩
  · exact Or.inr ⟨h', infos, rfl, bare_call rfl (fun _ _ => rfl) w (hw.bare hc),
      hbuilt.imp fun _ _ hb => hb.listed⟩

end Readdir

/-- `Open` and `Readdir(0)`: how a client lists a directory. -/
def listDir (path : GoString) : Gw (Except GoError (List FileInfo)) := do
  match ← openFile path oRDONLY with
  | .error err => pure (.error err)
  | .ok (.s3File f) => f.readdir 0
  | .ok (.s3WritableFile _) => pure (.error (.text (gs "not a directory")))

/-- A key made of names, with an optional slash at the end. -/
def CanonicalKey (key : GoString) : Prop :=
  ∃ cs : List GoString, cs ≠ [] ∧ (∀ c ∈ cs, IsName c) ∧
    (key = [slash].intercalate cs ∨ key = [slash].intercalate cs ++ [slash])

def Bucket.Canonical (b : Bucket) : Prop := ∀ key ∈ b.keys, CanonicalKey key

theorem CanonicalKey.isName {key c : GoString} (h : CanonicalKey key) (hc : c ∈ splitSlash key)
    (hne : c ≠ []) : IsName c := by
  obtain ⟨cs, hcs, hnames, rfl | rfl⟩ := h
  · rw [splitSlash_intercalate hnames hcs] at hc
    exact hnames c hc
  · rw [splitSlash_append_cons, splitSlash_intercalate hnames hcs] at hc
    rcases List.mem_append.mp hc with hc | hc
    · exact hnames c hc
    · exact absurd (List.mem_singleton.mp hc) hne

theorem mem_splitSlash_append {pfx c rest : GoString} (hp : IsDirPrefix pfx)
    (hc : c ∈ splitSlash rest) : c ∈ splitSlash (pfx ++ rest) := by
  rcases hp with rfl | hp
  · exact hc
  · have hlast : pfx.getLast? = some slash := by simpa [hasSuffixSlash] using hp
    obtain ⟨init, rfl⟩ := List.getLast?_eq_some_iff.mp hlast
    rw [List.append_assoc, List.singleton_append, splitSlash_append_cons]
    exact List.mem_append_right _ hc

/-- The names of a file and of a directory in a listing. -/
theorem entryName_child (pfx : GoString) {c : GoString} (hc : IsComponent c) :
    entryName pfx (pfx ++ c) = c ∧ entryName pfx (pfx ++ (c ++ [slash])) = c := by
  constructor
  · rw [entryName, trimPrefix_append]
    exact trimSuffixSlash_append_component [] hc
  · rw [entryName, trimPrefix_append, trimSuffixSlash_concat]

section SameTree

variable {b : Bucket} {pfx : GoString}

theorem mem_shownEntries {entry : ListEntry} :
    entry ∈ shownEntries pfx (b.listObjects pfx) ↔
      ∃ child ∈ b.listKeys pfx, IsChild pfx child ∧ b.listEntry pfx child = entry := by
  rw [shownEntries, List.mem_filter, decide_eq_true_eq]
  constructor
  · rintro ⟨hmem, hname⟩
    have hchild := isChild_of_mem_listObjects hmem hname
    obtain ⟨child, hkeys, rfl⟩ := List.mem_map.mp hmem
    rw [Bucket.listEntry_key] at hchild
    exact ⟨child, hkeys, hchild, rfl⟩
  · rintro ⟨child, hkeys, ⟨c, hc, hor⟩, rfl⟩
    refine ⟨List.mem_map_of_mem hkeys, ?_⟩
    rw [Bucket.listEntry_key]
    rcases hor with rfl | rfl
    · rw [(entryName_child pfx hc).1]
      exact hc.1
    · rw [(entryName_child pfx hc).2]
      exact hc.1

/-- The listing entry of a directory. -/
theorem listEntry_dir (b : Bucket) (pfx : GoString) {c : GoString} :
    ((b.listEntry pfx (pfx ++ (c ++ [slash]))).isDir ||
      hasSuffixSlash (b.listEntry pfx (pfx ++ (c ++ [slash]))).key) = true := by
  rw [Bucket.listEntry_key, ← List.append_assoc, hasSuffixSlash_concat, Bool.or_true]

/-- What a listing entry that is shown stands for: the node of its name. -/
theorem node_of_shown (hclash : b.NoClash) {c : GoString} (hc : IsComponent c)
    (hdirKey : s3DirKey (pfx ++ c) = pfx ++ (c ++ [slash])) {child : GoString}
    (hmem : child ∈ b.listKeys pfx) (hchild : child = pfx ++ c ∨ child = pfx ++ (c ++ [slash])) :
    ∃ node, b.node (pfx ++ c) = some node ∧ node.key (pfx ++ c) = child ∧
      ((b.listEntry pfx child).isDir || hasSuffixSlash (b.listEntry pfx child).key) = node.isDir ∧
      ∀ n : Nat, node = .file n → (b.listEntry pfx child).size = n := by
  have hns := hasSuffixSlash_append_component pfx hc
  rcases hchild with rfl | rfl
  · obtain ⟨o, ho, hsize, hdir⟩ := Bucket.listEntry_file hmem hns
    refine ⟨_, Bucket.node_of_get ho, rfl, ?_, fun n hn => ?_⟩
    · rw [hdir, Bucket.listEntry_key, hns]
      rfl
    · cases hn
      exact hsize
  · obtain ⟨key, hkey, hpre⟩ := (dir_mem_listKeys hc).mp hmem
    have hfile : b.get (pfx ++ c) = none := by
      cases hget : b.get (pfx ++ c) with
      | none => rfl
      | some o =>
        refine absurd ?_ (hclash _ (Bucket.mem_keys.mpr ⟨o, hget⟩) hns key hkey)
        rwa [List.append_assoc]
    refine ⟨.dir, Bucket.node_of_below hfile hkey (hdirKey ▸ hpre), hdirKey, ?_, nofun⟩
    exact listEntry_dir b pfx

/-- Every node is shown. -/
theorem shown_of_node {c : GoString} (hc : IsComponent c)
    (hdirKey : s3DirKey (pfx ++ c) = pfx ++ (c ++ [slash])) (h : (b.node (pfx ++ c)).isSome) :
    ∃ entry ∈ shownEntries pfx (b.listObjects pfx), entryName pfx entry.key = c := by
  rcases Bucket.node_isSome_iff.mp h with hfile | ⟨key, hkey, hpre⟩
  · obtain ⟨o, ho⟩ := Option.isSome_iff_exists.mp hfile
    have hmem := (file_mem_listKeys hc).mpr (Bucket.mem_keys.mpr ⟨o, ho⟩)
    refine ⟨_, mem_shownEntries.mpr ⟨_, hmem, ⟨c, hc, Or.inl rfl⟩, rfl⟩, ?_⟩
    rw [Bucket.listEntry_key, (entryName_child pfx hc).1]
  · have hmem := (dir_mem_listKeys (b := b) hc).mpr ⟨key, hkey, hdirKey ▸ hpre⟩
    refine ⟨_, mem_shownEntries.mpr ⟨_, hmem, ⟨c, hc, Or.inr rfl⟩, rfl⟩, ?_⟩
    rw [Bucket.listEntry_key, (entryName_child pfx hc).2]

/-- The components shown by a listing of a canonical bucket are names. -/
theorem Bucket.Canonical.isName (hcanon : b.Canonical) (hp : IsDirPrefix pfx) {c child : GoString}
    (hc : IsComponent c) (hmem : child ∈ b.listKeys pfx)
    (hchild : child = pfx ++ c ∨ child = pfx ++ (c ++ [slash])) : IsName c := by
  have hsplit : splitSlash c = [c] := List.splitOn_eq_singleton hc.2
  rcases hchild with rfl | rfl
  · refine (hcanon _ ((file_mem_listKeys hc).mp hmem)).isName (mem_splitSlash_append hp ?_) hc.1
    rw [hsplit]
    exact List.mem_singleton.mpr rfl
  · obtain ⟨key, hkey, more, rfl⟩ := (dir_mem_listKeys hc).mp hmem
    refine (hcanon _ hkey).isName ?_ hc.1
    rw [List.append_assoc]
    refine mem_splitSlash_append hp ?_
    rw [List.append_assoc, List.singleton_append, splitSlash_append_cons, hsplit]
    exact List.mem_append_left _ (List.mem_singleton.mpr rfl)

theorem nodup_listKeys (b : Bucket) (pfx : GoString) : (b.listKeys pfx).Nodup :=
  (List.perm_insertionSort _ _).nodup_iff.mpr (List.nodup_dedup _)

/-- Different entries that are shown have different names, unless a file and a directory
share one. -/
theorem nodup_shownNames (hclash : b.NoClash) (pfx : GoString) :
    ((shownEntries pfx (b.listObjects pfx)).map fun entry => entryName pfx entry.key).Nodup := by
  have hentries : (b.listObjects pfx).Nodup := by
    refine List.Nodup.of_map ListEntry.key ?_
    rw [Bucket.listObjects, List.map_map]
    have hkey : (ListEntry.key ∘ b.listEntry pfx) = id := funext (Bucket.listEntry_key b pfx)
    rw [hkey, List.map_id]
    exact nodup_listKeys b pfx
  refine List.Nodup.map_on ?_ (hentries.filter _)
  intro e₁ he₁ e₂ he₂ hname
  obtain ⟨child₁, hmem₁, ⟨c, hc, h₁⟩, rfl⟩ := mem_shownEntries.mp he₁
  obtain ⟨child₂, hmem₂, ⟨c', hc', h₂⟩, rfl⟩ := mem_shownEntries.mp he₂
  rw [Bucket.listEntry_key, Bucket.listEntry_key] at hname
  have hnames : ∀ {d child}, IsComponent d → (child = pfx ++ d ∨ child = pfx ++ (d ++ [slash])) →
      entryName pfx child = d := by
    intro d child hd hor
    rcases hor with rfl | rfl
    · exact (entryName_child pfx hd).1
    · exact (entryName_child pfx hd).2
  rw [hnames hc h₁, hnames hc' h₂] at hname
  subst hname
  -- a file and a directory of the same name would clash
  have hno : ¬ (pfx ++ c ∈ b.listKeys pfx ∧ pfx ++ (c ++ [slash]) ∈ b.listKeys pfx) := by
    rintro ⟨hfile, hdir⟩
    obtain ⟨key, hkey, hpre⟩ := (dir_mem_listKeys hc).mp hdir
    refine hclash _ ((file_mem_listKeys hc).mp hfile) (hasSuffixSlash_append_component pfx hc) key
      hkey ?_
    rwa [List.append_assoc]
  rcases h₁ with rfl | rfl <;> rcases h₂ with rfl | rfl
  · rfl
  · exact absurd ⟨hmem₁, hmem₂⟩ hno
  · exact absurd ⟨hmem₂, hmem₁⟩ hno
  · rfl

end SameTree

theorem bare_openRoot {b : Bucket} {h : HandleStore} {env : Nat → Outcome} {path : GoString}
    (hk : s3KeyFromPath path = []) :
    Prog.Triple World.handle (Bare b h env) (openFile path oRDONLY) fun r w =>
      ∃ h' f, r = .ok (.s3File f) ∧ f.isDir = true ∧ f.s3Key = [] ∧ Bare b h' env w := by
  unfold openFile
  dsimp only
  rw [if_pos hk]
  refine Prog.triple_bind (bare_getOrCreateInode _) fun r => Prog.triple_exists fun n => ?_
  refine Prog.triple_and fun hr => Prog.triple_bind (bare_call rfl fun _ _ => rfl) fun now => ?_
  exact Prog.triple_pure fun w hw => ⟨_, _, rfl, rfl, rfl, hw⟩

/-- An existing directory is listed: the listing of its prefix is shown, or an inode
cannot be allocated. -/
theorem listed_listDir {b : Bucket} {h : HandleStore} {env : Nat → Outcome} {path : GoString}
    (hdir : s3KeyFromPath path = [] ∨ b.node (s3KeyFromPath path) = some .dir) :
    Prog.Triple World.handle (Bare b h env) (listDir path) fun r w =>
      (∃ err, r = .error err ∧ AllocationError err) ∨
        ∃ h' infos, r = .ok infos ∧ Bare b h' env w ∧
          List.Forall₂ (Listed (s3DirKey (s3KeyFromPath path)) h')
            (shownEntries (s3DirKey (s3KeyFromPath path))
              (b.listObjects (s3DirKey (s3KeyFromPath path)))) infos := by
  by_cases hk : s3KeyFromPath path = []
  · refine Prog.triple_bind (bare_openRoot hk) fun r w hr => ?_
    obtain ⟨h', f, rfl, hisDir, hkey, hw⟩ := hr
    have hpfx : f.listPrefix = s3DirKey (s3KeyFromPath path) :=
      listPrefix_of_s3Key (Or.inl (hkey.trans hk.symm))
    exact hpfx ▸ listed_readdir hisDir w hw
  · have hnode := hdir.resolve_left hk
    refine Prog.triple_bind (looks_open hk) fun r w hr => ?_
    rcases hr with ⟨hnone, -⟩ | ⟨node, hsome, n, hw, herr, hok⟩
    · rw [hnode] at hnone
      cases hnone
    · rw [hnode] at hsome
      cases hsome
      cases halloc : (h.getOrCreateInode (Node.dir.key (s3KeyFromPath path)) (env n).commit).1 with
      | error err =>
        rw [herr err halloc]
        exact Or.inl ⟨err, rfl, h, _, _, err, halloc, Or.inl rfl⟩
      | ok inode =>
        obtain ⟨_, rfl, f, rfl, hisDir, hkey⟩ := hok inode halloc
        have hpfx : f.listPrefix = s3DirKey (s3KeyFromPath path) :=
          listPrefix_of_s3Key (Or.inr hkey)
        exact hpfx ▸ listed_readdir hisDir w hw

/-- The infos a listing of `path` returned describe the same tree as `Stat` does
afterwards. -/
structure SameTree (path : GoString) (infos : List FileInfo) (w : World) : Prop where
  distinct : (infos.map FileInfo.name).Nodup
  complete : ∀ name, IsName name →
    (name ∈ infos.map FileInfo.name ↔
      ∃ info, ((stat (joinPath path name)).run World.handle w).1 = .ok info)
  same : ∀ fi ∈ infos, ∃ info, ((stat (joinPath path fi.name)).run World.handle w).1 = .ok info ∧
    info.isDir = fi.isDir ∧ info.inode = fi.inode ∧ (fi.isDir = false → info.size = fi.size)

theorem map_name_of_listed {pfx : GoString} {h : HandleStore} {entries : List ListEntry}
    {infos : List FileInfo} (hlisted : List.Forall₂ (Listed pfx h) entries infos) :
    infos.map FileInfo.name = entries.map fun entry => entryName pfx entry.key := by
  induction hlisted with
  | nil => rfl
  | cons hx _ ih => rw [List.map_cons, List.map_cons, hx.name, ih]

theorem exists_listed {pfx : GoString} {h : HandleStore} {entries : List ListEntry}
    {infos : List FileInfo} (hlisted : List.Forall₂ (Listed pfx h) entries infos) {fi : FileInfo}
    (hfi : fi ∈ infos) : ∃ entry ∈ entries, Listed pfx h entry fi := by
  induction hlisted with
  | nil => cases hfi
  | cons hx _ ih =>
    rcases List.mem_cons.mp hfi with rfl | hfi
    · exact ⟨_, List.mem_cons_self, hx⟩
    · obtain ⟨entry, hmem, hentry⟩ := ih hfi
      exact ⟨entry, List.mem_cons_of_mem _ hmem, hentry⟩

/-- What was listed is what `Stat` finds. -/
theorem sameTree_of_listed {b : Bucket} {h : HandleStore} {env : Nat → Outcome} {w : World}
    (hw : Bare b h env w) (hcanon : b.Canonical) (hclash : b.NoClash) {path : GoString}
    (hroot : path.head? = some slash) {infos : List FileInfo}
    (hlisted : List.Forall₂ (Listed (s3DirKey (s3KeyFromPath path)) h)
      (shownEntries (s3DirKey (s3KeyFromPath path))
        (b.listObjects (s3DirKey (s3KeyFromPath path)))) infos) : SameTree path infos w := by
  have hp : IsDirPrefix (s3DirKey (s3KeyFromPath path)) := by
    by_cases hk : s3KeyFromPath path = []
    · exact Or.inl (by rw [hk]; rfl)
    · exact Or.inr (hasSuffixSlash_s3DirKey hk)
  -- `Stat` on a name looks for the node of the name's key
  have hstat : ∀ {name}, IsName name → Looks b h env (s3DirKey (s3KeyFromPath path) ++ name)
      Node.Shows ((stat (joinPath path name)).run World.handle w).1
      ((stat (joinPath path name)).run World.handle w).2 ∧
      s3DirKey (s3DirKey (s3KeyFromPath path) ++ name)
        = s3DirKey (s3KeyFromPath path) ++ (name ++ [slash]) := by
    intro name hname
    obtain ⟨hkey, hdirKey⟩ := s3KeyFromPath_child hroot hname
    rw [hkey] at hdirKey
    have hne : s3KeyFromPath (joinPath path name) ≠ [] := by
      rw [hkey]
      exact fun h => hname.component.1 (List.append_eq_nil_iff.mp h).2
    exact ⟨hkey ▸ looks_stat hne w hw, hdirKey⟩
  have hsame : ∀ fi ∈ infos, IsName fi.name ∧
      ∃ info, ((stat (joinPath path fi.name)).run World.handle w).1 = .ok info ∧
        info.isDir = fi.isDir ∧ info.inode = fi.inode ∧
        (fi.isDir = false → info.size = fi.size) := by
    intro fi hfi
    obtain ⟨entry, hentry, hx⟩ := exists_listed hlisted hfi
    obtain ⟨child, hmem, ⟨c, hc, hchild⟩, rfl⟩ := mem_shownEntries.mp hentry
    have hcname : fi.name = c := by
      rw [hx.name, Bucket.listEntry_key]
      rcases hchild with rfl | rfl
      · exact (entryName_child _ hc).1
      · exact (entryName_child _ hc).2
    have hname := hcanon.isName hp hc hmem hchild
    obtain ⟨hlooks, hdirKey⟩ := hstat hname
    obtain ⟨node, hnode, hnodeKey, hdir, hsize⟩ := node_of_shown hclash hc hdirKey hmem hchild
    rw [hcname]
    refine ⟨hname, ?_⟩
    rcases hlooks with ⟨hnone, -⟩ | ⟨node', hnode', n, -, -, hok⟩
    · rw [hnode] at hnone
      cases hnone
    · rw [hnode] at hnode'
      cases hnode'
      have hinode := hx.inode
      rw [Bucket.listEntry_key, ← hnodeKey] at hinode
      rw [HandleStore.getOrCreateInode_of_some hinode] at hok
      obtain ⟨info, hinfo, hisDir, hi, hs⟩ := hok _ rfl
      refine ⟨info, hinfo, ?_, hi, fun hfile => ?_⟩
      · rw [hisDir, hx.isDir, hdir]
      · rw [hx.isDir, hdir] at hfile
        cases node with
        | dir => cases hfile
        | file size => rw [hs size rfl, hx.size, hsize size rfl]
  refine ⟨?_, fun name hname => ⟨?_, ?_⟩, fun fi hfi => (hsame fi hfi).2⟩
  · rw [map_name_of_listed hlisted]
    exact nodup_shownNames hclash _
  · intro hmem
    obtain ⟨fi, hfi, rfl⟩ := List.mem_map.mp hmem
    obtain ⟨-, info, hinfo, -⟩ := hsame fi hfi
    exact ⟨info, hinfo⟩
  · rintro ⟨info, hinfo⟩
    obtain ⟨hlooks, hdirKey⟩ := hstat hname
    have hnode : (b.node (s3DirKey (s3KeyFromPath path) ++ name)).isSome := by
      rcases hlooks with ⟨-, herr, -⟩ | ⟨node, hnode, -⟩
      · rw [hinfo] at herr
        cases herr
      · rw [hnode]
        rfl
    obtain ⟨entry, hentry, heq⟩ := shown_of_node hname.component hdirKey hnode
    rw [map_name_of_listed hlisted, List.mem_map]
    exact ⟨entry, hentry, heq⟩

/-- In a canonical bucket where no path is both a file and a directory, and with no
metadata cache, listing an existing directory gives each child that `Stat` finds once,
with the kind, the inode and the size that `Stat` reports. Only the allocation of an
inode can fail it. -/
theorem readdir_describes_tree {w : World} (hf : w.NoFaults) (hc : w.cache = none)
    (hcanon : w.bucket.Canonical) (hclash : w.bucket.NoClash) {path : GoString}
    (hroot : path.head? = some slash)
    (hdir : s3KeyFromPath path = [] ∨
      ∃ key ∈ w.bucket.keys, s3DirKey (s3KeyFromPath path) <+: key) :
    let run := (listDir path).run World.handle w
    (∃ infos, run.1 = .ok infos ∧ SameTree path infos run.2) ∨
      ∃ err, run.1 = .error err ∧ AllocationError err := by
  intro run
  have hnode : s3KeyFromPath path = [] ∨
      w.bucket.node (s3KeyFromPath path) = some .dir := by
    by_cases hk : s3KeyFromPath path = []
    · exact Or.inl hk
    · obtain ⟨key, hkey, hpre⟩ := hdir.resolve_left hk
      refine Or.inr (Bucket.node_of_below ?_ hkey hpre)
      cases hget : w.bucket.get (s3KeyFromPath path) with
      | none => rfl
      | some o =>
        rw [s3DirKey_s3KeyFromPath hk] at hpre
        exact absurd hpre (hclash _ (Bucket.mem_keys.mpr ⟨o, hget⟩)
          (hasSuffixSlash_s3KeyFromPath path) key hkey)
  rcases listed_listDir hnode w ⟨hf, rfl, hc, rfl, rfl⟩ with herr | ⟨h', infos, hr, hw, hlisted⟩
  · exact Or.inr herr
  · exact Or.inl ⟨infos, hr, sameTree_of_listed hw hcanon hclash hroot hlisted⟩

/-- A directory with a marker and a file in it. -/
theorem readdir_describes_directory :
    let run := (listDir (gs "/d")).run World.handle { World.start .dWithF with cache := none }
    ∃ infos, run.1 = .ok infos ∧ SameTree (gs "/d") infos run.2 := by
  intro run
  have hname : ∀ c ∈ [gs "d", gs "f"], IsName c := by
    have hd : IsName (gs "d") := ⟨⟨by decide, by decide⟩, by decide, by decide⟩
    have hf : IsName (gs "f") := ⟨⟨by decide, by decide⟩, by decide, by decide⟩
    exact List.forall_mem_cons.mpr ⟨hd, List.forall_mem_singleton.mpr hf⟩
  have hcanon : Bucket.dWithF.Canonical := by
    refine List.forall_mem_cons.mpr ⟨?_, List.forall_mem_singleton.mpr ?_⟩
    · exact ⟨[gs "d", gs "f"], nofun, hname, Or.inl (by decide)⟩
    · exact ⟨[gs "d"], nofun, fun c hc => hname c (List.mem_cons.mpr
        (Or.inl (List.mem_singleton.mp hc))), Or.inr (by decide)⟩
  have hok : run.1.toOption.isSome = true := by decide
  refine (readdir_describes_tree (w := { World.start .dWithF with cache := none }) (fun _ => rfl)
    rfl hcanon (by decide) rfl (Or.inr (by decide))).resolve_right ?_
  rintro ⟨err, herr, -⟩
  have herr : run.1 = .error err := herr
  rw [herr] at hok
  cases hok

end S3Gateway
