import S3Gateway.S3fs.HandleHistory
import S3Gateway.S3fs.Concurrent
import S3Gateway.S3fs.Summary

/-!
# Handles resolve to the path they were issued for

`GetHandle` encodes the inode of a `FileInfo`, `ResolveHandle` looks the inode's
key up and drops the trailing slash of a directory key. So a handle resolves to
its path if every branch of `Stat`, `OpenFile` and `Readdir` allocates the inode
under the file key or the directory key of the path it reports, and if the handle
store resolves the inode of a key to that key.

The second half is `HandleStore.Sound`. It survives everything a gateway can go
through, provided that the root key is never taken out of the store; the branches
of `Rename` and `Remove` that could do so first ask S3 to delete the empty key,
which S3 refuses. The names in a cached listing are right because a listing only
ever holds keys one component below its prefix (`IsChild`). Both facts are one
invariant of the services, `World.Indexed`, kept by every call of every operation
(`Gateway.Ordered`).
-/

namespace S3Gateway

open Lib

/-! ## One component below a prefix -/

/-- The key of a file or directory right below a prefix. -/
def IsChild (pfx key : GoString) : Prop :=
  ∃ c, IsComponent c ∧ (key = pfx ++ c ∨ key = pfx ++ (c ++ [slash]))

theorem trimPrefix_append (pfx rest : GoString) : trimPrefix (pfx ++ rest) pfx = rest := by
  simp [trimPrefix, hasPrefix]

/-- The part after the last slash of a key below a directory prefix. -/
theorem afterLastSlash_append {pfx c : GoString} (hp : IsDirPrefix pfx) (hc : slash ∉ c) :
    afterLastSlash (pfx ++ c) = c := by
  induction c using List.reverseRecOn with
  | nil =>
    rw [List.append_nil]
    rcases hp with rfl | hp
    · rfl
    · obtain ⟨init, rfl⟩ : ∃ init, pfx = init ++ [slash] := by
        have hlast : pfx.getLast? = some slash := by simpa [hasSuffixSlash] using hp
        exact (List.getLast?_eq_some_iff).mp hlast
      exact List.rtakeWhile_concat_neg _ _ _ (by simp)
  | append_singleton c b ih =>
    have hb : b ≠ slash := fun h => hc (by simp [h])
    rw [← List.append_assoc]
    show List.rtakeWhile _ _ = _
    rw [List.rtakeWhile_concat_pos _ _ _ (by simpa using hb)]
    exact congrArg (· ++ [b]) (ih fun h => hc (List.mem_append_left _ h))

/-- The path of a child, and its name as `Readdir` finds it in a listing from S3
and in a cached one. -/
theorem IsChild.names {pfx key : GoString} (h : IsChild pfx key) :
    ∃ c, trimSuffixSlash key = pfx ++ c ∧ entryName pfx key = c ∧
      (IsDirPrefix pfx → nameFromS3Key key = c) := by
  obtain ⟨c, hc, rfl | rfl⟩ := h
  · have htrim := trimSuffixSlash_append_component pfx hc
    refine ⟨c, htrim, ?_, fun hp => ?_⟩
    · rw [entryName, trimPrefix_append]
      exact trimSuffixSlash_append_component [] hc
    · rw [nameFromS3Key, htrim]
      exact afterLastSlash_append hp hc.2
  · have htrim : trimSuffixSlash (pfx ++ (c ++ [slash])) = pfx ++ c := by
      rw [← List.append_assoc, trimSuffixSlash_concat]
    refine ⟨c, htrim, ?_, fun hp => ?_⟩
    · rw [entryName, trimPrefix_append, trimSuffixSlash_concat]
    · rw [nameFromS3Key, htrim]
      exact afterLastSlash_append hp hc.2

/-- The entries of a listing that `Readdir` does not skip are children. -/
theorem isChild_of_mem_listObjects {b : Bucket} {pfx : GoString} {entry : ListEntry}
    (h : entry ∈ b.listObjects pfx) (hname : entryName pfx entry.key ≠ []) :
    IsChild pfx entry.key := by
  obtain ⟨child, hchild, rfl⟩ := List.mem_map.mp h
  rw [Bucket.listEntry_key] at hname ⊢
  obtain ⟨key, -, ⟨rest, rfl⟩, rfl⟩ := Bucket.mem_listKeys.mp hchild
  unfold Bucket.childOf at hname ⊢
  dsimp only at hname ⊢
  rw [List.drop_left] at hname ⊢
  split at hname
  · next hs =>
    rw [if_pos hs]
    rw [List.append_assoc, entryName, trimPrefix_append, trimSuffixSlash_concat] at hname
    refine ⟨rest.takeWhile (· != slash), ⟨hname, fun hmem => ?_⟩, Or.inr (List.append_assoc _ _ _)⟩
    exact absurd (List.mem_takeWhile_imp hmem) (by simp)
  · next hs =>
    rw [if_neg hs]
    refine ⟨rest, ⟨?_, hs⟩, Or.inl rfl⟩
    rintro rfl
    rw [entryName, trimPrefix_append] at hname
    exact hname rfl

/-! ## The invariant of the services -/

/-- The cached listings hold children of their prefixes only. -/
structure MetadataCache.ListsChildren (mc : MetadataCache) : Prop where
  wf : mc.WF
  children : ∀ pfx dl, mc.dirListings.lookup pfx = some dl → ∀ ce ∈ dl.entries,
    IsChild pfx ce.s3Key

/-- The handle store is sound, and cached listings hold children only. -/
structure World.Indexed (w : World) : Prop where
  handles : w.handles.Sound
  cache : ∀ mc, w.cache = some mc → mc.ListsChildren

/-- A call that keeps the invariant: the root stays in the handle store, and a
listing is stored with children only. -/
def Eff.Orderly {β : Type} : Eff β → Prop
  | .removeByKey s3Key => s3Key ≠ []
  | .renameKey oldKey _ => oldKey ≠ []
  | .putDirListing pfx entries => ∀ ce ∈ entries, IsChild pfx ce.s3Key
  | _ => True

theorem Eff.orderly_of_plain {β : Type} {e : Eff β} (h : e.plain = true) : e.Orderly := by
  cases e
  case removeByKey => cases h
  case renameKey => cases h
  case putDirListing => cases h
  all_goals trivial

/-- A cached listing of children. -/
def ListsIn (pfx : GoString) (dl : DirListingEntry) : Prop := ∀ ce ∈ dl.entries, IsChild pfx ce.s3Key

theorem MetadataCache.ListsChildren.holds {mc : MetadataCache} (h : mc.ListsChildren) :
    mc.Holds mc.config (fun _ _ => True) ListsIn :=
  ⟨h.wf, rfl, fun _ _ _ => trivial, h.children⟩

theorem MetadataCache.Holds.listsChildren {mc : MetadataCache} {config : CacheConfig}
    (h : mc.Holds config (fun _ _ => True) ListsIn) : mc.ListsChildren :=
  ⟨h.wf, h.listing⟩

theorem Eff.Orderly.caches {β : Type} {e : Eff β} (h : e.Orderly) (now : Time) :
    e.Caches now (fun _ _ => True) ListsIn := by
  cases e
  case putDirListing => exact h
  all_goals trivial

namespace World.Indexed

variable {w : World}

/-- An orderly call keeps the invariant, whatever its outcome. -/
theorem handle (h : w.Indexed) {β : Type} {e : Eff β} (he : e.Orderly) :
    (World.handle e w).2.Indexed where
  handles := by
    rw [handle_handles]
    cases e
    case getOrCreateInode key => exact h.handles.creates (w.handles.creates key _)
    case removeByKey key => exact h.handles.removes he (w.handles.removes key _)
    case renameKey oldKey newKey => exact h.handles.renames he (w.handles.renames oldKey newKey _)
    all_goals exact h.handles
  cache := by
    intro mc' hmc'
    rw [handle_cache] at hmc'
    obtain ⟨mc, hmc, rfl⟩ := Option.map_eq_some_iff.mp hmc'
    exact ((h.cache mc hmc).holds.onCache (he.caches _)).listsChildren

end World.Indexed

/-! ## Every operation keeps it -/

/-- Whatever runs at the same time, each call of the program keeps the invariant,
and its result satisfies `φ`. -/
abbrev Ordered {α : Type} (φ : α → Prop) (p : Gw α) : Prop :=
  Prog.Safe World.handle World.Indexed φ p

section Ordered

variable {α : Type}

theorem PlainCalls.ordered {p : Gw α} (hp : PlainCalls p) : Ordered (fun _ => True) p :=
  hp.safe fun _ _ he hw => hw.handle (Eff.orderly_of_plain he)

theorem ordered_call {e : Eff α} (he : e.Orderly) : Ordered (fun _ => True) (Prog.call e) :=
  Prog.safe_call fun _ hw => ⟨hw.handle he, trivial⟩

/-- S3 does not delete the empty key. -/
theorem ordered_deleteObject (key : GoString) :
    Ordered (fun r => r = .ok () → key ≠ []) (Prog.call (.deleteObject key)) := by
  refine Prog.safe_call fun w hw => ⟨hw.handle trivial, ?_⟩
  rintro hr rfl
  have hr : (w.begin.mutate w.outcome (w.bucket.deleteObject [])).1 = .ok () := hr
  unfold World.mutate at hr
  split at hr <;> cases hr

theorem ordered_listObjects (pfx : GoString) :
    Ordered (fun r => ∀ entries, r = .ok entries → ∀ entry ∈ entries,
      entryName pfx entry.key ≠ [] → IsChild pfx entry.key) (Prog.call (.listObjects pfx)) := by
  refine Prog.safe_call fun w hw => ⟨hw.handle trivial, fun entries hr entry hmem hname => ?_⟩
  have hr : World.answer w.outcome (.ok (w.bucket.listObjects pfx)) = .ok entries := hr
  unfold World.answer at hr
  split at hr
  · cases hr
  · cases hr
    exact isChild_of_mem_listObjects hmem hname

theorem ordered_removeObject (what key : GoString) :
    Ordered (fun _ => True) (removeObject what key) := by
  refine Prog.safe_bind (ordered_deleteObject key) fun r hr => ?_
  cases r with
  | error err => exact Prog.safe_pure trivial
  | ok _ =>
    refine Prog.safe_bind (ordered_call (hr rfl)) fun _ _ => ?_
    refine Prog.safe_bind (ordered_call trivial) fun _ _ => ?_
    refine Prog.safe_bind (ordered_call trivial) fun _ _ => ?_
    exact Prog.safe_bind (ordered_call trivial) fun _ _ => Prog.safe_pure trivial

theorem ordered_remove (path : GoString) : Ordered (fun _ => True) (remove path) := by
  refine Prog.safe_bind (ordered_call trivial) fun r _ => ?_
  cases r with
  | ok _ => exact ordered_removeObject _ _
  | error _ =>
    refine Prog.safe_bind (ordered_call trivial) fun r _ => ?_
    cases r with
    | ok _ => exact ordered_removeObject _ _
    | error _ => exact Prog.safe_pure trivial

theorem ordered_renameObject (what which oldKey newKey : GoString) :
    Ordered (fun _ => True) (renameObject what which oldKey newKey) := by
  refine Prog.safe_bind (ordered_call trivial) fun r _ => ?_
  cases r with
  | error err => exact Prog.safe_pure trivial
  | ok _ =>
    refine Prog.safe_bind (ordered_deleteObject oldKey) fun r hr => ?_
    cases r with
    | error err => exact Prog.safe_pure trivial
    | ok _ =>
      refine Prog.safe_bind (ordered_call (hr rfl)) fun _ _ => ?_
      refine Prog.safe_bind (ordered_call trivial) fun _ _ => ?_
      refine Prog.safe_bind (ordered_call trivial) fun _ _ => ?_
      refine Prog.safe_bind (ordered_call trivial) fun _ _ => ?_
      refine Prog.safe_bind (ordered_call trivial) fun _ _ => ?_
      refine Prog.safe_bind (ordered_call trivial) fun _ _ => ?_
      exact Prog.safe_bind (ordered_call trivial) fun _ _ => Prog.safe_pure trivial

theorem ordered_rename (oldpath newpath : GoString) :
    Ordered (fun _ => True) (rename oldpath newpath) := by
  refine Prog.safe_bind (ordered_call trivial) fun r _ => ?_
  cases r with
  | ok _ => exact ordered_renameObject _ _ _ _
  | error _ =>
    refine Prog.safe_bind (ordered_call trivial) fun r _ => ?_
    cases r with
    | ok _ => exact ordered_renameObject _ _ _ _
    | error _ => exact Prog.safe_pure trivial

theorem plain_readdirCached (entries : List CacheEntry) (infos : List FileInfo) :
    PlainCalls (S3File.readdirCached entries infos) := by
  induction entries generalizing infos with
  | nil => exact Prog.only_pure _
  | cons ce entries ih =>
    unfold S3File.readdirCached
    dsimp only
    split
    · exact ih _
    · refine Prog.only_bind (Prog.only_call rfl) fun r => ?_
      cases r with
      | error err => exact Prog.only_pure _
      | ok inode => exact ih _

theorem plain_entryMeta (isDir : Bool) (key : GoString) :
    PlainCalls (S3File.entryMeta isDir key) := by
  unfold S3File.entryMeta
  split
  · exact Prog.only_pure _
  · refine Prog.only_bind (Prog.only_call rfl) fun r => ?_
    cases r <;> exact Prog.only_pure _

/-- The loop over a listing collects the entries that have a name, so children
only. -/
theorem ordered_readdirList {pfx : GoString} {entries : List ListEntry}
    (hentries : ∀ entry ∈ entries, entryName pfx entry.key ≠ [] → IsChild pfx entry.key)
    (infos : List FileInfo) (cached : List CacheEntry)
    (hcached : ∀ ce ∈ cached, IsChild pfx ce.s3Key) :
    Ordered (fun r => ∀ infos' cached', r = .ok (infos', cached') → ∀ ce ∈ cached',
      IsChild pfx ce.s3Key) (S3File.readdirList pfx entries infos cached) := by
  induction entries generalizing infos cached with
  | nil =>
    refine Prog.safe_pure fun infos' cached' hr => ?_
    cases hr
    exact hcached
  | cons entry entries ih =>
    have hrest := fun e he => hentries e (List.mem_cons_of_mem entry he)
    unfold S3File.readdirList
    dsimp only
    split
    · exact ih hrest _ _ hcached
    · next hname =>
      have hchild := hentries entry List.mem_cons_self hname
      refine Prog.safe_bind (ordered_call trivial) fun r _ => ?_
      cases r with
      | error err =>
        refine Prog.safe_pure fun infos' cached' hr => ?_
        cases hr
      | ok inode =>
        refine Prog.safe_bind (plain_entryMeta _ _).ordered fun userMeta _ => ?_
        refine Prog.safe_bind (ordered_call trivial) fun _ _ => ?_
        refine ih hrest _ _ fun ce hce => ?_
        rcases List.mem_append.mp hce with hce | hce
        · exact hcached ce hce
        · rw [List.mem_singleton.mp hce]
          exact hchild

theorem ordered_readdir (f : S3File) (count : Int) :
    Ordered (fun _ => True) (f.readdir count) := by
  unfold S3File.readdir
  split
  · exact Prog.safe_pure trivial
  · refine Prog.safe_bind (ordered_call trivial) fun r _ => ?_
    cases r with
    | some entries =>
      exact Prog.safe_bind (plain_readdirCached _ _).ordered fun _ _ => Prog.safe_pure trivial
    | none =>
      refine Prog.safe_bind (ordered_listObjects _) fun r hr => ?_
      cases r with
      | error err => exact Prog.safe_pure trivial
      | ok entries =>
        refine Prog.safe_bind (ordered_readdirList (hr entries rfl) [] [] ?_) fun r hr => ?_
        · intro ce hce
          cases hce
        · rcases r with err | ⟨infos, cached⟩
          · exact Prog.safe_pure trivial
          · exact Prog.safe_bind (ordered_call (hr infos cached rfl)) fun _ _ =>
              Prog.safe_pure trivial

theorem ordered_discard {φ : α → Prop} {p : Gw α} (hp : Ordered φ p) :
    Ordered (fun _ => True) (do let _ ← p; pure ()) :=
  Prog.safe_bind hp fun _ _ => Prog.safe_pure trivial

theorem ordered_file_perform (f : File) (op : FileOp) : Ordered (fun _ => True) (f.perform op) := by
  cases f with
  | s3File f =>
    have hperform : Ordered (fun _ => True) (f.perform op) := by
      by_cases hop : ∃ count, op = .readdir count
      · obtain ⟨count, rfl⟩ := hop
        exact Prog.safe_bind (ordered_readdir f count) fun _ _ => Prog.safe_pure trivial
      · exact (quiet_s3File_perform f fun count h => hop ⟨count, h⟩).plain.ordered
    exact Prog.safe_bind hperform fun _ _ => Prog.safe_pure trivial
  | s3WritableFile f =>
    exact Prog.safe_bind (plain_s3WritableFile_call f op).ordered fun _ _ =>
      Prog.safe_pure trivial

/-- Every operation. -/
theorem ordered_methodOf (files : GoMap Nat File) (op : Op) :
    Ordered (fun _ => True) (methodOf files op) := by
  cases op with
  | openFile path flags => exact ordered_discard (plain_openFile path flags).ordered
  | file fd op =>
    simp only [methodOf]
    cases files.lookup fd with
    | none => exact Prog.safe_pure trivial
    | some f => exact ordered_discard (ordered_file_perform f op)
  | stat path => exact ordered_discard (plain_stat path).ordered
  | chmod path mode => exact ordered_discard (quiet_chmod path mode).plain.ordered
  | chown path uid gid => exact ordered_discard (quiet_chown path uid gid).plain.ordered
  | setXattr path name value option =>
    exact ordered_discard (quiet_setXattr path name value option).plain.ordered
  | listXattrs path => exact ordered_discard (quiet_listXattrs path).plain.ordered
  | removeXattr path name => exact ordered_discard (quiet_removeXattr path name).plain.ordered
  | symlink target linkPath => exact ordered_discard (quiet_symlink target linkPath).plain.ordered
  | readlink path => exact ordered_discard (quiet_readlink path).plain.ordered
  | rename oldpath newpath => exact ordered_discard (ordered_rename oldpath newpath)
  | remove path => exact ordered_discard (ordered_remove path)
  | mkdirAll path => exact ordered_discard (quiet_mkdirAll path).plain.ordered
  | copy srcPath dstPath => exact ordered_discard (quiet_copy srcPath dstPath).plain.ordered
  | evictExpired => exact Prog.safe_pure trivial

end Ordered

namespace Gateway

/-- The invariant of the gateway: it holds of the services, and all operations
under way keep it. -/
def Ordered (g : Gateway) : Prop := Pool.Safe World.handle World.Indexed (fun _ => True) g

theorem listsChildren_newMetadataCache (config : CacheConfig) :
    (newMetadataCache config).ListsChildren :=
  ⟨MetadataCache.wf_newMetadataCache config, fun pfx dl hl => by cases hl⟩

theorem indexed_of_config {w : World} (h : w.handles.Sound) (config : Option CacheConfig)
    (hc : w.cache = config.map newMetadataCache) : w.Indexed := by
  refine ⟨h, fun mc hmc => ?_⟩
  rw [hc] at hmc
  obtain ⟨cfg, -, rfl⟩ := Option.map_eq_some_iff.mp hmc
  exact listsChildren_newMetadataCache cfg

theorem ordered_start (b : Bucket) (env : Nat → Outcome) (config : Option CacheConfig)
    (dataCache : Option DataCache) : Ordered (start b env config dataCache) := by
  refine ⟨indexed_of_config ?_ config rfl, fun p hp => ?_⟩
  · exact HandleStore.sound_newHandleStore BoltDB.sound_empty rfl
  · cases hp

theorem Ordered.step {g : Gateway} (h : Ordered g) (e : GatewayEvent) : Ordered (step g e) := by
  cases e with
  | begin files op => exact Pool.Safe.spawn h (ordered_methodOf files op)
  | call i => exact Pool.Safe.step h i
  | evictExpired =>
    refine ⟨⟨h.1.handles, fun mc hmc => ?_⟩, h.2⟩
    obtain ⟨mc₀, hmc₀, rfl⟩ := Option.map_eq_some_iff.mp hmc
    have hlists := (h.1.cache mc₀ hmc₀).holds
    exact (hlists.of_sub (MetadataCache.evictExpired_spec hlists.wf _)).listsChildren
  | s3 b => exact ⟨⟨h.1.handles, h.1.cache⟩, h.2⟩
  | restart config dataCache =>
    have hsound := HandleStore.sound_newHandleStore h.1.handles.database rfl
    refine ⟨indexed_of_config hsound config rfl, fun p hp => ?_⟩
    cases hp

/-- The services of a gateway, at every point of its life. -/
theorem indexed_of_events (b : Bucket) (env : Nat → Outcome) (config : Option CacheConfig)
    (dataCache : Option DataCache) (events : List GatewayEvent) :
    (events.foldl step (start b env config dataCache)).shared.Indexed :=
  (throughout_of_invariant (P := Ordered) (fun _ e h => h.step e) (fun _ h => h)
    (ordered_start b env config dataCache) events).last.1

end Gateway

/-! ## What the operations report -/

namespace HandleStore

section Creates

variable {s s' : HandleStore} {key : GoString} {commit : Bool} {r : Except GoError UInt64}
  {inode : UInt64}

/-- Allocating does not change what an inode resolves to. -/
theorem Creates.lookup (hc : s.Creates key commit r s') (h : s.Sound) {key' : GoString}
    (hi : s.inodeToKey.lookup inode = some key') : s'.inodeToKey.lookup inode = some key' := by
  cases hc with
  | found => exact hi
  | exhausted => exact hi
  | aborted => exact hi
  | committed hk hw =>
    exact (GoMap.lookup_insert_ite _ _ _ _).trans ((if_neg (h.ne_nextInode hw hi)).trans hi)

/-- The inode returned for a key resolves to the key. -/
theorem Creates.lookup_ok (hc : s.Creates key commit r s') (h : s.Sound) (hr : r = .ok inode) :
    s'.inodeToKey.lookup inode = some key := by
  cases hc with
  | found hi =>
    cases hr
    exact h.forward key inode hi
  | exhausted => cases hr
  | aborted => cases hr
  | committed =>
    cases hr
    exact AList.lookup_insert _

end Creates

end HandleStore

/-- Not one of the calls that change what an inode resolves to. -/
def Eff.keepsInodes {β : Type} : Eff β → Bool
  | .removeByKey .. | .renameKey .. => false
  | _ => true

theorem Eff.keepsInodes_of_plain {β : Type} {e : Eff β} (h : e.plain = true) :
    e.keepsInodes = true := by
  cases e
  case removeByKey => cases h
  case renameKey => cases h
  all_goals rfl

/-- The inodes resolve to the paths given with them, which are without the leading
slash. -/
structure World.Found (l : List (UInt64 × GoString)) (w : World) : Prop where
  indexed : w.Indexed
  resolves : ∀ x ∈ l, ∃ key, w.handles.inodeToKey.lookup x.1 = some key ∧
    trimSuffixSlash key = x.2

namespace World

/-- What an inode resolves to is changed by two calls only. -/
theorem lookup_handle {w : World} (h : w.Indexed) {β : Type} {e : Eff β}
    (he : e.keepsInodes = true) {inode : UInt64} {key : GoString}
    (hi : w.handles.inodeToKey.lookup inode = some key) :
    (handle e w).2.handles.inodeToKey.lookup inode = some key := by
  rw [handle_handles]
  cases e
  case removeByKey => cases he
  case renameKey => cases he
  case getOrCreateInode => exact (w.handles.creates _ _).lookup h.handles hi
  all_goals exact hi

namespace Found

variable {l l' : List (UInt64 × GoString)} {w : World}

theorem mono (h : w.Found l) (hl : ∀ x ∈ l', x ∈ l) : w.Found l' :=
  ⟨h.indexed, fun x hx => h.resolves x (hl x hx)⟩

/-- A handle for a found inode resolves. -/
theorem resolveHandle {fi : FileInfo} {path : GoString} (h : w.Found [(fi.inode, path)]) :
    (getHandle fi).bind (S3Gateway.resolveHandle w.handles) = .ok (slash :: path) := by
  obtain ⟨key, hkey, hpath⟩ := h.resolves _ List.mem_cons_self
  have hne : getFileId fi ≠ 0 := by
    intro h0
    have hkey : w.handles.inodeToKey.lookup (getFileId fi) = some key := hkey
    rw [h0, h.indexed.handles.nonzero] at hkey
    cases hkey
  rw [getHandle, if_neg hne]
  show S3Gateway.resolveHandle w.handles (inodeToHandle fi.inode) = _
  rw [S3Gateway.resolveHandle, handleToInode_inodeToHandle]
  dsimp only
  rw [HandleStore.getKey, hkey]
  dsimp only at hpath ⊢
  by_cases hk : key = []
  · rw [if_pos hk, ← hpath, hk]
    rfl
  · rw [if_neg hk, hpath]

end Found

end World

section Found

variable {α : Type} {l : List (UInt64 × GoString)}

theorem found_call {e : Eff α} (he : e.Orderly) (hk : e.keepsInodes = true) :
    Prog.Triple World.handle (World.Found l) (Prog.call e) fun _ => World.Found l := by
  intro w hw
  refine ⟨hw.indexed.handle he, fun x hx => ?_⟩
  obtain ⟨key, hkey, hpath⟩ := hw.resolves x hx
  exact ⟨key, World.lookup_handle hw.indexed hk hkey, hpath⟩

theorem PlainCalls.found {p : Gw α} (hp : PlainCalls p) :
    Prog.Triple World.handle (World.Found l) p fun _ => World.Found l :=
  hp.triple fun _ w he hw =>
    found_call (Eff.orderly_of_plain he) (Eff.keepsInodes_of_plain he) w hw

/-- A successful allocation is found. -/
theorem found_getOrCreateInode (key : GoString) :
    Prog.Triple World.handle (World.Found l) (Prog.call (.getOrCreateInode key)) fun r w =>
      match r with
      | .ok inode => World.Found ((inode, trimSuffixSlash key) :: l) w
      | .error _ => World.Found l w := by
  intro w hw
  have hkeep := found_call (l := l) (e := .getOrCreateInode key) trivial rfl w hw
  rw [Prog.run_call] at hkeep ⊢
  cases hr : (World.handle (.getOrCreateInode key) w).1 with
  | error err => exact hkeep
  | ok inode =>
    refine ⟨hkeep.indexed, fun x hx => ?_⟩
    rcases List.mem_cons.mp hx with rfl | hx
    · exact ⟨key, (w.handles.creates key _).lookup_ok hw.indexed.handles hr, rfl⟩
    · exact hkeep.resolves x hx

/-- The root always has an inode. -/
theorem found_root :
    Prog.Triple World.handle (World.Found []) (Prog.call (.getOrCreateInode [])) fun r w =>
      World.Found [((r.toOption.getD 0), [])] w := by
  intro w hw
  have hfound := found_getOrCreateInode (l := []) [] w hw
  rw [Prog.run_call] at hfound ⊢
  obtain ⟨inode, hi⟩ := (GoMap.mem_iff_lookup _ _).mp hw.indexed.handles.rootKey
  have hr : (World.handle (.getOrCreateInode []) w).1 = .ok inode := by
    show (w.handles.getOrCreateInode [] _).1 = _
    rw [HandleStore.getOrCreateInode, HandleStore.getInode, hi]
  rw [hr] at hfound ⊢
  exact hfound

/-- What an operation reports for a path is found there. -/
def Reports (path : GoString) (r : Except GoError FileInfo) (w : World) : Prop :=
  ∀ fi, r = .ok fi → w.Found [(fi.inode, path)]

theorem reports_error {path : GoString} {err : GoError} {w : World} :
    Reports path (.error err) w := by
  intro fi hr
  cases hr

theorem Reports.ok {path : GoString} {fi : FileInfo} {w : World} (h : w.Found [(fi.inode, path)]) :
    Reports path (.ok fi) w := by
  intro fi' hr
  rw [← Except.ok.inj hr]
  exact h

theorem trimSuffixSlash_s3KeyFromPath (path : GoString) :
    trimSuffixSlash (s3KeyFromPath path) = s3KeyFromPath path := by
  rw [trimSuffixSlash, hasSuffixSlash_s3KeyFromPath]
  rfl

theorem trimSuffixSlash_s3DirKey {path : GoString} (h : s3KeyFromPath path ≠ []) :
    trimSuffixSlash (s3DirKey (s3KeyFromPath path)) = s3KeyFromPath path := by
  rw [s3DirKey_s3KeyFromPath h, trimSuffixSlash_concat]

theorem found_cacheGet (key : GoString) :
    Prog.Triple World.handle (World.Found []) (cacheGet key) fun r w =>
      match r with
      | some (some fi) => World.Found [(fi.inode, trimSuffixSlash key)] w
      | _ => World.Found [] w := by
  refine Prog.triple_bind (found_call trivial rfl) fun r => ?_
  cases r with
  | none => exact Prog.triple_pure fun _ h => h
  | some entry =>
    dsimp only
    split
    · exact Prog.triple_pure fun _ h => h
    · refine Prog.triple_bind (found_getOrCreateInode key) fun r => ?_
      cases r with
      | error err => exact Prog.triple_pure fun _ h => h
      | ok inode => exact Prog.triple_pure fun _ h => h

theorem reports_statFound (path key : GoString) (isDir : Bool) (objInfo : ObjectInfo) :
    Prog.Triple World.handle (World.Found []) (statFound path key isDir objInfo)
      (Reports (trimSuffixSlash key)) := by
  refine Prog.triple_bind (found_getOrCreateInode key) fun r => ?_
  cases r with
  | error err => exact Prog.triple_pure fun _ _ => reports_error
  | ok inode =>
    refine Prog.triple_bind (found_call trivial rfl) fun _ => ?_
    exact Prog.triple_pure fun _ h => Reports.ok h

theorem reports_implicitDirInfo (path dirKey : GoString) :
    Prog.Triple World.handle (World.Found []) (implicitDirInfo path dirKey)
      (Reports (trimSuffixSlash dirKey)) := by
  refine Prog.triple_bind (found_getOrCreateInode dirKey) fun r => ?_
  cases r with
  | error err => exact Prog.triple_pure fun _ _ => reports_error
  | ok inode =>
    refine Prog.triple_bind (found_call trivial rfl) fun now => ?_
    refine Prog.triple_bind (found_call trivial rfl) fun _ => ?_
    exact Prog.triple_pure fun _ h => Reports.ok h

theorem reports_statMissing (path s3Key dirKey : GoString) :
    Prog.Triple World.handle (World.Found []) (statMissing s3Key dirKey) (Reports path) := by
  refine Prog.triple_bind (found_call trivial rfl) fun _ => ?_
  refine Prog.triple_bind (found_call trivial rfl) fun _ => ?_
  exact Prog.triple_pure fun _ _ => reports_error

theorem reports_statS3 {path : GoString} (hk : s3KeyFromPath path ≠ []) :
    Prog.Triple World.handle (World.Found [])
      (statS3 path (s3KeyFromPath path) (s3DirKey (s3KeyFromPath path)))
      (Reports (s3KeyFromPath path)) := by
  refine Prog.triple_bind (found_call trivial rfl) fun r => ?_
  cases r with
  | ok objInfo =>
    have h := reports_statFound path (s3KeyFromPath path)
      (objInfo.isDir || hasSuffixSlash (s3KeyFromPath path)) objInfo
    rwa [trimSuffixSlash_s3KeyFromPath] at h
  | error _ =>
    refine Prog.triple_bind (found_call trivial rfl) fun r => ?_
    cases r with
    | ok objInfo =>
      have h := reports_statFound path (s3DirKey (s3KeyFromPath path)) true objInfo
      rwa [trimSuffixSlash_s3DirKey hk] at h
    | error _ =>
      refine Prog.triple_bind (found_call trivial rfl) fun r => ?_
      cases r with
      | error err => exact reports_statMissing _ _ _
      | ok entries =>
        dsimp only
        split
        · exact reports_statMissing _ _ _
        · have h := reports_implicitDirInfo path (s3DirKey (s3KeyFromPath path))
          rwa [trimSuffixSlash_s3DirKey hk] at h

theorem reports_statDir {path : GoString} (hk : s3KeyFromPath path ≠ []) :
    Prog.Triple World.handle (World.Found [])
      (statDir path (s3KeyFromPath path) (s3DirKey (s3KeyFromPath path)))
      (Reports (s3KeyFromPath path)) := by
  refine Prog.triple_bind (found_cacheGet _) fun r => ?_
  rcases r with _ | _ | fi
  · exact reports_statS3 hk
  · exact reports_statS3 hk
  · rw [trimSuffixSlash_s3DirKey hk]
    exact Prog.triple_pure fun w h => Reports.ok h

/-- `Stat`, from the cache or from S3. -/
theorem reports_stat (path : GoString) :
    Prog.Triple World.handle (World.Found []) (stat path) (Reports (s3KeyFromPath path)) := by
  unfold stat
  dsimp only
  split
  · next hk =>
    rw [hk]
    refine Prog.triple_bind found_root fun r => ?_
    refine Prog.triple_bind (found_call trivial rfl) fun now => ?_
    exact Prog.triple_pure fun _ h => Reports.ok h
  · next hk =>
    refine Prog.triple_bind (found_cacheGet _) fun r => ?_
    rcases r with _ | _ | fi
    · exact reports_statDir hk
    · exact reports_statDir hk
    · rw [trimSuffixSlash_s3KeyFromPath]
      exact Prog.triple_pure fun w h => Reports.ok h

/-- What `OpenFile` reports for a path is found there. -/
def ReportsFile (path : GoString) (r : Except GoError File) (w : World) : Prop :=
  ∀ f, r = .ok f → w.Found [(f.info.inode, path)]

theorem reportsFile_error {path : GoString} {err : GoError} {w : World} :
    ReportsFile path (.error err) w := by
  intro f hr
  cases hr

theorem ReportsFile.ok {path : GoString} {f : File} {w : World}
    (h : w.Found [(f.info.inode, path)]) : ReportsFile path (.ok f) w := by
  intro f' hr
  rw [← Except.ok.inj hr]
  exact h

theorem reportsFile_newWritableFile (path s3Key : GoString) {info : FileInfo} {inode : UInt64}
    (hi : info.inode = inode) {p : GoString} :
    Prog.Triple World.handle (World.Found [(inode, p)]) (newWritableFile path s3Key info)
      fun r w => ReportsFile p (r.map .s3WritableFile) w := by
  subst hi
  refine Prog.triple_bind (found_call trivial rfl) fun r => ?_
  cases r with
  | error err => exact Prog.triple_pure fun _ _ => reportsFile_error
  | ok _ => exact Prog.triple_pure fun _ h => ReportsFile.ok h

theorem reportsFile_newEmptyWritableFile (path s3Key : GoString) {info : FileInfo} {inode : UInt64}
    (hi : info.inode = inode) {p : GoString} :
    Prog.Triple World.handle (World.Found [(inode, p)]) (newEmptyWritableFile path s3Key info)
      fun r w => ReportsFile p (r.map .s3WritableFile) w := by
  refine Prog.triple_bind (reportsFile_newWritableFile path s3Key hi) fun r => ?_
  cases r with
  | error err => exact Prog.triple_pure fun _ _ => reportsFile_error
  | ok f => exact Prog.triple_pure fun _ h => ReportsFile.ok (h (.s3WritableFile f) rfl)

theorem reportsFile_createPlaceholder (path s3Key : GoString) :
    Prog.Triple World.handle (World.Found []) (createPlaceholder path s3Key)
      (ReportsFile (trimSuffixSlash s3Key)) := by
  refine Prog.triple_bind (found_getOrCreateInode s3Key) fun r => ?_
  cases r with
  | error err => exact Prog.triple_pure fun _ _ => reportsFile_error
  | ok inode =>
    refine Prog.triple_bind (found_call trivial rfl) fun r => ?_
    cases r with
    | error err => exact Prog.triple_pure fun _ _ => reportsFile_error
    | ok _ =>
      refine Prog.triple_bind (found_call trivial rfl) fun now => ?_
      refine Prog.triple_bind (found_call trivial rfl) fun _ => ?_
      refine Prog.triple_bind (found_call trivial rfl) fun _ => ?_
      refine Prog.triple_bind (reportsFile_newEmptyWritableFile _ _ (by rfl)) fun r => ?_
      exact Prog.triple_pure fun _ h => h

theorem reportsFile_openMarker (path dirKey : GoString) :
    Prog.Triple World.handle (World.Found []) (openMarker path dirKey)
      (ReportsFile (trimSuffixSlash dirKey)) := by
  refine Prog.triple_bind (found_call trivial rfl) fun r => ?_
  cases r with
  | error err => exact Prog.triple_pure fun _ _ => reportsFile_error
  | ok objInfo =>
    refine Prog.triple_bind (found_getOrCreateInode dirKey) fun r => ?_
    cases r with
    | error err => exact Prog.triple_pure fun _ _ => reportsFile_error
    | ok inode =>
      refine Prog.triple_bind (found_call trivial rfl) fun _ => ?_
      exact Prog.triple_pure fun _ h => ReportsFile.ok h

theorem reportsFile_openDirectory (path dirKey : GoString) :
    Prog.Triple World.handle (World.Found []) (openDirectory path dirKey)
      (ReportsFile (trimSuffixSlash dirKey)) := by
  refine Prog.triple_bind (found_call trivial rfl) fun r => ?_
  cases r with
  | error err => exact reportsFile_openMarker path dirKey
  | ok entries =>
    dsimp only
    split
    · exact reportsFile_openMarker path dirKey
    · refine Prog.triple_bind (reports_implicitDirInfo path dirKey) fun r => ?_
      cases r with
      | error err => exact Prog.triple_pure fun _ _ => reportsFile_error
      | ok info => exact Prog.triple_pure fun _ h => ReportsFile.ok (h info rfl)

/-- `OpenFile`, on whatever branch. -/
theorem reportsFile_openFile (path : GoString) (flags : Nat) :
    Prog.Triple World.handle (World.Found []) (openFile path flags)
      (ReportsFile (s3KeyFromPath path)) := by
  unfold openFile
  dsimp only
  split
  · next hk =>
    rw [hk]
    refine Prog.triple_bind found_root fun r => ?_
    refine Prog.triple_bind (found_call trivial rfl) fun now => ?_
    exact Prog.triple_pure fun _ h => ReportsFile.ok h
  · next hk =>
    refine Prog.triple_bind (found_call trivial rfl) fun r => ?_
    cases r with
    | error err =>
      dsimp only
      split
      · have h := reportsFile_createPlaceholder path (s3KeyFromPath path)
        rwa [trimSuffixSlash_s3KeyFromPath] at h
      · have h := reportsFile_openDirectory path (s3DirKey (s3KeyFromPath path))
        rwa [trimSuffixSlash_s3DirKey hk] at h
    | ok objInfo =>
      refine Prog.triple_bind (found_getOrCreateInode _) fun r => ?_
      cases r with
      | error err => exact Prog.triple_pure fun _ _ => reportsFile_error
      | ok inode =>
        dsimp only
        rw [trimSuffixSlash_s3KeyFromPath]
        refine Prog.triple_bind (found_call trivial rfl) fun _ => ?_
        split
        · refine Prog.triple_bind (reportsFile_newWritableFile _ _ (by rfl)) fun r => ?_
          exact Prog.triple_pure fun _ h => h
        · exact Prog.triple_pure fun _ h => ReportsFile.ok h

/-! ## What a directory lists -/

/-- The inodes and paths of the entries of a listing. -/
def locations (pfx : GoString) (infos : List FileInfo) : List (UInt64 × GoString) :=
  infos.map fun fi => (fi.inode, pfx ++ fi.name)

/-- One more entry: its inode was just allocated under the child's key. -/
theorem World.Found.addEntry {pfx path : GoString} {infos : List FileInfo} {w : World}
    (fi : FileInfo) (h : w.Found ((fi.inode, path) :: locations pfx infos))
    (hname : path = pfx ++ fi.name) : w.Found (locations pfx (infos ++ [fi])) := by
  refine h.mono fun x hx => ?_
  rw [locations, List.map_append, List.map_singleton] at hx
  rcases List.mem_append.mp hx with hx | hx
  · exact List.mem_cons_of_mem _ hx
  · rw [List.mem_singleton.mp hx, hname]
    exact List.mem_cons_self

theorem found_readdirCached {pfx : GoString} (hp : IsDirPrefix pfx) {entries : List CacheEntry}
    (hentries : ∀ ce ∈ entries, IsChild pfx ce.s3Key) (infos : List FileInfo) :
    Prog.Triple World.handle (World.Found (locations pfx infos))
      (S3File.readdirCached entries infos)
      fun r w => ∀ infos', r = .ok infos' → w.Found (locations pfx infos') := by
  induction entries generalizing infos with
  | nil =>
    refine Prog.triple_pure fun w h infos' hr => ?_
    rw [← Except.ok.inj hr]
    exact h
  | cons ce entries ih =>
    have hrest := fun e he => hentries e (List.mem_cons_of_mem ce he)
    obtain ⟨c, hpath, -, hname⟩ := (hentries ce List.mem_cons_self).names
    unfold S3File.readdirCached
    dsimp only
    split
    · exact ih hrest infos
    · refine Prog.triple_bind (found_getOrCreateInode _) fun r => ?_
      cases r with
      | error err => exact Prog.triple_error
      | ok inode =>
        refine (ih hrest _).pre fun w h => ?_
        exact World.Found.addEntry (cacheEntryToFileInfo ce (nameFromS3Key ce.s3Key) inode) h
          (hpath.trans (congrArg _ (hname hp).symm))

theorem found_readdirList {pfx : GoString} {entries : List ListEntry}
    (hentries : ∀ entry ∈ entries, entryName pfx entry.key ≠ [] → IsChild pfx entry.key)
    (infos : List FileInfo) (cached : List CacheEntry) :
    Prog.Triple World.handle (World.Found (locations pfx infos))
      (S3File.readdirList pfx entries infos cached)
      fun r w => ∀ infos' cached', r = .ok (infos', cached') → w.Found (locations pfx infos') := by
  induction entries generalizing infos cached with
  | nil =>
    refine Prog.triple_pure fun w h infos' cached' hr => ?_
    cases hr
    exact h
  | cons entry entries ih =>
    have hrest := fun e he => hentries e (List.mem_cons_of_mem entry he)
    unfold S3File.readdirList
    dsimp only
    split
    · exact ih hrest infos cached
    · next hne =>
      obtain ⟨c, hpath, hname, -⟩ := (hentries entry List.mem_cons_self hne).names
      refine Prog.triple_bind (found_getOrCreateInode _) fun r => ?_
      cases r with
      | error err =>
        refine Prog.triple_pure fun w h infos' cached' hr => ?_
        cases hr
      | ok inode =>
        refine Prog.triple_bind (plain_entryMeta _ _).found fun userMeta => ?_
        refine Prog.triple_bind (found_call trivial rfl) fun _ => ?_
        refine (ih hrest _ _).pre fun w h => ?_
        exact World.Found.addEntry (newFileInfoFromS3 (entryName pfx entry.key) entry.size
          entry.lastModified (entry.isDir || hasSuffixSlash entry.key) inode userMeta) h
          (hpath.trans (congrArg _ hname.symm))

/-- A cached listing is one of children. -/
theorem found_getDirListing (pfx : GoString) :
    Prog.Triple World.handle (World.Found l) (Prog.call (.getDirListing pfx)) fun r w =>
      (∀ entries, r = some entries → ∀ ce ∈ entries, IsChild pfx ce.s3Key) ∧ w.Found l := by
  intro w hw
  refine ⟨fun entries hr ce hce => ?_, found_call (e := .getDirListing pfx) trivial rfl w hw⟩
  obtain ⟨mc, hmc, hhit⟩ := World.getDirListing_some hr
  obtain ⟨dl, hl, -, rfl⟩ := MetadataCache.getDirListing_some hhit
  exact (hw.indexed.cache mc hmc).children _ dl hl ce hce

/-- A listing from S3 is one of children, the directory's own marker apart. -/
theorem found_listObjects (pfx : GoString) :
    Prog.Triple World.handle (World.Found l) (Prog.call (.listObjects pfx)) fun r w =>
      (∀ entries, r = .ok entries → ∀ entry ∈ entries, entryName pfx entry.key ≠ [] →
        IsChild pfx entry.key) ∧ w.Found l := by
  intro w hw
  exact ⟨(ordered_listObjects pfx w hw.indexed).2,
    found_call (e := .listObjects pfx) trivial rfl w hw⟩

theorem World.Found.limitInfos {pfx : GoString} {infos : List FileInfo} {w : World}
    (h : w.Found (locations pfx infos)) (count : Int) :
    w.Found (locations pfx (S3File.limitInfos count infos)) := by
  refine h.mono fun x hx => ?_
  unfold S3File.limitInfos at hx
  split at hx
  · exact (List.Sublist.map _ (List.take_sublist _ _)).subset hx
  · exact hx

/-- `Readdir`, from a cached listing or from S3. -/
theorem found_readdir (f : S3File) (count : Int) :
    Prog.Triple World.handle (World.Found []) (f.readdir count)
      fun r w => ∀ infos, r = .ok infos → w.Found (locations f.listPrefix infos) := by
  unfold S3File.readdir
  split
  · exact Prog.triple_error
  · refine (found_getDirListing f.listPrefix).step fun r hr => ?_
    cases r with
    | some entries =>
      refine Prog.triple_bind (found_readdirCached f.isDirPrefix_listPrefix (hr entries rfl) [])
        fun r => ?_
      refine Prog.triple_pure fun w h infos hr => ?_
      cases r with
      | error err => cases hr
      | ok infos' =>
        rw [← Except.ok.inj hr]
        exact (h infos' rfl).limitInfos count
    | none =>
      refine (found_listObjects f.listPrefix).step fun r hr => ?_
      cases r with
      | error err => exact Prog.triple_error
      | ok entries =>
        have hchildren := (ordered_readdirList (hr entries rfl) [] [] fun ce hce => by
          cases hce).triple.conseq (fun _ (hw : World.Found [] _) => hw.indexed) fun _ _ h => h.1
        refine Prog.triple_bind ((found_readdirList (hr entries rfl) [] []).and hchildren)
          fun r => ?_
        rcases r with err | ⟨infos, cached⟩
        · exact Prog.triple_error
        · refine Prog.Triple.pre (P := fun w => (∀ ce ∈ cached, IsChild f.listPrefix ce.s3Key) ∧
            w.Found (locations f.listPrefix infos)) ?_ fun w hw =>
            ⟨hw.2 infos cached rfl, hw.1 infos cached rfl⟩
          refine Prog.triple_and fun hcached => ?_
          refine Prog.triple_bind (found_call hcached rfl) fun _ => ?_
          refine Prog.triple_pure fun w h infos' hr => ?_
          rw [← Except.ok.inj hr]
          exact h.limitInfos count

/-- A file on the path's key lists the path's directory, and so does a directory on
the path's directory key. -/
theorem listPrefix_of_s3Key {f : S3File} {path : GoString}
    (h : f.s3Key = s3KeyFromPath path ∨ f.s3Key = s3DirKey (s3KeyFromPath path)) :
    f.listPrefix = s3DirKey (s3KeyFromPath path) := by
  by_cases hk : s3KeyFromPath path = []
  · have hnil : f.s3Key = [] := by
      rcases h with h | h
      · rw [h, hk]
      · rw [h, hk]
        rfl
    rw [S3File.listPrefix, if_neg (fun hc => hc.1 hnil), hnil, hk]
    rfl
  · rcases h with h | h
    · rw [S3File.listPrefix, h, hasSuffixSlash_s3KeyFromPath, if_pos ⟨hk, rfl⟩,
        s3DirKey_s3KeyFromPath hk]
    · rw [S3File.listPrefix, h, hasSuffixSlash_s3DirKey hk, if_neg (by simp)]

/-- The key of a file `OpenFile` returns: the path's own, or its directory's. -/
def OnPath (path : GoString) (r : Except GoError File) : Prop :=
  ∀ f, r = .ok (.s3File f) → f.s3Key = s3KeyFromPath path ∨ f.s3Key = s3DirKey (s3KeyFromPath path)

theorem onPath_error {path : GoString} {err : GoError} : OnPath path (.error err) := by
  intro f hf
  cases hf

theorem onPath_openDirectory (path p : GoString) :
    Prog.Triple World.handle (fun _ => True)
      (openDirectory p (s3DirKey (s3KeyFromPath path))) fun r _ => OnPath path r := by
  have hmarker : Prog.Triple World.handle (fun _ => True)
      (openMarker p (s3DirKey (s3KeyFromPath path))) fun r _ => OnPath path r := by
    refine Prog.triple_bind (Prog.triple_true _) fun r => ?_
    cases r with
    | error err => exact Prog.triple_pure fun _ _ => onPath_error
    | ok objInfo =>
      refine Prog.triple_bind (Prog.triple_true _) fun r => ?_
      cases r with
      | error err => exact Prog.triple_pure fun _ _ => onPath_error
      | ok inode =>
        refine Prog.triple_bind (Prog.triple_true _) fun _ => ?_
        refine Prog.triple_pure fun _ _ f hf => ?_
        cases hf
        exact Or.inr rfl
  refine Prog.triple_bind (Prog.triple_true _) fun r => ?_
  cases r with
  | error err => exact hmarker
  | ok entries =>
    dsimp only
    split
    · exact hmarker
    · refine Prog.triple_bind (Prog.triple_true _) fun r => ?_
      refine Prog.triple_pure fun _ _ f hf => ?_
      cases r with
      | error err => cases hf
      | ok info =>
        cases hf
        exact Or.inr rfl

/-- Whatever the services answer, an `s3File` that `OpenFile` returns is on a key of
its path. -/
theorem onPath_openFile (path : GoString) (flags : Nat) :
    Prog.Triple World.handle (fun _ => True) (openFile path flags) fun r _ => OnPath path r := by
  have hwritable : ∀ (r : Except GoError S3WritableFile), OnPath path (r.map .s3WritableFile) := by
    intro r f hf
    cases r <;> cases hf
  unfold openFile
  dsimp only
  split
  · next hk =>
    refine Prog.triple_bind (Prog.triple_true _) fun r => ?_
    refine Prog.triple_bind (Prog.triple_true _) fun now => ?_
    refine Prog.triple_pure fun _ _ f hf => ?_
    cases hf
    exact Or.inl hk.symm
  · refine Prog.triple_bind (Prog.triple_true _) fun r => ?_
    cases r with
    | error err =>
      dsimp only
      split
      · refine Prog.triple_bind (Prog.triple_true _) fun r => ?_
        cases r with
        | error err => exact Prog.triple_pure fun _ _ => onPath_error
        | ok inode =>
          refine Prog.triple_bind (Prog.triple_true _) fun r => ?_
          cases r with
          | error err => exact Prog.triple_pure fun _ _ => onPath_error
          | ok _ =>
            refine Prog.triple_bind (Prog.triple_true _) fun now => ?_
            refine Prog.triple_bind (Prog.triple_true _) fun _ => ?_
            refine Prog.triple_bind (Prog.triple_true _) fun _ => ?_
            refine Prog.triple_bind (Prog.triple_true _) fun r => ?_
            exact Prog.triple_pure fun _ _ => hwritable r
      · exact onPath_openDirectory path path
    | ok objInfo =>
      refine Prog.triple_bind (Prog.triple_true _) fun r => ?_
      cases r with
      | error err => exact Prog.triple_pure fun _ _ => onPath_error
      | ok inode =>
        refine Prog.triple_bind (Prog.triple_true _) fun _ => ?_
        split
        · refine Prog.triple_bind (Prog.triple_true _) fun r => ?_
          exact Prog.triple_pure fun _ _ => hwritable r
        · refine Prog.triple_pure fun _ _ f hf => ?_
          cases hf
          exact Or.inl rfl

end Found

/-- A directory path joined with a name. -/
def joinPath (dir name : GoString) : GoString :=
  if dir = [slash] then slash :: name else dir ++ slash :: name

theorem joinPath_s3KeyFromPath (path name : GoString) :
    joinPath (slash :: s3KeyFromPath path) name
      = slash :: (s3DirKey (s3KeyFromPath path) ++ name) := by
  by_cases hk : s3KeyFromPath path = []
  · rw [hk]
    rfl
  · rw [joinPath, if_neg (by simpa using hk), s3DirKey_s3KeyFromPath hk]
    simp

/-- In every state a gateway reaches, with any number of operations under way, any
outcomes of their calls, other clients of S3 and restarts: what `Stat` and
`OpenFile` report for a path has a handle that resolves to the path, and so has
every entry `Readdir` returns for a directory opened at a path, at any time. -/
theorem handles_resolve (b : Bucket) (env : Nat → Outcome) (config : Option CacheConfig)
    (dataCache : Option DataCache) (events : List GatewayEvent) :
    let w := (events.foldl Gateway.step (Gateway.start b env config dataCache)).shared
    (∀ path fi w', (stat path).run World.handle w = (.ok fi, w') →
      (getHandle fi).bind (resolveHandle w'.handles) = .ok (slash :: s3KeyFromPath path)) ∧
    (∀ path flags f w', (openFile path flags).run World.handle w = (.ok f, w') →
      (getHandle f.info).bind (resolveHandle w'.handles)
        = .ok (slash :: s3KeyFromPath path)) ∧
    ∀ path flags f w₀ w₀', (openFile path flags).run World.handle w₀ = (.ok (.s3File f), w₀') →
      ∀ f' : S3File, f'.s3Key = f.s3Key → ∀ count infos w',
        (f'.readdir count).run World.handle w = (.ok infos, w') → ∀ e ∈ infos,
        (getHandle e).bind (resolveHandle w'.handles)
          = .ok (joinPath (slash :: s3KeyFromPath path) e.name) := by
  intro w
  have hw : w.Found [] := by
    refine ⟨Gateway.indexed_of_events b env config dataCache events, fun x hx => ?_⟩
    cases hx
  refine ⟨fun path fi w' hrun => ?_, fun path flags f w' hrun => ?_,
    fun path flags f w₀ w₀' hopen f' hf' count infos w' hrun e he => ?_⟩
  · have h := reports_stat path w hw
    rw [hrun] at h
    exact (h fi rfl).resolveHandle
  · have h := reportsFile_openFile path flags w hw
    rw [hrun] at h
    exact (h f rfl).resolveHandle
  · have hkey := onPath_openFile path flags w₀ trivial
    rw [hopen] at hkey
    have hpfx : f'.listPrefix = s3DirKey (s3KeyFromPath path) :=
      listPrefix_of_s3Key (hf' ▸ hkey f rfl)
    have h := found_readdir f' count w hw
    rw [hrun] at h
    have hentry : w'.Found [(e.inode, f'.listPrefix ++ e.name)] := by
      refine (h infos rfl).mono fun x hx => ?_
      rw [List.mem_singleton.mp hx]
      exact List.mem_map_of_mem he
    rw [hentry.resolveHandle, joinPath_s3KeyFromPath, hpfx]

end S3Gateway
