import S3Gateway.Cache.Accounting
import S3Gateway.Cache.DataKeys

/-!
# The data cache and its directory

As long as one call runs at a time, directory and index tell the same: the files of the
shard directories, temporary ones apart, are those of the indexed entries, with the sizes
the index has (`Synced`). `Kept` adds what the files hold. Removing entries, temporary
files, finding an entry and taking up a stored file keep all of it, and `evict` ends
within the size limit.
-/

namespace S3Gateway

open Lib

/-- The name of a temporary file. -/
def isTemp (name : GoString) : Bool := hasPrefix name (gs ".tmp-")

namespace DataCache

/-- The size the index has for a key. -/
def sizeOf (dc : DataCache) (key : GoString) : Option Int :=
  (dc.items.lookup key).bind fun elem => (dc.order.value elem).map DataEntry.size

variable {dc dc' : DataCache}

/-! ## Sizes -/

theorem sizeOf_eq {key : GoString} {elem : Nat} {entry : DataEntry}
    (hitem : dc.items.lookup key = some elem) (hval : dc.order.value elem = some entry) :
    dc.sizeOf key = some entry.size := by
  rw [sizeOf, hitem, Option.bind_some, hval]
  rfl

theorem Accounted.mem_items_iff (h : dc.Accounted) {key : GoString} :
    key ∈ dc.items ↔ ∃ size, dc.sizeOf key = some size := by
  rw [GoMap.mem_iff_lookup]
  constructor
  · rintro ⟨elem, hitem⟩
    obtain ⟨-, entry, hval, -⟩ := h.indexed key elem hitem
    exact ⟨entry.size, sizeOf_eq hitem hval⟩
  · rintro ⟨size, hsize⟩
    obtain ⟨elem, hitem, -⟩ := Option.bind_eq_some_iff.mp hsize
    exact ⟨elem, hitem⟩

theorem sizeOf_dropEntry (key key' : GoString) (elem : Nat) (entry : DataEntry) :
    (dc.dropEntry key elem entry).sizeOf key' = if key' = key then none else dc.sizeOf key' := by
  unfold sizeOf DataCache.dropEntry
  rw [GoMap.lookup_erase_ite]
  by_cases h : key' = key <;> simp [h]

/-- Changing an entry, and moving it, changes the size of its key only. -/
theorem Accounted.sizeOf_update (h : dc.Accounted) {key : GoString} {elem : Nat} {entry : DataEntry}
    (hitem : dc.items.lookup key = some elem) (hval : dc.order.value elem = some entry)
    (g : DataEntry → DataEntry) (size : Int) (key' : GoString) :
    { dc with
      currentSize := size
      order := (dc.order.update elem g).moveToFront elem }.sizeOf key'
      = if key' = key then some (g entry).size else dc.sizeOf key' := by
  unfold sizeOf
  dsimp only
  by_cases hk : key' = key
  · rw [if_pos hk, hk, hitem, Option.bind_some, LinkedList.value_moveToFront,
      LinkedList.value_update, if_pos rfl, hval]
    rfl
  · rw [if_neg hk]
    cases hitem' : dc.items.lookup key' with
    | none => rfl
    | some elem' =>
      obtain ⟨-, entry', hval', hkey'⟩ := h.indexed key' elem' hitem'
      obtain ⟨-, entry₁, hval₁, hkey⟩ := h.indexed key elem hitem
      have hne : elem' ≠ elem := by
        rintro rfl
        rw [hval'] at hval₁
        cases hval₁
        exact hk (hkey'.symm.trans hkey)
      rw [Option.bind_some, Option.bind_some, LinkedList.value_moveToFront,
        LinkedList.value_update, if_neg hne]

/-- A new entry sets the size of its key. -/
theorem Accounted.sizeOf_insert (h : dc.Accounted) (key : GoString) (entry : DataEntry)
    (order : LinkedList DataEntry) (hvalue : ∀ i, order.value i = (dc.order.pushFront entry).value i)
    (size : Int) (key' : GoString) :
    { dc with
      order := order
      items := dc.items.insert key dc.order.next
      currentSize := size }.sizeOf key'
      = if key' = key then some entry.size else dc.sizeOf key' := by
  unfold sizeOf
  dsimp only
  rw [GoMap.lookup_insert_ite]
  by_cases hk : key' = key
  · rw [if_pos hk, if_pos hk, Option.bind_some, hvalue, LinkedList.value_pushFront, if_pos rfl]
    rfl
  · rw [if_neg hk, if_neg hk]
    cases hitem' : dc.items.lookup key' with
    | none => rfl
    | some elem' =>
      obtain ⟨hmem, -⟩ := h.indexed key' elem' hitem'
      have hne : elem' ≠ dc.order.next := by
        rintro rfl
        exact dc.order.next_notMem hmem
      rw [Option.bind_some, Option.bind_some, hvalue, LinkedList.value_pushFront, if_neg hne]

/-- The key of an element. -/
def keyOf (dc : DataCache) (elem : Nat) : GoString := ((dc.order.value elem).map DataEntry.key).getD []

/-- The keys on the list are those of the map. -/
theorem Accounted.keys_perm (h : dc.Accounted) :
    (dc.order.order.map dc.keyOf).Perm dc.items.keys := by
  have hval : ∀ elem ∈ dc.order.order, dc.items.lookup (dc.keyOf elem) = some elem := by
    intro elem hmem
    obtain ⟨entry, hv⟩ := (GoMap.mem_iff_lookup _ _).mp (dc.order.live elem hmem)
    have hv : dc.order.value elem = some entry := hv
    rw [keyOf, hv]
    exact h.listed elem hmem entry hv
  have hnodup : (dc.order.order.map dc.keyOf).Nodup := by
    refine dc.order.nodup.map_on fun e he e' he' heq => ?_
    have hl := hval e he
    rw [heq, hval e' he'] at hl
    exact (Option.some.inj hl).symm
  refine (List.perm_ext_iff_of_nodup hnodup dc.items.keys_nodup).mpr fun key => ?_
  rw [AList.mem_keys.symm, GoMap.mem_iff_lookup, List.mem_map]
  constructor
  · rintro ⟨elem, hmem, rfl⟩
    exact ⟨elem, hval elem hmem⟩
  · rintro ⟨elem, hitem⟩
    obtain ⟨hmem, entry, hv, hkey⟩ := h.indexed key elem hitem
    exact ⟨elem, hmem, by rw [keyOf, hv]; exact hkey⟩

/-- `currentSize` adds up the sizes of the keys. -/
theorem Accounted.currentSize_eq (h : dc.Accounted) :
    dc.currentSize = (dc.items.keys.map fun key => (dc.sizeOf key).getD 0).sum := by
  rw [h.total, ← (h.keys_perm.map _).sum_eq, List.map_map, LinkedList.total]
  refine congrArg List.sum (List.map_congr_left fun elem hmem => ?_)
  obtain ⟨entry, hv⟩ := (GoMap.mem_iff_lookup _ _).mp (dc.order.live elem hmem)
  have hv : dc.order.value elem = some entry := hv
  have hkey : dc.keyOf elem = entry.key := by rw [keyOf, hv]; rfl
  rw [Function.comp, hkey, hv, sizeOf_eq (h.listed elem hmem entry hv) hv]
  rfl

/-- Two caches with the same sizes have the same sum. -/
theorem Accounted.currentSize_congr (h : dc.Accounted) (h' : dc'.Accounted)
    (hsize : ∀ key, dc'.sizeOf key = dc.sizeOf key) : dc'.currentSize = dc.currentSize := by
  have hperm : dc'.items.keys.Perm dc.items.keys := by
    refine (List.perm_ext_iff_of_nodup dc'.items.keys_nodup dc.items.keys_nodup).mpr fun key => ?_
    rw [AList.mem_keys.symm, AList.mem_keys.symm, h'.mem_items_iff, h.mem_items_iff, hsize]
  rw [h.currentSize_eq, h'.currentSize_eq, (hperm.map _).sum_eq]
  exact congrArg List.sum (List.map_congr_left fun key _ => by rw [hsize])

/-! ## Directory and index -/

/-- The size of a file. -/
def fileSize (dc : DataCache) (path : GoString × GoString) : Option Int :=
  (dc.disk.lookup path).map fun file => (file.data.length : Int)

/-- The files of the shard directories, temporary ones apart, are those of the indexed
entries, with the sizes recorded for them. -/
def Mirrored (dc : DataCache) : Prop :=
  ∀ shard name size, isTemp name = false ∧ dc.fileSize (shard, name) = some size ↔
    cachePath name = some (shard, name) ∧ dc.sizeOf name = some size

/-- Directory and index agree, and so do the accounts. -/
structure Synced (dc : DataCache) : Prop where
  accounted : dc.Accounted
  long : dc.LongKeys
  mirrored : dc.Mirrored

theorem Synced.removeEntry (h : dc.Synced) {key : GoString} {elem : Nat} {entry : DataEntry}
    (hitem : dc.items.lookup key = some elem) (hval : dc.order.value elem = some entry)
    (hrem : dc.removeEntry key elem entry = some dc') : dc'.Synced := by
  have hacc := h.accounted.removeEntry hitem hval hrem
  obtain ⟨path, hpath, rfl⟩ := Option.map_eq_some_iff.mp hrem
  have hlong := h.long.dropEntry key elem entry
  refine ⟨hacc, ⟨hlong.values, hlong.items⟩, fun shard name size => ?_⟩
  have hold := h.mirrored shard name size
  have hsize : (dc.dropEntry key elem entry).sizeOf name = _ := sizeOf_dropEntry key name elem entry
  have hfile : (AList.erase path dc.disk).lookup (shard, name)
      = if (shard, name) = path then none else dc.disk.lookup (shard, name) :=
    GoMap.lookup_erase_ite _ _ _
  show isTemp name = false ∧ Option.map _ ((AList.erase path dc.disk).lookup (shard, name)) = _ ↔
    _ ∧ (dc.dropEntry key elem entry).sizeOf name = _
  rw [hfile, hsize]
  by_cases hname : name = key
  · -- the entry and its file are gone
    rw [if_pos hname]
    constructor
    · rintro ⟨htemp, hf⟩
      split at hf
      · cases hf
      · next hne =>
        obtain ⟨hcache, -⟩ := hold.mp ⟨htemp, hf⟩
        rw [hname, hpath] at hcache
        exact absurd (hname ▸ (Option.some.inj hcache).symm) hne
    · rintro ⟨-, hs⟩
      cases hs
  · have hne : (shard, name) ≠ path := by
      rintro rfl
      exact hname (snd_of_cachePath hpath)
    rw [if_neg hname, if_neg hne]
    exact hold

/-- Every file, temporary ones apart, is where the cache looks for it and holds what `P`
allows under its name. -/
def Whole (P : GoString → Bytes → Prop) (disk : Disk) : Prop :=
  ∀ path file, disk.lookup path = some file → isTemp path.2 = false →
    cachePath path.2 = some path ∧ P path.2 file.data

theorem Whole.mono {P : GoString → Bytes → Prop} {disk disk' : Disk} (h : Whole P disk)
    (hsub : ∀ path file, disk'.lookup path = some file → disk.lookup path = some file) :
    Whole P disk' :=
  fun path file hfile => h path file (hsub path file hfile)

theorem Whole.temp {P : GoString → Bytes → Prop} {disk disk' : Disk} (h : Whole P disk)
    (htemp : ∀ path, isTemp path.2 = false → disk'.lookup path = disk.lookup path) :
    Whole P disk' :=
  fun path file hfile hpath => h path file ((htemp path hpath).symm.trans hfile) hpath

/-- What holds of the cache between two calls, the bound on its size apart. -/
structure Kept (sha256 : Sha256) (config : DataCacheConfig) (P : GoString → Bytes → Prop)
    (dc : DataCache) : Prop where
  synced : dc.Synced
  whole : Whole P dc.disk
  sha256_eq : dc.sha256 = sha256
  config_eq : dc.config = config

section Kept

variable {sha256 : Sha256} {config : DataCacheConfig} {P : GoString → Bytes → Prop}

/-- Removing entries. -/
theorem Kept.drops (h : Kept sha256 config P dc) (hd : Drops dc dc') :
    Kept sha256 config P dc' ∧ dc'.currentSize ≤ dc.currentSize := by
  refine hd.induct (I := fun dc₁ => Kept sha256 config P dc₁ ∧ dc₁.currentSize ≤ dc.currentSize)
    (fun {dc₁ dc₂ key elem entry} ⟨h, hle⟩ hitem hval hrem => ?_) ⟨h, Int.le_refl _⟩
  have hitem := hitem h.synced.accounted
  have hsynced := h.synced.removeEntry hitem hval hrem
  have hwhole := h.whole.mono (diskSub_removeEntry hrem).files
  obtain ⟨hmem, -⟩ := h.synced.accounted.indexed key elem hitem
  have hsize := h.synced.accounted.nonneg elem hmem entry hval
  obtain ⟨path, -, rfl⟩ := Option.map_eq_some_iff.mp hrem
  refine ⟨⟨hsynced, hwhole, h.sha256_eq, h.config_eq⟩, ?_⟩
  show dc₁.currentSize - entry.size ≤ dc.currentSize
  omega

/-- Temporary files do not count. -/
theorem Kept.temp (h : Kept sha256 config P dc) {disk : Disk}
    (hdisk : ∀ path, isTemp path.2 = false → disk.lookup path = dc.disk.lookup path) :
    Kept sha256 config P { dc with disk := disk } := by
  refine ⟨⟨h.synced.accounted.disk disk, ⟨h.synced.long.values, h.synced.long.items⟩,
    fun shard name size => ?_⟩, h.whole.temp hdisk, h.sha256_eq, h.config_eq⟩
  refine Iff.trans ?_ (h.synced.mirrored shard name size)
  refine and_congr_right fun htemp => ?_
  show Option.map _ (disk.lookup _) = _ ↔ Option.map _ (dc.disk.lookup _) = _
  rw [hdisk (shard, name) htemp]

/-- Finding an entry changes no size. -/
theorem Kept.touch (h : Kept sha256 config P dc) {key : GoString} {elem : Nat} {entry : DataEntry}
    (hitem : dc.items.lookup key = some elem) (hval : dc.order.value elem = some entry) (now : Time) :
    Kept sha256 config P { dc with order :=
      (dc.order.update elem fun entry => { entry with accessTime := now }).moveToFront elem } := by
  obtain ⟨hmem, -⟩ := h.synced.accounted.indexed key elem hitem
  have hacc := h.synced.accounted.touch hmem hval (fun entry => { entry with accessTime := now }) rfl
    (h.synced.accounted.nonneg elem hmem entry hval)
  rw [Int.sub_add_cancel] at hacc
  have hlong := h.synced.long.update elem (fun entry => { entry with accessTime := now })
    (fun _ => rfl) dc.currentSize
  refine ⟨⟨hacc, hlong, fun shard name size => ?_⟩, h.whole, h.sha256_eq, h.config_eq⟩
  refine (h.synced.mirrored shard name size).trans (and_congr_right fun _ => ?_)
  rw [h.synced.accounted.sizeOf_update hitem hval]
  split
  · next heq => rw [heq, sizeOf_eq hitem hval]
  · rfl

/-- The index takes up the file that was stored for it. -/
theorem Kept.stored (h : Kept sha256 config P dc) {key : GoString} {data : Bytes}
    (hkey : 2 ≤ key.length) (htemp : isTemp key = false) (hP : P key data) (now modTime : Time)
    (s3Key : GoString) :
    Kept sha256 config P (({ dc with
      disk := dc.disk.insert (key.take 2, key) ⟨data, modTime⟩ } : DataCache).putIndex now key s3Key
        data.length) := by
  have hsize : ∀ dc : DataCache, dc.Accounted → ∀ name,
      (dc.putIndex now key s3Key data.length).sizeOf name
        = if name = key then some (data.length : Int) else dc.sizeOf name := by
    intro dc hacc name
    unfold putIndex
    cases hitem : dc.items.lookup key with
    | some elem =>
      obtain ⟨-, entry, hval, -⟩ := hacc.indexed key elem hitem
      simp only [hval]
      exact hacc.sizeOf_update hitem hval _ _ name
    | none => exact hacc.sizeOf_insert key _ _ (fun _ => rfl) _ name
  generalize hmid : ({ dc with disk := dc.disk.insert (key.take 2, key) ⟨data, modTime⟩ } : DataCache)
    = dc₁
  have hacc : dc₁.Accounted := hmid ▸ h.synced.accounted.disk _
  have hlong : dc₁.LongKeys := hmid ▸ ⟨h.synced.long.values, h.synced.long.items⟩
  have hlook : ∀ path, dc₁.disk.lookup path
      = if path = (key.take 2, key) then some ⟨data, modTime⟩ else dc.disk.lookup path :=
    fun path => hmid ▸ GoMap.lookup_insert_ite _ _ _ _
  have hsize₁ : ∀ name, dc₁.sizeOf name = dc.sizeOf name := fun name => hmid ▸ rfl
  refine ⟨⟨hacc.putIndex now key s3Key data.length, hlong.putIndex now hkey s3Key _,
    fun shard name size => ?_⟩, ?_, ?_, ?_⟩
  · rw [fileSize, disk_putIndex, hlook, hsize dc₁ hacc, hsize₁]
    have hold := h.synced.mirrored shard name size
    by_cases hname : name = key
    · subst hname
      rw [if_pos rfl, cachePath_of_two_le hkey]
      by_cases hshard : shard = name.take 2
      · subst hshard
        simp [htemp]
      · have hne : (shard, name) ≠ (name.take 2, name) := fun heq => hshard (Prod.mk.inj heq).1
        rw [if_neg hne]
        constructor
        · intro hf
          have hcache := (hold.mp hf).1
          rw [cachePath_of_two_le hkey] at hcache
          exact absurd (Option.some.inj hcache).symm hne
        · rintro ⟨heq, -⟩
          exact absurd (Option.some.inj heq).symm hne
    · rw [if_neg hname, if_neg fun heq => hname (Prod.mk.inj heq).2]
      exact hold
  · rw [disk_putIndex]
    intro path file hfile htmp
    rw [hlook] at hfile
    split at hfile
    · next heq =>
      cases hfile
      rw [heq]
      exact ⟨cachePath_of_two_le hkey, hP⟩
    · exact h.whole path file hfile htmp
  · exact (sha256_putIndex ..).trans (hmid ▸ h.sha256_eq)
  · exact (config_putIndex ..).trans (hmid ▸ h.config_eq)

end Kept

/-! ## Eviction -/

/-- The loop by size ends within the limit, or with an empty list. -/
theorem evictWhile_bounded {elems : List Nat} (horder : dc.order.order.reverse = elems)
    (hev : evictWhile (fun dc _ => dc.currentSize > dc.config.maxSize) elems dc = some dc') :
    dc'.currentSize ≤ dc'.config.maxSize ∨ dc'.order.order = [] := by
  induction elems generalizing dc with
  | nil =>
    cases hev
    exact Or.inr (List.reverse_eq_nil_iff.mp horder)
  | cons elem elems ih =>
    have hlist : dc.order.order = elems.reverse ++ [elem] := by
      rw [← List.reverse_reverse dc.order.order, horder, List.reverse_cons]
    have hmem : elem ∈ dc.order.order := by simp [hlist]
    unfold evictWhile at hev
    split at hev
    · next hval =>
      obtain ⟨entry, hv⟩ := (GoMap.mem_iff_lookup _ _).mp (dc.order.live elem hmem)
      rw [show dc.order.value elem = some entry from hv] at hval
      cases hval
    · next entry hval =>
      split at hev
      · obtain ⟨dc₁, hrem, hev⟩ := Option.bind_eq_some_iff.mp hev
        refine ih ?_ hev
        obtain ⟨path, -, rfl⟩ := Option.map_eq_some_iff.mp hrem
        show (dc.order.order.erase elem).reverse = elems
        have hnot : elem ∉ elems.reverse := by
          have hnodup := dc.order.nodup
          rw [hlist, List.nodup_append] at hnodup
          exact fun h => hnodup.2.2 elem h elem (List.mem_singleton.mpr rfl) rfl
        rw [hlist, List.erase_append_right _ hnot]
        simp
      · next hle =>
        cases hev
        exact Or.inl (by simpa using hle)

theorem Accounted.evict_bounded (h : dc.Accounted) (hpos : 0 ≤ dc.config.maxSize) {now : Time}
    (hev : dc.evict now = some dc') (hconf : dc'.config = dc.config) :
    dc'.currentSize ≤ dc'.config.maxSize := by
  have hacc := h.drops (drops_evict hev)
  obtain ⟨dc₁, -, h₂⟩ := Option.bind_eq_some_iff.mp hev
  rcases evictWhile_bounded rfl h₂ with hle | hnil
  · exact hle
  · rw [hacc.total, LinkedList.total, hnil, hconf]
    exact hpos

end DataCache

end S3Gateway
