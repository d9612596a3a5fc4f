import S3Gateway.Cache.Data

/-!
# What the data cache serves

Apart from storing a file, all a method does is remove entries, one after the other and
each with its file (`Drops`): what one removal keeps, `evict` and `Invalidate` keep.

`Serves key data` says that a `Get` under the cache key `key` that hits returns
`data`. All methods keep it, whenever they return; a `Put` under that key does if the
data put is that data.
-/

namespace S3Gateway

open Lib

namespace DataCache

/-- Map, list and `currentSize` agree, and no size is negative. -/
structure Accounted (dc : DataCache) : Prop where
  /-- Every element on the list is the one the map has for its key. -/
  listed : ∀ elem ∈ dc.order.order, ∀ entry, dc.order.value elem = some entry →
    dc.items.lookup entry.key = some elem
  /-- The map has no other elements. -/
  indexed : ∀ key elem, dc.items.lookup key = some elem →
    elem ∈ dc.order.order ∧ ∃ entry, dc.order.value elem = some entry ∧ entry.key = key
  total : dc.currentSize = dc.order.total DataEntry.size
  nonneg : ∀ elem ∈ dc.order.order, ∀ entry, dc.order.value elem = some entry → 0 ≤ entry.size

/-! ## Removing entries -/

/-- `dc'` is `dc` after removing entries. If the accounts agree, each of them is in the
index when its turn comes. -/
inductive Drops : DataCache → DataCache → Prop where
  | refl (dc : DataCache) : Drops dc dc
  | drop {dc dc₁ dc' : DataCache} {key : GoString} {elem : Nat} {entry : DataEntry}
      (hitem : dc.Accounted → dc.items.lookup key = some elem)
      (hval : dc.order.value elem = some entry)
      (hrem : dc.removeEntry key elem entry = some dc₁) (h : Drops dc₁ dc') : Drops dc dc'

theorem Drops.trans {dc₁ dc₂ dc₃ : DataCache} (h : Drops dc₁ dc₂) (h' : Drops dc₂ dc₃) :
    Drops dc₁ dc₃ := by
  induction h with
  | refl => exact h'
  | drop hitem hval hrem _ ih => exact .drop hitem hval hrem (ih h')

/-- What one removal keeps. -/
theorem Drops.induct {I : DataCache → Prop} {dc dc' : DataCache} (h : Drops dc dc')
    (hstep : ∀ {dc dc₁ : DataCache} {key : GoString} {elem : Nat} {entry : DataEntry}, I dc →
      (dc.Accounted → dc.items.lookup key = some elem) → dc.order.value elem = some entry →
      dc.removeEntry key elem entry = some dc₁ → I dc₁) (hdc : I dc) : I dc' := by
  induction h with
  | refl => exact hdc
  | drop hitem hval hrem _ ih => exact ih (hstep hdc hitem hval hrem)

theorem mem_order_removeEntry {dc dc' : DataCache} {key : GoString} {elem e : Nat}
    {entry : DataEntry} (hrem : dc.removeEntry key elem entry = some dc') (hne : e ≠ elem)
    (he : e ∈ dc.order.order) : e ∈ dc'.order.order := by
  obtain ⟨path, -, rfl⟩ := Option.map_eq_some_iff.mp hrem
  exact LinkedList.mem_order_remove.mpr ⟨hne, he⟩

theorem drops_evictWhile {dc dc' : DataCache} {cond : DataCache → DataEntry → Bool}
    {elems : List Nat} (hnodup : elems.Nodup) (hmem : ∀ e ∈ elems, e ∈ dc.order.order)
    (hev : evictWhile cond elems dc = some dc') : Drops dc dc' := by
  induction elems generalizing dc with
  | nil =>
    cases hev
    exact .refl _
  | cons elem elems ih =>
    obtain ⟨hnot, hnodup⟩ := List.nodup_cons.mp hnodup
    unfold evictWhile at hev
    split at hev
    · cases hev
      exact .refl _
    · next entry hval =>
      split at hev
      · obtain ⟨dc₁, hrem, hev⟩ := Option.bind_eq_some_iff.mp hev
        have hitem : dc.Accounted → dc.items.lookup entry.key = some elem :=
          fun h => h.listed elem (hmem elem List.mem_cons_self) entry hval
        refine .drop hitem hval hrem (ih hnodup (fun e he => ?_) hev)
        refine mem_order_removeEntry hrem ?_ (hmem e (List.mem_cons_of_mem _ he))
        rintro rfl
        exact hnot he
      · cases hev
        exact .refl _

theorem drops_evict {dc dc' : DataCache} {now : Time} (hev : dc.evict now = some dc') :
    Drops dc dc' := by
  obtain ⟨dc₁, h₁, h₂⟩ := Option.bind_eq_some_iff.mp hev
  have hdrops : ∀ {dc dc' : DataCache} {cond : DataCache → DataEntry → Bool},
      evictWhile cond dc.order.order.reverse dc = some dc' → Drops dc dc' :=
    fun h => drops_evictWhile (List.nodup_reverse.mpr (LinkedList.nodup _))
      (fun e he => List.mem_reverse.mp he) h
  exact (hdrops h₁).trans (hdrops h₂)

/-- The loop of `Invalidate` over the entries `l` of the map that are left to visit. -/
theorem drops_invalidateLoop {dc dc' : DataCache} {s3Key : GoString}
    {l : List (Sigma fun _ : GoString => Nat)} (hnodup : l.NodupKeys)
    (hmem : ∀ kv ∈ l, dc.items.lookup kv.1 = some kv.2)
    (hinv : l.foldlM (fun dc kv =>
      match dc.order.value kv.2 with
      | none => some dc
      | some entry => if entry.s3Key = s3Key then dc.removeEntry kv.1 kv.2 entry else some dc) dc
        = some dc') : Drops dc dc' := by
  induction l generalizing dc with
  | nil =>
    cases hinv
    exact .refl _
  | cons kv l ih =>
    obtain ⟨hnot, hnodup⟩ := List.nodupKeys_cons.mp hnodup
    rw [List.foldlM_cons] at hinv
    obtain ⟨dc₁, hone, hinv⟩ := Option.bind_eq_some_iff.mp hinv
    have hrest : ∀ kv ∈ l, dc.items.lookup kv.1 = some kv.2 :=
      fun kv hkv => hmem kv (List.mem_cons_of_mem _ hkv)
    split at hone
    · cases hone
      exact ih hnodup hrest hinv
    · next entry hval =>
      split at hone
      · refine .drop (fun _ => hmem kv List.mem_cons_self) hval hone
          (ih hnodup (fun kv' hkv' => ?_) hinv)
        obtain ⟨path, -, rfl⟩ := Option.map_eq_some_iff.mp hone
        refine (GoMap.lookup_erase_ite _ _ _).trans ?_
        rw [if_neg, hrest kv' hkv']
        -- the other entries have other keys
        intro hk
        exact hnot (hk ▸ List.mem_keys_of_mem hkv')
      · cases hone
        exact ih hnodup hrest hinv

theorem drops_invalidate {dc dc' : DataCache} {s3Key : GoString}
    (hinv : dc.invalidate s3Key = some dc') : Drops dc dc' :=
  drops_invalidateLoop dc.items.nodupKeys (fun _ hkv => GoMap.lookup_eq_of_mem_entries hkv) hinv

/-- The first locked section of `Get` finds a live entry and moves it to the front, or
removes at most the entry. -/
theorem getIndex_cases {dc dc' : DataCache} {now : Time} {key : GoString} {found : Option Nat}
    (hget : dc.getIndex now key = some (found, dc')) :
    found = none ∧ Drops dc dc' ∨ ∃ elem entry, found = some elem ∧
      dc.items.lookup key = some elem ∧ dc.order.value elem = some entry ∧
      dc' = { dc with order :=
        (dc.order.update elem fun entry => { entry with accessTime := now }).moveToFront elem } := by
  unfold getIndex at hget
  split at hget
  · cases hget
    exact Or.inl ⟨rfl, .refl _⟩
  · next elem hitem =>
    split at hget
    · cases hget
      exact Or.inl ⟨rfl, .refl _⟩
    · next entry hval =>
      split at hget
      · obtain ⟨dc₁, hrem, heq⟩ := Option.map_eq_some_iff.mp hget
        cases heq
        exact Or.inl ⟨rfl, .drop (fun _ => hitem) hval hrem (.refl _)⟩
      · cases hget
        exact Or.inr ⟨elem, entry, rfl, hitem, hval, rfl⟩

/-! ## Serving -/

/-- The file of an entry under `key`, if there is an entry, holds `data`. -/
def Serves (key : GoString) (data : Bytes) (dc : DataCache) : Prop :=
  ∀ elem, dc.items.lookup key = some elem →
    ∀ path, cachePath key = some path →
      ∃ file, dc.disk.lookup path = some file ∧ file.data = data

variable {key : GoString} {data : Bytes} {dc dc' : DataCache}

/-- The locked section of `Put` is about the index alone. -/
@[simp] theorem disk_putIndex (dc : DataCache) (now : Time) (key s3Key : GoString) (written : Int) :
    (dc.putIndex now key s3Key written).disk = dc.disk := by
  unfold putIndex
  split <;> rfl

@[simp] theorem sha256_putIndex (dc : DataCache) (now : Time) (key s3Key : GoString)
    (written : Int) : (dc.putIndex now key s3Key written).sha256 = dc.sha256 := by
  unfold putIndex
  split <;> rfl

@[simp] theorem config_putIndex (dc : DataCache) (now : Time) (key s3Key : GoString)
    (written : Int) : (dc.putIndex now key s3Key written).config = dc.config := by
  unfold putIndex
  split <;> rfl

/-- A file's path tells its key. -/
theorem snd_of_cachePath {path : GoString × GoString} (h : cachePath key = some path) :
    path.2 = key := by
  unfold cachePath at h
  split at h
  · cases h
  · cases h
    rfl

/-- The entries left after dropping one were there before. -/
theorem lookup_of_erase {key' : GoString} {elem : Nat}
    (h : (dc.items.erase key').lookup key = some elem) :
    key ≠ key' ∧ dc.items.lookup key = some elem := by
  rw [GoMap.lookup_erase_ite] at h
  split at h
  · cases h
  · next hne => exact ⟨hne, h⟩

theorem Serves.dropEntry (h : dc.Serves key data) (key' : GoString) (elem : Nat)
    (entry : DataEntry) : (dc.dropEntry key' elem entry).Serves key data :=
  fun elem' hitem => h elem' (lookup_of_erase hitem).2

theorem Serves.removeEntry (h : dc.Serves key data) {key' : GoString} {elem : Nat}
    {entry : DataEntry} (hrem : dc.removeEntry key' elem entry = some dc') :
    dc'.Serves key data ∧ dc'.sha256 = dc.sha256 := by
  obtain ⟨path', hpath', rfl⟩ := Option.map_eq_some_iff.mp hrem
  refine ⟨fun elem' hitem path hpath => ?_, rfl⟩
  obtain ⟨hne, hitem⟩ := lookup_of_erase hitem
  obtain ⟨file, hfile, hdata⟩ := h elem' hitem path hpath
  refine ⟨file, (GoMap.lookup_erase_ite _ _ _).trans ?_, hdata⟩
  rw [if_neg ?_, hfile]
  -- the removed file is another one, for it carries another key
  rintro rfl
  exact hne ((snd_of_cachePath hpath).symm.trans (snd_of_cachePath hpath'))

theorem Serves.drops (h : dc.Serves key data) (hd : Drops dc dc') :
    dc'.Serves key data ∧ dc'.sha256 = dc.sha256 :=
  hd.induct (I := fun dc₁ => dc₁.Serves key data ∧ dc₁.sha256 = dc.sha256)
    (fun h _ _ hrem => ⟨(h.1.removeEntry hrem).1, (h.1.removeEntry hrem).2.trans h.2⟩) ⟨h, rfl⟩

/-- A `Get` that hits returns the data. -/
theorem Serves.get {s3Key etag : GoString} (h : dc.Serves (dc.cacheKey s3Key etag) data)
    {now : Time} {openOk : Bool} {cached : Option Bytes}
    (hget : dc.get now openOk s3Key etag = some (cached, dc')) :
    (dc'.Serves (dc.cacheKey s3Key etag) data ∧ dc'.sha256 = dc.sha256) ∧
      ∀ content, cached = some content → content = data := by
  generalize hkey : dc.cacheKey s3Key etag = key at h ⊢
  unfold DataCache.get at hget
  dsimp only at hget
  rw [hkey] at hget
  obtain ⟨path, hpath, hmap⟩ := Option.bind_eq_some_iff.mp hget
  obtain ⟨⟨found, dc₁⟩, hindex, hopen⟩ := Option.map_eq_some_iff.mp hmap
  clear hget hmap
  -- the first locked section removes the entry, or finds it
  have hfound : (dc₁.Serves key data ∧ dc₁.sha256 = dc.sha256) ∧
      ∀ elem, found = some elem → dc₁.items.lookup key = some elem := by
    rcases getIndex_cases hindex with ⟨rfl, hd⟩ | ⟨elem, entry, rfl, hitem, -, rfl⟩
    · exact ⟨h.drops hd, nofun⟩
    · exact ⟨⟨h, rfl⟩, fun elem' helem => helem ▸ hitem⟩
  obtain ⟨⟨hserves, hsha⟩, hitem⟩ := hfound
  cases found with
  | none =>
    cases hopen
    exact ⟨⟨hserves, hsha⟩, nofun⟩
  | some elem =>
    dsimp only at hopen
    unfold getOpen at hopen
    split at hopen
    · next hfile =>
      cases hopen
      obtain ⟨file', hfile', hdata⟩ := hserves elem (hitem elem rfl) path hpath
      rw [hfile'] at hfile
      cases hfile
      exact ⟨⟨hserves, hsha⟩, fun content hc => Option.some.inj hc ▸ hdata⟩
    · split at hopen
      · cases hopen
        exact ⟨⟨hserves, hsha⟩, nofun⟩
      · cases hopen
        exact ⟨⟨hserves.dropEntry key elem _, hsha⟩, nofun⟩

/-- A `Put` of the data. -/
theorem Serves.put {s3Key etag : GoString} (h : dc.Serves (dc.cacheKey s3Key etag) data)
    {now : Time} {failure : Option PutFailure} {res : Except GoError Unit}
    (hput : dc.put now failure s3Key etag data = some (res, dc')) :
    dc'.Serves (dc.cacheKey s3Key etag) data ∧ dc'.sha256 = dc.sha256 := by
  generalize hkey : dc.cacheKey s3Key etag = key at h ⊢
  unfold DataCache.put at hput
  dsimp only at hput
  rw [hkey] at hput
  obtain ⟨path, hpath, hput⟩ := Option.bind_eq_some_iff.mp hput
  cases failure with
  | some f =>
    cases hput
    exact ⟨h, rfl⟩
  | none =>
    obtain ⟨dc₁, hev, heq⟩ := Option.map_eq_some_iff.mp hput
    cases heq
    -- the file is there before the index is touched
    have hfile : ∀ path', cachePath key = some path' →
        ∃ file, (dc.disk.insert path ⟨data, now⟩).lookup path' = some file ∧ file.data = data := by
      intro path' hpath'
      rw [hpath] at hpath'
      cases hpath'
      exact ⟨_, AList.lookup_insert _, rfl⟩
    have hserves : (putIndex { dc with disk := dc.disk.insert path ⟨data, now⟩ } now key s3Key
        data.length).Serves key data := by
      intro elem _ path' hpath'
      rw [disk_putIndex]
      exact hfile path' hpath'
    obtain ⟨hserves', hsha⟩ := hserves.drops (drops_evict hev)
    exact ⟨hserves', hsha.trans (sha256_putIndex ..)⟩

/-! ## Files on disk -/

/-- `dc'` has no files that `dc` does not have. -/
structure DiskSub (dc' dc : DataCache) : Prop where
  sha256 : dc'.sha256 = dc.sha256
  files : ∀ path file, dc'.disk.lookup path = some file → dc.disk.lookup path = some file

theorem DiskSub.refl (dc : DataCache) : DiskSub dc dc := ⟨rfl, fun _ _ h => h⟩

theorem DiskSub.trans {dc₁ dc₂ dc₃ : DataCache} (h₁ : DiskSub dc₁ dc₂) (h₂ : DiskSub dc₂ dc₃) :
    DiskSub dc₁ dc₃ :=
  ⟨h₁.sha256.trans h₂.sha256, fun path file h => h₂.files path file (h₁.files path file h)⟩

theorem diskSub_removeEntry {key' : GoString} {elem : Nat} {entry : DataEntry}
    (hrem : dc.removeEntry key' elem entry = some dc') : DiskSub dc' dc := by
  obtain ⟨path', -, rfl⟩ := Option.map_eq_some_iff.mp hrem
  refine ⟨rfl, fun path file h => ?_⟩
  have h := (GoMap.lookup_erase_ite _ _ _).symm.trans h
  split at h
  · cases h
  · exact h

theorem Drops.diskSub (h : Drops dc dc') : DiskSub dc' dc :=
  h.induct (I := fun dc₁ => DiskSub dc₁ dc)
    (fun hsub _ _ hrem => (diskSub_removeEntry hrem).trans hsub) (DiskSub.refl dc)

theorem diskSub_getIndex {now : Time} {found : Option Nat}
    (hget : dc.getIndex now key = some (found, dc')) : DiskSub dc' dc := by
  rcases getIndex_cases hget with ⟨-, hd⟩ | ⟨elem, entry, -, -, -, rfl⟩
  · exact hd.diskSub
  · exact ⟨rfl, fun _ _ h => h⟩

/-- The file under a cache key, if there is one, satisfies `P`. -/
def FileIs (key : GoString) (P : Bytes → Prop) (dc : DataCache) : Prop :=
  ∀ path, cachePath key = some path → ∀ file, dc.disk.lookup path = some file → P file.data

theorem FileIs.of_diskSub {P : Bytes → Prop} (h : dc.FileIs key P) (hsub : DiskSub dc' dc) :
    dc'.FileIs key P :=
  fun path hpath file hfile => h path hpath file (hsub.files path file hfile)

/-- A `Get` that hits returns what the file holds. -/
theorem FileIs.get {P : Bytes → Prop} {s3Key etag : GoString}
    (h : dc.FileIs (dc.cacheKey s3Key etag) P) {now : Time} {openOk : Bool} {cached : Option Bytes}
    (hget : dc.get now openOk s3Key etag = some (cached, dc')) :
    DiskSub dc' dc ∧ ∀ content, cached = some content → P content := by
  obtain ⟨path, hpath, hmap⟩ := Option.bind_eq_some_iff.mp hget
  obtain ⟨⟨found, dc₁⟩, hindex, hopen⟩ := Option.map_eq_some_iff.mp hmap
  clear hget hmap
  have hsub := diskSub_getIndex hindex
  cases found with
  | none =>
    cases hopen
    exact ⟨hsub, fun content hc => by cases hc⟩
  | some elem =>
    dsimp only at hopen
    unfold getOpen at hopen
    split at hopen
    · next file hfile =>
      cases hopen
      refine ⟨hsub, fun content hc => ?_⟩
      cases hc
      exact h path hpath file (hsub.files path file hfile)
    · split at hopen
      · cases hopen
        exact ⟨hsub, fun content hc => by cases hc⟩
      · cases hopen
        exact ⟨⟨hsub.sha256, hsub.files⟩, fun content hc => by cases hc⟩

/-- After a `Put` the file holds the data put, if not what it held before. -/
theorem FileIs.put {P : Bytes → Prop} (h : dc.FileIs key P) (hdata : P data) {now : Time}
    {failure : Option PutFailure} {s3Key etag : GoString} {res : Except GoError Unit}
    (hput : dc.put now failure s3Key etag data = some (res, dc')) :
    dc'.FileIs key P ∧ dc'.sha256 = dc.sha256 := by
  obtain ⟨path', -, hput⟩ := Option.bind_eq_some_iff.mp hput
  cases failure with
  | some f =>
    cases hput
    exact ⟨h, rfl⟩
  | none =>
    obtain ⟨dc₁, hev, heq⟩ := Option.map_eq_some_iff.mp hput
    cases heq
    have hsub := (drops_evict hev).diskSub
    refine ⟨fun path hpath file hfile => ?_, hsub.sha256.trans (sha256_putIndex ..)⟩
    have hfile := hsub.files path file hfile
    rw [disk_putIndex, GoMap.lookup_insert_ite] at hfile
    split at hfile
    · cases hfile
      exact hdata
    · exact h path hpath file hfile

end DataCache

end S3Gateway
