import S3Gateway.S3fs.Attrs

/-!
# The metadata cache (`internal/cache/metadata.go`)

An in-memory LRU cache of object attributes with one time-to-live per class of
entry (negative, directory, file), and next to it a cache of directory listings.
Every exported method runs under the cache's lock, so each is one function on the
cache state; the `time.Now()` it reads is an argument.

The second half says what each method does in terms of what the cache holds for
a key (`entryOf`) and for a prefix (`dirListings`). Apart from storing, every
method only forgets: `Sub mc' mc` says that all `mc'` knows, `mc` knew.
-/

namespace S3Gateway

open Lib

/-- `CacheEntry`. -/
structure CacheEntry where
  s3Key : GoString
  size : Int
  modTime : Time
  mode : FileMode
  uid : Int
  gid : Int
  isDir : Bool
  etag : GoString
  inode : UInt64
  cachedAt : Time
  /-- A negative (not-found) entry. -/
  negative : Bool
deriving DecidableEq

/-- The zero value of `CacheEntry`. -/
def CacheEntry.zero : CacheEntry :=
  { s3Key := [], size := 0, modTime := 0, mode := 0, uid := 0, gid := 0, isDir := false
    etag := [], inode := 0, cachedAt := 0, negative := false }

/-- `dirListingEntry`. -/
structure DirListingEntry where
  entries : List CacheEntry
  cachedAt : Time

/-- One second as a `time.Duration`. -/
def second : Time := 1000000000

/-- `CacheConfig`; the interval of the background eviction is left to the
scheduler. -/
structure CacheConfig where
  maxEntries : Int
  fileTTL : Time
  dirTTL : Time
  negativeTTL : Time

/-- `DefaultCacheConfig`. -/
def defaultCacheConfig : CacheConfig :=
  { maxEntries := 10000, fileTTL := 300 * second, dirTTL := 60 * second
    negativeTTL := 10 * second }

/-- `lruItem`. -/
structure LruItem where
  key : GoString
  entry : CacheEntry

/-- `MetadataCache`. The front of `order` is the most recently used entry. -/
structure MetadataCache where
  config : CacheConfig
  items : GoMap GoString Nat
  order : LinkedList LruItem
  dirListings : GoMap GoString DirListingEntry

/-- `NewMetadataCache`: non-positive settings get their defaults. -/
def newMetadataCache (config : CacheConfig) : MetadataCache where
  config :=
    { maxEntries := if config.maxEntries ≤ 0 then 10000 else config.maxEntries
      fileTTL := if config.fileTTL ≤ 0 then 300 * second else config.fileTTL
      dirTTL := if config.dirTTL ≤ 0 then 60 * second else config.dirTTL
      negativeTTL := if config.negativeTTL ≤ 0 then 10 * second else config.negativeTTL }
  items := ∅
  order := .empty
  dirListings := ∅

namespace MetadataCache

/-- `isExpired`. -/
def isExpired (mc : MetadataCache) (now : Time) (entry : CacheEntry) : Bool :=
  let age := now - entry.cachedAt
  if entry.negative then age > mc.config.negativeTTL
  else if entry.isDir then age > mc.config.dirTTL
  else age > mc.config.fileTTL

/-- The listing-cache test of `GetDirListing` and `evictExpired`. -/
def listingExpired (mc : MetadataCache) (now : Time) (dl : DirListingEntry) : Bool :=
  now - dl.cachedAt > mc.config.dirTTL

/-- `removeLocked`. -/
def removeLocked (mc : MetadataCache) (key : GoString) (elem : Nat) : MetadataCache :=
  { mc with order := mc.order.remove elem, items := mc.items.erase key }

/-- `evictOldestLocked`. -/
def evictOldestLocked (mc : MetadataCache) : MetadataCache :=
  match mc.order.back with
  | none => mc
  | some back =>
    match mc.order.value back with
    | none => mc
    | some item => mc.removeLocked item.key back

/-- `GetEntry`. -/
def getEntry (mc : MetadataCache) (now : Time) (s3Key : GoString) :
    Option CacheEntry × MetadataCache :=
  match mc.items.lookup s3Key with
  | none => (none, mc)
  | some elem =>
    match mc.order.value elem with
    | none => (none, mc)
    | some item =>
      if mc.isExpired now item.entry then (none, mc.removeLocked s3Key elem)
      else (some item.entry, { mc with order := mc.order.moveToFront elem })

/-- What `PutEntry` and `PutNegative` do with the entry they have stamped. -/
def store (mc : MetadataCache) (s3Key : GoString) (entry : CacheEntry) : MetadataCache :=
  match mc.items.lookup s3Key with
  | some elem =>
    { mc with
      order := (mc.order.update elem fun item => { item with entry := entry }).moveToFront elem }
  | none =>
    -- at capacity, the least recently used entry makes room
    let mc := if (mc.order.len : Int) ≥ mc.config.maxEntries then mc.evictOldestLocked else mc
    { mc with
      order := mc.order.pushFront ⟨s3Key, entry⟩
      items := mc.items.insert s3Key mc.order.next }

/-- `PutEntry`. -/
def putEntry (mc : MetadataCache) (now : Time) (s3Key : GoString) (entry : CacheEntry) :
    MetadataCache :=
  mc.store s3Key { entry with cachedAt := now, negative := false }

/-- `PutNegative`. -/
def putNegative (mc : MetadataCache) (now : Time) (s3Key : GoString) : MetadataCache :=
  mc.store s3Key { CacheEntry.zero with s3Key := s3Key, cachedAt := now, negative := true }

/-- `GetDirListing`. -/
def getDirListing (mc : MetadataCache) (now : Time) (pfx : GoString) : Option (List CacheEntry) :=
  match mc.dirListings.lookup pfx with
  | none => none
  | some dl => if mc.listingExpired now dl then none else some dl.entries

/-- `PutDirListing`. -/
def putDirListing (mc : MetadataCache) (now : Time) (pfx : GoString) (entries : List CacheEntry) :
    MetadataCache :=
  { mc with dirListings := mc.dirListings.insert pfx ⟨entries, now⟩ }

/-- `Invalidate`. -/
def invalidate (mc : MetadataCache) (s3Key : GoString) : MetadataCache :=
  let mc := match mc.items.lookup s3Key with
    | some elem => mc.removeLocked s3Key elem
    | none => mc
  { mc with dirListings := mc.dirListings.erase (parentPrefix s3Key) }

/-- Remove every entry of the index that satisfies `p`, in the order of the index. -/
def removeWhere (mc : MetadataCache) (p : GoString → Nat → Bool) : MetadataCache :=
  mc.items.entries.foldl (fun mc kv => if p kv.1 kv.2 then mc.removeLocked kv.1 kv.2 else mc) mc

/-- Remove every listing that satisfies `p`. -/
def removeListings (mc : MetadataCache) (p : GoString → DirListingEntry → Bool) : MetadataCache :=
  mc.dirListings.entries.foldl
    (fun mc kv => if p kv.1 kv.2 then { mc with dirListings := mc.dirListings.erase kv.1 } else mc)
    mc

/-- `InvalidatePrefix`. -/
def invalidatePrefix (mc : MetadataCache) (pfx : GoString) : MetadataCache :=
  let mc := mc.removeWhere fun key _ => hasPrefix key pfx
  mc.removeListings fun p _ => hasPrefix p pfx || p == pfx

/-- `evictExpired`. -/
def evictExpired (mc : MetadataCache) (now : Time) : MetadataCache :=
  let mc := mc.removeWhere fun _ elem =>
    match mc.order.value elem with
    | some item => mc.isExpired now item.entry
    | none => false
  mc.removeListings fun _ dl => mc.listingExpired now dl

/-! ## What the cache holds -/

/-- The entry the cache holds for a key, expired or not. -/
def entryOf (mc : MetadataCache) (key : GoString) : Option CacheEntry :=
  (mc.items.lookup key).bind fun elem => (mc.order.value elem).map LruItem.entry

/-- The index and the LRU list describe each other. -/
structure WF (mc : MetadataCache) : Prop where
  keyed : ∀ key elem, mc.items.lookup key = some elem →
    elem ∈ mc.order.order ∧ ∃ item, mc.order.value elem = some item ∧ item.key = key
  indexed : ∀ elem ∈ mc.order.order, ∃ item, mc.order.value elem = some item ∧
    mc.items.lookup item.key = some elem

/-- What has not expired had not expired earlier. -/
theorem isExpired_of_le {mc mc' : MetadataCache} (hconf : mc'.config = mc.config) {now now' : Time}
    (hle : now ≤ now') {entry : CacheEntry} (h : mc'.isExpired now' entry = false) :
    mc.isExpired now entry = false := by
  unfold isExpired at h ⊢
  rw [hconf] at h
  split at h <;> grind

theorem listingExpired_of_le {mc mc' : MetadataCache} (hconf : mc'.config = mc.config)
    {now now' : Time} (hle : now ≤ now') {dl : DirListingEntry}
    (h : mc'.listingExpired now' dl = false) : mc.listingExpired now dl = false := by
  unfold listingExpired at h ⊢
  rw [hconf] at h
  grind

/-- All that `mc'` knows, `mc` knew. -/
structure Sub (mc' mc : MetadataCache) : Prop where
  config : mc'.config = mc.config
  entry : ∀ key e, mc'.entryOf key = some e → mc.entryOf key = some e
  listing : ∀ pfx dl, mc'.dirListings.lookup pfx = some dl → mc.dirListings.lookup pfx = some dl

theorem Sub.refl (mc : MetadataCache) : Sub mc mc := ⟨rfl, fun _ _ h => h, fun _ _ h => h⟩

theorem Sub.trans {mc₁ mc₂ mc₃ : MetadataCache} (h₁ : Sub mc₁ mc₂) (h₂ : Sub mc₂ mc₃) :
    Sub mc₁ mc₃ :=
  ⟨h₁.config.trans h₂.config, fun key e h => h₂.entry key e (h₁.entry key e h),
    fun pfx dl h => h₂.listing pfx dl (h₁.listing pfx dl h)⟩

theorem wf_newMetadataCache (config : CacheConfig) : (newMetadataCache config).WF where
  keyed := fun _ _ h => nomatch h
  indexed := fun _ h => nomatch h

theorem WF.eq_of_value {mc : MetadataCache} (h : mc.WF) {key key' : GoString} {elem : Nat}
    (hk : mc.items.lookup key = some elem) (hk' : mc.items.lookup key' = some elem) :
    key = key' := by
  obtain ⟨-, item, hv, rfl⟩ := h.keyed key elem hk
  obtain ⟨-, item', hv', rfl⟩ := h.keyed key' elem hk'
  rw [hv] at hv'
  cases hv'
  rfl

theorem entryOf_eq {mc : MetadataCache} {key : GoString} {elem : Nat} (item : LruItem)
    (hk : mc.items.lookup key = some elem) (hv : mc.order.value elem = some item) :
    mc.entryOf key = some item.entry := by
  simp [entryOf, hk, hv]

/-! ### Removing -/

theorem entryOf_removeLocked (mc : MetadataCache) (key key' : GoString) (elem : Nat) :
    (mc.removeLocked key elem).entryOf key' = if key' = key then none else mc.entryOf key' := by
  unfold entryOf removeLocked
  rw [GoMap.lookup_erase_ite]
  by_cases h : key' = key <;> simp [h]

theorem WF.removeLocked {mc : MetadataCache} (h : mc.WF) {key : GoString} {elem : Nat}
    (hk : mc.items.lookup key = some elem) : (mc.removeLocked key elem).WF where
  keyed := by
    intro key' elem' hlook
    have hk' := (GoMap.lookup_erase_ite _ _ _).symm.trans hlook
    split at hk'
    · cases hk'
    · next hne =>
      obtain ⟨hmem, hitem⟩ := h.keyed key' elem' hk'
      refine ⟨LinkedList.mem_order_remove.mpr ⟨?_, hmem⟩, hitem⟩
      rintro rfl
      exact hne (h.eq_of_value hk' hk)
  indexed := by
    intro elem' hmem
    obtain ⟨hne, hmem⟩ := LinkedList.mem_order_remove.mp hmem
    obtain ⟨item, hv, hi⟩ := h.indexed elem' hmem
    refine ⟨item, hv, (GoMap.lookup_erase_ite _ _ _).trans ?_⟩
    rw [if_neg, hi]
    intro heq
    rw [heq, hk] at hi
    exact hne (Option.some.inj hi).symm

theorem sub_removeLocked (mc : MetadataCache) (key : GoString) (elem : Nat) :
    Sub (mc.removeLocked key elem) mc := by
  refine ⟨rfl, fun key' e h => ?_, fun _ _ h => h⟩
  rw [entryOf_removeLocked] at h
  split at h
  · cases h
  · exact h

theorem evictOldestLocked_spec {mc : MetadataCache} (h : mc.WF) :
    mc.evictOldestLocked.WF ∧ Sub mc.evictOldestLocked mc := by
  unfold evictOldestLocked
  split
  · exact ⟨h, Sub.refl mc⟩
  · next back hback =>
    obtain ⟨item, hv, hi⟩ := h.indexed back (LinkedList.mem_of_back hback)
    rw [hv]
    exact ⟨h.removeLocked hi, sub_removeLocked _ _ _⟩

theorem dirListings_evictOldestLocked (mc : MetadataCache) :
    mc.evictOldestLocked.dirListings = mc.dirListings := by
  unfold evictOldestLocked
  split
  · rfl
  · split <;> rfl

/-! ### Inserting -/

/-- A new entry at the front changes nothing else. -/
theorem insert_spec {mc : MetadataCache} (h : mc.WF) {key : GoString}
    (hk : mc.items.lookup key = none) (entry : CacheEntry) :
    let mc' := { mc with
      order := mc.order.pushFront ⟨key, entry⟩
      items := mc.items.insert key mc.order.next }
    mc'.WF ∧ mc'.entryOf key = some entry ∧
      ∀ key', key' ≠ key → mc'.entryOf key' = mc.entryOf key' := by
  have hfresh : ∀ key' elem, mc.items.lookup key' = some elem → elem ≠ mc.order.next := by
    rintro key' elem hk' rfl
    exact mc.order.next_notMem (h.keyed key' _ hk').1
  refine ⟨⟨fun key' elem hlook => ?_, fun elem hm => ?_⟩, ?_, fun key' hne => ?_⟩
  · have hk' := (GoMap.lookup_insert_ite _ _ _ _).symm.trans hlook
    rw [LinkedList.order_pushFront, LinkedList.value_pushFront]
    split at hk'
    · next heq =>
      cases hk'
      exact ⟨List.mem_cons_self, ⟨key, entry⟩, if_pos rfl, heq.symm⟩
    · rw [if_neg (hfresh key' elem hk')]
      exact ⟨List.mem_cons_of_mem _ (h.keyed key' elem hk').1, (h.keyed key' elem hk').2⟩
  · rw [LinkedList.value_pushFront]
    rcases List.mem_cons.mp hm with rfl | hm
    · exact ⟨_, if_pos rfl, AList.lookup_insert _⟩
    · obtain ⟨item, hv, hi⟩ := h.indexed elem hm
      refine ⟨item, ?_, (GoMap.lookup_insert_ite _ _ _ _).trans ?_⟩
      · rw [if_neg (hfresh _ elem hi), hv]
      · rw [if_neg, hi]
        intro heq
        rw [heq, hk] at hi
        cases hi
  · refine entryOf_eq ⟨key, entry⟩ (AList.lookup_insert _) ?_
    exact (LinkedList.value_pushFront _ _ _).trans (if_pos rfl)
  · unfold entryOf
    dsimp only
    rw [GoMap.lookup_insert_ite, if_neg hne]
    cases hk' : mc.items.lookup key' with
    | none => rfl
    | some elem => simp [LinkedList.value_pushFront, hfresh key' elem hk']

/-! ### The exported methods -/

theorem getEntry_spec {mc : MetadataCache} (h : mc.WF) (now : Time) (key : GoString) :
    (mc.getEntry now key).2.WF ∧ Sub (mc.getEntry now key).2 mc := by
  unfold getEntry
  split
  · exact ⟨h, Sub.refl mc⟩
  · next elem hk =>
    split
    · exact ⟨h, Sub.refl mc⟩
    · split
      · exact ⟨h.removeLocked hk, sub_removeLocked _ _ _⟩
      · refine ⟨⟨fun key' elem' hk' => ?_, fun elem' hm => ?_⟩, rfl, fun key' e he => ?_,
          fun _ _ hl => hl⟩
        · rw [LinkedList.mem_order_moveToFront, LinkedList.value_moveToFront]
          exact h.keyed key' elem' hk'
        · rw [LinkedList.value_moveToFront]
          exact h.indexed elem' (LinkedList.mem_order_moveToFront.mp hm)
        · simpa only [entryOf, LinkedList.value_moveToFront] using he

/-- `GetEntry` answers with the entry held for the key, unless it has expired. -/
theorem getEntry_fst (mc : MetadataCache) (now : Time) (key : GoString) :
    (mc.getEntry now key).1 = (mc.entryOf key).filter fun e => !mc.isExpired now e := by
  unfold getEntry entryOf
  cases mc.items.lookup key with
  | none => rfl
  | some elem =>
    simp only [Option.bind_some]
    cases mc.order.value elem with
    | none => rfl
    | some item =>
      cases hexp : mc.isExpired now item.entry <;> simp [Option.filter, hexp]

/-- `GetDirListing` answers with the listing held for the prefix, if it has not expired. -/
theorem getDirListing_some {mc : MetadataCache} {now : Time} {pfx : GoString}
    {entries : List CacheEntry} (h : mc.getDirListing now pfx = some entries) :
    ∃ dl, mc.dirListings.lookup pfx = some dl ∧ mc.listingExpired now dl = false ∧
      dl.entries = entries := by
  unfold getDirListing at h
  split at h
  · cases h
  · next dl hl =>
    split at h
    · cases h
    · next hexp =>
      cases h
      exact ⟨dl, hl, Bool.eq_false_of_not_eq_true hexp, rfl⟩

/-- `GetEntry` leaves the entries of other keys alone. -/
theorem entryOf_getEntry_of_ne (mc : MetadataCache) (now : Time) {key key' : GoString}
    (hne : key' ≠ key) : (mc.getEntry now key).2.entryOf key' = mc.entryOf key' := by
  unfold getEntry
  split
  · rfl
  · split
    · rfl
    · split
      · rw [entryOf_removeLocked, if_neg hne]
      · simp only [entryOf, LinkedList.value_moveToFront]

/-- After a store the key holds the new entry; other keys lose at most theirs. -/
theorem store_spec {mc : MetadataCache} (h : mc.WF) (key : GoString) (entry : CacheEntry) :
    (mc.store key entry).WF ∧ (mc.store key entry).config = mc.config ∧
      (mc.store key entry).dirListings = mc.dirListings ∧
      (mc.store key entry).entryOf key = some entry ∧
      ∀ key' e, key' ≠ key → (mc.store key entry).entryOf key' = some e →
        mc.entryOf key' = some e := by
  unfold store
  split
  · next elem hk =>
    -- the entry is replaced in place
    obtain ⟨hmem, item, hv, hkey⟩ := h.keyed key elem hk
    have hval : ∀ i, ((mc.order.update elem fun item => { item with entry := entry }).moveToFront
        elem).value i = if i = elem then some { item with entry := entry } else
          mc.order.value i := by
      intro i
      rw [LinkedList.value_moveToFront, LinkedList.value_update, hv]
      rfl
    refine ⟨⟨fun key' elem' hk' => ?_, fun elem' hm => ?_⟩, rfl, rfl, ?_, fun key' e hne he => ?_⟩
    · obtain ⟨hmem', item', hv', hkey'⟩ := h.keyed key' elem' hk'
      rw [LinkedList.mem_order_moveToFront, LinkedList.order_update]
      refine ⟨hmem', ?_⟩
      rw [hval]
      by_cases he : elem' = elem
      · subst he
        rw [if_pos rfl]
        exact ⟨_, rfl, hkey.trans (h.eq_of_value hk hk')⟩
      · rw [if_neg he]
        exact ⟨item', hv', hkey'⟩
    · rw [LinkedList.mem_order_moveToFront, LinkedList.order_update] at hm
      obtain ⟨item', hv', hi'⟩ := h.indexed elem' hm
      rw [hval]
      by_cases he : elem' = elem
      · subst he
        rw [if_pos rfl]
        exact ⟨_, rfl, by rw [hkey, hk]⟩
      · rw [if_neg he]
        exact ⟨item', hv', hi'⟩
    · exact entryOf_eq { item with entry := entry } hk ((hval elem).trans (if_pos rfl))
    · unfold entryOf at he ⊢
      dsimp only at he
      cases hk' : mc.items.lookup key' with
      | none => simp [hk'] at he
      | some elem' =>
        have hne' : elem' ≠ elem := by
          rintro rfl
          exact hne (h.eq_of_value hk' hk)
        simpa [hk', hval, hne'] using he
  · next hk =>
    -- the entry is new; the oldest one may have made room for it
    obtain ⟨mc₁, hmc₁, hwf, hsub, hdl⟩ : ∃ mc₁, (if (mc.order.len : Int) ≥ mc.config.maxEntries
        then mc.evictOldestLocked else mc) = mc₁ ∧ mc₁.WF ∧ Sub mc₁ mc ∧
          mc₁.dirListings = mc.dirListings := by
      refine ⟨_, rfl, ?_⟩
      split
      · exact ⟨(evictOldestLocked_spec h).1, (evictOldestLocked_spec h).2,
          dirListings_evictOldestLocked mc⟩
      · exact ⟨h, Sub.refl mc, rfl⟩
    have hk₁ : mc₁.items.lookup key = none := by
      have hnone : mc.entryOf key = none := by simp [entryOf, hk]
      cases hk₁ : mc₁.items.lookup key with
      | none => rfl
      | some elem =>
        obtain ⟨-, item, hv, -⟩ := hwf.keyed key elem hk₁
        have := hsub.entry key item.entry (entryOf_eq item hk₁ hv)
        rw [hnone] at this
        cases this
    dsimp only
    rw [hmc₁]
    obtain ⟨hwf', hnew, hold⟩ := insert_spec hwf hk₁ entry
    refine ⟨hwf', hsub.config, hdl, hnew, fun key' e hne he => ?_⟩
    exact hsub.entry key' e ((hold key' hne).symm.trans he)

/-- Invalidating forgets the key and the listing of its parent. -/
theorem invalidate_spec {mc : MetadataCache} (h : mc.WF) (key : GoString) :
    (mc.invalidate key).WF ∧ Sub (mc.invalidate key) mc ∧ (mc.invalidate key).entryOf key = none ∧
      (mc.invalidate key).dirListings = mc.dirListings.erase (parentPrefix key) := by
  have hlist : ∀ mc₁ : MetadataCache, mc₁.WF → Sub mc₁ mc → mc₁.entryOf key = none →
      mc₁.dirListings = mc.dirListings →
      let mc₂ := { mc₁ with dirListings := mc₁.dirListings.erase (parentPrefix key) }
      mc₂.WF ∧ Sub mc₂ mc ∧ mc₂.entryOf key = none ∧
        mc₂.dirListings = mc.dirListings.erase (parentPrefix key) := by
    intro mc₁ hwf hsub hnone hdl
    refine ⟨⟨hwf.keyed, hwf.indexed⟩, ⟨hsub.config, hsub.entry, fun pfx dl hl => ?_⟩, hnone, ?_⟩
    · have hl := (GoMap.lookup_erase_ite _ _ _).symm.trans hl
      split at hl
      · cases hl
      · exact hsub.listing pfx dl hl
    · show mc₁.dirListings.erase _ = _
      rw [hdl]
  unfold invalidate
  cases hk : mc.items.lookup key with
  | none => exact hlist mc h (Sub.refl mc) (by simp [entryOf, hk]) rfl
  | some elem =>
    refine hlist _ (h.removeLocked hk) (sub_removeLocked _ _ _) ?_ rfl
    rw [entryOf_removeLocked, if_pos rfl]

/-- Removing entries one after the other, each under its own key. -/
theorem foldl_removeLocked_spec (p : GoString → Nat → Bool) (l : List (Sigma fun _ : GoString => Nat))
    {mc : MetadataCache} (h : mc.WF) (hl : ∀ kv ∈ l, mc.items.lookup kv.1 = some kv.2)
    (hnd : l.NodupKeys) :
    let mc' := l.foldl (fun mc kv => if p kv.1 kv.2 then mc.removeLocked kv.1 kv.2 else mc) mc
    mc'.WF ∧ Sub mc' mc := by
  induction l generalizing mc with
  | nil => exact ⟨h, Sub.refl mc⟩
  | cons kv l ih =>
    obtain ⟨hkv, hnd⟩ := List.nodupKeys_cons.mp hnd
    have hl' := fun kv' hkv' => hl kv' (List.mem_cons_of_mem _ hkv')
    rw [List.foldl_cons]
    by_cases hp : p kv.1 kv.2
    · rw [if_pos hp]
      have hstep := h.removeLocked (hl kv List.mem_cons_self)
      obtain ⟨hwf, hsub⟩ := ih hstep (fun kv' hkv' => by
        refine (GoMap.lookup_erase_ite _ _ _).trans ?_
        rw [if_neg, hl' kv' hkv']
        intro heq
        exact hkv (heq ▸ List.mem_map_of_mem hkv')) hnd
      exact ⟨hwf, hsub.trans (sub_removeLocked _ _ _)⟩
    · rw [if_neg hp]
      exact ih h hl' hnd

theorem removeWhere_spec {mc : MetadataCache} (h : mc.WF) (p : GoString → Nat → Bool) :
    (mc.removeWhere p).WF ∧ Sub (mc.removeWhere p) mc :=
  foldl_removeLocked_spec p _ h (fun _ hkv => GoMap.lookup_eq_of_mem_entries hkv)
    mc.items.nodupKeys

theorem removeListings_spec {mc : MetadataCache} (h : mc.WF)
    (p : GoString → DirListingEntry → Bool) :
    (mc.removeListings p).WF ∧ Sub (mc.removeListings p) mc := by
  unfold removeListings
  generalize mc.dirListings.entries = l
  induction l generalizing mc with
  | nil => exact ⟨h, Sub.refl mc⟩
  | cons kv l ih =>
    rw [List.foldl_cons]
    split
    · have hwf : WF { mc with dirListings := mc.dirListings.erase kv.1 } := ⟨h.keyed, h.indexed⟩
      refine ⟨(ih hwf).1, (ih hwf).2.trans ⟨rfl, fun _ _ he => he, fun pfx dl hl => ?_⟩⟩
      have hl := (GoMap.lookup_erase_ite _ _ _).symm.trans hl
      split at hl
      · cases hl
      · exact hl
    · exact ih h

/-- The background eviction only forgets. -/
theorem evictExpired_spec {mc : MetadataCache} (h : mc.WF) (now : Time) :
    (mc.evictExpired now).WF ∧ Sub (mc.evictExpired now) mc := by
  unfold evictExpired
  dsimp only
  obtain ⟨hwf, hsub⟩ := removeWhere_spec h _
  obtain ⟨hwf', hsub'⟩ := removeListings_spec hwf _
  exact ⟨hwf', hsub'.trans hsub⟩

/-! ### What the cache may hold -/

/-- The cache is in order, its entries satisfy `J` and its listings `L`. -/
structure Holds (config : CacheConfig) (J : GoString → CacheEntry → Prop)
    (L : GoString → DirListingEntry → Prop) (mc : MetadataCache) : Prop where
  wf : mc.WF
  config : mc.config = config
  entry : ∀ key e, mc.entryOf key = some e → J key e
  listing : ∀ pfx dl, mc.dirListings.lookup pfx = some dl → L pfx dl

namespace Holds

variable {config : CacheConfig} {J J' : GoString → CacheEntry → Prop}
  {L L' : GoString → DirListingEntry → Prop} {mc mc' : MetadataCache}

theorem of_sub (h : mc.Holds config J L) (hsub : mc'.WF ∧ Sub mc' mc) : mc'.Holds config J L :=
  ⟨hsub.1, hsub.2.config.trans h.config, fun key e he => h.entry key e (hsub.2.entry key e he),
    fun pfx dl hl => h.listing pfx dl (hsub.2.listing pfx dl hl)⟩

theorem mono (h : mc.Holds config J L) (hJ : ∀ key e, J key e → J' key e)
    (hL : ∀ pfx dl, L pfx dl → L' pfx dl) : mc.Holds config J' L' :=
  ⟨h.wf, h.config, fun key e he => hJ key e (h.entry key e he),
    fun pfx dl hl => hL pfx dl (h.listing pfx dl hl)⟩

/-- What a key was said before does not matter once it is stored anew. -/
theorem overwrite {key : GoString} (h : mc.Holds config (fun k e => k ≠ key → J k e) L)
    {entry : CacheEntry} (he : J key entry) : (mc.store key entry).Holds config J L := by
  obtain ⟨hwf, hconf, hlist, hnew, hold⟩ := store_spec h.wf key entry
  refine ⟨hwf, hconf.trans h.config, fun key' e hentry => ?_, fun pfx dl hl => ?_⟩
  · by_cases hk : key' = key
    · subst hk
      cases hnew.symm.trans hentry
      exact he
    · exact h.entry key' e (hold key' e hk hentry) hk
  · rw [hlist] at hl
    exact h.listing pfx dl hl

theorem store (h : mc.Holds config J L) {key : GoString} {entry : CacheEntry} (he : J key entry) :
    (mc.store key entry).Holds config J L :=
  overwrite (h.mono (fun _ _ hJ _ => hJ) fun _ _ hL => hL) he

/-- Nor does it once the key is invalidated. -/
theorem invalidate {key : GoString} (h : mc.Holds config (fun k e => k ≠ key → J k e) L) :
    (mc.invalidate key).Holds config J L := by
  obtain ⟨hwf, hsub, hnone, -⟩ := invalidate_spec h.wf key
  have hrest := h.of_sub ⟨hwf, hsub⟩
  refine ⟨hwf, hrest.config, fun key' e hentry => hrest.entry key' e hentry ?_, hrest.listing⟩
  rintro rfl
  cases hnone.symm.trans hentry

theorem putDirListing (h : mc.Holds config J L) {now : Time} {pfx : GoString}
    {entries : List CacheEntry} (hL : L pfx ⟨entries, now⟩) :
    (mc.putDirListing now pfx entries).Holds config J L := by
  refine ⟨⟨h.wf.keyed, h.wf.indexed⟩, h.config, h.entry, fun pfx' dl hl => ?_⟩
  have hl := (GoMap.lookup_insert_ite _ _ _ _).symm.trans hl
  split at hl
  · next hp =>
    cases hl
    exact hp ▸ hL
  · exact h.listing pfx' dl hl

end Holds

/-- A new cache holds nothing. -/
theorem holds_newMetadataCache (config : CacheConfig) {J : GoString → CacheEntry → Prop}
    {L : GoString → DirListingEntry → Prop} :
    (newMetadataCache config).Holds (newMetadataCache config).config J L where
  wf := wf_newMetadataCache config
  config := rfl
  entry := fun _ _ h => nomatch h
  listing := fun _ _ h => nomatch h

end MetadataCache

end S3Gateway
