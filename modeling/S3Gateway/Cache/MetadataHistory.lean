import S3Gateway.Lib.Run
import S3Gateway.Cache.Metadata

/-!
# Runs of the metadata cache

Any sequence of calls on a new `MetadataCache`, each at the instant it reads from the
clock. Two things hold after every such run. Index and LRU list hold the same keys,
each once, and no more than `MaxEntries` of them. And a hit goes back to the last call
that stored something for its key, with no invalidation of the key in between, and is
no older than the time-to-live of its class.
-/

namespace S3Gateway

open Lib

/-- A call on the cache. -/
inductive MetadataOp where
  | putEntry (s3Key : GoString) (entry : CacheEntry)
  | putNegative (s3Key : GoString)
  | getEntry (s3Key : GoString)
  | putDirListing (pfx : GoString) (entries : List CacheEntry)
  | getDirListing (pfx : GoString)
  | invalidate (s3Key : GoString)
  | invalidatePrefix (pfx : GoString)
  | evictExpired

/-- A call and what `time.Now()` is at that call. -/
structure MetadataEvent where
  now : Time
  op : MetadataOp

/-- The call stores `e` for `key`. -/
def MetadataEvent.Stores (key : GoString) (ev : MetadataEvent) (e : CacheEntry) : Prop :=
  match ev.op with
  | .putEntry s3Key entry =>
    s3Key = key ∧ e = { entry with cachedAt := ev.now, negative := false }
  | .putNegative s3Key =>
    s3Key = key ∧ e = { CacheEntry.zero with s3Key, cachedAt := ev.now, negative := true }
  | _ => False

/-- The call stores something for `key`, or invalidates it. -/
def MetadataEvent.Touches (key : GoString) (ev : MetadataEvent) : Prop :=
  match ev.op with
  | .putEntry s3Key _ | .putNegative s3Key | .invalidate s3Key => s3Key = key
  | .invalidatePrefix pfx => hasPrefix key pfx
  | _ => False

/-- The time-to-live of an entry's class. -/
def CacheConfig.ttl (config : CacheConfig) (e : CacheEntry) : Time :=
  if e.negative then config.negativeTTL else if e.isDir then config.dirTTL else config.fileTTL

namespace MetadataCache

/-- The cache after a call. -/
def step (mc : MetadataCache) (ev : MetadataEvent) : MetadataCache :=
  match ev.op with
  | .putEntry s3Key entry => mc.putEntry ev.now s3Key entry
  | .putNegative s3Key => mc.putNegative ev.now s3Key
  | .getEntry s3Key => (mc.getEntry ev.now s3Key).2
  | .putDirListing pfx entries => mc.putDirListing ev.now pfx entries
  | .getDirListing _ => mc
  | .invalidate s3Key => mc.invalidate s3Key
  | .invalidatePrefix pfx => mc.invalidatePrefix pfx
  | .evictExpired => mc.evictExpired ev.now

/-- The keys on the LRU list, front first. -/
def lruKeys (mc : MetadataCache) : List GoString :=
  mc.order.order.filterMap fun elem => (mc.order.value elem).map LruItem.key

variable {mc mc' : MetadataCache}

theorem mem_lruKeys {key : GoString} :
    key ∈ mc.lruKeys ↔ ∃ elem ∈ mc.order.order, ∃ item, mc.order.value elem = some item ∧
      item.key = key := by
  simp [lruKeys]

theorem length_lruKeys (h : mc.WF) : mc.lruKeys.length = mc.order.len := by
  refine List.filterMap_length_eq_length.mpr fun elem hmem => ?_
  obtain ⟨item, hv, -⟩ := h.indexed elem hmem
  rw [hv]
  rfl

theorem nodup_lruKeys (h : mc.WF) : mc.lruKeys.Nodup := by
  refine List.pairwise_filterMap.mpr (mc.order.nodup.imp_of_mem ?_)
  rintro elem elem' hmem hmem' hne key hk _ hk' rfl
  obtain ⟨item, hv, hi⟩ := h.indexed elem hmem
  obtain ⟨item', hv', hi'⟩ := h.indexed elem' hmem'
  rw [hv] at hk
  rw [hv'] at hk'
  -- both elements are indexed under the key
  rw [Option.some.inj hk] at hi
  rw [Option.some.inj hk', hi] at hi'
  exact hne (Option.some.inj hi')

theorem mem_lruKeys_iff_entryOf (h : mc.WF) {key : GoString} :
    key ∈ mc.lruKeys ↔ ∃ e, mc.entryOf key = some e := by
  rw [mem_lruKeys]
  constructor
  · rintro ⟨elem, hmem, item, hv, rfl⟩
    obtain ⟨item', hv', hi⟩ := h.indexed elem hmem
    rw [hv] at hv'
    cases hv'
    exact ⟨item.entry, entryOf_eq item hi hv⟩
  · rintro ⟨e, he⟩
    obtain ⟨elem, hk, -⟩ := Option.bind_eq_some_iff.mp he
    obtain ⟨hmem, hitem⟩ := h.keyed key elem hk
    exact ⟨elem, hmem, hitem⟩

/-- The index and the LRU list hold the same keys. -/
theorem perm_lruKeys (h : mc.WF) : mc.items.keys.Perm mc.lruKeys := by
  refine (List.perm_ext_iff_of_nodup mc.items.keys_nodup (nodup_lruKeys h)).mpr fun key => ?_
  rw [AList.mem_keys.symm, GoMap.mem_iff_lookup, mem_lruKeys]
  constructor
  · rintro ⟨elem, hk⟩
    obtain ⟨hmem, hitem⟩ := h.keyed key elem hk
    exact ⟨elem, hmem, hitem⟩
  · rintro ⟨elem, hmem, item, hv, rfl⟩
    obtain ⟨item', hv', hi⟩ := h.indexed elem hmem
    rw [hv] at hv'
    cases hv'
    exact ⟨elem, hi⟩

/-- A cache that knows no more is no larger. -/
theorem Sub.len_le (hsub : Sub mc' mc) (h' : mc'.WF) (h : mc.WF) :
    mc'.order.len ≤ mc.order.len := by
  rw [← length_lruKeys h', ← length_lruKeys h]
  refine ((nodup_lruKeys h').subperm fun key hkey => ?_).length_le
  obtain ⟨e, he⟩ := (mem_lruKeys_iff_entryOf h').mp hkey
  exact (mem_lruKeys_iff_entryOf h).mpr ⟨e, hsub.entry key e he⟩

/-! ## Calls -/

/-- The cache is in order and within its capacity. -/
structure Bounded (mc : MetadataCache) : Prop where
  wf : mc.WF
  pos : 0 < mc.config.maxEntries
  len : (mc.order.len : Int) ≤ mc.config.maxEntries

theorem Bounded.sub (h : mc.Bounded) (hwf : mc'.WF) (hsub : Sub mc' mc) : mc'.Bounded := by
  refine ⟨hwf, hsub.config ▸ h.pos, ?_⟩
  rw [hsub.config]
  exact Int.le_trans (Int.ofNat_le.mpr (hsub.len_le hwf h.wf)) h.len

/-- Evicting the oldest entry makes room, if there was an entry. -/
theorem len_evictOldestLocked (h : mc.WF) (hlen : 0 < mc.order.len) :
    mc.evictOldestLocked.order.len + 1 = mc.order.len := by
  have hne : mc.order.order ≠ [] := List.length_pos_iff.mp hlen
  have hback : mc.order.back = some (mc.order.order.getLast hne) := List.getLast?_eq_some_getLast hne
  have hmem : mc.order.order.getLast hne ∈ mc.order.order := List.getLast_mem hne
  obtain ⟨item, hv, -⟩ := h.indexed _ hmem
  unfold evictOldestLocked
  rw [hback]
  dsimp only
  rw [hv]
  show (mc.order.order.erase _).length + 1 = mc.order.order.length
  rw [List.length_erase_of_mem hmem]
  exact Nat.sub_add_cancel hlen

theorem len_store (h : mc.Bounded) (key : GoString) (entry : CacheEntry) :
    ((mc.store key entry).order.len : Int) ≤ mc.config.maxEntries := by
  have hlen := h.len
  have hpos := h.pos
  unfold store
  split
  · next elem hk =>
    show (((mc.order.update elem _).moveToFront elem).order.length : Int) ≤ _
    rw [(LinkedList.order_moveToFront_perm _ _).length_eq, LinkedList.order_update]
    exact hlen
  · next hk =>
    show (((if _ then _ else _) : MetadataCache).order.len + 1 : Int) ≤ _
    split
    · next hfull =>
      have := len_evictOldestLocked h.wf (by omega)
      omega
    · omega

theorem Bounded.store (h : mc.Bounded) (key : GoString) (entry : CacheEntry) :
    (mc.store key entry).Bounded := by
  obtain ⟨hwf, hconf, -⟩ := store_spec h.wf key entry
  refine ⟨hwf, hconf ▸ h.pos, ?_⟩
  rw [hconf]
  exact len_store h key entry

/-- What `removeWhere` looks for is gone. -/
theorem entryOf_foldl_removeLocked (p : GoString → Nat → Bool)
    (l : List (Sigma fun _ : GoString => Nat)) (mc : MetadataCache) {key : GoString} {elem : Nat}
    (hp : p key elem = true) (h : ⟨key, elem⟩ ∈ l ∨ mc.entryOf key = none) :
    (l.foldl (fun mc kv => if p kv.1 kv.2 then mc.removeLocked kv.1 kv.2 else mc) mc).entryOf key
      = none := by
  induction l generalizing mc with
  | nil => exact h.resolve_left List.not_mem_nil
  | cons kv l ih =>
    rw [List.foldl_cons]
    refine ih _ ?_
    by_cases hkv : kv = ⟨key, elem⟩
    · subst hkv
      refine Or.inr ?_
      rw [if_pos hp, entryOf_removeLocked, if_pos rfl]
    · rcases h with hmem | hnone
      · exact Or.inl ((List.mem_cons.mp hmem).resolve_left (Ne.symm hkv))
      · refine Or.inr ?_
        split
        · rw [entryOf_removeLocked, hnone, ite_self]
        · exact hnone

/-- Invalidating a prefix forgets every key with that prefix. -/
theorem invalidatePrefix_spec (h : mc.WF) (pfx : GoString) :
    (mc.invalidatePrefix pfx).WF ∧ Sub (mc.invalidatePrefix pfx) mc ∧
      ∀ key, hasPrefix key pfx = true → (mc.invalidatePrefix pfx).entryOf key = none := by
  obtain ⟨hwf, hsub⟩ := removeWhere_spec h fun key _ => hasPrefix key pfx
  obtain ⟨hwf', hsub'⟩ := removeListings_spec hwf fun p _ => hasPrefix p pfx || p == pfx
  refine ⟨hwf', hsub'.trans hsub, fun key hkey => ?_⟩
  have hgone : (mc.removeWhere fun key _ => hasPrefix key pfx).entryOf key = none := by
    cases hk : mc.items.lookup key with
    | none =>
      refine Option.eq_none_iff_forall_ne_some.mpr fun e he => ?_
      have := hsub.entry key e he
      simp [entryOf, hk] at this
    | some elem =>
      have hmem : ⟨key, elem⟩ ∈ mc.items.entries := AList.mem_lookup_iff.mp hk
      exact entryOf_foldl_removeLocked (fun key _ => hasPrefix key pfx) _ mc hkey (Or.inl hmem)
  refine Option.eq_none_iff_forall_ne_some.mpr fun e he => ?_
  have := hsub'.entry key e he
  rw [hgone] at this
  cases this

/-- A hit is the entry held for the key, not yet expired. -/
theorem getEntry_hit {now : Time} {key : GoString} {e : CacheEntry}
    (h : (mc.getEntry now key).1 = some e) :
    mc.entryOf key = some e ∧ now - e.cachedAt ≤ mc.config.ttl e := by
  unfold getEntry at h
  split at h
  · cases h
  · next elem hk =>
    split at h
    · cases h
    · next item hv =>
      split at h
      · cases h
      · next hexp =>
        cases h
        refine ⟨entryOf_eq item hk hv, ?_⟩
        unfold isExpired at hexp
        unfold CacheConfig.ttl
        grind

/-- What one call does: the cache stays in order and within its capacity, and an entry it
holds afterwards was stored by the call, or was there before and is not touched. -/
theorem step_spec (h : mc.Bounded) (ev : MetadataEvent) :
    (mc.step ev).Bounded ∧ (mc.step ev).config = mc.config ∧
      ∀ key e, (mc.step ev).entryOf key = some e →
        ev.Stores key e ∨ ¬ ev.Touches key ∧ mc.entryOf key = some e := by
  -- calls that only forget, and forget what they touch
  have hforget : ∀ mc' : MetadataCache, mc'.WF → Sub mc' mc →
      (∀ key, ev.Touches key → mc'.entryOf key = none) →
      mc'.Bounded ∧ mc'.config = mc.config ∧ ∀ key e, mc'.entryOf key = some e →
        ev.Stores key e ∨ ¬ ev.Touches key ∧ mc.entryOf key = some e := by
    intro mc' hwf hsub htouch
    refine ⟨h.sub hwf hsub, hsub.config, fun key e he => Or.inr ⟨fun ht => ?_, hsub.entry key e he⟩⟩
    rw [htouch key ht] at he
    cases he
  -- calls that store one entry
  have hstore : ∀ key₀ e₀, (∀ key, ev.Touches key → key₀ = key) → ev.Stores key₀ e₀ →
      (mc.store key₀ e₀).Bounded ∧ (mc.store key₀ e₀).config = mc.config ∧
        ∀ key e, (mc.store key₀ e₀).entryOf key = some e →
          ev.Stores key e ∨ ¬ ev.Touches key ∧ mc.entryOf key = some e := by
    intro key₀ e₀ htouch hst
    obtain ⟨-, hconf, -, hnew, hold⟩ := store_spec h.wf key₀ e₀
    refine ⟨h.store key₀ e₀, hconf, fun key e he => ?_⟩
    by_cases hkey : key = key₀
    · subst hkey
      rw [hnew] at he
      cases he
      exact Or.inl hst
    · exact Or.inr ⟨fun ht => hkey (htouch key ht).symm, hold key e hkey he⟩
  obtain ⟨now, op⟩ := ev
  cases op with
  | putEntry s3Key entry => exact hstore s3Key _ (fun _ h => h) ⟨rfl, rfl⟩
  | putNegative s3Key => exact hstore s3Key _ (fun _ h => h) ⟨rfl, rfl⟩
  | getEntry s3Key =>
    exact hforget _ (getEntry_spec h.wf now s3Key).1 (getEntry_spec h.wf now s3Key).2 nofun
  | putDirListing pfx entries =>
    exact ⟨⟨⟨h.wf.keyed, h.wf.indexed⟩, h.pos, h.len⟩, rfl, fun key e he => Or.inr ⟨nofun, he⟩⟩
  | getDirListing pfx => exact hforget mc h.wf (Sub.refl mc) nofun
  | invalidate s3Key =>
    obtain ⟨hwf, hsub, hnone, -⟩ := invalidate_spec h.wf s3Key
    exact hforget _ hwf hsub fun key hkey => hkey ▸ hnone
  | invalidatePrefix pfx =>
    obtain ⟨hwf, hsub, hnone⟩ := invalidatePrefix_spec h.wf pfx
    exact hforget _ hwf hsub hnone
  | evictExpired =>
    exact hforget _ (evictExpired_spec h.wf now).1 (evictExpired_spec h.wf now).2 nofun

/-! ## Runs -/

theorem bounded_newMetadataCache (config : CacheConfig) : (newMetadataCache config).Bounded := by
  have hpos : 0 < (newMetadataCache config).config.maxEntries := by
    show 0 < if config.maxEntries ≤ 0 then 10000 else config.maxEntries
    split <;> omega
  exact ⟨wf_newMetadataCache config, hpos, Int.le_of_lt hpos⟩

/-- In order, within its capacity, and with the settings of the start. -/
def Runs (config : CacheConfig) (mc : MetadataCache) : Prop :=
  mc.Bounded ∧ mc.config = (newMetadataCache config).config

theorem Runs.step {config : CacheConfig} (h : Runs config mc) (ev : MetadataEvent) :
    Runs config (mc.step ev) :=
  ⟨(step_spec h.1 ev).1, (step_spec h.1 ev).2.1.trans h.2⟩

theorem runs_foldl_step (config : CacheConfig) (evs : List MetadataEvent) :
    Runs config (evs.foldl MetadataCache.step (newMetadataCache config)) :=
  (throughout_of_invariant (I := Runs config) (P := Runs config) (fun _ ev h => h.step ev)
    (fun _ h => h) ⟨bounded_newMetadataCache config, rfl⟩ evs).last

/-- After any run of calls on a new cache, index and LRU list hold the same distinct keys,
at most `MaxEntries`, and a hit is the entry of the last call that stored one for the key,
not invalidated since and no older than its time-to-live. -/
theorem run_sound (config : CacheConfig) (evs : List MetadataEvent) :
    let mc := evs.foldl step (newMetadataCache config)
    mc.items.keys.Perm mc.lruKeys ∧ mc.lruKeys.Nodup ∧ mc.lruKeys.length = mc.order.len ∧
      (mc.order.len : Int) ≤ (newMetadataCache config).config.maxEntries ∧
      ∀ now key e, (mc.getEntry now key).1 = some e →
        LastWrite (MetadataEvent.Stores key) (MetadataEvent.Touches key) evs e ∧
          now - e.cachedAt ≤ (newMetadataCache config).config.ttl e := by
  intro mc
  obtain ⟨hb, hconf⟩ := runs_foldl_step config evs
  refine ⟨perm_lruKeys hb.wf, nodup_lruKeys hb.wf, length_lruKeys hb.wf, hconf ▸ hb.len,
    fun now key e hhit => ?_⟩
  obtain ⟨hentry, hage⟩ := getEntry_hit hhit
  have hlast := lastWrite_of_holds (H := fun mc e => entryOf mc key = some e)
    (fun _ ev hb _ => (step_spec hb ev).1) (fun _ ev e hb _ => (step_spec hb ev).2.2 key e)
    (bounded_newMetadataCache config) (EachStep.of_forall fun _ _ => trivial) hentry
  -- a new cache holds nothing
  refine ⟨hlast.resolve_right fun h => ?_, hconf ▸ hage⟩
  cases h.2

end MetadataCache

end S3Gateway
