import S3Gateway.Lib.Recency
import S3Gateway.Cache.MetadataHistory

/-!
# Which entries the metadata cache keeps

While no entry expires, the LRU list holds the `MaxEntries` keys that were last put or
found, in that order: each call does to the keys on the list what `insertLru` does. A
lookup therefore hits exactly if the key was put and fewer than `MaxEntries` others have
been put or found since it was last (`getEntry_hit_iff`).
-/

namespace S3Gateway

open Lib

namespace MetadataCache

variable {mc : MetadataCache}

/-! ## The keys on the list -/

theorem lruKeys_eq (mc : MetadataCache) : mc.lruKeys = mc.order.cells.map fun c => c.2.key := by
  unfold lruKeys LinkedList.cells
  rw [List.map_filterMap]
  refine List.filterMap_congr fun elem _ => ?_
  cases mc.order.value elem <;> rfl

/-- Taking an element off the list takes its key off the keys. -/
theorem WF.map_filter_cells (h : mc.WF) {key : GoString} {elem : Nat}
    (hk : mc.items.lookup key = some elem) :
    ((mc.order.cells.filter (·.1 ≠ elem)).map fun c => c.2.key)
      = mc.lruKeys.filter (· ≠ key) := by
  rw [lruKeys_eq, List.filter_map]
  refine congrArg (List.map _) (List.filter_congr fun c hc => ?_)
  obtain ⟨hmem, hv⟩ := LinkedList.mem_cells.mp hc
  obtain ⟨item, hv', hi⟩ := h.indexed c.1 hmem
  rw [hv] at hv'
  cases hv'
  -- the element is the key's exactly if the key is the element's
  have hiff : c.1 = elem ↔ c.2.key = key := by
    constructor
    · rintro rfl
      exact h.eq_of_value hi hk
    · intro heq
      rw [heq, hk] at hi
      exact (Option.some.inj hi).symm
  simp [hiff]

theorem mem_lruKeys_of_lookup (h : mc.WF) {key : GoString} {elem : Nat}
    (hk : mc.items.lookup key = some elem) : key ∈ mc.lruKeys := by
  obtain ⟨hmem, hitem⟩ := h.keyed key elem hk
  exact mem_lruKeys.mpr ⟨elem, hmem, hitem⟩

theorem lookup_eq_none_of_notMem (h : mc.WF) {key : GoString} (hnot : key ∉ mc.lruKeys) :
    mc.items.lookup key = none := by
  cases hk : mc.items.lookup key with
  | none => rfl
  | some elem => exact absurd (mem_lruKeys_of_lookup h hk) hnot

/-- Eviction drops the last key. -/
theorem lruKeys_evictOldestLocked (mc : MetadataCache) :
    mc.evictOldestLocked.lruKeys = mc.lruKeys.dropLast := by
  rw [lruKeys_eq, lruKeys_eq]
  unfold evictOldestLocked
  rcases List.eq_nil_or_concat mc.order.cells with hnil | ⟨rest, c, hcells⟩
  · have hback : mc.order.back = none := by
      rw [LinkedList.back, ← LinkedList.map_fst_cells, hnil]
      rfl
    rw [hback]
    dsimp only
    rw [hnil]
    rfl
  · rw [List.concat_eq_append] at hcells
    obtain ⟨hback, hv, hrest⟩ := LinkedList.cells_remove_back hcells
    rw [hback]
    dsimp only
    rw [hv]
    show (mc.order.remove c.1).cells.map _ = _
    rw [hrest, hcells, List.map_append, List.map_cons, List.map_nil, List.dropLast_concat]

/-- Storing an entry uses its key. -/
theorem lruKeys_store (h : mc.WF) {n : Nat} (hn : mc.config.maxEntries = n) (key : GoString)
    (entry : CacheEntry) : (mc.store key entry).lruKeys = insertLru n key mc.lruKeys := by
  unfold store insertLru
  cases hk : mc.items.lookup key with
  | some elem =>
    -- the entry is replaced in place
    obtain ⟨hmem, item, hv, rfl⟩ := h.keyed key elem hk
    rw [if_pos (mem_lruKeys_of_lookup h hk), touch_eq_filter (nodup_lruKeys h),
      ← h.map_filter_cells hk, lruKeys_eq]
    dsimp only
    rw [LinkedList.cells_update_moveToFront hmem hv]
    rfl
  | none =>
    have hnot : key ∉ mc.lruKeys := by
      intro hmem
      obtain ⟨e, he⟩ := (mem_lruKeys_iff_entryOf h).mp hmem
      simp [entryOf, hk] at he
    rw [if_neg hnot, length_lruKeys h, lruKeys_eq]
    dsimp only
    rw [LinkedList.cells_pushFront, List.map_cons, ← lruKeys_eq, hn]
    congr 1
    by_cases hfull : n ≤ mc.order.len
    · rw [if_pos (by omega), if_pos hfull, lruKeys_evictOldestLocked]
    · rw [if_neg (by omega), if_neg hfull]

/-- A lookup that hits uses its key; one that misses changes nothing, unless it met an
expired entry. -/
theorem lruKeys_getEntry (h : mc.WF) {now : Time} {key : GoString}
    (hfresh : ∀ e, mc.entryOf key = some e → mc.isExpired now e = false) :
    (mc.getEntry now key).2.lruKeys = if key ∈ mc.lruKeys then touch key mc.lruKeys
      else mc.lruKeys := by
  unfold getEntry
  cases hk : mc.items.lookup key with
  | none =>
    have hnot : key ∉ mc.lruKeys := by
      intro hmem
      obtain ⟨e, he⟩ := (mem_lruKeys_iff_entryOf h).mp hmem
      simp [entryOf, hk] at he
    rw [if_neg hnot]
  | some elem =>
    obtain ⟨hmem, item, hv, rfl⟩ := h.keyed key elem hk
    rw [if_pos (mem_lruKeys_of_lookup h hk)]
    dsimp only
    rw [hv]
    dsimp only
    rw [hfresh item.entry (entryOf_eq item hk hv), if_neg Bool.false_ne_true, lruKeys_eq]
    dsimp only
    rw [LinkedList.cells_moveToFront hmem hv, touch_eq_filter (nodup_lruKeys h),
      ← h.map_filter_cells hk]
    rfl

/-- While nothing expires, a lookup hits exactly if the key is on the list. -/
theorem getEntry_isSome_iff (h : mc.WF) {now : Time} {key : GoString}
    (hfresh : ∀ e, mc.entryOf key = some e → mc.isExpired now e = false) :
    (mc.getEntry now key).1.isSome ↔ key ∈ mc.lruKeys := by
  rw [mem_lruKeys_iff_entryOf h, getEntry_fst]
  cases he : mc.entryOf key with
  | none => simp
  | some e => simp [Option.filter, hfresh e he]

end MetadataCache

/-! ## Histories -/

/-- The call puts an entry or a negative entry, or looks one up. -/
def MetadataOp.IsAccess : MetadataOp → Prop
  | .putEntry .. | .putNegative _ | .getEntry _ => True
  | _ => False

/-- The call puts something for the key. -/
def MetadataOp.Puts (key : GoString) : MetadataOp → Prop
  | .putEntry s3Key _ | .putNegative s3Key => s3Key = key
  | _ => False

namespace MetadataCache

/-- The key that a call puts or finds. -/
def usedKey (mc : MetadataCache) (ev : MetadataEvent) : Option GoString :=
  match ev.op with
  | .putEntry s3Key _ | .putNegative s3Key => some s3Key
  | .getEntry s3Key => if (mc.getEntry ev.now s3Key).1.isSome then some s3Key else none
  | _ => none

/-- The keys put or found in a run, the last one first. -/
def uses (mc : MetadataCache) : List MetadataEvent → List GoString
  | [] => []
  | ev :: evs => uses (mc.step ev) evs ++ (mc.usedKey ev).toList

/-- A lookup does not meet an expired entry. -/
def MeetsFresh (mc : MetadataCache) (ev : MetadataEvent) : Prop :=
  ∀ key, ev.op = .getEntry key → ∀ e, mc.entryOf key = some e → mc.isExpired ev.now e = false

/-- The list holds the first `n` keys of a history. -/
structure Recent (n : Nat) (hist : List GoString) (mc : MetadataCache) : Prop where
  wf : mc.WF
  maxEntries : mc.config.maxEntries = n
  keys : mc.lruKeys = (recency hist).take n

variable {mc : MetadataCache} {n : Nat} {hist : List GoString}

theorem Recent.store (h : mc.Recent n hist) (hn : 0 < n) (key : GoString) (entry : CacheEntry) :
    (mc.store key entry).Recent n (key :: hist) := by
  obtain ⟨hwf, hconf, -⟩ := store_spec h.wf key entry
  refine ⟨hwf, hconf ▸ h.maxEntries, ?_⟩
  rw [lruKeys_store h.wf h.maxEntries, h.keys, insertLru_take hn]
  rfl

theorem Recent.getEntry (h : mc.Recent n hist) (hn : 0 < n) {now : Time} {key : GoString}
    (hfresh : ∀ e, mc.entryOf key = some e → mc.isExpired now e = false) :
    (mc.getEntry now key).2.Recent n
      ((if (mc.getEntry now key).1.isSome then some key else none).toList ++ hist) := by
  obtain ⟨hwf, hsub⟩ := getEntry_spec h.wf now key
  refine ⟨hwf, hsub.config ▸ h.maxEntries, ?_⟩
  rw [lruKeys_getEntry h.wf hfresh]
  by_cases hmem : key ∈ mc.lruKeys
  · rw [if_pos hmem, if_pos ((getEntry_isSome_iff h.wf hfresh).mpr hmem)]
    -- a key that is on the list is inserted by moving it
    have hins : insertLru n key mc.lruKeys = touch key mc.lruKeys := if_pos hmem
    rw [← hins, h.keys, insertLru_take hn]
    rfl
  · rw [if_neg hmem, if_neg fun hit => hmem ((getEntry_isSome_iff h.wf hfresh).mp hit)]
    exact h.keys

/-- One call. -/
theorem Recent.step (h : mc.Recent n hist) (hn : 0 < n) {ev : MetadataEvent}
    (hop : ev.op.IsAccess) (hfresh : mc.MeetsFresh ev) :
    (mc.step ev).Recent n ((mc.usedKey ev).toList ++ hist) := by
  obtain ⟨now, op⟩ := ev
  cases op with
  | putEntry s3Key entry => exact h.store hn s3Key _
  | putNegative s3Key => exact h.store hn s3Key _
  | getEntry s3Key => exact h.getEntry hn (hfresh s3Key rfl)
  | putDirListing => cases hop
  | getDirListing => cases hop
  | invalidate => cases hop
  | invalidatePrefix => cases hop
  | evictExpired => cases hop

/-- What is put or found now was put now, or is in the history. -/
theorem Recent.mem_usedKey (h : mc.Recent n hist) {ev : MetadataEvent} (hop : ev.op.IsAccess)
    (hfresh : mc.MeetsFresh ev) {key : GoString} :
    key ∈ (mc.usedKey ev).toList ++ hist ↔ ev.op.Puts key ∨ key ∈ hist := by
  rw [List.mem_append, Option.mem_toList]
  obtain ⟨now, op⟩ := ev
  cases op with
  | putEntry s3Key entry => simp [usedKey, MetadataOp.Puts]
  | putNegative s3Key => simp [usedKey, MetadataOp.Puts]
  | getEntry s3Key =>
    have hhist : (mc.getEntry now s3Key).1.isSome → s3Key ∈ hist := by
      intro hit
      have hmem := (getEntry_isSome_iff h.wf (hfresh s3Key rfl)).mp hit
      rw [h.keys] at hmem
      exact (mem_take_recency.mp hmem).1
    by_cases hit : (mc.getEntry now s3Key).1.isSome
    · simp only [usedKey, hit, if_true, Option.some.injEq, MetadataOp.Puts, false_or]
      exact ⟨fun hk => hk.elim (fun heq => heq ▸ hhist hit) id, Or.inr⟩
    · simp [usedKey, hit, MetadataOp.Puts]
  | putDirListing => cases hop
  | getDirListing => cases hop
  | invalidate => cases hop
  | invalidatePrefix => cases hop
  | evictExpired => cases hop

/-- A run. -/
theorem Recent.run (h : mc.Recent n hist) (hn : 0 < n) {evs : List MetadataEvent}
    (hops : ∀ ev ∈ evs, ev.op.IsAccess) (hfresh : EachStep MetadataCache.step MeetsFresh mc evs) :
    (evs.foldl MetadataCache.step mc).Recent n (mc.uses evs ++ hist) ∧
      ∀ key, key ∈ mc.uses evs ++ hist ↔ (∃ ev ∈ evs, ev.op.Puts key) ∨ key ∈ hist := by
  induction evs generalizing mc hist with
  | nil => exact ⟨h, fun key => by simp [uses]⟩
  | cons ev evs ih =>
    obtain ⟨hop, hops⟩ := List.forall_mem_cons.mp hops
    obtain ⟨hrec, hmem⟩ := ih (h.step hn hop hfresh.1) hops hfresh.2
    rw [← List.append_assoc] at hrec
    refine ⟨hrec, fun key => ?_⟩
    have hkey := hmem key
    rw [h.mem_usedKey hop hfresh.1, ← List.append_assoc] at hkey
    rw [uses, hkey, List.exists_mem_cons_iff, or_assoc, or_left_comm]

theorem recent_newMetadataCache {config : CacheConfig} {n : Nat} (hn : config.maxEntries = n)
    (hpos : 1 ≤ config.maxEntries) : (newMetadataCache config).Recent n [] := by
  refine ⟨wf_newMetadataCache config, ?_, ?_⟩
  · show (if config.maxEntries ≤ 0 then 10000 else config.maxEntries) = _
    rw [if_neg (by omega), hn]
  · rw [recency, List.take_nil]
    rfl

/-- After any run of puts and lookups that meet no expired entry, a lookup hits exactly if
its key was put, and fewer than `MaxEntries` other keys have been put or found since the
key was last. -/
theorem getEntry_hit_iff (config : CacheConfig) (hmax : 1 ≤ config.maxEntries)
    (evs : List MetadataEvent) (hops : ∀ ev ∈ evs, ev.op.IsAccess)
    (hfresh : EachStep step MeetsFresh (newMetadataCache config) evs) (now : Time)
    (key : GoString)
    (hlast : (evs.foldl step (newMetadataCache config)).MeetsFresh ⟨now, .getEntry key⟩) :
    ((evs.foldl step (newMetadataCache config)).getEntry now key).1.isSome ↔
      (∃ ev ∈ evs, ev.op.Puts key) ∧
        (usedSince key ((newMetadataCache config).uses evs) : Int) < config.maxEntries := by
  obtain ⟨n, hn⟩ : ∃ n : Nat, config.maxEntries = n := ⟨config.maxEntries.toNat, by omega⟩
  obtain ⟨hrec, hmem⟩ := (recent_newMetadataCache hn hmax).run (by omega) hops hfresh
  rw [List.append_nil] at hrec hmem
  rw [getEntry_isSome_iff hrec.wf (hlast key rfl), hrec.keys, mem_take_recency, hmem, hn]
  simp

/-- Room for two entries: `a` is put, `b` is put, `a` is found and `c` is put. -/
def threeKeys : List MetadataEvent :=
  [⟨0, .putEntry (gs "a") .zero⟩, ⟨0, .putNegative (gs "b")⟩, ⟨0, .getEntry (gs "a")⟩,
    ⟨0, .putEntry (gs "c") .zero⟩]

/-- `a` is still found and `b` has made room. -/
theorem getEntry_hit_iff_threeKeys :
    let mc := threeKeys.foldl step (newMetadataCache ⟨2, 1, 1, 1⟩)
    (mc.getEntry 0 (gs "a")).1.isSome ∧ ¬ (mc.getEntry 0 (gs "b")).1.isSome := by
  have hops : ∀ ev ∈ threeKeys, ev.op.IsAccess := by
    simp [threeKeys, MetadataOp.IsAccess]
  have hfresh : EachStep step MeetsFresh (newMetadataCache ⟨2, 1, 1, 1⟩) threeKeys := by
    refine ⟨nofun, nofun, ?_, nofun, trivial⟩
    rintro key hkey e he
    cases hkey
    cases he
    rfl
  constructor
  · refine (getEntry_hit_iff _ (by decide) threeKeys hops hfresh 0 (gs "a") ?_).mpr
      ⟨?_, by decide⟩
    · rintro key hkey e he
      cases hkey
      cases he
      rfl
    · exact ⟨_, List.mem_cons_self, rfl⟩
  · intro hit
    have hfew := (getEntry_hit_iff _ (by decide) threeKeys hops hfresh 0 (gs "b") ?_).mp hit
    · exact absurd hfew.2 (by decide)
    · rintro key hkey e he
      cases hkey
      cases he

end MetadataCache

end S3Gateway
