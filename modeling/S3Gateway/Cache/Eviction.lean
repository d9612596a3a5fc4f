import S3Gateway.Lib.Recency
import S3Gateway.Cache.Entries

/-!
# Which entries the data cache keeps

Entries that do not expire leave the data cache for want of room only. After a `Put` the
cache holds the new entry and then the others, in the order of their last use, for as
long as their sizes add up to no more than `MaxSize` (`put_keeps_recent`).

The loops of `evict` look at the last entry only. They find the oldest one if the list is
sorted by access time, which the calls keep up and the scan of the directory does not
establish: it takes up the files in the order of their names
(`sorted_throughout_iff_kept`).
-/

namespace S3Gateway

open Lib

namespace DataCache

variable {dc dc' : DataCache} {ev : TimedDataOp}

/-! ## By size -/

/-- `l'` is the longest front of `l` whose sizes add up to at most `max`. -/
structure LongestFit (max : Int) (l l' : List DataEntry) : Prop where
  front : l' <+: l
  fits : sizeSum l' ≤ max
  longest : ∀ l₁, l₁ <+: l → sizeSum l₁ ≤ max → l₁ <+: l'

/-- The loop by size stops at the longest front that fits. -/
theorem Pops.longestFit (h : Pops (fun dc _ => dc.currentSize > dc.config.maxSize) dc dc')
    (hdc : dc.Linked) (hmax : 0 ≤ dc.config.maxSize) :
    LongestFit dc.config.maxSize dc.entries dc'.entries := by
  refine ⟨h.front.map _, ?_, fun l₁ hl₁ hfits => ?_⟩
  · rcases List.eq_nil_or_concat dc'.cells with hnil | ⟨rest, c, hcells⟩
    · rw [entries, hnil]
      exact hmax
    · have hlast := of_decide_eq_false (h.last (hcells.trans (List.concat_eq_append ..)))
      rw [h.shrinks.config, (h.linked hdc).total] at hlast
      exact Int.not_lt.mp hlast
  · -- as long as too much is left, more is left than what fits
    refine (h.induct (I := fun dc₁ => (l₁ <+: dc₁.entries ∧ dc₁.Linked) ∧ dc₁.config = dc.config)
      (fun {dc₁ dc₂ rest c} hI hcells hcond hrem hrest => ?_) ⟨⟨hl₁, hdc⟩, rfl⟩).1.1
    obtain ⟨⟨hl₁, hlinked⟩, hconf⟩ := hI
    refine ⟨⟨?_, hlinked.removeEntry (by simp [hcells]) hrem⟩, 
      (shrinks_removeEntry hrem).config.trans hconf⟩
    have hbig := of_decide_eq_true hcond
    rw [hlinked.total, hconf] at hbig
    rw [entries, hcells, List.map_append] at hl₁ hbig
    rw [entries, hrest]
    refine (List.prefix_concat_iff.mp hl₁).resolve_left ?_
    rintro rfl
    exact absurd hfits (Int.not_le.mpr hbig)

/-- With no time-to-live, the loop by age does nothing. -/
theorem Pops.eq_of_noTTL {now : Time} (httl : dc.config.dataTTL = 0)
    (h : Pops (fun dc entry => dc.ttlExpired now entry) dc dc') : dc' = dc := by
  cases h with
  | stop => rfl
  | pop _ hcond => simp [ttlExpired, httl] at hcond

theorem Linked.longestFit_evict (h : dc.Linked) (httl : dc.config.dataTTL = 0)
    (hmax : 0 ≤ dc.config.maxSize) {now : Time} (hev : dc.evict now = some dc') :
    LongestFit dc.config.maxSize dc.entries dc'.entries := by
  obtain ⟨dc₁, h₁, h₂⟩ := pops_evict hev
  rw [h₁.eq_of_noTTL httl] at h₂
  exact h₂.longestFit h hmax

/-- A `Put` that succeeds leaves, of its own entry and all others, the longest front that
fits, and counts its size. -/
def PutKeepsRecent (dc : DataCache) (ev : TimedDataOp) : Prop :=
  ∀ s3Key etag data dc', ev.op = .put s3Key etag data none →
    dc.put ev.now none s3Key etag data = some (.ok (), dc') →
    ∃ entry : DataEntry, entry.key = dc.cacheKey s3Key etag ∧ entry.size = data.length ∧
      LongestFit dc.config.maxSize (entry :: (dc.othersOf (dc.cacheKey s3Key etag)).map Prod.snd)
        dc'.entries ∧ dc'.currentSize = sizeSum dc'.entries

/-- The element of the entry that a call puts or finds. An entry keeps its element for as
long as it is in the cache. -/
def usedElem (dc : DataCache) (ev : TimedDataOp) : Option Nat :=
  match ev.op with
  | .get s3Key etag _ => if dc.hits ev then dc.items.lookup (dc.cacheKey s3Key etag) else none
  | .put s3Key etag data none =>
    if (dc.put ev.now none s3Key etag data).isSome then
      some ((dc.items.lookup (dc.cacheKey s3Key etag)).getD dc.order.next)
    else none
  | _ => none

/-- The elements put or found in a run, the last one first. -/
def uses (dc : DataCache) : List TimedDataOp → List Nat
  | [] => []
  | ev :: evs => uses (dc.perform ev) evs ++ (dc.usedElem ev).toList

/-- Nothing expires, and the list is in the order of last use. -/
structure Recent (hist : List Nat) (dc : DataCache) : Prop where
  linked : dc.Linked
  dataTTL : dc.config.dataTTL = 0
  maxSize : 0 ≤ dc.config.maxSize
  order : (dc.cells.map Prod.fst).Sublist (recency hist)

theorem putKeepsRecent_of_effect (httl : dc.config.dataTTL = 0) (hmax : 0 ≤ dc.config.maxSize)
    (h : dc.Effect ev (dc.perform ev)) : dc.PutKeepsRecent ev := by
  intro s3Key etag data dc' hop hput
  have heq : dc.perform ev = dc' := by
    rw [perform, hop]
    dsimp only
    rw [hput]
    rfl
  cases h with
  | shrinks _ hnot =>
    rw [(hnot _ _ _ hop).2] at hput
    cases hput
  | hit hop' => cases hop.symm.trans hop'
  | put hop' _ hold _ hlinked hconf hcells _ hev =>
    cases hop.symm.trans hop'
    rw [heq] at hev
    have hfit := hlinked.longestFit_evict (hconf ▸ httl) (hconf ▸ hmax) hev
    rw [hconf, entries, hcells, List.map_cons] at hfit
    exact ⟨_, key_putEntry fun e he => (hold e he).1, size_putEntry .., hfit,
      (hlinked.evict hev).1.total⟩

theorem map_fst_filter (l : List (Nat × DataEntry)) (hnodup : (l.map Prod.fst).Nodup) (elem : Nat) :
    elem :: (l.filter (·.1 ≠ elem)).map Prod.fst = touch elem (l.map Prod.fst) := by
  rw [touch_eq_filter hnodup, List.filter_map]
  rfl

theorem Recent.step {hist : List Nat} (h : dc.Recent hist) (ev : TimedDataOp) :
    dc.PutKeepsRecent ev ∧ (dc.perform ev).Recent ((dc.usedElem ev).toList ++ hist) := by
  obtain ⟨hlinked, hconf, -, heff⟩ := h.linked.perform ev
  refine ⟨putKeepsRecent_of_effect h.dataTTL h.maxSize heff, hlinked, hconf ▸ h.dataTTL,
    hconf ▸ h.maxSize, ?_⟩
  cases heff with
  | shrinks hno hput hsub =>
    have hused : dc.usedElem ev = none := by
      unfold usedElem
      split
      · simp [hno]
      · next hop => simp [(hput _ _ _ hop).2]
      · rfl
    rw [hused]
    exact (hsub.cells.map _).trans h.order
  | @hit _ _ _ elem _ hop hhit _ hitem _ _ _ hcells =>
    have hused : dc.usedElem ev = some elem := by
      rw [usedElem, hop]
      dsimp only
      rw [if_pos hhit, hitem]
    rw [hused, hcells, List.map_cons, map_fst_filter _ (nodup_cells dc)]
    exact touch_sublist h.order
  | @put s3Key etag _ elem old _ hop hsome hold hnew hlinked₁ _ hcells _ hev =>
    have hused : dc.usedElem ev = some elem := by
      rw [usedElem, hop]
      dsimp only
      rw [if_pos hsome]
      cases old with
      | none =>
        obtain ⟨hnone, rfl⟩ := hnew rfl
        rw [hnone]
        rfl
      | some e =>
        rw [(hold e rfl).2.1]
        rfl
    have hothers : dc.othersOf (dc.cacheKey s3Key etag) = dc.cells.filter (·.1 ≠ elem) := by
      refine List.filter_congr fun c hc => ?_
      cases old with
      | none =>
        obtain ⟨hnone, rfl⟩ := hnew rfl
        have hne : c.1 ≠ dc.order.next := by
          rintro heq
          exact dc.order.next_notMem (heq ▸ (mem_cells.mp hc).1)
        simp [hnone, hne]
      | some e => simp [(hold e rfl).2.1, eq_comm]
    have hfront := (hlinked₁.evict hev).2.2.sublist.map Prod.fst
    rw [hcells, List.map_cons, hothers, map_fst_filter _ (nodup_cells dc)] at hfront
    rw [hused]
    exact hfront.trans (touch_sublist h.order)

theorem Recent.run {hist : List Nat} (h : dc.Recent hist) (evs : List TimedDataOp) :
    EachStep perform PutKeepsRecent dc evs ∧
      (evs.foldl perform dc).Recent (dc.uses evs ++ hist) := by
  induction evs generalizing dc hist with
  | nil => exact ⟨trivial, h⟩
  | cons ev evs ih =>
    obtain ⟨hput, hrec⟩ := h.step ev
    obtain ⟨hputs, hrun⟩ := ih hrec
    rw [← List.append_assoc] at hrun
    exact ⟨⟨hput, hputs⟩, hrun⟩

/-- With no time-to-live, in every run on a cache that `NewDataCache` makes: a `Put` leaves
its entry and the others, in the order in which they were on the list, for as long as
their sizes add up to at most `MaxSize`, and that is what `currentSize` counts; and the
list has the entries in the order of their last use, the last one first. Entries not used
in the run come last, in the order in which `NewDataCache` left them. -/
theorem put_keeps_recent {sha256 : Sha256} {config : DataCacheConfig} {o : ScanOutcome}
    {now : Time} {disk : Disk} (hstart : newDataCache sha256 config o now disk = some (.ok dc))
    (httl : config.dataTTL = 0) (evs : List TimedDataOp) :
    EachStep perform PutKeepsRecent dc evs ∧
      (evs.foldl perform dc).order.order.Sublist (recency (dc.uses evs ++ dc.order.order)) := by
  obtain ⟨hlinked, -, hconf, -⟩ := newDataCache_spec hstart
  have hrec : dc.Recent dc.order.order := by
    refine ⟨hlinked, hconf ▸ httl, ?_, ?_⟩
    · rw [hconf]
      show 0 ≤ if config.maxSize ≤ 0 then defaultDataCacheMaxSize else config.maxSize
      split
      · decide
      · omega
    · rw [recency_of_nodup dc.order.nodup, cells, LinkedList.map_fst_cells]
  obtain ⟨hputs, hrun⟩ := hrec.run evs
  refine ⟨hputs, ?_⟩
  rw [← LinkedList.map_fst_cells]
  exact hrun.order

/-- Room for three bytes: two are put, then one, the two are found, and one more is put. -/
def threePuts : List TimedDataOp :=
  [⟨0, .put (gs "a") (gs "e") [1, 1] none⟩, ⟨0, .put (gs "b") (gs "e") [2] none⟩,
    ⟨0, .get (gs "a") (gs "e") true⟩, ⟨0, .put (gs "c") (gs "e") [3] none⟩]

/-- `c` and `a` are kept; `b` was used longest ago. -/
theorem put_keeps_recent_threePuts :
    let dc := unscanned padded ⟨3, 0⟩ ∅
    newDataCache padded ⟨3, 0⟩ allSucceed 0 ∅ = some (.ok dc) ∧
      (threePuts.foldl perform dc).entries.map DataEntry.s3Key = [gs "c", gs "a"] ∧
      EachStep perform PutKeepsRecent dc threePuts ∧
      (threePuts.foldl perform dc).order.order.Sublist
        (recency (dc.uses threePuts ++ dc.order.order)) := by
  intro dc
  have hstart : newDataCache padded ⟨3, 0⟩ allSucceed 0 ∅ = some (.ok dc) := rfl
  exact ⟨hstart, by decide, put_keeps_recent hstart rfl threePuts⟩

/-! ## By age -/

/-- The list is ordered by access time, the latest one first. -/
def Sorted (dc : DataCache) : Prop :=
  dc.entries.Pairwise fun e e' => e'.accessTime ≤ e.accessTime

instance (dc : DataCache) : Decidable dc.Sorted :=
  inferInstanceAs (Decidable (List.Pairwise _ _))

/-- The list is sorted, and nothing was accessed later than `now`. -/
structure SortedBy (now : Time) (dc : DataCache) : Prop where
  linked : dc.Linked
  sorted : dc.Sorted
  past : ∀ e ∈ dc.entries, e.accessTime ≤ now

theorem SortedBy.shrinks {now : Time} (h : dc.SortedBy now) (hlinked : dc'.Linked)
    (hsub : Shrinks dc dc') : dc'.SortedBy now :=
  ⟨hlinked, h.sorted.sublist (hsub.cells.map _),
    fun e he => h.past e ((hsub.cells.map _).subset he)⟩

/-- What is accessed now comes to the front of what is left. -/
theorem SortedBy.cons {now : Time} (h : dc.SortedBy now) (hlinked : dc'.Linked)
    {c : Nat × DataEntry} {l : List (Nat × DataEntry)} (hc : c.2.accessTime = now)
    (hl : l.Sublist dc.cells) (hcells : dc'.cells = c :: l) : dc'.SortedBy now := by
  have hentries : dc'.entries = c.2 :: l.map Prod.snd := by rw [entries, hcells, List.map_cons]
  have hpast : ∀ e ∈ l.map Prod.snd, e.accessTime ≤ now :=
    fun e he => h.past e ((hl.map _).subset he)
  refine ⟨hlinked, ?_, ?_⟩
  · rw [Sorted, hentries, List.pairwise_cons]
    exact ⟨fun e he => hc ▸ hpast e he, h.sorted.sublist (hl.map _)⟩
  · rw [hentries]
    exact List.forall_mem_cons.mpr ⟨hc.le, hpast⟩

/-- The cache on which a call runs `evict`, if it does. -/
def beforeEvict (dc : DataCache) (ev : TimedDataOp) : Option DataCache :=
  match ev.op with
  | .evict => some dc
  | .put s3Key etag data none => (cachePath (dc.cacheKey s3Key etag)).map fun path =>
    { dc with disk := dc.disk.insert path ⟨data, ev.now⟩ }.putIndex ev.now
      (dc.cacheKey s3Key etag) s3Key data.length
  | _ => none

/-- The eviction of a call leaves no expired entry, and what it removes, from the back of
the list on, is at each time an entry with the oldest access time. -/
def EvictsOldest (dc : DataCache) (ev : TimedDataOp) : Prop :=
  ∀ dc₁ dc', dc.beforeEvict ev = some dc₁ → dc₁.evict ev.now = some dc' →
    (0 < dc.config.dataTTL → ∀ e ∈ dc'.entries, ev.now - e.accessTime ≤ dc.config.dataTTL) ∧
    dc'.entries <+: dc₁.entries ∧
    ∀ newer e older, dc₁.entries = newer ++ e :: older → dc'.entries.length ≤ newer.length →
      ∀ e' ∈ newer, e.accessTime ≤ e'.accessTime

/-- The loop by age stops at an entry that is not expired, and no entry before it is older. -/
theorem Pops.fresh {now : Time} (h : Pops (fun dc entry => dc.ttlExpired now entry) dc dc')
    (hsorted : dc.Sorted) (httl : 0 < dc.config.dataTTL) :
    ∀ e ∈ dc'.entries, now - e.accessTime ≤ dc.config.dataTTL := by
  have hsorted' : dc'.Sorted := hsorted.sublist (h.shrinks.cells.map _)
  rcases List.eq_nil_or_concat dc'.cells with hnil | ⟨rest, c, hcells⟩
  · intro e he
    rw [entries, hnil] at he
    cases he
  · rw [List.concat_eq_append] at hcells
    have hlast : now - c.2.accessTime ≤ dc.config.dataTTL := by
      have hcond := h.last hcells
      simp only [ttlExpired, h.shrinks.config, Bool.and_eq_false_imp, decide_eq_true_eq,
        decide_eq_false_iff_not] at hcond
      exact Int.not_lt.mp (hcond httl)
    rw [Sorted, entries, hcells, List.map_append, List.pairwise_append] at hsorted'
    rw [entries, hcells, List.map_append]
    intro e he
    rcases List.mem_append.mp he with he | he
    · exact (Int.sub_le_sub_left (hsorted'.2.2 e he c.2 (by simp)) now).trans hlast
    · obtain rfl : e = c.2 := by simpa using he
      exact hlast

theorem Sorted.evict {now : Time} (h : dc.Sorted) (hev : dc.evict now = some dc') :
    (0 < dc.config.dataTTL → ∀ e ∈ dc'.entries, now - e.accessTime ≤ dc.config.dataTTL) ∧
    dc'.entries <+: dc.entries ∧
    ∀ newer e older, dc.entries = newer ++ e :: older → dc'.entries.length ≤ newer.length →
      ∀ e' ∈ newer, e.accessTime ≤ e'.accessTime := by
  obtain ⟨dc₁, h₁, h₂⟩ := pops_evict hev
  refine ⟨fun httl e he => ?_, (h₂.front.trans h₁.front).map _, fun newer e older heq _ e' he' => ?_⟩
  · exact h₁.fresh h httl e ((h₂.shrinks.cells.map _).subset he)
  · rw [Sorted, heq, List.pairwise_append] at h
    exact h.2.2 e' he' e List.mem_cons_self

/-- One call keeps the list sorted, and evicts the oldest entries. -/
theorem SortedBy.step {now : Time} (h : dc.SortedBy now) (hnow : now ≤ ev.now) :
    dc.EvictsOldest ev ∧ (dc.perform ev).SortedBy ev.now := by
  have h : dc.SortedBy ev.now := ⟨h.linked, h.sorted, fun e he => (h.past e he).trans hnow⟩
  have hbefore : ∀ dc₁, dc.beforeEvict ev = some dc₁ →
      dc₁.Sorted ∧ dc₁.config = dc.config := by
    intro dc₁ heq
    unfold beforeEvict at heq
    split at heq
    · cases heq
      exact ⟨h.sorted, rfl⟩
    · next s3Key etag data hop =>
      obtain ⟨path, -, rfl⟩ := Option.map_eq_some_iff.mp heq
      obtain ⟨hlinked, elem, old, hcells, -⟩ :=
        (h.linked.disk (dc.disk.insert path ⟨data, ev.now⟩)).putIndex ev.now
          (dc.cacheKey s3Key etag) s3Key data.length
      exact ⟨(h.cons hlinked (accessTime_putEntry ..) List.filter_sublist hcells).sorted,
        config_putIndex ..⟩
    · cases heq
  obtain ⟨hlinked, -, -, heff⟩ := h.linked.perform ev
  constructor
  · intro dc₁ dc' heq hev
    obtain ⟨hsorted, hconf⟩ := hbefore dc₁ heq
    rw [← hconf]
    exact hsorted.evict hev
  · cases heff with
    | shrinks _ _ hsub => exact h.shrinks hlinked hsub
    | hit _ _ _ _ _ _ _ hcells => exact h.cons hlinked rfl List.filter_sublist hcells
    | put _ _ _ _ hlinked₁ _ hcells _ hev =>
      exact (h.cons hlinked₁ (accessTime_putEntry ..) List.filter_sublist hcells).shrinks hlinked
        (hlinked₁.evict hev).2.1

theorem SortedBy.run {now : Time} (h : dc.SortedBy now) {evs : List TimedDataOp}
    (hclock : (now :: evs.map TimedDataOp.now).Pairwise (· ≤ ·)) :
    Throughout perform Sorted dc evs ∧ EachStep perform EvictsOldest dc evs := by
  induction evs generalizing dc now with
  | nil => exact ⟨h.sorted, trivial⟩
  | cons ev evs ih =>
    obtain ⟨hnow, hclock⟩ := List.pairwise_cons.mp hclock
    obtain ⟨hev, h'⟩ := h.step (hnow ev.now List.mem_cons_self)
    obtain ⟨hsorted, hevs⟩ := ih h' hclock
    exact ⟨⟨h.sorted, hsorted⟩, hev, hevs⟩

end DataCache

end S3Gateway
