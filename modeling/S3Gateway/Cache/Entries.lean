import S3Gateway.Cache.DataKeys

/-!
# The data cache as a list of entries

What the methods of the data cache do to its LRU list, said about the list as a whole:
`cells` are the elements with their entries, front first. `Get` and `Put` bring an element
to the front, `evict` takes elements off the back (`Pops`), everything else only takes
elements off. `Linked` is all that has to hold for that, and it holds for every cache that
`NewDataCache` makes, whatever it finds in its directory.
-/

namespace S3Gateway

open Lib

namespace DataCache

variable {dc dc' dc₁ : DataCache}

/-- The elements of the LRU list with their entries, front first. -/
def cells (dc : DataCache) : List (Nat × DataEntry) := dc.order.cells

/-- The entries on the LRU list, front first. -/
def entries (dc : DataCache) : List DataEntry := dc.cells.map Prod.snd

/-- The total size of entries. -/
def sizeSum (l : List DataEntry) : Int := (l.map DataEntry.size).sum

/-- The elements of the map are on the list under their keys, and the sizes add up. -/
structure Linked (dc : DataCache) : Prop where
  indexed : ∀ key elem, dc.items.lookup key = some elem →
    ∃ entry, (elem, entry) ∈ dc.cells ∧ entry.key = key
  total : dc.currentSize = sizeSum dc.entries

theorem mem_cells {elem : Nat} {entry : DataEntry} :
    (elem, entry) ∈ dc.cells ↔ elem ∈ dc.order.order ∧ dc.order.value elem = some entry :=
  LinkedList.mem_cells

theorem nodup_cells (dc : DataCache) : (dc.cells.map Prod.fst).Nodup := by
  rw [cells, LinkedList.map_fst_cells]
  exact dc.order.nodup

/-- An element has one entry. -/
theorem eq_of_mem_cells {elem : Nat} {entry entry' : DataEntry} (h : (elem, entry) ∈ dc.cells)
    (h' : (elem, entry') ∈ dc.cells) : entry = entry' :=
  Option.some.inj ((mem_cells.mp h).2.symm.trans (mem_cells.mp h').2)

/-- The entry of an element the map has. -/
theorem Linked.entry (h : dc.Linked) {key : GoString} {elem : Nat} {entry : DataEntry}
    (hitem : dc.items.lookup key = some elem) (hval : dc.order.value elem = some entry) :
    (elem, entry) ∈ dc.cells ∧ entry.key = key := by
  obtain ⟨entry', hmem, hkey⟩ := h.indexed key elem hitem
  have hval' := (mem_cells.mp hmem).2
  rw [hval] at hval'
  cases hval'
  exact ⟨hmem, hkey⟩

theorem sizeSum_append (l l' : List DataEntry) : sizeSum (l ++ l') = sizeSum l + sizeSum l' := by
  rw [sizeSum, List.map_append, List.sum_append]
  rfl

theorem sizeSum_cons (e : DataEntry) (l : List DataEntry) : sizeSum (e :: l) = e.size + sizeSum l := by
  rw [sizeSum, List.map_cons, List.sum_cons]
  rfl

/-- An element's share of the total. -/
theorem sizeSum_filter {elem : Nat} {entry : DataEntry} (hmem : (elem, entry) ∈ dc.cells) :
    sizeSum ((dc.cells.filter (·.1 ≠ elem)).map Prod.snd) = sizeSum dc.entries - entry.size := by
  obtain ⟨hi, hv⟩ := mem_cells.mp hmem
  have hsum : ∀ l : LinkedList DataEntry, sizeSum (l.cells.map Prod.snd) = l.total DataEntry.size := by
    intro l
    rw [LinkedList.total_eq_sum_cells, sizeSum, List.map_map]
    rfl
  rw [cells, ← LinkedList.cells_remove, hsum, entries, cells, hsum,
    LinkedList.total_eq_add_remove hi hv]
  omega

/-! ## Taking elements off -/

theorem cells_dropEntry (dc : DataCache) (key : GoString) (elem : Nat) (entry : DataEntry) :
    (dc.dropEntry key elem entry).cells = dc.cells.filter (·.1 ≠ elem) :=
  LinkedList.cells_remove _ _

theorem Linked.disk (h : dc.Linked) (disk : Disk) : { dc with disk := disk }.Linked :=
  ⟨h.indexed, h.total⟩

/-- An element is dropped together with what the map has for its key. -/
theorem Linked.dropEntry (h : dc.Linked) {elem : Nat} {entry : DataEntry}
    (hmem : (elem, entry) ∈ dc.cells) : (dc.dropEntry entry.key elem entry).Linked := by
  refine ⟨fun key elem' hitem => ?_, ?_⟩
  · obtain ⟨hne, hitem⟩ := lookup_of_erase hitem
    obtain ⟨entry', hmem', hkey⟩ := h.indexed key elem' hitem
    refine ⟨entry', ?_, hkey⟩
    rw [cells_dropEntry, List.mem_filter]
    refine ⟨hmem', decide_eq_true ?_⟩
    rintro rfl
    exact hne (hkey.symm.trans (congrArg _ (eq_of_mem_cells hmem' hmem)))
  · rw [entries, cells_dropEntry, sizeSum_filter hmem, ← h.total]
    rfl

theorem cells_removeEntry {key : GoString} {elem : Nat} {entry : DataEntry}
    (hrem : dc.removeEntry key elem entry = some dc') :
    dc'.cells = dc.cells.filter (·.1 ≠ elem) := by
  obtain ⟨path, -, rfl⟩ := Option.map_eq_some_iff.mp hrem
  exact LinkedList.cells_remove _ _

theorem Linked.removeEntry (h : dc.Linked) {elem : Nat} {entry : DataEntry}
    (hmem : (elem, entry) ∈ dc.cells) (hrem : dc.removeEntry entry.key elem entry = some dc') :
    dc'.Linked := by
  obtain ⟨path, -, rfl⟩ := Option.map_eq_some_iff.mp hrem
  exact (h.dropEntry hmem).disk _

/-- All that is left of `dc'` was in `dc`. -/
structure Shrinks (dc dc' : DataCache) : Prop where
  sha256 : dc'.sha256 = dc.sha256
  config : dc'.config = dc.config
  items : ∀ key elem, dc'.items.lookup key = some elem → dc.items.lookup key = some elem
  cells : dc'.cells.Sublist dc.cells

theorem Shrinks.refl (dc : DataCache) : Shrinks dc dc :=
  ⟨rfl, rfl, fun _ _ h => h, List.Sublist.refl _⟩

theorem Shrinks.trans (h : Shrinks dc dc₁) (h' : Shrinks dc₁ dc') : Shrinks dc dc' where
  sha256 := h'.sha256.trans h.sha256
  config := h'.config.trans h.config
  items key elem hitem := h.items key elem (h'.items key elem hitem)
  cells := h'.cells.trans h.cells

theorem shrinks_dropEntry (dc : DataCache) (key : GoString) (elem : Nat) (entry : DataEntry) :
    Shrinks dc (dc.dropEntry key elem entry) where
  sha256 := rfl
  config := rfl
  items _ _ hitem := (lookup_of_erase hitem).2
  cells := by
    rw [cells_dropEntry]
    exact List.filter_sublist

theorem shrinks_removeEntry {key : GoString} {elem : Nat} {entry : DataEntry}
    (hrem : dc.removeEntry key elem entry = some dc') : Shrinks dc dc' := by
  obtain ⟨path, -, rfl⟩ := Option.map_eq_some_iff.mp hrem
  obtain ⟨hsha, hconf, hitems, hcells⟩ := shrinks_dropEntry dc key elem entry
  exact ⟨hsha, hconf, hitems, hcells⟩

/-! ## Evicting -/

/-- One eviction loop: while the last entry meets the condition, it is removed. -/
inductive Pops (cond : DataCache → DataEntry → Bool) : DataCache → DataCache → Prop where
  | stop {dc : DataCache} (h : ∀ rest c, dc.cells = rest ++ [c] → cond dc c.2 = false) :
      Pops cond dc dc
  | pop {dc dc₁ dc' : DataCache} {rest : List (Nat × DataEntry)} {c : Nat × DataEntry}
      (hcells : dc.cells = rest ++ [c]) (hcond : cond dc c.2 = true)
      (hrem : dc.removeEntry c.2.key c.1 c.2 = some dc₁) (hrest : dc₁.cells = rest)
      (h : Pops cond dc₁ dc') : Pops cond dc dc'

theorem pops_evictWhile {cond : DataCache → DataEntry → Bool}
    (hev : evictWhile cond dc.order.order.reverse dc = some dc') : Pops cond dc dc' := by
  generalize hrev : dc.order.order.reverse = elems at hev
  induction elems generalizing dc with
  | nil =>
    cases hev
    refine .stop fun rest c hcells => ?_
    rw [List.reverse_eq_nil_iff, ← LinkedList.map_fst_cells] at hrev
    rw [cells, List.map_eq_nil_iff.mp hrev] at hcells
    simp at hcells
  | cons elem elems ih =>
    -- the list ends with the element
    have horder : dc.cells.map Prod.fst = elems.reverse ++ [elem] := by
      rw [cells, LinkedList.map_fst_cells, ← List.reverse_reverse dc.order.order, hrev,
        List.reverse_cons]
    obtain ⟨rest, last, hcells, hrestmap, hlast⟩ := List.map_eq_append_iff.mp horder
    obtain ⟨c, rfl, rfl⟩ : ∃ c, last = [c] ∧ c.1 = elem := by
      obtain ⟨c, hc, hce⟩ := List.map_eq_singleton_iff.mp hlast
      exact ⟨c, hc, hce⟩
    obtain ⟨-, hval, hremoved⟩ := LinkedList.cells_remove_back hcells
    unfold evictWhile at hev
    rw [hval] at hev
    dsimp only at hev
    split at hev
    · next hcond =>
      obtain ⟨dc₁, hrem, hev⟩ := Option.bind_eq_some_iff.mp hev
      have hrest : dc₁.cells = rest := by
        rw [cells_removeEntry hrem, cells, ← LinkedList.cells_remove]
        exact hremoved
      refine .pop hcells hcond hrem hrest (ih ?_ hev)
      rw [← LinkedList.map_fst_cells, show dc₁.order.cells = rest from hrest, hrestmap,
        List.reverse_reverse]
    · next hcond =>
      cases hev
      refine .stop fun rest' c' hcells' => ?_
      rw [hcells] at hcells'
      obtain ⟨-, hc⟩ := List.append_inj' hcells' rfl
      cases hc
      simpa using hcond

/-- What one removal from the back keeps. -/
theorem Pops.induct {cond : DataCache → DataEntry → Bool} {I : DataCache → Prop}
    (h : Pops cond dc dc')
    (hstep : ∀ {dc dc₁ : DataCache} {rest : List (Nat × DataEntry)} {c : Nat × DataEntry}, I dc →
      dc.cells = rest ++ [c] → cond dc c.2 = true → dc.removeEntry c.2.key c.1 c.2 = some dc₁ →
      dc₁.cells = rest → I dc₁) (hdc : I dc) : I dc' := by
  induction h with
  | stop => exact hdc
  | pop hcells hcond hrem hrest _ ih => exact ih (hstep hdc hcells hcond hrem hrest)

theorem Pops.linked {cond : DataCache → DataEntry → Bool} (h : Pops cond dc dc')
    (hdc : dc.Linked) : dc'.Linked :=
  h.induct (fun hdc hcells _ hrem _ => hdc.removeEntry (by simp [hcells]) hrem) hdc

theorem Pops.shrinks {cond : DataCache → DataEntry → Bool} (h : Pops cond dc dc') :
    Shrinks dc dc' :=
  h.induct (I := Shrinks dc) (fun hsub _ _ hrem _ => hsub.trans (shrinks_removeEntry hrem))
    (Shrinks.refl dc)

/-- What is left is the front of the list. -/
theorem Pops.front {cond : DataCache → DataEntry → Bool} (h : Pops cond dc dc') :
    dc'.cells <+: dc.cells :=
  h.induct (I := fun dc₁ => dc₁.cells <+: dc.cells)
    (fun hpre hcells _ _ hrest => by
      rw [hcells] at hpre
      rw [hrest]
      exact (List.prefix_append _ _).trans hpre) (List.prefix_refl _)

/-- The loop stops at an entry that does not meet the condition. -/
theorem Pops.last {cond : DataCache → DataEntry → Bool} (h : Pops cond dc dc')
    {rest : List (Nat × DataEntry)} {c : Nat × DataEntry} (hcells : dc'.cells = rest ++ [c]) :
    cond dc' c.2 = false := by
  induction h with
  | stop h => exact h rest c hcells
  | pop _ _ _ _ _ ih => exact ih hcells

/-- `evict`: the loop by age, then the loop by size. -/
theorem pops_evict {now : Time} (hev : dc.evict now = some dc') :
    ∃ dc₁, Pops (fun dc entry => dc.ttlExpired now entry) dc dc₁ ∧
      Pops (fun dc _ => dc.currentSize > dc.config.maxSize) dc₁ dc' := by
  obtain ⟨dc₁, h₁, h₂⟩ := Option.bind_eq_some_iff.mp hev
  exact ⟨dc₁, pops_evictWhile h₁, pops_evictWhile h₂⟩

theorem Linked.evict (h : dc.Linked) {now : Time} (hev : dc.evict now = some dc') :
    dc'.Linked ∧ Shrinks dc dc' ∧ dc'.cells <+: dc.cells := by
  obtain ⟨dc₁, h₁, h₂⟩ := pops_evict hev
  exact ⟨h₂.linked (h₁.linked h), h₁.shrinks.trans h₂.shrinks, h₂.front.trans h₁.front⟩

/-! ## Getting -/

/-- A cell that is brought to the front, with its entry changed but for the key. -/
theorem Linked.bringFront (h : dc.Linked) {elem : Nat} {entry : DataEntry}
    (hmem : (elem, entry) ∈ dc.cells) {g : DataEntry → DataEntry} (hg : ∀ e, (g e).key = e.key)
    (size : Int) (hsize : size = dc.currentSize - entry.size + (g entry).size) :
    let dc' := { dc with
      order := (dc.order.update elem g).moveToFront elem
      currentSize := size }
    dc'.cells = (elem, g entry) :: dc.cells.filter (·.1 ≠ elem) ∧ dc'.Linked := by
  obtain ⟨hi, hv⟩ := mem_cells.mp hmem
  have hcells : ((dc.order.update elem g).moveToFront elem).cells
      = (elem, g entry) :: dc.cells.filter (·.1 ≠ elem) :=
    LinkedList.cells_update_moveToFront hi hv g
  refine ⟨hcells, fun key elem' hitem => ?_, ?_⟩
  · obtain ⟨entry', hmem', hkey⟩ := h.indexed key elem' hitem
    by_cases heq : elem' = elem
    · subst heq
      rw [← eq_of_mem_cells hmem hmem', ← hg] at hkey
      exact ⟨g entry, by rw [cells, hcells]; exact List.mem_cons_self, hkey⟩
    · refine ⟨entry', ?_, hkey⟩
      rw [cells, hcells]
      exact List.mem_cons_of_mem _ (List.mem_filter.mpr ⟨hmem', decide_eq_true heq⟩)
  · rw [entries, cells, hcells, List.map_cons, sizeSum_cons, sizeSum_filter hmem, ← h.total]
    show size = (g entry).size + _
    omega

/-- What `Get` does to the list: nothing is found, and at most the entry is lost; or the
entry is found, not expired, and comes to the front with the time as its access time. -/
theorem Linked.get (h : dc.Linked) {now : Time} {openOk : Bool} {s3Key etag : GoString}
    {cached : Option Bytes} (hget : dc.get now openOk s3Key etag = some (cached, dc')) :
    dc'.Linked ∧ (cached = none ∧ Shrinks dc dc' ∨
        ∃ elem entry, cached.isSome ∧ dc'.items = dc.items ∧ dc'.sha256 = dc.sha256 ∧
          dc'.config = dc.config ∧ dc.items.lookup (dc.cacheKey s3Key etag) = some elem ∧
          (elem, entry) ∈ dc.cells ∧ entry.key = dc.cacheKey s3Key etag ∧
          dc.ttlExpired now entry = false ∧
          dc'.cells = (elem, { entry with accessTime := now }) :: dc.cells.filter (·.1 ≠ elem)) := by
  obtain ⟨path, -, hmap⟩ := Option.bind_eq_some_iff.mp hget
  obtain ⟨⟨found, dc₁⟩, hindex, hopen⟩ := Option.map_eq_some_iff.mp hmap
  generalize hkey : dc.cacheKey s3Key etag = key at hindex hopen ⊢
  clear hget hmap
  unfold getIndex at hindex
  split at hindex
  · cases hindex
    cases hopen
    exact ⟨h, Or.inl ⟨rfl, Shrinks.refl _⟩⟩
  · next elem hitem =>
    split at hindex
    · next hval =>
      obtain ⟨entry, hmem, -⟩ := h.indexed key elem hitem
      rw [(mem_cells.mp hmem).2] at hval
      cases hval
    · next entry hval =>
      obtain ⟨hmem, rfl⟩ := h.entry hitem hval
      split at hindex
      · -- the entry has expired
        obtain ⟨dc₂, hrem, heq⟩ := Option.map_eq_some_iff.mp hindex
        cases heq
        cases hopen
        exact ⟨h.removeEntry hmem hrem, Or.inl ⟨rfl, shrinks_removeEntry hrem⟩⟩
      · next hlive =>
        cases hindex
        obtain ⟨hcells, hlinked⟩ := h.bringFront hmem (g := fun e => { e with accessTime := now })
          (fun _ => rfl) dc.currentSize (by dsimp only; omega)
        dsimp only at hopen
        unfold getOpen at hopen
        split at hopen
        · cases hopen
          exact ⟨hlinked, Or.inr ⟨elem, entry, rfl, rfl, rfl, rfl, hitem, hmem, rfl,
            Bool.eq_false_iff.mpr hlive, hcells⟩⟩
        · -- the file is not there
          have hmem' : (elem, { entry with accessTime := now }) ∈ (DataCache.mk dc.sha256 dc.config
              dc.items ((dc.order.update elem fun e => { e with accessTime := now }).moveToFront elem)
              dc.currentSize dc.disk).cells := by
            rw [hcells]
            exact List.mem_cons_self
          rw [(mem_cells.mp hmem').2] at hopen
          cases hopen
          have hdrop := hlinked.dropEntry hmem'
          refine ⟨hdrop, Or.inl ⟨rfl, rfl, rfl, fun _ _ hitem => (lookup_of_erase hitem).2, ?_⟩⟩
          rw [cells_dropEntry, hcells, List.filter_cons_of_neg (by simp)]
          exact List.filter_sublist.trans List.filter_sublist

/-! ## Putting -/

/-- What `Put` makes of the entry of its name, which is new if there is none. The S3 key of
an entry that is there stays. -/
def putEntry (old : Option DataEntry) (now : Time) (key s3Key : GoString) (written : Int) :
    DataEntry :=
  match old with
  | some old => { old with size := written, accessTime := now }
  | none => { key, s3Key, size := written, accessTime := now }

theorem key_putEntry {old : Option DataEntry} {now : Time} {key s3Key : GoString} {written : Int}
    (hold : ∀ e, old = some e → e.key = key) : (putEntry old now key s3Key written).key = key := by
  cases old with
  | none => rfl
  | some e => exact hold e rfl

@[simp] theorem size_putEntry (old : Option DataEntry) (now : Time) (key s3Key : GoString)
    (written : Int) : (putEntry old now key s3Key written).size = written := by
  cases old <;> rfl

@[simp] theorem accessTime_putEntry (old : Option DataEntry) (now : Time) (key s3Key : GoString)
    (written : Int) : (putEntry old now key s3Key written).accessTime = now := by
  cases old <;> rfl

/-- The cells of all elements but the one the map has for a name. -/
def othersOf (dc : DataCache) (key : GoString) : List (Nat × DataEntry) :=
  dc.cells.filter fun c => dc.items.lookup key ≠ some c.1

/-- An element is added to the map and to the list, wherever on it. -/
theorem Linked.insert (h : dc.Linked) {entry : DataEntry} {elem : Nat}
    (hmem : (elem, entry) ∈ dc'.cells) (hsub : ∀ c ∈ dc.cells, c ∈ dc'.cells)
    (hitems : dc'.items = dc.items.insert entry.key elem)
    (hsum : sizeSum dc'.entries = sizeSum dc.entries + entry.size)
    (hsize : dc'.currentSize = dc.currentSize + entry.size) : dc'.Linked := by
  refine ⟨fun key elem' hitem => ?_, by rw [hsize, hsum, h.total]⟩
  rw [hitems, GoMap.lookup_insert_ite] at hitem
  split at hitem
  · next heq =>
    cases hitem
    exact ⟨entry, hmem, heq.symm⟩
  · obtain ⟨entry', hmem', hkey⟩ := h.indexed key elem' hitem
    exact ⟨entry', hsub _ hmem', hkey⟩

theorem Linked.insertFront (h : dc.Linked) (entry : DataEntry) :
    let dc' := { dc with
      order := dc.order.pushFront entry
      items := dc.items.insert entry.key dc.order.next
      currentSize := dc.currentSize + entry.size }
    dc'.cells = (dc.order.next, entry) :: dc.cells ∧ dc'.Linked := by
  intro dc'
  have hcells : dc'.cells = (dc.order.next, entry) :: dc.cells := LinkedList.cells_pushFront _ _
  refine ⟨hcells, h.insert (hcells ▸ List.mem_cons_self)
    (fun c hc => hcells ▸ List.mem_cons_of_mem _ hc) rfl ?_ rfl⟩
  rw [entries, hcells, List.map_cons, sizeSum_cons, add_comm]
  rfl

theorem Linked.insertBack (h : dc.Linked) (entry : DataEntry) :
    let dc' := { dc with
      order := dc.order.pushBack entry
      items := dc.items.insert entry.key dc.order.next
      currentSize := dc.currentSize + entry.size }
    dc'.cells = dc.cells ++ [(dc.order.next, entry)] ∧ dc'.Linked := by
  intro dc'
  have hcells : dc'.cells = dc.cells ++ [(dc.order.next, entry)] := LinkedList.cells_pushBack _ _
  refine ⟨hcells, h.insert (hcells ▸ by simp) (fun c hc => hcells ▸ by simp [hc]) rfl ?_ rfl⟩
  rw [entries, hcells, List.map_append, sizeSum_append]
  simp [sizeSum, entries]

/-- The locked section of `Put` before it evicts: the entry is at the front. -/
theorem Linked.putIndex (h : dc.Linked) (now : Time) (key s3Key : GoString) (written : Int) :
    (dc.putIndex now key s3Key written).Linked ∧ ∃ elem old, (dc.putIndex now key s3Key written).cells
          = (elem, putEntry old now key s3Key written) :: dc.othersOf key ∧
        (∀ key', (dc.putIndex now key s3Key written).items.lookup key'
          = if key' = key then some elem else dc.items.lookup key') ∧
        (∀ e, old = some e → e.key = key ∧ dc.items.lookup key = some elem ∧ (elem, e) ∈ dc.cells) ∧
        (old = none → dc.items.lookup key = none ∧ elem = dc.order.next) := by
  unfold DataCache.putIndex othersOf
  cases hitem : dc.items.lookup key with
  | some elem =>
    obtain ⟨entry, hmem, rfl⟩ := h.indexed key elem hitem
    have hval := (mem_cells.mp hmem).2
    dsimp only
    rw [hval]
    dsimp only
    obtain ⟨hcells, hlinked⟩ := h.bringFront hmem
      (g := fun old => { old with size := written, accessTime := now }) (fun _ => rfl)
      (dc.currentSize - entry.size + written) rfl
    refine ⟨hlinked, elem, some entry, ?_, fun key' => ?_, ?_, nofun⟩
    · rw [hcells]
      refine congrArg _ (List.filter_congr fun c _ => ?_)
      simp [eq_comm]
    · split
      · next heq => exact heq ▸ hitem
      · rfl
    · rintro e he
      cases he
      exact ⟨rfl, rfl, hmem⟩
  | none =>
    obtain ⟨hcells, hlinked⟩ := h.insertFront (putEntry none now key s3Key written)
    refine ⟨hlinked, dc.order.next, none, hcells.trans (congrArg _ ?_),
      fun _ => GoMap.lookup_insert_ite _ _ _ _, nofun, fun _ => ⟨rfl, rfl⟩⟩
    exact (List.filter_eq_self.mpr fun c _ => by simp).symm

/-- `Put` fails and changes nothing, or the entry comes to the front and `evict` follows. -/
theorem put_cases {now : Time} {failure : Option PutFailure} {s3Key etag : GoString} {data : Bytes}
    {res : Except GoError Unit} (hput : dc.put now failure s3Key etag data = some (res, dc')) :
    failure.isSome ∧ dc' = dc ∨ failure = none ∧ res = .ok () ∧ ∃ path,
      cachePath (dc.cacheKey s3Key etag) = some path ∧
      ({ dc with disk := dc.disk.insert path ⟨data, now⟩ }.putIndex now (dc.cacheKey s3Key etag)
        s3Key data.length).evict now = some dc' := by
  obtain ⟨path, hpath, hput⟩ := Option.bind_eq_some_iff.mp hput
  cases failure with
  | some f =>
    cases hput
    exact Or.inl ⟨rfl, rfl⟩
  | none =>
    obtain ⟨dc₁, hev, heq⟩ := Option.map_eq_some_iff.mp hput
    cases heq
    exact Or.inr ⟨rfl, rfl, path, hpath, hev⟩

/-! ## Invalidating -/

/-- The loop of `Invalidate` over some of the map. -/
theorem Linked.invalidateLoop (h : dc.Linked) {s3Key : GoString}
    {l : List (Sigma fun _ : GoString => Nat)} (hnodup : l.NodupKeys)
    (hmem : ∀ kv ∈ l, dc.items.lookup kv.1 = some kv.2)
    (hinv : l.foldlM (fun dc kv =>
      match dc.order.value kv.2 with
      | none => some dc
      | some entry => if entry.s3Key = s3Key then dc.removeEntry kv.1 kv.2 entry else some dc) dc
        = some dc') :
    dc'.Linked ∧ Shrinks dc dc' ∧
      ∀ kv ∈ l, ∀ elem entry, dc'.items.lookup kv.1 = some elem → (elem, entry) ∈ dc'.cells →
        entry.s3Key ≠ s3Key := by
  induction l generalizing dc with
  | nil =>
    cases hinv
    exact ⟨h, Shrinks.refl _, nofun⟩
  | cons kv l ih =>
    obtain ⟨hkv, hl⟩ := List.forall_mem_cons.mp hmem
    obtain ⟨hnotin, hnodup⟩ := List.nodupKeys_cons.mp hnodup
    obtain ⟨entry, hcell, hkey⟩ := h.indexed kv.1 kv.2 hkv
    rw [List.foldlM_cons, (mem_cells.mp hcell).2] at hinv
    dsimp only at hinv
    split at hinv
    · -- the entry is recorded under the S3 key
      obtain ⟨dc₁, hrem, hinv⟩ := Option.bind_eq_some_iff.mp hinv
      rw [← hkey] at hrem
      have hitems : dc₁.items = dc.items.erase entry.key := by
        obtain ⟨path, -, rfl⟩ := Option.map_eq_some_iff.mp hrem
        rfl
      have hl₁ : ∀ kv' ∈ l, dc₁.items.lookup kv'.1 = some kv'.2 := by
        intro kv' hkv'
        rw [hitems, GoMap.lookup_erase_ite, if_neg, hl kv' hkv']
        intro heq
        exact hnotin (List.mem_map.mpr ⟨kv', hkv', heq.trans hkey⟩)
      obtain ⟨h', hsub, hgone⟩ := ih (h.removeEntry hcell hrem) hnodup hl₁ hinv
      refine ⟨h', (shrinks_removeEntry hrem).trans hsub,
        List.forall_mem_cons.mpr ⟨fun elem e hitem _ => ?_, hgone⟩⟩
      have hitem := hsub.items kv.1 elem hitem
      rw [hitems] at hitem
      exact absurd hkey.symm (lookup_of_erase hitem).1
    · next hne =>
      obtain ⟨h', hsub, hgone⟩ := ih h hnodup hl hinv
      refine ⟨h', hsub, List.forall_mem_cons.mpr ⟨fun elem e hitem hcell' => ?_, hgone⟩⟩
      have hitem := hsub.items kv.1 elem hitem
      rw [hkv] at hitem
      cases hitem
      rw [eq_of_mem_cells (hsub.cells.subset hcell') hcell]
      exact hne

/-- `Invalidate` takes elements off, and leaves none of the map's that is recorded under
the S3 key. -/
theorem Linked.invalidate (h : dc.Linked) {s3Key : GoString}
    (hinv : dc.invalidate s3Key = some dc') :
    dc'.Linked ∧ Shrinks dc dc' ∧
      ∀ key elem entry, dc'.items.lookup key = some elem → (elem, entry) ∈ dc'.cells →
        entry.s3Key ≠ s3Key := by
  obtain ⟨h', hsub, hgone⟩ := h.invalidateLoop dc.items.nodupKeys
    (fun _ hkv => GoMap.lookup_eq_of_mem_entries hkv) hinv
  refine ⟨h', hsub, fun key elem entry hitem hcell => ?_⟩
  exact hgone ⟨key, elem⟩ (AList.mem_lookup_iff.mp (hsub.items key elem hitem)) elem entry hitem
    hcell

/-! ## Calls -/

/-- Whether a call is a `Get` that hits. -/
def hits (dc : DataCache) (ev : TimedDataOp) : Bool :=
  match ev.op with
  | .get s3Key etag openOk => ((dc.get ev.now openOk s3Key etag).bind Prod.fst).isSome
  | _ => false

/-- What a call does to the list. -/
inductive Effect (dc : DataCache) (ev : TimedDataOp) (dc' : DataCache) : Prop where
  /-- At most, elements are taken off. -/
  | shrinks (hno : dc.hits ev = false)
      (hput : ∀ s3Key etag data, ev.op = .put s3Key etag data none → dc' = dc ∧
        dc.put ev.now none s3Key etag data = none)
      (hsub : Shrinks dc dc')
  /-- A `Get` hits. -/
  | hit {s3Key etag : GoString} {openOk : Bool} {elem : Nat} {entry : DataEntry}
      (hop : ev.op = .get s3Key etag openOk) (hhit : dc.hits ev = true)
      (hitems : dc'.items = dc.items)
      (hitem : dc.items.lookup (dc.cacheKey s3Key etag) = some elem)
      (hmem : (elem, entry) ∈ dc.cells) (hkey : entry.key = dc.cacheKey s3Key etag)
      (hlive : dc.ttlExpired ev.now entry = false)
      (hcells : dc'.cells
        = (elem, { entry with accessTime := ev.now }) :: dc.cells.filter (·.1 ≠ elem))
  /-- A `Put` succeeds; `dc₁` is the cache before it evicts. -/
  | put {s3Key etag : GoString} {data : Bytes} {elem : Nat} {old : Option DataEntry}
      {dc₁ : DataCache} (hop : ev.op = .put s3Key etag data none)
      (hsome : (dc.put ev.now none s3Key etag data).isSome)
      (hold : ∀ e, old = some e → e.key = dc.cacheKey s3Key etag ∧
        dc.items.lookup (dc.cacheKey s3Key etag) = some elem ∧ (elem, e) ∈ dc.cells)
      (hnew : old = none → dc.items.lookup (dc.cacheKey s3Key etag) = none ∧
        elem = dc.order.next)
      (hlinked : dc₁.Linked) (hconf : dc₁.config = dc.config)
      (hcells : dc₁.cells
        = (elem, putEntry old ev.now (dc.cacheKey s3Key etag) s3Key data.length)
          :: dc.othersOf (dc.cacheKey s3Key etag))
      (hitems : ∀ key, dc₁.items.lookup key
        = if key = dc.cacheKey s3Key etag then some elem else dc.items.lookup key)
      (hev : dc₁.evict ev.now = some dc')

theorem Linked.perform (h : dc.Linked) (ev : TimedDataOp) :
    (dc.perform ev).Linked ∧ (dc.perform ev).config = dc.config ∧
      (dc.perform ev).sha256 = dc.sha256 ∧ dc.Effect ev (dc.perform ev) := by
  obtain ⟨now, op⟩ := ev
  -- nothing happens
  have hsame : (∀ s3Key etag data, op = .put s3Key etag data none →
      dc.put now none s3Key etag data = none) → dc.hits ⟨now, op⟩ = false →
      dc.Linked ∧ dc.config = dc.config ∧ dc.sha256 = dc.sha256 ∧ dc.Effect ⟨now, op⟩ dc :=
    fun hput hno => ⟨h, rfl, rfl, .shrinks hno (fun k e d hop => ⟨rfl, hput k e d hop⟩)
      (Shrinks.refl _)⟩
  cases op with
  | get s3Key etag openOk =>
    unfold DataCache.perform
    dsimp only
    cases hget : dc.get now openOk s3Key etag with
    | none => exact hsame nofun (by simp [hits, hget])
    | some res =>
      obtain ⟨cached, dc'⟩ := res
      obtain ⟨hlinked, ⟨rfl, hsub⟩ | ⟨elem, entry, hsome, hitems, hsha, hconf, hitem, hmem, hkey,
        hlive, hcells⟩⟩ := h.get hget
      · exact ⟨hlinked, hsub.config, hsub.sha256, .shrinks (by simp [hits, hget]) nofun hsub⟩
      · exact ⟨hlinked, hconf, hsha, .hit rfl (by simpa [hits, hget] using hsome) hitems hitem hmem
          hkey hlive hcells⟩
  | put s3Key etag data failure =>
    unfold DataCache.perform
    dsimp only
    cases hput : dc.put now failure s3Key etag data with
    | none =>
      refine hsame (fun k e d hop => ?_) rfl
      cases hop
      exact hput
    | some res =>
      obtain ⟨res, dc'⟩ := res
      rcases put_cases hput with ⟨hfail, rfl⟩ | ⟨rfl, -, path, hpath, hev⟩
      · refine hsame (fun k e d hop => ?_) rfl
        cases hop
        cases hfail
      · obtain ⟨hlinked, elem, old, hcells, hitems, hold, hnew⟩ :=
          (h.disk (dc.disk.insert path ⟨data, now⟩)).putIndex now (dc.cacheKey s3Key etag) s3Key
            data.length
        obtain ⟨hlinked', hsub, -⟩ := hlinked.evict hev
        exact ⟨hlinked', hsub.config.trans (config_putIndex ..),
          hsub.sha256.trans (sha256_putIndex ..), .put rfl (by rw [hput]; rfl) hold hnew hlinked
            (config_putIndex ..) hcells hitems hev⟩
  | invalidate s3Key =>
    unfold DataCache.perform
    dsimp only
    cases hinv : dc.invalidate s3Key with
    | none => exact hsame nofun rfl
    | some dc' =>
      obtain ⟨hlinked, hsub, -⟩ := h.invalidate hinv
      exact ⟨hlinked, hsub.config, hsub.sha256, .shrinks rfl nofun hsub⟩
  | evict =>
    unfold DataCache.perform
    dsimp only
    cases hev : dc.evict now with
    | none => exact hsame nofun rfl
    | some dc' =>
      obtain ⟨hlinked, hsub, -⟩ := h.evict hev
      exact ⟨hlinked, hsub.config, hsub.sha256, .shrinks rfl nofun hsub⟩

/-! ## Start -/

/-- A file system on which everything succeeds. -/
def allSucceed : ScanOutcome := ⟨true, true, fun _ => true, fun _ => true⟩

theorem linked_unscanned (sha256 : Sha256) (config : DataCacheConfig) (disk : Disk) :
    (unscanned sha256 config disk).Linked :=
  ⟨nofun, rfl⟩

/-- What `scanDir` does with a file that is no temporary one. -/
def addFile (dc : DataCache) (f : GoString × DiskFile) : DataCache :=
  { dc with
    order := dc.order.pushBack
      { key := f.1, s3Key := [], size := f.2.data.length, accessTime := f.2.modTime }
    items := dc.items.insert f.1 dc.order.next
    currentSize := dc.currentSize + f.2.data.length }

theorem mem_filesOf {disk : Disk} {shard : GoString} {f : GoString × DiskFile} :
    f ∈ Disk.filesOf disk shard ↔ disk.lookup (shard, f.1) = some f.2 := by
  unfold Disk.filesOf
  rw [List.mem_insertionSort, List.mem_map]
  constructor
  · rintro ⟨kv, hkv, rfl⟩
    obtain ⟨hkv, hshard⟩ := List.mem_filter.mp hkv
    rw [← of_decide_eq_true hshard]
    exact GoMap.lookup_eq_of_mem_entries hkv
  · intro h
    exact ⟨⟨(shard, f.1), f.2⟩, List.mem_filter.mpr ⟨AList.mem_lookup_iff.mp h, by simp⟩, rfl⟩

/-- The files of a shard directory that the scan indexes. -/
def indexedOf (disk : Disk) (o : ScanOutcome) (shard : GoString) : List (GoString × DiskFile) :=
  if shard.length ≠ 2 then []
  else if !o.readShard shard then []
  else (Disk.filesOf disk shard).filter fun f => !hasPrefix f.1 (gs ".tmp-") && o.info (shard, f.1)

/-- The files the scan indexes, each with its shard, in the order of the scan. -/
def scanned (disk : Disk) (o : ScanOutcome) : List (GoString × GoString × DiskFile) :=
  if !o.readDir then []
  else (Disk.shards disk).flatMap fun shard => (indexedOf disk o shard).map (shard, ·)

theorem mem_scanned {disk : Disk} {o : ScanOutcome} {sf : GoString × GoString × DiskFile}
    (h : sf ∈ scanned disk o) : sf.1.length = 2 ∧ hasPrefix sf.2.1 (gs ".tmp-") = false ∧
      disk.lookup (sf.1, sf.2.1) = some sf.2.2 := by
  unfold scanned at h
  split at h
  · cases h
  · obtain ⟨shard, -, hsf⟩ := List.mem_flatMap.mp h
    obtain ⟨f, hf, rfl⟩ := List.mem_map.mp hsf
    unfold indexedOf at hf
    split at hf
    · cases hf
    · next hlen =>
      split at hf
      · cases hf
      · obtain ⟨hf, hcond⟩ := List.mem_filter.mp hf
        rw [Bool.and_eq_true, Bool.not_eq_true'] at hcond
        exact ⟨not_not.mp hlen, hcond.1, mem_filesOf.mp hf⟩

theorem disk_foldl_addFile (l : List (GoString × DiskFile)) (dc : DataCache) :
    (l.foldl addFile dc).disk = dc.disk ∧ (l.foldl addFile dc).config = dc.config := by
  induction l generalizing dc with
  | nil => exact ⟨rfl, rfl⟩
  | cons f l ih => exact ih (dc.addFile f)

/-- The entry the scan makes of a file. -/
def fileEntry (f : GoString × DiskFile) : DataEntry :=
  { key := f.1, s3Key := [], size := f.2.data.length, accessTime := f.2.modTime }

theorem cells_foldl_addFile (l : List (GoString × DiskFile)) (dc : DataCache) :
    (l.foldl addFile dc).cells
        = dc.cells ++ (l.zipIdx dc.order.next).map (fun fi => (fi.2, fileEntry fi.1)) ∧
      (l.foldl addFile dc).order.next = dc.order.next + l.length := by
  induction l generalizing dc with
  | nil => exact ⟨(List.append_nil _).symm, rfl⟩
  | cons f l ih =>
    obtain ⟨hcells, hnext⟩ := ih (dc.addFile f)
    have hadd : (dc.addFile f).cells = dc.cells ++ [(dc.order.next, fileEntry f)] :=
      LinkedList.cells_pushBack _ _
    rw [List.foldl_cons]
    refine ⟨?_, ?_⟩
    · rw [hcells, hadd, List.append_assoc]
      rfl
    · rw [hnext, List.length_cons]
      show dc.order.next + 1 + l.length = _
      omega

/-- The scan of a shard directory indexes the files in turn. -/
theorem scanShard_eq (dc : DataCache) (o : ScanOutcome) (shard : GoString) :
    dc.scanShard o shard = (indexedOf dc.disk o shard).foldl addFile dc := by
  unfold scanShard indexedOf
  split
  · rfl
  · split
    · rfl
    · rw [List.foldl_filter]
      congr 1
      funext dc' f
      unfold scanFile
      cases hasPrefix f.1 (gs ".tmp-") <;> cases o.info (shard, f.1) <;> rfl

/-- The scan indexes the files in turn. -/
theorem scanDir_eq (dc : DataCache) (o : ScanOutcome) :
    dc.scanDir o = ((scanned dc.disk o).map Prod.snd).foldl addFile dc := by
  unfold scanDir scanned
  split
  · rfl
  · generalize Disk.shards dc.disk = shards
    -- the directory stays as it is while it is scanned
    generalize hdisk : dc.disk = disk
    induction shards generalizing dc with
    | nil => rfl
    | cons shard shards ih =>
      rw [List.foldl_cons, scanShard_eq, hdisk, ih _ ((disk_foldl_addFile _ _).1.trans hdisk),
        List.flatMap_cons, List.map_append, List.foldl_append, List.map_map]
      congr 1
      exact congrArg (List.foldl addFile dc) (List.map_id _).symm

/-- What holds of the cache before it looks at its directory, and stays when the entry of
a file goes to the back of the list, holds afterwards. -/
theorem scanDir_induct {I : DataCache → Prop} (dc : DataCache) (o : ScanOutcome)
    (hadd : ∀ dc' : DataCache, ∀ shard f, I dc' → hasPrefix f.1 (gs ".tmp-") = false →
      dc.disk.lookup (shard, f.1) = some f.2 → I (dc'.addFile f)) (h : I dc) :
    I (dc.scanDir o) := by
  rw [scanDir_eq]
  have hfiles : ∀ sf ∈ scanned dc.disk o, hasPrefix sf.2.1 (gs ".tmp-") = false ∧
      dc.disk.lookup (sf.1, sf.2.1) = some sf.2.2 := fun sf hsf => (mem_scanned hsf).2
  generalize scanned dc.disk o = l at hfiles
  generalize hstart : dc = start at h ⊢
  clear hstart
  induction l generalizing start with
  | nil => exact h
  | cons sf l ih =>
    obtain ⟨⟨htemp, hfile⟩, hl⟩ := List.forall_mem_cons.mp hfiles
    exact ih hl _ (hadd start sf.1 sf.2 h htemp hfile)

/-- What `NewDataCache` makes of a directory: the map and the list fit together, and every
entry is that of a file. -/
theorem newDataCache_spec {sha256 : Sha256} {config : DataCacheConfig} {o : ScanOutcome}
    {now : Time} {disk : Disk} (h : newDataCache sha256 config o now disk = some (.ok dc)) :
    dc.Linked ∧ dc.sha256 = sha256 ∧ dc.config = (unscanned sha256 config disk).config ∧
      (∀ path file, dc.disk.lookup path = some file → disk.lookup path = some file) ∧
      ∀ c ∈ dc.cells, ∃ shard file, disk.lookup (shard, c.2.key) = some file ∧
        hasPrefix c.2.key (gs ".tmp-") = false ∧ c.2.accessTime = file.modTime := by
  unfold newDataCache at h
  split at h
  · cases h
  · obtain ⟨dc₁, hev, heq⟩ := Option.map_eq_some_iff.mp h
    cases heq
    obtain ⟨hlinked, hsha, hconf, hdisk, hfiles⟩ :=
      scanDir_induct (unscanned sha256 config disk) o
      (I := fun dc₁ => dc₁.Linked ∧ dc₁.sha256 = sha256 ∧
        dc₁.config = (unscanned sha256 config disk).config ∧ dc₁.disk = disk ∧
        ∀ c ∈ dc₁.cells, ∃ shard file, disk.lookup (shard, c.2.key) = some file ∧
          hasPrefix c.2.key (gs ".tmp-") = false ∧ c.2.accessTime = file.modTime)
      (fun dc₁ shard f hI htemp hfile => by
        obtain ⟨hlinked, hsha, hconf, hdisk, hfiles⟩ := hI
        obtain ⟨hcells, hlinked'⟩ := hlinked.insertBack
          { key := f.1, s3Key := [], size := f.2.data.length, accessTime := f.2.modTime }
        refine ⟨hlinked', hsha, hconf, hdisk, fun c hc => ?_⟩
        have hc : c ∈ dc₁.cells ++ [_] := hcells ▸ hc
        rcases List.mem_append.mp hc with hc | hc
        · exact hfiles c hc
        · rw [List.mem_singleton.mp hc]
          exact ⟨shard, f.2, hfile, htemp, rfl⟩)
      ⟨linked_unscanned _ _ _, rfl, rfl, rfl, nofun⟩
    obtain ⟨hlinked', hsub, -⟩ := hlinked.evict hev
    refine ⟨hlinked', hsub.sha256.trans hsha, hsub.config.trans hconf, fun path file hfile => ?_,
      fun c hc => hfiles c (hsub.cells.subset hc)⟩
    rw [← hdisk]
    exact (drops_evict hev).diskSub.files path file hfile

end DataCache

end S3Gateway
