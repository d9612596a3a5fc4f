import S3Gateway.Cache.DataProof
import S3Gateway.Cache.DataSections

/-!
# The data cache's accounting

The index of the cache is kept twice, as a map and as a list in order of use, and
the sizes on the list are added up in `currentSize`. `DataCache.Accounted` says that
the three agree. Every locked section keeps that, but for one: a `Get` whose file is
gone takes the lock again and forgets the element it found before, although the
entry may have been dropped or replaced in the meantime.

`accounted_iff_current`: whatever calls are interleaved, the accounts agree in every
state exactly if each such `Get` finds the element still in the index (or, its entry
being gone, subtracts nothing). `invalidated_get_breaks_accounts` is a run where the
entry is invalidated under a `Get`.
-/

namespace S3Gateway

open Lib

namespace DataCache

variable {dc dc' : DataCache}

theorem Accounted.currentSize_nonneg (h : dc.Accounted) : 0 ≤ dc.currentSize := by
  rw [h.total]
  exact LinkedList.total_nonneg h.nonneg

/-- No key is on the list twice. -/
theorem Accounted.key_injective (h : dc.Accounted) {e₁ e₂ : Nat} {entry₁ entry₂ : DataEntry}
    (h₁ : e₁ ∈ dc.order.order) (h₂ : e₂ ∈ dc.order.order) (hv₁ : dc.order.value e₁ = some entry₁)
    (hv₂ : dc.order.value e₂ = some entry₂) (hkey : entry₁.key = entry₂.key) : e₁ = e₂ := by
  have hl₁ := h.listed e₁ h₁ entry₁ hv₁
  rw [hkey, h.listed e₂ h₂ entry₂ hv₂] at hl₁
  exact (Option.some.inj hl₁).symm

/-- The accounts say nothing about the disk. -/
theorem Accounted.disk (h : dc.Accounted) (disk : GoMap (GoString × GoString) DiskFile) :
    { dc with disk := disk }.Accounted :=
  ⟨h.listed, h.indexed, h.total, h.nonneg⟩

/-! ## Locked sections -/

/-- Dropping the entry of an element in the index. -/
theorem Accounted.dropEntry (h : dc.Accounted) {key : GoString} {elem : Nat} {entry : DataEntry}
    (hitem : dc.items.lookup key = some elem) (hval : dc.order.value elem = some entry) :
    (dc.dropEntry key elem entry).Accounted := by
  obtain ⟨hmem, entry', hval', hkey⟩ := h.indexed key elem hitem
  rw [hval] at hval'
  cases hval'
  refine ⟨?_, ?_, ?_, ?_⟩
  · intro e he entry' hv
    obtain ⟨hne, he⟩ := LinkedList.mem_order_remove.mp he
    refine (GoMap.lookup_erase_ite _ _ _).trans ?_
    rw [if_neg, h.listed e he entry' hv]
    intro hk
    exact hne (h.key_injective he hmem hv hval (hk.trans hkey.symm))
  · intro k e he
    rw [show (dc.dropEntry key elem entry).items = dc.items.erase key from rfl,
      GoMap.lookup_erase_ite] at he
    split at he
    · cases he
    · next hne =>
      obtain ⟨hm, entry', hv, hk⟩ := h.indexed k e he
      refine ⟨LinkedList.mem_order_remove.mpr ⟨?_, hm⟩, entry', hv, hk⟩
      rintro rfl
      rw [hval] at hv
      cases hv
      exact hne (hk.symm.trans hkey)
  · show dc.currentSize - entry.size = (dc.order.remove elem).total DataEntry.size
    rw [h.total, LinkedList.total_eq_add_remove hmem hval]
    omega
  · intro e he
    exact h.nonneg e (LinkedList.mem_order_remove.mp he).2

theorem Accounted.removeEntry (h : dc.Accounted) {key : GoString} {elem : Nat} {entry : DataEntry}
    (hitem : dc.items.lookup key = some elem) (hval : dc.order.value elem = some entry)
    (hrem : dc.removeEntry key elem entry = some dc') : dc'.Accounted := by
  obtain ⟨path, -, rfl⟩ := Option.map_eq_some_iff.mp hrem
  exact (h.dropEntry hitem hval).disk _

theorem Accounted.drops (h : dc.Accounted) (hd : Drops dc dc') : dc'.Accounted :=
  hd.induct (I := Accounted) (fun h hitem hval hrem => h.removeEntry (hitem h) hval hrem) h

/-- Changing the entry of an element on the list, except for its key, and moving it. -/
theorem Accounted.touch (h : dc.Accounted) {elem : Nat} {entry : DataEntry}
    (hmem : elem ∈ dc.order.order) (hval : dc.order.value elem = some entry)
    (g : DataEntry → DataEntry) (hkey : (g entry).key = entry.key) (hsize : 0 ≤ (g entry).size) :
    { dc with
      currentSize := dc.currentSize - entry.size + (g entry).size
      order := (dc.order.update elem g).moveToFront elem }.Accounted := by
  have hv : ∀ e, ((dc.order.update elem g).moveToFront elem).value e
      = if e = elem then some (g entry) else dc.order.value e := by
    intro e
    rw [LinkedList.value_moveToFront, LinkedList.value_update, hval]
    rfl
  have hm : ∀ e, e ∈ ((dc.order.update elem g).moveToFront elem).order ↔ e ∈ dc.order.order := by
    intro e
    rw [LinkedList.mem_order_moveToFront, LinkedList.order_update]
  refine ⟨?_, ?_, ?_, ?_⟩
  · intro e he entry' hv'
    rw [hm] at he
    rw [hv] at hv'
    split at hv'
    · next heq =>
      cases hv'
      rw [heq, hkey]
      exact h.listed elem hmem entry hval
    · exact h.listed e he entry' hv'
  · intro k e he
    obtain ⟨hin, entry', hv', hk⟩ := h.indexed k e he
    refine ⟨(hm e).mpr hin, ?_⟩
    rw [hv]
    split
    · next heq =>
      rw [heq, hval] at hv'
      cases hv'
      exact ⟨_, rfl, hkey.trans hk⟩
    · exact ⟨entry', hv', hk⟩
  · show dc.currentSize - entry.size + (g entry).size = _
    rw [LinkedList.total_moveToFront, LinkedList.total_update hmem hval, h.total]
  · intro e he entry' hv'
    rw [hm] at he
    rw [hv] at hv'
    split at hv'
    · cases hv'
      exact hsize
    · exact h.nonneg e he entry' hv'

theorem Accounted.getIndex (h : dc.Accounted) {now : Time} {key : GoString} {found : Option Nat}
    (hget : dc.getIndex now key = some (found, dc')) : dc'.Accounted := by
  rcases getIndex_cases hget with ⟨-, hd⟩ | ⟨elem, entry, -, hitem, hval, rfl⟩
  · exact h.drops hd
  · obtain ⟨hmem, -⟩ := h.indexed key elem hitem
    have htouch := h.touch hmem hval (fun entry => { entry with accessTime := now }) rfl
      (h.nonneg elem hmem entry hval)
    rwa [Int.sub_add_cancel] at htouch

/-- A new entry under a new key. -/
theorem Accounted.insertFront (h : dc.Accounted) {key : GoString}
    (hitem : dc.items.lookup key = none) (entry : DataEntry) (hkey : entry.key = key)
    (hsize : 0 ≤ entry.size) :
    { dc with
      order := dc.order.pushFront entry
      items := dc.items.insert key dc.order.next
      currentSize := dc.currentSize + entry.size }.Accounted := by
  -- the new element is the only one for the key
  have hfresh : ∀ e ∈ dc.order.order, e ≠ dc.order.next := by
    rintro e he rfl
    exact dc.order.next_notMem he
  refine ⟨?_, ?_, ?_, ?_⟩
  · intro e he entry' hv
    rw [LinkedList.value_pushFront] at hv
    refine (GoMap.lookup_insert_ite _ _ _ _).trans ?_
    split at hv
    · next heq =>
      cases hv
      rw [if_pos hkey, heq]
    · next hne =>
      have he : e ∈ dc.order.order := (List.mem_cons.mp he).resolve_left hne
      have hlisted := h.listed e he entry' hv
      rw [if_neg, hlisted]
      intro hk
      rw [hk, hitem] at hlisted
      cases hlisted
  · intro k e he
    rw [GoMap.lookup_insert_ite] at he
    rw [LinkedList.order_pushFront, LinkedList.value_pushFront]
    split at he
    · next heq =>
      cases he
      exact ⟨List.mem_cons_self, entry, if_pos rfl, hkey.trans heq.symm⟩
    · obtain ⟨hin, entry', hv, hk⟩ := h.indexed k e he
      exact ⟨List.mem_cons_of_mem _ hin, entry', (if_neg (hfresh e hin)).trans hv, hk⟩
  · show dc.currentSize + entry.size = (dc.order.pushFront entry).total DataEntry.size
    rw [LinkedList.total_pushFront, h.total]
    exact Int.add_comm _ _
  · intro e he entry' hv
    rw [LinkedList.value_pushFront] at hv
    split at hv
    · cases hv
      exact hsize
    · next hne => exact h.nonneg e ((List.mem_cons.mp he).resolve_left hne) entry' hv

/-- The accounts do not depend on the order of the list. -/
theorem Accounted.reorder (h : dc.Accounted) {order : LinkedList DataEntry}
    (hperm : order.order.Perm dc.order.order) (hvalue : ∀ i, order.value i = dc.order.value i) :
    { dc with order := order }.Accounted := by
  refine ⟨fun e he entry hv => ?_, fun k e he => ?_, ?_, fun e he entry hv => ?_⟩
  · exact h.listed e (hperm.mem_iff.mp he) entry ((hvalue e).symm.trans hv)
  · obtain ⟨hin, entry, hv, hk⟩ := h.indexed k e he
    exact ⟨hperm.mem_iff.mpr hin, entry, (hvalue e).trans hv, hk⟩
  · exact h.total.trans (LinkedList.total_congr hperm fun i _ => hvalue i).symm
  · exact h.nonneg e (hperm.mem_iff.mp he) entry ((hvalue e).symm.trans hv)

theorem Accounted.putIndex (h : dc.Accounted) (now : Time) (key s3Key : GoString) (written : Nat) :
    (dc.putIndex now key s3Key written).Accounted := by
  unfold DataCache.putIndex
  cases hitem : dc.items.lookup key with
  | some elem =>
    obtain ⟨hmem, entry, hval, -⟩ := h.indexed key elem hitem
    simp only [hval]
    exact h.touch hmem hval (fun old => { old with size := written, accessTime := now }) rfl
      (Int.natCast_nonneg written)
  | none =>
    exact h.insertFront hitem { key, s3Key, size := written, accessTime := now } rfl
      (Int.natCast_nonneg written)

/-! ## A `Get` whose file is gone -/

/-- What `Get` forgets after a failed `os.Open` is still in the index, or is gone and
counts nothing. -/
def ForgetsCurrent (dc : DataCache) (key : GoString) (elem : Nat) : Prop :=
  ∀ entry, dc.order.value elem = some entry →
    dc.items.lookup key = some elem ∨
      elem ∉ dc.order.order ∧ dc.items.lookup key = none ∧ entry.size = 0

theorem Accounted.forget (h : dc.Accounted) {key : GoString} {elem : Nat}
    (hcur : dc.ForgetsCurrent key elem) : (dc.forget key elem).Accounted := by
  unfold DataCache.forget
  cases hval : dc.order.value elem with
  | none => exact h
  | some entry =>
    rcases hcur entry hval with hitem | ⟨hnot, hnone, hsize⟩
    · exact h.dropEntry hitem hval
    · -- nothing is taken off the list, nothing out of the map, nothing off the sum
      have horder : (dc.order.remove elem).order = dc.order.order := List.erase_of_not_mem hnot
      have hitems : ∀ k, (dc.items.erase key).lookup k = dc.items.lookup k := by
        intro k
        rw [GoMap.lookup_erase_ite]
        split
        · next heq => rw [heq, hnone]
        · rfl
      refine ⟨?_, ?_, ?_, ?_⟩
      · intro e he
        rw [show (dc.dropEntry key elem entry).order.order = dc.order.order from horder] at he
        intro entry' hv
        exact (hitems _).trans (h.listed e he entry' hv)
      · intro k e he
        rw [show (dc.dropEntry key elem entry).order.order = dc.order.order from horder]
        exact h.indexed k e ((hitems k).symm.trans he)
      · show dc.currentSize - entry.size = (dc.order.remove elem).total DataEntry.size
        rw [LinkedList.total_remove_of_notMem hnot, h.total, hsize, Int.sub_zero]
      · intro e he
        rw [show (dc.dropEntry key elem entry).order.order = dc.order.order from horder] at he
        exact h.nonneg e he

/-- Forgetting anything else breaks the accounts. -/
theorem Accounted.forgetsCurrent (h : dc.Accounted) {key : GoString} {elem : Nat}
    (h' : (dc.forget key elem).Accounted) : dc.ForgetsCurrent key elem := by
  intro entry hval
  unfold DataCache.forget at h'
  rw [hval] at h'
  by_cases hmem : elem ∈ dc.order.order
  · -- were it not under this key, the map would still have it, and the list not
    refine Or.inl ?_
    have hitem := h.listed elem hmem entry hval
    by_cases hk : entry.key = key
    · rwa [hk] at hitem
    · have hleft : (dc.dropEntry key elem entry).items.lookup entry.key = some elem := by
        refine (GoMap.lookup_erase_ite _ _ _).trans ?_
        rw [if_neg hk, hitem]
      obtain ⟨hin, -⟩ := h'.indexed _ _ hleft
      exact absurd rfl (LinkedList.mem_order_remove.mp hin).1
  · refine Or.inr ⟨hmem, ?_, ?_⟩
    · -- an element under the key would stay on the list without a place in the map
      cases hitem : dc.items.lookup key with
      | none => rfl
      | some e =>
        exfalso
        obtain ⟨hin, entry', hval', hk⟩ := h.indexed key e hitem
        have hne : e ≠ elem := fun heq => hmem (heq ▸ hin)
        have hlisted := h'.listed e (LinkedList.mem_order_remove.mpr ⟨hne, hin⟩) entry' hval'
        rw [hk, show (dc.dropEntry key elem entry).items.lookup key = none from
          AList.lookup_erase key dc.items] at hlisted
        cases hlisted
    · have htotal : dc.currentSize - entry.size = (dc.order.remove elem).total DataEntry.size :=
        h'.total
      rw [LinkedList.total_remove_of_notMem hmem, h.total] at htotal
      omega

end DataCache

/-! ## Interleavings -/

/-- The step is no `Get` forgetting an element that is not current. -/
def DataSection.Current {β : Type} : DataSection β → DataCache → Prop
  | .forget key elem, dc => dc.ForgetsCurrent key elem
  | _, _ => True

/-- The event is no `Get` forgetting an element that is not current. -/
def DataEvent.Current (s : DataCache.Calls) : DataEvent → Prop
  | .begin _ => True
  | .next i _ => s.Next (fun _ e dc => e.Current dc) i

namespace DataCache

variable {dc : DataCache}

theorem Accounted.guard {α : Type} (h : dc.Accounted) {r : Option (α × DataCache)}
    (hr : ∀ a dc', r = some (a, dc') → dc'.Accounted) : (dc.guard r).2.Accounted := by
  rcases r with _ | ⟨a, dc'⟩
  · exact h
  · exact hr a dc' rfl

/-- One step keeps the accounts. -/
theorem Accounted.handle (h : dc.Accounted) (o : DiskOutcome) {β : Type} {e : DataSection β}
    (hcur : e.Current dc) : (DataCache.handle o e dc).2.Accounted := by
  cases e with
  | lookup key => exact h.guard fun found dc' hget => h.getIndex hget
  | openFile path => exact h
  | forget key elem => exact h.forget hcur
  | mkdirAll dir => exact h
  | createTemp dir =>
    simp only [DataCache.handle]
    split
    · exact h.disk _
    · exact h
  | copy tmpPath data => exact h.disk _
  | close tmpPath => exact h
  | remove path => exact h.disk _
  | rename tmpPath path =>
    simp only [DataCache.handle]
    split
    · exact h.disk _
    · exact h
  | insert key s3Key written => exact h.putIndex o.now key s3Key written
  | evict =>
    refine h.guard fun _ dc' hev => ?_
    obtain ⟨dc₁, hev, heq⟩ := Option.map_eq_some_iff.mp hev
    cases heq
    exact h.drops (drops_evict hev)
  | invalidate s3Key =>
    refine h.guard fun _ dc' hinv => ?_
    obtain ⟨dc₁, hinv, heq⟩ := Option.map_eq_some_iff.mp hinv
    cases heq
    exact h.drops (drops_invalidate hinv)

/-- A step after which the accounts agree was no other. -/
theorem Accounted.current_of_handle (h : dc.Accounted) {o : DiskOutcome} {β : Type}
    (e : DataSection β) (h' : (DataCache.handle o e dc).2.Accounted) : e.Current dc := by
  cases e with
  | forget key elem => exact h.forgetsCurrent h'
  | _ => trivial

namespace Calls

theorem accounted_step {s : Calls} (h : s.shared.Accounted) (e : DataEvent)
    (hcur : e.Current s) : (s.step e).shared.Accounted := by
  cases e with
  | begin call => exact h
  | next i o => exact Pool.step_shared h hcur fun e he => h.handle o he

theorem current_of_accounted_step {s : Calls} (h : s.shared.Accounted) (e : DataEvent)
    (h' : (s.step e).shared.Accounted) : e.Current s := by
  cases e with
  | begin call => trivial
  | next i o =>
    simp only [Calls.step, Pool.step] at h'
    simp only [DataEvent.Current, Pool.Next]
    generalize s.threads[i]? = thread at h' ⊢
    rcases thread with _ | _ | ⟨e, k⟩
    · trivial
    · trivial
    · exact h.current_of_handle e h'

/-- The accounts agree in every state of a run exactly if every `Get` whose file is
gone forgets an element that is still current. -/
theorem accounted_iff_current (s : Calls) (hs : s.shared.Accounted) (events : List DataEvent) :
    Throughout Calls.step (fun s => s.shared.Accounted ∧ 0 ≤ s.shared.currentSize) s events ↔
      EachStep Calls.step (fun s e => e.Current s) s events :=
  throughout_iff_eachStep (fun _ e h hcur => accounted_step h e hcur)
    (fun _ h => ⟨h, h.currentSize_nonneg⟩) (fun _ e h h' => current_of_accounted_step h e h'.1) hs

/-- An empty cache of the given size, without calls; all digests are zero. -/
def empty (maxSize : Int) : Calls where
  shared :=
    { sha256 := ⟨fun _ => List.replicate 32 0, fun _ => rfl⟩
      config := ⟨maxSize, 0⟩
      items := ∅
      order := .empty
      currentSize := 0
      disk := ∅ }
  threads := []

theorem accounted_empty (maxSize : Int) : (empty maxSize).shared.Accounted where
  listed := by
    intro elem he
    cases he
  indexed := by
    intro key elem he
    cases he
  total := rfl
  nonneg := by
    intro elem he
    cases he

/-- Everything succeeds, at time 0. -/
def fine : DiskOutcome := ⟨0, true, [], 0⟩

/-- One byte is put, then found. -/
theorem accounted_put_get :
    Throughout Calls.step (fun s => s.shared.Accounted ∧ 0 ≤ s.shared.currentSize) (empty 10)
      [.begin (.put [] [] [1]), .next 0 fine, .next 0 fine, .next 0 fine, .next 0 fine,
        .next 0 fine, .next 0 fine, .next 0 fine, .begin (.get [] []), .next 1 fine,
        .next 1 fine] :=
  (accounted_iff_current _ (accounted_empty 10) _).mpr
    ⟨trivial, trivial, trivial, trivial, trivial, trivial, trivial, trivial, trivial, trivial,
      trivial, trivial⟩

/-- One byte is put; a `Get` finds the entry, the entry is invalidated, and the `Get`
misses the file and subtracts the size a second time. No call fails. -/
theorem invalidated_get_breaks_accounts :
    (empty 10).shared.Accounted ∧
      ¬ Throughout Calls.step (fun s => s.shared.Accounted ∧ 0 ≤ s.shared.currentSize) (empty 10)
        [.begin (.put [] [] [1]), .next 0 fine, .next 0 fine, .next 0 fine, .next 0 fine,
          .next 0 fine, .next 0 fine, .next 0 fine, .begin (.get [] []), .next 1 fine,
          .begin (.invalidate []), .next 2 fine, .next 1 fine, .next 1 fine] := by
  refine ⟨accounted_empty 10, fun h => ?_⟩
  have hlast := h.last.2
  revert hlast
  decide

end Calls

end DataCache

end S3Gateway
