import Mathlib

/-!
# Maps and linked lists with element handles

Two container types with the interface their users rely on:

- `GoMap κ ν`: a finite map. The entries of the underlying association list
  stand for the unspecified order in which a map is ranged over.
- `LinkedList α`: a doubly linked list whose elements are named by handles, as
  pointers to list elements are. A handle stays valid after its element was
  taken off the list (the value can still be read through it); removing or
  moving an element that is not on the list does nothing. The structure carries
  what makes handles usable: the list holds each handle once, every handle on it
  has a value, and the next handle to be given out is new.
-/

namespace S3Gateway.Lib

/-- A finite map. -/
abbrev GoMap (κ ν : Type) : Type := AList (fun _ : κ => ν)

namespace GoMap

variable {κ ν : Type} [DecidableEq κ]

theorem lookup_insert_ite (m : GoMap κ ν) (k k' : κ) (v : ν) :
    (m.insert k v).lookup k' = if k' = k then some v else m.lookup k' := by
  by_cases h : k' = k
  · subst h
    rw [if_pos rfl]
    exact AList.lookup_insert m
  · rw [if_neg h]
    exact AList.lookup_insert_ne h

theorem lookup_erase_ite (m : GoMap κ ν) (k k' : κ) :
    (m.erase k).lookup k' = if k' = k then none else m.lookup k' := by
  by_cases h : k' = k
  · subst h
    rw [if_pos rfl]
    exact AList.lookup_erase k' m
  · rw [if_neg h]
    exact AList.lookup_erase_ne h

theorem mem_iff_lookup (m : GoMap κ ν) (k : κ) : k ∈ m ↔ ∃ v, m.lookup k = some v := by
  rw [← AList.lookup_isSome, Option.isSome_iff_exists]

theorem notMem_iff_lookup (m : GoMap κ ν) (k : κ) : k ∉ m ↔ m.lookup k = none :=
  AList.lookup_eq_none.symm

theorem erase_insert {m : GoMap κ ν} {k : κ} (h : k ∉ m) (v : ν) : (m.insert k v).erase k = m := by
  apply AList.ext
  rw [AList.insert_of_notMem h]
  exact (List.kerase_cons_eq rfl)

/-- An entry of the underlying list is what `lookup` finds. -/
theorem lookup_eq_of_mem_entries {m : GoMap κ ν} {k : κ} {v : ν}
    (h : (⟨k, v⟩ : Sigma fun _ : κ => ν) ∈ m.entries) : m.lookup k = some v :=
  AList.mem_lookup_iff.mpr h

/-- Filling a map from a list that repeats no key: a lookup finds the entry made
from the list, or what was there before. -/
theorem lookup_foldl_insert {τ : Type} (f : τ → κ) (g : τ → ν) (l : List τ) (m : GoMap κ ν)
    (hl : l.Pairwise fun a b => f a ≠ f b) (k : κ) (v : ν) :
    AList.lookup k (l.foldl (fun (m : GoMap κ ν) x => m.insert (f x) (g x)) m) = some v ↔
      (∃ x ∈ l, f x = k ∧ g x = v) ∨ (∀ x ∈ l, f x ≠ k) ∧ m.lookup k = some v := by
  induction l generalizing m with
  | nil => simp
  | cons x l ih =>
    obtain ⟨hx, hl⟩ := List.pairwise_cons.mp hl
    rw [List.foldl_cons, ih _ hl, lookup_insert_ite]
    by_cases hk : k = f x
    · -- the head decides: no later entry has its key
      subst hk
      have hne : ∀ y ∈ l, f y ≠ f x := fun y hy => (hx y hy).symm
      constructor
      · rintro (⟨y, hy, h, -⟩ | ⟨-, h⟩)
        · exact absurd h (hne y hy)
        · rw [if_pos rfl] at h
          exact Or.inl ⟨x, List.mem_cons_self, rfl, Option.some.inj h⟩
      · rintro (⟨y, hy, h, hv⟩ | ⟨h, -⟩)
        · rcases List.mem_cons.mp hy with rfl | hy
          · exact Or.inr ⟨hne, by rw [if_pos rfl, hv]⟩
          · exact absurd h (hne y hy)
        · exact absurd rfl (h x List.mem_cons_self)
    · rw [if_neg hk]
      constructor
      · rintro (⟨y, hy, h⟩ | ⟨h, hm⟩)
        · exact Or.inl ⟨y, List.mem_cons_of_mem _ hy, h⟩
        · exact Or.inr ⟨List.forall_mem_cons.mpr ⟨fun h => hk h.symm, h⟩, hm⟩
      · rintro (⟨y, hy, h, hv⟩ | ⟨h, hm⟩)
        · rcases List.mem_cons.mp hy with rfl | hy
          · exact absurd h.symm hk
          · exact Or.inl ⟨y, hy, h, hv⟩
        · exact Or.inr ⟨(List.forall_mem_cons.mp h).2, hm⟩

/-- Filling a map from any list: what a lookup finds was made from the list or was
there before. -/
theorem of_lookup_foldl_insert {τ : Type} (f : τ → κ) (g : τ → ν) (l : List τ) (m : GoMap κ ν)
    {k : κ} {v : ν}
    (h : AList.lookup k (l.foldl (fun (m : GoMap κ ν) x => m.insert (f x) (g x)) m) = some v) :
    (∃ x ∈ l, f x = k ∧ g x = v) ∨ m.lookup k = some v := by
  induction l generalizing m with
  | nil => exact Or.inr h
  | cons x l ih =>
    rcases ih _ h with ⟨y, hy, hyk⟩ | hx
    · exact Or.inl ⟨y, List.mem_cons_of_mem _ hy, hyk⟩
    · rw [lookup_insert_ite] at hx
      split at hx
      · next hk => exact Or.inl ⟨x, List.mem_cons_self, hk.symm, Option.some.inj hx⟩
      · exact Or.inr hx

/-- Every key the list mentions ends up in the map. -/
theorem mem_foldl_insert {τ : Type} (f : τ → κ) (g : τ → ν) (l : List τ) (m : GoMap κ ν)
    {k : κ} (h : (∃ x ∈ l, f x = k) ∨ k ∈ m) :
    k ∈ l.foldl (fun (m : GoMap κ ν) x => m.insert (f x) (g x)) m := by
  induction l generalizing m with
  | nil =>
    rcases h with ⟨x, hx, -⟩ | h
    · cases hx
    · exact h
  | cons x l ih =>
    refine ih _ ?_
    rcases h with ⟨y, hy, rfl⟩ | h
    · rcases List.mem_cons.mp hy with rfl | hy
      · exact Or.inr ((AList.mem_insert _).mpr (Or.inl rfl))
      · exact Or.inl ⟨y, hy, rfl⟩
    · exact Or.inr ((AList.mem_insert _).mpr (Or.inr h))

/-- Two maps are the two directions of one bijection. -/
def Inverse [DecidableEq ν] (f : GoMap κ ν) (g : GoMap ν κ) : Prop :=
  ∀ k v, f.lookup k = some v ↔ g.lookup v = some k

section Inverse

variable [DecidableEq ν] {f : GoMap κ ν} {g : GoMap ν κ} {k k' : κ} {v : ν}

/-- A pair with both sides unused can be added. -/
theorem Inverse.insert (h : Inverse f g) (hk : f.lookup k = none) (hv : g.lookup v = none) :
    Inverse (f.insert k v) (g.insert v k) := by
  intro k₁ v₁
  rw [lookup_insert_ite, lookup_insert_ite]
  by_cases hk₁ : k₁ = k
  · subst hk₁
    have : g.lookup v₁ ≠ some k₁ := by
      rw [Ne, ← h, hk]
      exact nofun
    by_cases hv₁ : v₁ = v
    · simp [hv₁]
    · simp [hv₁, this, Ne.symm hv₁]
  · by_cases hv₁ : v₁ = v
    · subst hv₁
      have : f.lookup k₁ ≠ some v₁ := by
        rw [Ne, h, hv]
        exact nofun
      simp [hk₁, this, Ne.symm hk₁]
    · simp [hk₁, hv₁, h k₁ v₁]

/-- A pair can be taken out. -/
theorem Inverse.erase (h : Inverse f g) (hk : f.lookup k = some v) :
    Inverse (f.erase k) (g.erase v) := by
  intro k₁ v₁
  rw [lookup_erase_ite, lookup_erase_ite]
  by_cases hk₁ : k₁ = k
  · subst hk₁
    by_cases hv₁ : v₁ = v
    · simp [hv₁]
    · have : g.lookup v₁ ≠ some k₁ := by
        rw [Ne, ← h, hk]
        exact fun he => hv₁ (Option.some.inj he).symm
      simp [hv₁, this]
  · by_cases hv₁ : v₁ = v
    · subst hv₁
      have : f.lookup k₁ ≠ some v₁ := by
        rw [Ne, h, (h k v₁).mp hk]
        exact fun he => hk₁ (Option.some.inj he).symm
      simp [hk₁, this]
    · simp [hk₁, hv₁, h k₁ v₁]

/-- A value can be given another key, if that key is unused. -/
theorem Inverse.rekey (h : Inverse f g) (hk : f.lookup k = some v)
    (hk' : k' ≠ k → f.lookup k' = none) : Inverse ((f.erase k).insert k' v) (g.insert v k') := by
  have herase : (f.erase k).lookup k' = none := by
    rw [lookup_erase_ite]
    split
    · rfl
    · next hne => exact hk' hne
  have hins := (h.erase hk).insert herase (AList.lookup_erase v g)
  intro k₁ v₁
  rw [hins k₁ v₁, lookup_insert_ite, lookup_insert_ite, lookup_erase_ite]
  by_cases hv₁ : v₁ = v <;> simp [hv₁]

end Inverse

end GoMap

/-- A linked list of `α` whose elements are named by handles. -/
structure LinkedList (α : Type) where
  /-- The value behind every handle given out so far. -/
  heap : GoMap Nat α
  /-- The handles on the list, front first. -/
  order : List Nat
  /-- The next handle to give out. -/
  next : Nat
  nodup : order.Nodup
  live : ∀ i ∈ order, i ∈ heap
  fresh : ∀ i ∈ heap, i < next

namespace LinkedList

variable {α : Type}

/-- The empty list. -/
def empty : LinkedList α where
  heap := ∅
  order := []
  next := 0
  nodup := List.nodup_nil
  live := fun _ h => nomatch h
  fresh := fun _ h => nomatch h

/-- The value behind a handle. -/
def value (l : LinkedList α) (i : Nat) : Option α := l.heap.lookup i

/-- The number of elements on the list. -/
def len (l : LinkedList α) : Nat := l.order.length

/-- The last element. -/
def back (l : LinkedList α) : Option Nat := l.order.getLast?

theorem next_notMem (l : LinkedList α) : l.next ∉ l.order :=
  fun h => Nat.lt_irrefl _ (l.fresh _ (l.live _ h))

/-- Add `a` at the front; the new element's handle is `l.next`. -/
def pushFront (l : LinkedList α) (a : α) : LinkedList α where
  heap := l.heap.insert l.next a
  order := l.next :: l.order
  next := l.next + 1
  nodup := List.nodup_cons.mpr ⟨l.next_notMem, l.nodup⟩
  live := by
    intro i hi
    rw [AList.mem_insert]
    rcases List.mem_cons.mp hi with rfl | hi
    · exact Or.inl rfl
    · exact Or.inr (l.live i hi)
  fresh := by
    intro i hi
    rcases (AList.mem_insert _).mp hi with rfl | hi
    · exact Nat.lt_succ_self _
    · exact Nat.lt_succ_of_lt (l.fresh i hi)

/-- Add `a` at the back; the new element's handle is `l.next`. -/
def pushBack (l : LinkedList α) (a : α) : LinkedList α where
  heap := l.heap.insert l.next a
  order := l.order ++ [l.next]
  next := l.next + 1
  nodup := (List.perm_append_singleton _ _).nodup_iff.mpr
    (List.nodup_cons.mpr ⟨l.next_notMem, l.nodup⟩)
  live := by
    intro i hi
    rw [AList.mem_insert]
    rcases List.mem_append.mp hi with hi | hi
    · exact Or.inr (l.live i hi)
    · exact Or.inl (List.mem_singleton.mp hi)
  fresh := by
    intro i hi
    rcases (AList.mem_insert _).mp hi with rfl | hi
    · exact Nat.lt_succ_self _
    · exact Nat.lt_succ_of_lt (l.fresh i hi)

/-- Take the element off the list, if it is on it. -/
def remove (l : LinkedList α) (i : Nat) : LinkedList α :=
  { l with
    order := l.order.erase i
    nodup := l.nodup.erase i
    live := fun j hj => l.live j (List.mem_of_mem_erase hj) }

/-- Move the element to the front, if it is on the list. -/
def moveToFront (l : LinkedList α) (i : Nat) : LinkedList α :=
  if h : i ∈ l.order then
    { l with
      order := i :: l.order.erase i
      nodup := List.nodup_cons.mpr ⟨l.nodup.not_mem_erase, l.nodup.erase i⟩
      live := by
        intro j hj
        rcases List.mem_cons.mp hj with rfl | hj
        · exact l.live j h
        · exact l.live j (List.mem_of_mem_erase hj) }
  else l

/-- Change the value behind a handle. -/
def update (l : LinkedList α) (i : Nat) (f : α → α) : LinkedList α :=
  match h : l.heap.lookup i with
  | none => l
  | some a =>
    { l with
      heap := l.heap.insert i (f a)
      live := fun j hj => (AList.mem_insert _).mpr (Or.inr (l.live j hj))
      fresh := by
        intro j hj
        rcases (AList.mem_insert _).mp hj with rfl | hj
        · exact l.fresh j ((GoMap.mem_iff_lookup _ _).mpr ⟨a, h⟩)
        · exact l.fresh j hj }

/-! ### What each operation does to values and membership -/

theorem value_pushFront (l : LinkedList α) (a : α) (i : Nat) :
    (l.pushFront a).value i = if i = l.next then some a else l.value i :=
  GoMap.lookup_insert_ite _ _ _ _

@[simp] theorem order_pushFront (l : LinkedList α) (a : α) :
    (l.pushFront a).order = l.next :: l.order := rfl

/-- Front or back, the same elements are on the list. -/
theorem order_pushBack_perm (l : LinkedList α) (a : α) :
    (l.pushBack a).order.Perm (l.pushFront a).order :=
  List.perm_append_singleton _ _

theorem value_pushBack (l : LinkedList α) (a : α) (i : Nat) :
    (l.pushBack a).value i = (l.pushFront a).value i := rfl

@[simp] theorem value_remove (l : LinkedList α) (i j : Nat) :
    (l.remove i).value j = l.value j := rfl

theorem mem_order_remove {l : LinkedList α} {i j : Nat} :
    j ∈ (l.remove i).order ↔ j ≠ i ∧ j ∈ l.order :=
  l.nodup.mem_erase_iff

@[simp] theorem value_moveToFront (l : LinkedList α) (i j : Nat) :
    (l.moveToFront i).value j = l.value j := by
  unfold moveToFront
  split <;> rfl

@[simp] theorem next_moveToFront (l : LinkedList α) (i : Nat) : (l.moveToFront i).next = l.next := by
  unfold moveToFront
  split <;> rfl

theorem mem_order_moveToFront {l : LinkedList α} {i j : Nat} :
    j ∈ (l.moveToFront i).order ↔ j ∈ l.order := by
  unfold moveToFront
  split
  · next hi =>
    rw [List.mem_cons, l.nodup.mem_erase_iff]
    constructor
    · rintro (rfl | ⟨-, hj⟩)
      · exact hi
      · exact hj
    · intro hj
      by_cases hji : j = i
      · exact Or.inl hji
      · exact Or.inr ⟨hji, hj⟩
  · exact Iff.rfl

/-- Moving an element only reorders the list. -/
theorem order_moveToFront_perm (l : LinkedList α) (i : Nat) :
    (l.moveToFront i).order.Perm l.order := by
  unfold moveToFront
  split
  · next hi => exact (List.perm_cons_erase hi).symm
  · exact List.Perm.refl _

theorem value_update (l : LinkedList α) (i : Nat) (f : α → α) (j : Nat) :
    (l.update i f).value j = if j = i then (l.value i).map f else l.value j := by
  unfold update
  split
  · next h =>
    by_cases hj : j = i
    · subst hj
      simp [value, h]
    · rw [if_neg hj]
  · next a h =>
    refine (GoMap.lookup_insert_ite _ _ _ _).trans ?_
    by_cases hj : j = i
    · simp [hj, value, h]
    · rw [if_neg hj, if_neg hj]
      rfl

@[simp] theorem order_update (l : LinkedList α) (i : Nat) (f : α → α) :
    (l.update i f).order = l.order := by
  unfold update
  split <;> rfl

@[simp] theorem next_update (l : LinkedList α) (i : Nat) (f : α → α) :
    (l.update i f).next = l.next := by
  unfold update
  split <;> rfl

/-! ### A sum over the list -/

/-- The sum of `f` over the values on the list. -/
def total (f : α → Int) (l : LinkedList α) : Int :=
  (l.order.map fun i => ((l.value i).map f).getD 0).sum

variable {f : α → Int} {l : LinkedList α}

/-- Elements on the list with the same values have the same sum. -/
theorem total_congr {l' : LinkedList α} (horder : l'.order.Perm l.order)
    (hvalue : ∀ i ∈ l.order, l'.value i = l.value i) : l'.total f = l.total f := by
  unfold total
  rw [(horder.map _).sum_eq]
  exact congrArg List.sum (List.map_congr_left fun i hi => by rw [hvalue i hi])

theorem total_pushFront (a : α) : (l.pushFront a).total f = f a + l.total f := by
  have hrest : ∀ i ∈ l.order, ((l.pushFront a).value i) = l.value i := by
    intro i hi
    rw [value_pushFront, if_neg]
    rintro rfl
    exact l.next_notMem hi
  have hnext : (l.pushFront a).value l.next = some a := by
    rw [value_pushFront, if_pos rfl]
  unfold total
  rw [order_pushFront, List.map_cons, List.sum_cons, hnext]
  exact congrArg (f a + List.sum ·) (List.map_congr_left fun i hi => by rw [hrest i hi])

theorem total_remove_of_notMem {i : Nat} (hi : i ∉ l.order) : (l.remove i).total f = l.total f := by
  refine total_congr ?_ fun _ _ => rfl
  show (l.order.erase i).Perm l.order
  rw [List.erase_of_not_mem hi]

/-- An element's share of the sum. -/
theorem total_eq_add_remove {i : Nat} {a : α} (hi : i ∈ l.order) (ha : l.value i = some a) :
    l.total f = f a + (l.remove i).total f := by
  unfold total
  rw [((List.perm_cons_erase hi).map _).sum_eq, List.map_cons, List.sum_cons, ha]
  rfl

theorem total_moveToFront (i : Nat) : (l.moveToFront i).total f = l.total f :=
  total_congr (order_moveToFront_perm l i) fun j _ => value_moveToFront l i j

theorem total_update {i : Nat} {a : α} (hi : i ∈ l.order) (ha : l.value i = some a) (g : α → α) :
    (l.update i g).total f = l.total f - f a + f (g a) := by
  have hrest : ((l.update i g).remove i).total f = (l.remove i).total f := by
    refine total_congr ?_ fun j hj => ?_
    · show ((l.update i g).order.erase i).Perm (l.order.erase i)
      rw [order_update]
    · obtain ⟨hne, -⟩ := mem_order_remove.mp hj
      rw [value_remove, value_remove, value_update, if_neg hne]
  have hi' : i ∈ (l.update i g).order := by rwa [order_update]
  have ha' : (l.update i g).value i = some (g a) := by rw [value_update, if_pos rfl, ha]; rfl
  rw [total_eq_add_remove hi' ha', total_eq_add_remove hi ha, hrest]
  omega

theorem total_nonneg (h : ∀ i ∈ l.order, ∀ a, l.value i = some a → 0 ≤ f a) : 0 ≤ l.total f := by
  refine List.sum_nonneg fun x hx => ?_
  obtain ⟨i, hi, rfl⟩ := List.mem_map.mp hx
  cases ha : l.value i with
  | none => exact Int.le_refl 0
  | some a => exact h i hi a ha

theorem mem_of_back {l : LinkedList α} {i : Nat} (h : l.back = some i) : i ∈ l.order :=
  List.mem_of_getLast? h

/-! ### Elements and values together -/

/-- The elements of the list with their values, front first. -/
def cells (l : LinkedList α) : List (Nat × α) :=
  l.order.filterMap fun i => (l.value i).map fun a => (i, a)

theorem mem_cells {c : Nat × α} : c ∈ l.cells ↔ c.1 ∈ l.order ∧ l.value c.1 = some c.2 := by
  obtain ⟨i, a⟩ := c
  simp only [cells, List.mem_filterMap, Option.map_eq_some_iff, Prod.mk.injEq]
  constructor
  · rintro ⟨j, hj, b, hb, rfl, rfl⟩
    exact ⟨hj, hb⟩
  · rintro ⟨hi, ha⟩
    exact ⟨i, hi, a, ha, rfl, rfl⟩

theorem exists_value {i : Nat} (hi : i ∈ l.order) : ∃ a, l.value i = some a :=
  (GoMap.mem_iff_lookup _ _).mp (l.live i hi)

@[simp] theorem map_fst_cells (l : LinkedList α) : l.cells.map Prod.fst = l.order := by
  have hfst : ∀ o : List Nat, (∀ i ∈ o, ∃ a, l.value i = some a) →
      (o.filterMap fun i => (l.value i).map fun a => (i, a)).map Prod.fst = o := by
    intro o ho
    induction o with
    | nil => rfl
    | cons i o ih =>
      obtain ⟨a, ha⟩ := ho i List.mem_cons_self
      rw [List.filterMap_cons, ha]
      exact congrArg (i :: ·) (ih fun j hj => ho j (List.mem_cons_of_mem _ hj))
  exact hfst l.order fun i hi => exists_value hi

/-- Elements on the list are cells by their values alone. -/
theorem cells_congr {l' : LinkedList α} (horder : l'.order = l.order)
    (hvalue : ∀ i ∈ l.order, l'.value i = l.value i) : l'.cells = l.cells := by
  unfold cells
  rw [horder]
  exact List.filterMap_congr fun i hi => by rw [hvalue i hi]

theorem cells_pushFront (l : LinkedList α) (a : α) :
    (l.pushFront a).cells = (l.next, a) :: l.cells := by
  have hrest : ∀ i ∈ l.order, (l.pushFront a).value i = l.value i := by
    intro i hi
    rw [value_pushFront, if_neg]
    rintro rfl
    exact l.next_notMem hi
  have hnext : (l.pushFront a).value l.next = some a := by
    rw [value_pushFront, if_pos rfl]
  unfold cells
  rw [order_pushFront, List.filterMap_cons, hnext]
  exact congrArg ((l.next, a) :: ·) (List.filterMap_congr fun i hi => by rw [hrest i hi])

theorem cells_pushBack (l : LinkedList α) (a : α) :
    (l.pushBack a).cells = l.cells ++ [(l.next, a)] := by
  have hrest : ∀ i ∈ l.order, (l.pushBack a).value i = l.value i := by
    intro i hi
    rw [value_pushBack, value_pushFront, if_neg]
    rintro rfl
    exact l.next_notMem hi
  have hnext : (l.pushBack a).value l.next = some a := by
    rw [value_pushBack, value_pushFront, if_pos rfl]
  unfold cells
  show List.filterMap _ (l.order ++ [l.next]) = _
  rw [List.filterMap_append, List.filterMap_cons, hnext]
  exact congrArg (· ++ [(l.next, a)]) (List.filterMap_congr fun i hi => by rw [hrest i hi])

theorem cells_remove (l : LinkedList α) (i : Nat) :
    (l.remove i).cells = l.cells.filter (·.1 ≠ i) := by
  unfold cells
  show List.filterMap _ (l.order.erase i) = _
  rw [l.nodup.erase_eq_filter, List.filterMap_filter, List.filter_filterMap]
  refine List.filterMap_congr fun j _ => ?_
  by_cases hj : j = i
  · cases l.value j <;> simp [hj, Option.filter]
  · cases hv : l.value j <;> simp [hj, hv, Option.filter]

/-- The last cell is at the back, and removing it leaves the others. -/
theorem cells_remove_back {rest : List (Nat × α)} {c : Nat × α} (h : l.cells = rest ++ [c]) :
    l.back = some c.1 ∧ l.value c.1 = some c.2 ∧ (l.remove c.1).cells = rest := by
  have horder : l.order = rest.map Prod.fst ++ [c.1] := by
    rw [← map_fst_cells, h, List.map_append]
    rfl
  have hnot : c.1 ∉ rest.map Prod.fst := by
    have hnd := horder ▸ l.nodup
    exact fun hmem => (List.nodup_append.mp hnd).2.2 _ hmem _ (List.mem_singleton_self _) rfl
  refine ⟨?_, (mem_cells.mp (h ▸ by simp)).2, ?_⟩
  · rw [back, horder, List.getLast?_append]
    rfl
  · rw [cells_remove, h, List.filter_append, List.filter_eq_self.mpr]
    · simp
    · intro d hd
      simpa using fun heq : d.1 = c.1 => hnot (heq ▸ List.mem_map_of_mem hd)

theorem cells_moveToFront {i : Nat} {a : α} (hi : i ∈ l.order) (ha : l.value i = some a) :
    (l.moveToFront i).cells = (i, a) :: l.cells.filter (·.1 ≠ i) := by
  have horder : (l.moveToFront i).order = i :: l.order.erase i := by
    rw [moveToFront, dif_pos hi]
  rw [← cells_remove]
  unfold cells
  rw [horder, List.filterMap_cons, value_moveToFront, ha]
  exact congrArg ((i, a) :: ·) (List.filterMap_congr fun j _ => by rw [value_moveToFront]; rfl)

/-- An element is changed and moved to the front. -/
theorem cells_update_moveToFront {i : Nat} {a : α} (hi : i ∈ l.order) (ha : l.value i = some a)
    (g : α → α) :
    ((l.update i g).moveToFront i).cells = (i, g a) :: l.cells.filter (·.1 ≠ i) := by
  have hi' : i ∈ (l.update i g).order := by rwa [order_update]
  have ha' : (l.update i g).value i = some (g a) := by
    rw [value_update, if_pos rfl, ha]
    rfl
  have hrest : ((l.update i g).remove i).cells = (l.remove i).cells := by
    refine cells_congr ?_ fun j hj => ?_
    · show (l.update i g).order.erase i = l.order.erase i
      rw [order_update]
    · rw [value_remove, value_remove, value_update, if_neg (mem_order_remove.mp hj).1]
  rw [cells_moveToFront hi' ha', ← cells_remove, ← cells_remove, hrest]

theorem total_eq_sum_cells (f : α → Int) (l : LinkedList α) :
    l.total f = (l.cells.map fun c => f c.2).sum := by
  have hsum : ∀ o : List Nat, (o.map fun i => ((l.value i).map f).getD 0).sum
      = ((o.filterMap fun i => (l.value i).map fun a => (i, a)).map fun c => f c.2).sum := by
    intro o
    induction o with
    | nil => rfl
    | cons i o ih =>
      rw [List.map_cons, List.sum_cons, ih, List.filterMap_cons]
      cases l.value i with
      | none => exact Int.zero_add _
      | some a => rfl
  exact hsum l.order

end LinkedList

end S3Gateway.Lib
