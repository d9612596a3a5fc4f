import S3Gateway.Lib.Pool
import S3Gateway.Lib.Run

/-!
# Linearizability

A concurrent object is linearizable if its calls, each of several effects, behave as if
every call took place at once, at some moment between its first effect and its return.

- `Prog.Linearizes h f p`: whatever the other calls do in between, the effects of `p`
  leave the state alone up to one that does all of the operation `f` there and then.
- `Prog.Decided h a p`: `p` has done so. What is left of it changes nothing and returns
  `a`.
- `Pool.Linearized h f s sched order`: performed one after the other in the given order,
  the operations have the replies the calls returned and leave the state the calls left.
  The order agrees with real time: at every moment of the schedule, the calls that have
  returned come before those that have not begun.

`Pool.exists_linearized` is the rule: if each call linearizes its operation, every
schedule has such an order. The effects have outcomes of their own (`h o` answers an
effect whose outcome is `o`), and so have the operations.
-/

namespace S3Gateway.Lib

variable {E : Type → Type} {σ ι α : Type}

namespace Prog

/-- The rest of the program changes nothing and returns `a`. -/
def Decided (h : ι → Handler E σ) (a : α) : Prog E α → Prop
  | .ret a' => a' = a
  | .op e k => ∀ o s, (h o e s).2 = s ∧ Decided h a (k (h o e s).1)

/-- Each effect of the program does nothing, or all of the operation; after the one that
does, the result is that of the operation. -/
def Linearizes (h : ι → Handler E σ) (f : ι → σ → α × σ) : Prog E α → Prop
  | .ret _ => False
  | .op e k => ∀ o s, ((h o e s).2 = s ∧ Linearizes h f (k (h o e s).1)) ∨
      ((h o e s).2 = (f o s).2 ∧ Decided h (f o s).1 (k (h o e s).1))

end Prog

/-- The state once operation `x.1` has been performed with outcome `x.2`. -/
def atomically (f : Nat → ι → σ → α × σ) (s : σ) (x : Nat × ι) : σ := (f x.1 x.2 s).2

/-- The reply of operation `x.1`. -/
def atomicReply (f : Nat → ι → σ → α × σ) (s : σ) (x : Nat × ι) : Nat × α := (x.1, (f x.1 x.2 s).1)

theorem mem_fst_of_mem_outputs {f : Nat → ι → σ → α × σ} {s : σ} {order : List (Nat × ι)} {j : Nat}
    {a : α} (h : (j, a) ∈ outputs (atomically f) (atomicReply f) s order) :
    j ∈ order.map Prod.fst := by
  induction order generalizing s with
  | nil => cases h
  | cons x order ih =>
    rcases List.mem_cons.mp h with heq | h
    · have hj : j = x.1 := congrArg Prod.fst heq
      exact List.mem_cons.mpr (Or.inl hj)
    · exact List.mem_cons_of_mem _ (ih h)

namespace Pool

/-- Program `x.1` performs its next effect, with outcome `x.2`. -/
def stepWith (h : ι → Handler E σ) (s : Pool E σ α) (x : Nat × ι) : Pool E σ α := s.step (h x.2) x.1

/-- The calls took place one at a time, in this order. -/
structure Linearized (h : ι → Handler E σ) (f : Nat → ι → σ → α × σ) (s : Pool E σ α)
    (sched order : List (Nat × ι)) : Prop where
  /-- Every call takes place at most once. -/
  once : (order.map Prod.fst).Nodup
  shared : (sched.foldl (stepWith h) s).shared = order.foldl (atomically f) s.shared
  replies : ∀ j a, (sched.foldl (stepWith h) s).threads[j]? = some (.ret a) →
    (j, a) ∈ outputs (atomically f) (atomicReply f) s.shared order
  /-- At every moment, what has returned has taken place and what has not begun has not. -/
  realTime : ∀ before after, sched = before ++ after →
    ∃ first rest, order = first ++ rest ∧ first.Sublist before ∧ rest.Sublist after ∧
      ∀ j a, (before.foldl (stepWith h) s).threads[j]? = some (.ret a) → j ∈ first.map Prod.fst

variable {h : ι → Handler E σ} {f : Nat → ι → σ → α × σ}

/-- The calls that have taken place are decided, the others linearize their operation. -/
def Ready (h : ι → Handler E σ) (f : Nat → ι → σ → α × σ) (dec : Nat → Option α)
    (s : Pool E σ α) : Prop :=
  ∀ j p, s.threads[j]? = some p →
    (dec j = none ∧ p.Linearizes h (f j)) ∨ ∃ a, dec j = some a ∧ p.Decided h a

/-- The order that the schedule gives the calls that have not taken place yet. -/
inductive Orders (h : ι → Handler E σ) (f : Nat → ι → σ → α × σ) :
    (Nat → Option α) → Pool E σ α → List (Nat × ι) → List (Nat × ι) → Prop where
  | nil {dec : Nat → Option α} {s : Pool E σ α} (hs : s.Ready h f dec) : Orders h f dec s [] []
  | silent {dec : Nat → Option α} {s : Pool E σ α} {x : Nat × ι} {sched order : List (Nat × ι)}
      (hs : s.Ready h f dec) (hshared : (s.stepWith h x).shared = s.shared)
      (hrest : Orders h f dec (s.stepWith h x) sched order) : Orders h f dec s (x :: sched) order
  | point {dec : Nat → Option α} {s : Pool E σ α} {x : Nat × ι} {sched order : List (Nat × ι)}
      (hs : s.Ready h f dec) (hx : dec x.1 = none)
      (hshared : (s.stepWith h x).shared = atomically f s.shared x)
      (hrest : Orders h f (Function.update dec x.1 (some (f x.1 x.2 s.shared).1)) (s.stepWith h x)
        sched order) : Orders h f dec s (x :: sched) (x :: order)

/-- A step of a ready pool changes nothing, or is the moment its call takes place. -/
theorem Ready.step {dec : Nat → Option α} {s : Pool E σ α} (hs : s.Ready h f dec) (x : Nat × ι) :
    ((s.stepWith h x).shared = s.shared ∧ (s.stepWith h x).Ready h f dec) ∨
      (dec x.1 = none ∧ (s.stepWith h x).shared = atomically f s.shared x ∧
        (s.stepWith h x).Ready h f (Function.update dec x.1 (some (f x.1 x.2 s.shared).1))) := by
  unfold stepWith
  rcases s.step_cases (h x.2) x.1 with ⟨heq, -⟩ | ⟨β, e, k, hi, heq⟩
  · rw [heq]
    exact Or.inl ⟨rfl, hs⟩
  · rw [heq]
    -- the program that moved is where it was put, the others are where they were
    have hthreads : ∀ j p, (s.threads.set x.1 (k (h x.2 e s.shared).1))[j]? = some p →
        (j = x.1 ∧ p = k (h x.2 e s.shared).1) ∨ (j ≠ x.1 ∧ s.threads[j]? = some p) := by
      intro j p hj
      by_cases hjx : j = x.1
      · subst hjx
        have hlt : x.1 < s.threads.length := (List.getElem?_eq_some_iff.mp hi).1
        exact Or.inl ⟨rfl, (Option.some.inj ((List.getElem?_set_self hlt).symm.trans hj)).symm⟩
      · exact Or.inr ⟨hjx, (List.getElem?_set_ne (Ne.symm hjx)).symm.trans hj⟩
    have hsame : ∀ dec' : Nat → Option α, (∀ j, j ≠ x.1 → dec' j = dec j) →
        ((dec' x.1 = none ∧ (k (h x.2 e s.shared).1).Linearizes h (f x.1)) ∨
          ∃ a, dec' x.1 = some a ∧ (k (h x.2 e s.shared).1).Decided h a) →
        Ready h f dec' ⟨(h x.2 e s.shared).2, s.threads.set x.1 (k (h x.2 e s.shared).1)⟩ := by
      intro dec' hdec hmoved j p hj
      rcases hthreads j p hj with ⟨rfl, rfl⟩ | ⟨hne, hj⟩
      · exact hmoved
      · rw [hdec j hne]
        exact hs j p hj
    rcases hs x.1 _ hi with ⟨hnone, hlin⟩ | ⟨a, hsome, hdecided⟩
    · rcases hlin x.2 s.shared with ⟨hshared, hk⟩ | ⟨hshared, hk⟩
      · exact Or.inl ⟨hshared, hsame dec (fun _ _ => rfl) (Or.inl ⟨hnone, hk⟩)⟩
      · refine Or.inr ⟨hnone, hshared, hsame _ (fun j hj => ?_) (Or.inr ⟨_, ?_, hk⟩)⟩
        · exact Function.update_of_ne hj _ _
        · exact Function.update_self _ _ _
    · obtain ⟨hshared, hk⟩ := hdecided x.2 s.shared
      exact Or.inl ⟨hshared, hsame dec (fun _ _ => rfl) (Or.inr ⟨a, hsome, hk⟩)⟩

theorem Ready.orders {dec : Nat → Option α} {s : Pool E σ α} (hs : s.Ready h f dec)
    (sched : List (Nat × ι)) : ∃ order, Orders h f dec s sched order := by
  induction sched generalizing dec s with
  | nil => exact ⟨[], .nil hs⟩
  | cons x sched ih =>
    rcases hs.step x with ⟨hshared, hnext⟩ | ⟨hx, hshared, hnext⟩
    · obtain ⟨order, horder⟩ := ih hnext
      exact ⟨order, .silent hs hshared horder⟩
    · obtain ⟨order, horder⟩ := ih hnext
      exact ⟨x :: order, .point hs hx hshared horder⟩

namespace Orders

variable {dec : Nat → Option α} {s : Pool E σ α} {sched order : List (Nat × ι)}

theorem sublist (ho : Orders h f dec s sched order) : order.Sublist sched := by
  induction ho with
  | nil => exact .slnil
  | silent _ _ _ ih => exact ih.cons _
  | point _ _ _ _ ih => exact ih.cons_cons _

theorem shared_eq (ho : Orders h f dec s sched order) :
    (sched.foldl (stepWith h) s).shared = order.foldl (atomically f) s.shared := by
  induction ho with
  | nil => rfl
  | silent _ hshared _ ih =>
    rw [List.foldl_cons, ih, hshared]
  | point _ _ hshared _ ih =>
    rw [List.foldl_cons, List.foldl_cons, ih, hshared]

/-- Calls that have taken place do not do so again. -/
theorem nodup (ho : Orders h f dec s sched order) :
    (order.map Prod.fst).Nodup ∧ ∀ j ∈ order.map Prod.fst, dec j = none := by
  induction ho with
  | nil =>
    refine ⟨List.nodup_nil, fun j hj => ?_⟩
    cases hj
  | silent _ _ _ ih => exact ih
  | @point dec s x sched order _ hx _ _ ih =>
    have hne : ∀ j ∈ order.map Prod.fst, j ≠ x.1 := by
      rintro j hj rfl
      have := ih.2 _ hj
      rw [Function.update_self] at this
      cases this
    refine ⟨List.nodup_cons.mpr ⟨fun hin => hne _ hin rfl, ih.1⟩, fun j hj => ?_⟩
    rcases List.mem_cons.mp hj with rfl | hj
    · exact hx
    · have := ih.2 j hj
      rwa [Function.update_of_ne (hne j hj)] at this

/-- A call that has returned has taken place, with the reply it returned. -/
theorem replies (ho : Orders h f dec s sched order) {j : Nat} {a : α}
    (hj : (sched.foldl (stepWith h) s).threads[j]? = some (.ret a)) :
    dec j = some a ∨ (j, a) ∈ outputs (atomically f) (atomicReply f) s.shared order := by
  induction ho with
  | nil hs =>
    rcases hs j _ hj with ⟨-, hlin⟩ | ⟨a', ha', hdecided⟩
    · exact hlin.elim
    · have heq : a = a' := hdecided
      rw [heq]
      exact Or.inl ha'
  | silent _ hshared _ ih =>
    rw [← hshared]
    exact ih hj
  | @point dec s x sched order _ hx hshared _ ih =>
    show _ ∨ (j, a) ∈ atomicReply f s.shared x ::
      outputs (atomically f) (atomicReply f) (atomically f s.shared x) order
    rcases ih hj with hdec | hrest
    · by_cases hjx : j = x.1
      · subst hjx
        rw [Function.update_self] at hdec
        cases hdec
        exact Or.inr List.mem_cons_self
      · rw [Function.update_of_ne hjx] at hdec
        exact Or.inl hdec
    · rw [hshared] at hrest
      exact Or.inr (List.mem_cons_of_mem _ hrest)

theorem split {before after : List (Nat × ι)} (ho : Orders h f dec s (before ++ after) order) :
    ∃ first rest, order = first ++ rest ∧ Orders h f dec s before first ∧ rest.Sublist after := by
  induction before generalizing dec s order with
  | nil =>
    refine ⟨[], order, rfl, .nil ?_, ho.sublist⟩
    cases ho <;> assumption
  | cons x before ih =>
    cases ho with
    | silent hs hshared hrest =>
      obtain ⟨first, rest, rfl, hfirst, hsub⟩ := ih hrest
      exact ⟨first, rest, rfl, .silent hs hshared hfirst, hsub⟩
    | point hs hx hshared hrest =>
      obtain ⟨first, rest, rfl, hfirst, hsub⟩ := ih hrest
      exact ⟨x :: first, rest, rfl, .point hs hx hshared hfirst, hsub⟩

end Orders

/-- Calls that linearize their operations are linearizable, under every schedule. -/
theorem exists_linearized {s : Pool E σ α}
    (hs : ∀ (j : Nat) (p : Prog E α), s.threads[j]? = some p → p.Linearizes h (f j))
    (sched : List (Nat × ι)) :
    ∃ order, s.Linearized h f sched order := by
  have hready : s.Ready h f fun _ => none := fun j p hj => Or.inl ⟨rfl, hs j p hj⟩
  obtain ⟨order, ho⟩ := hready.orders sched
  have hreplies : ∀ {sched order : List (Nat × ι)}, Orders h f (fun _ => none) s sched order →
      ∀ j a, (sched.foldl (stepWith h) s).threads[j]? = some (.ret a) →
        (j, a) ∈ outputs (atomically f) (atomicReply f) s.shared order := by
    intro sched order ho j a hj
    rcases ho.replies hj with hdec | hmem
    · cases hdec
    · exact hmem
  refine ⟨order, ho.nodup.1, ho.shared_eq, hreplies ho, fun before after hsched => ?_⟩
  subst hsched
  obtain ⟨first, rest, rfl, hfirst, hsub⟩ := ho.split
  exact ⟨first, rest, rfl, hfirst.sublist, hsub, fun j a hj =>
    mem_fst_of_mem_outputs (hreplies hfirst j a hj)⟩

end Pool

end S3Gateway.Lib
