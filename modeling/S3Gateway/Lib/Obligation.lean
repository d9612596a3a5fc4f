import S3Gateway.Lib.Pool

/-!
# Obligations

A program may break a property of the shared state and put it right with its next
effect; in between, other programs run. `Prog.Owes A C D p` says that `p` performs only
effects meeting `A` and that every effect meeting `C` (which may break the property) is
followed at once by one meeting `D` (which puts it right). In a pool of such programs the
property holds unless some program is about to put it right (`Pool.Settled`), so it holds
once all of them have returned.
-/

namespace S3Gateway.Lib

variable {E : Type → Type} {σ ι α β : Type}

namespace Prog

/-- The next effect meets `D`. -/
def Due (D : (β : Type) → E β → Prop) : Prog E α → Prop
  | .ret _ => False
  | .op e _ => D _ e

/-- Every effect meets `A`, and after every one meeting `C` comes one meeting `D`. -/
def Owes (A C D : (β : Type) → E β → Prop) : Prog E α → Prop
  | .ret _ => True
  | .op e k => A _ e ∧ ∀ b, (C _ e → Due D (k b)) ∧ Owes A C D (k b)

variable {A C D : (β : Type) → E β → Prop}

theorem Due.bind {p : Prog E α} (hp : p.Due D) (f : α → Prog E β) : (p >>= f).Due D := by
  cases p with
  | ret a => exact hp.elim
  | op e k => exact hp

theorem owes_bind {p : Prog E α} {f : α → Prog E β} (hp : p.Owes A C D)
    (hf : ∀ a, (f a).Owes A C D) : (p >>= f).Owes A C D := by
  show (Prog.bind p f).Owes A C D
  induction p with
  | ret a => exact hf a
  | op e k ih => exact ⟨hp.1, fun b => ⟨fun he => ((hp.2 b).1 he).bind f, ih b (hp.2 b).2⟩⟩

/-- An effect without obligations. -/
theorem owes_call {e : E α} (hA : A α e) (he : ¬ C α e) : (call e).Owes A C D :=
  ⟨hA, fun _ => ⟨fun h => absurd h he, trivial⟩⟩

/-- An effect, and the one that is owed for it. -/
theorem owes_call_bind {e : E α} {f : α → Prog E β} (hA : A α e) (hf : ∀ a, (f a).Due D)
    (hrest : ∀ a, (f a).Owes A C D) : (call e >>= f).Owes A C D :=
  ⟨hA, fun b => ⟨fun _ => hf b, hrest b⟩⟩

end Prog

namespace Pool

variable {A C D : (β : Type) → E β → Prop} {h : ι → Handler E σ} {I B : σ → Prop}

/-- Every program pays what it owes, and `B` holds or is about to be put right. -/
structure Settled (A C D : (β : Type) → E β → Prop) (I B : σ → Prop) (s : Pool E σ α) : Prop where
  inv : I s.shared
  owes : ∀ p ∈ s.threads, p.Owes A C D
  settled : B s.shared ∨ ∃ p ∈ s.threads, p.Due D

theorem Settled.spawn {s : Pool E σ α} (hs : s.Settled A C D I B) {p : Prog E α} (hp : p.Owes A C D) :
    (s.spawn p).Settled A C D I B := by
  refine ⟨hs.inv, fun q hq => ?_, ?_⟩
  · rcases List.mem_append.mp hq with hq | hq
    · exact hs.owes q hq
    · rw [List.mem_singleton.mp hq]
      exact hp
  · rcases hs.settled with hB | ⟨q, hq, hdue⟩
    · exact Or.inl hB
    · exact Or.inr ⟨q, List.mem_append_left _ hq, hdue⟩

/-- If every effect keeps the invariant, those that meet neither `C` nor `D` keep `B`, and
those that meet `D` establish it, then a step of any program keeps the pool settled. -/
theorem Settled.step (hI : ∀ {β : Type} (e : E β) o s, A β e → I s → I (h o e s).2)
    (hB : ∀ {β : Type} (e : E β) o s, I s → ¬ C β e → B s → B (h o e s).2)
    (hD : ∀ {β : Type} (e : E β) o s, I s → D β e → B (h o e s).2)
    {s : Pool E σ α} (hs : s.Settled A C D I B) (o : ι) (i : Nat) :
    (s.step (h o) i).Settled A C D I B := by
  rcases s.step_cases (h o) i with ⟨heq, -⟩ | ⟨β, e, k, hi, heq⟩
  · rw [heq]
    exact hs
  · rw [heq]
    obtain ⟨hA, howes⟩ := hs.owes _ (List.mem_of_getElem? hi)
    replace howes := howes (h o e s.shared).1
    have hlt : i < s.threads.length := (List.getElem?_eq_some_iff.mp hi).1
    refine ⟨hI e o s.shared hA hs.inv, fun q hq => ?_, ?_⟩
    · rcases List.mem_or_eq_of_mem_set hq with hq | rfl
      · exact hs.owes q hq
      · exact howes.2
    · by_cases heD : D β e
      · exact Or.inl (hD e o s.shared hs.inv heD)
      by_cases heC : C β e
      · exact Or.inr ⟨_, List.mem_set hlt _, howes.1 heC⟩
      rcases hs.settled with hBs | ⟨q, hq, hdue⟩
      · exact Or.inl (hB e o s.shared hs.inv heC hBs)
      · -- the program that is about to put it right is not the one that moved
        obtain ⟨j, hj⟩ := List.getElem?_of_mem hq
        have hne : i ≠ j := by
          rintro rfl
          cases hi.symm.trans hj
          exact heD hdue
        exact Or.inr ⟨q, List.mem_of_getElem? ((List.getElem?_set_ne hne).trans hj), hdue⟩

end Pool

end S3Gateway.Lib
