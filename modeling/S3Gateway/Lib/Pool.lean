import S3Gateway.Lib.Prog

/-!
# Programs running concurrently

A pool is a shared state and any number of programs, each at some point of its
text; a schedule says which of them performs its next effect. An effect is the
unit of interleaving.

- `Prog.Safe h I φ p`: whatever the other programs do between its effects, as long
  as they keep the invariant `I`, each effect of `p` keeps `I` too, and `p` returns
  a result satisfying `φ`. What a program has learned from its answers is carried
  by `φ`, so it must not be undone by the others.
- `Pool.Safe`: the invariant holds and every program of the pool is safe. A step of
  any program keeps that.
- `Pool.Next C s i`: the effect program `i` is about to perform meets `C`.
- `Prog.EndsWith C φ p`: when `p` returns a result satisfying `φ`, it has just
  performed an effect meeting `C`.
- `Prog.Follows h I R φ p s`: rely and guarantee. As long as the others move the state
  from `s` along `R` and keep `I`, each effect of `p` does so too, and a result
  satisfies `φ` in the state it is returned in. The effects may have outcomes of their
  own: `h o` answers an effect whose outcome is `o`.
- `Pool.observe f s i`: what `f` sees of the effect program `i` is about to perform.
-/

namespace S3Gateway.Lib

namespace Prog

variable {E : Type → Type} {σ α β : Type}

/-- Each effect keeps the invariant, whatever happens in between, and the result
satisfies `φ`. -/
def Safe (h : Handler E σ) (I : σ → Prop) (φ : α → Prop) : Prog E α → Prop
  | .ret a => φ a
  | .op e k => ∀ s, I s → I (h e s).2 ∧ Safe h I φ (k (h e s).1)

variable {h : Handler E σ} {I : σ → Prop} {φ : α → Prop} {ψ : β → Prop}

theorem safe_pure {a : α} (ha : φ a) : Safe h I φ (pure a : Prog E α) := ha

/-- An error owes nothing to a claim about results. -/
theorem safe_error {ε γ : Type} {err : ε} {R : γ → Prop} :
    Safe h I (fun r => ∀ a, r = .ok a → R a) (pure (.error err) : Prog E (Except ε γ)) := by
  intro a ha
  cases ha

theorem safe_call {e : E α} (he : ∀ s, I s → I (h e s).2 ∧ φ (h e s).1) :
    Safe h I φ (call e) := he

theorem safe_bind {p : Prog E α} {f : α → Prog E β} (hp : Safe h I φ p)
    (hf : ∀ a, φ a → Safe h I ψ (f a)) : Safe h I ψ (p >>= f) := by
  show Safe h I ψ (Prog.bind p f)
  induction p with
  | ret a => exact hf a hp
  | op e k ih => exact fun s hs => ⟨(hp s hs).1, ih _ (hp s hs).2⟩

/-- Alone, a safe program keeps the invariant. -/
theorem Safe.triple {p : Prog E α} (hp : Safe h I φ p) :
    Triple h I p fun a s => φ a ∧ I s := by
  induction p with
  | ret a => exact fun s hs => ⟨hp, hs⟩
  | op e k ih => exact fun s hs => ih _ (hp s hs).2 _ (hp s hs).1

/-- A program all of whose effects keep the invariant by themselves. -/
theorem Only.safe {C : (β : Type) → E β → Prop} {p : Prog E α} (hp : Only C p)
    (hC : ∀ {β : Type} (e : E β) (s : σ), C β e → I s → I (h e s).2) :
    Safe h I (fun _ => True) p := by
  induction p with
  | ret a => trivial
  | op e k ih => exact fun s hs => ⟨hC e s hp.1 hs, ih _ (hp.2 _)⟩

/-- The last effect before a result that satisfies `φ` meets `C`. -/
def EndsWith (C : (β : Type) → E β → Prop) (φ : α → Prop) : Prog E α → Prop
  | .ret _ => True
  | .op e k => ∀ b, (∀ a, k b = .ret a → φ a → C _ e) ∧ EndsWith C φ (k b)

/-- Each effect keeps the invariant and moves the state along `R`, if what happens in
between does; the result satisfies `φ` where it is returned. -/
def Follows {ι : Type} (h : ι → Handler E σ) (I : σ → Prop) (R : σ → σ → Prop)
    (φ : α → σ → Prop) : Prog E α → σ → Prop
  | .ret a, s => φ a s
  | .op e k, s => ∀ o s', R s s' → I s' →
      R s' (h o e s').2 ∧ I (h o e s').2 ∧ Follows h I R φ (k (h o e s').1) (h o e s').2

/-- What a program relies on is not lost when the state moves along `R`. -/
theorem Follows.mono {ι : Type} {h : ι → Handler E σ} {R : σ → σ → Prop} {φ : α → σ → Prop}
    (htrans : ∀ s s' s'', R s s' → R s' s'' → R s s'')
    (hφ : ∀ a s s', R s s' → φ a s → φ a s') {p : Prog E α} {s s' : σ}
    (hp : p.Follows h I R φ s) (hR : R s s') : p.Follows h I R φ s' := by
  cases p with
  | ret a => exact hφ a s s' hR hp
  | op e k => exact fun o s'' hR' hI => hp o s'' (htrans s s' s'' hR hR') hI

theorem Follows.post {ι : Type} {h : ι → Handler E σ} {R : σ → σ → Prop} {φ ψ : α → σ → Prop}
    {p : Prog E α} {s : σ} (hp : p.Follows h I R φ s) (hpost : ∀ a s, φ a s → ψ a s) :
    p.Follows h I R ψ s := by
  induction p generalizing s with
  | ret a => exact hpost a s hp
  | op e k ih =>
    intro o s' hR hI
    obtain ⟨hR', hI', hk⟩ := hp o s' hR hI
    exact ⟨hR', hI', ih _ hk⟩

end Prog

/-- Programs at some point of their text, and the state they share. -/
structure Pool (E : Type → Type) (σ α : Type) where
  shared : σ
  threads : List (Prog E α)

namespace Pool

variable {E : Type → Type} {σ α : Type}

/-- A program joins the pool. -/
def spawn (s : Pool E σ α) (p : Prog E α) : Pool E σ α := { s with threads := s.threads ++ [p] }

/-- Program `i` performs its next effect. One that has returned, or does not exist,
does nothing. -/
def step (h : Handler E σ) (s : Pool E σ α) (i : Nat) : Pool E σ α :=
  match s.threads[i]? with
  | some (.op e k) => ⟨(h e s.shared).2, s.threads.set i (k (h e s.shared).1)⟩
  | _ => s

/-- The effect program `i` is about to perform meets the condition. -/
def Next (C : (β : Type) → E β → σ → Prop) (s : Pool E σ α) (i : Nat) : Prop :=
  match s.threads[i]? with
  | some (.op e _) => C _ e s.shared
  | _ => True

theorem Next.of_op {C : (β : Type) → E β → σ → Prop} {s : Pool E σ α} {i : Nat} {β : Type}
    {e : E β} {k : β → Prog E α} (h : s.Next C i) (hi : s.threads[i]? = some (.op e k)) :
    C β e s.shared := by
  unfold Next at h
  rw [hi] at h
  exact h

/-- A step does nothing if there is no effect to perform, and performs the next effect
of its program otherwise. -/
theorem step_cases (h : Handler E σ) (s : Pool E σ α) (i : Nat) :
    (s.step h i = s ∧ ∀ (β : Type) (e : E β) (k : β → Prog E α), s.threads[i]? ≠ some (.op e k)) ∨
      ∃ (β : Type) (e : E β) (k : β → Prog E α), s.threads[i]? = some (.op e k) ∧
        s.step h i = ⟨(h e s.shared).2, s.threads.set i (k (h e s.shared).1)⟩ := by
  unfold step
  split
  · next e k hi => exact Or.inr ⟨_, e, k, hi, rfl⟩
  · next hno => exact Or.inl ⟨rfl, fun _ e k hi => hno _ e k hi⟩

variable {h : Handler E σ} {I : σ → Prop} {φ : α → Prop}

/-- The invariant holds and every program is safe. -/
def Safe (h : Handler E σ) (I : σ → Prop) (φ : α → Prop) (s : Pool E σ α) : Prop :=
  I s.shared ∧ ∀ p ∈ s.threads, p.Safe h I φ

theorem Safe.spawn {s : Pool E σ α} (hs : s.Safe h I φ) {p : Prog E α} (hp : p.Safe h I φ) :
    (s.spawn p).Safe h I φ := by
  refine ⟨hs.1, fun q hq => ?_⟩
  rcases List.mem_append.mp hq with hq | hq
  · exact hs.2 q hq
  · rw [List.mem_singleton.mp hq]
    exact hp

theorem Safe.step {s : Pool E σ α} (hs : s.Safe h I φ) (i : Nat) : (s.step h i).Safe h I φ := by
  rcases s.step_cases h i with ⟨heq, -⟩ | ⟨β, e, k, hi, heq⟩
  · rw [heq]
    exact hs
  · rw [heq]
    have hp := hs.2 _ (List.mem_of_getElem? hi) s.shared hs.1
    refine ⟨hp.1, fun q hq => ?_⟩
    rcases List.mem_or_eq_of_mem_set hq with hq | rfl
    · exact hs.2 q hq
    · exact hp.2

/-- The invariant holds, and every program follows the relation to its own
postcondition. -/
def Follows {ι : Type} (h : ι → Handler E σ) (I : σ → Prop) (R : σ → σ → Prop)
    (φ : Nat → α → σ → Prop) (s : Pool E σ α) : Prop :=
  I s.shared ∧ ∀ (j : Nat) (p : Prog E α), s.threads[j]? = some p → p.Follows h I R (φ j) s.shared

theorem Follows.step {ι : Type} {h : ι → Handler E σ} {R : σ → σ → Prop}
    {φ : Nat → α → σ → Prop} (hrefl : ∀ s, R s s) (htrans : ∀ s s' s'', R s s' → R s' s'' → R s s'')
    (hφ : ∀ j a s s', R s s' → φ j a s → φ j a s') {s : Pool E σ α} (hs : s.Follows h I R φ)
    (o : ι) (i : Nat) : (s.step (h o) i).Follows h I R φ ∧ R s.shared (s.step (h o) i).shared := by
  rcases s.step_cases (h o) i with ⟨heq, -⟩ | ⟨β, e, k, hi, heq⟩
  · rw [heq]
    exact ⟨hs, hrefl _⟩
  · rw [heq]
    obtain ⟨hR, hI, hk⟩ := hs.2 i _ hi o s.shared (hrefl _) hs.1
    refine ⟨⟨hI, fun j p hj => ?_⟩, hR⟩
    by_cases hij : i = j
    · -- the program that moved
      subst hij
      have hlt : i < s.threads.length := List.getElem?_eq_some_iff.mp hi |>.1
      cases (List.getElem?_set_self hlt).symm.trans hj
      exact hk
    · have hj := (List.getElem?_set_ne hij).symm.trans hj
      exact (hs.2 j p hj).mono htrans (hφ j) hR

/-- What `f` sees of the effect program `i` is about to perform, if there is one. -/
def observe {γ : Type} (f : {β : Type} → E β → σ → Option γ) (s : Pool E σ α) (i : Nat) : Option γ :=
  match s.threads[i]? with
  | some (.op e _) => f e s.shared
  | _ => none

/-- A step and what is seen of it. -/
theorem observe_cases {γ : Type} (f : {β : Type} → E β → σ → Option γ) (h : Handler E σ)
    (s : Pool E σ α) (i : Nat) :
    ((s.step h i).shared = s.shared ∧ s.observe f i = none) ∨
      ∃ (β : Type) (e : E β), (s.step h i).shared = (h e s.shared).2 ∧
        s.observe f i = f e s.shared := by
  unfold step observe
  split
  · next e k hi => exact Or.inr ⟨_, e, rfl, rfl⟩
  · exact Or.inl ⟨rfl, rfl⟩

/-- What an admissible effect does to the shared state, a step does. -/
theorem step_shared {P : σ → Prop} {C : (β : Type) → E β → σ → Prop} {s : Pool E σ α} {i : Nat}
    (hs : P s.shared) (hi : s.Next C i)
    (hC : ∀ {β : Type} (e : E β), C β e s.shared → P (h e s.shared).2) :
    P (s.step h i).shared := by
  rcases s.step_cases h i with ⟨heq, -⟩ | ⟨β, e, k, hop, heq⟩
  · rw [heq]
    exact hs
  · rw [heq]
    exact hC e (hi.of_op hop)

/-- A program that has returned stays as it is. -/
theorem getElem?_step_of_ret {s : Pool E σ α} {i j : Nat} {a : α}
    (hj : s.threads[j]? = some (.ret a)) : (s.step h i).threads[j]? = some (.ret a) := by
  rcases s.step_cases h i with ⟨heq, -⟩ | ⟨β, e, k, hi, heq⟩
  · rw [heq, hj]
  · have hne : i ≠ j := by
      rintro rfl
      rw [hi] at hj
      cases hj
    rw [heq]
    exact (List.getElem?_set_ne hne).trans hj

end Pool

end S3Gateway.Lib
