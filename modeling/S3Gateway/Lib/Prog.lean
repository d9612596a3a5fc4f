import Mathlib

/-!
# Programs over an effect signature

A sequential routine that talks to shared services is a tree of requests: it
issues an effect, receives the answer and goes on. `Prog E α` is that tree for
an effect signature `E` (`E β` is the type of effects answered by a `β`), and
everything the development says about routines is read off it:

- `Prog.run h`: the sequential meaning, for a handler `h` that answers effects
  from a shared state;
- `Prog.Triple h P p Q`: pre- and postconditions for that meaning, with one rule
  per constructor, so that a routine is verified call by call without being
  unfolded into a state transformer;
- `Prog.ownSteps h env`: the steps a routine itself performs when other parties
  may change the shared state (by `env`) before each of its effects.
-/

namespace S3Gateway.Lib

/-- A program over the effect signature `E` returning an `α`. -/
inductive Prog (E : Type → Type) (α : Type) : Type 1 where
  /-- The program has returned. -/
  | ret (a : α) : Prog E α
  /-- The program performs `e` and goes on with its answer. -/
  | op {β : Type} (e : E β) (k : β → Prog E α) : Prog E α

/-- A handler answers every effect from (and updates) a shared state. -/
abbrev Handler (E : Type → Type) (σ : Type) : Type 1 :=
  {β : Type} → E β → σ → β × σ

namespace Prog

variable {E : Type → Type} {σ α β γ : Type}

/-- Sequential composition. -/
protected def bind : Prog E α → (α → Prog E β) → Prog E β
  | .ret a, f => f a
  | .op e k, f => .op e fun b => (k b).bind f

instance : Monad (Prog E) where
  pure := .ret
  bind := Prog.bind

/-- The program that performs one effect and returns its answer. -/
def call (e : E β) : Prog E β := .op e .ret

/-- The sequential meaning of a program under a handler. -/
def run (h : Handler E σ) : Prog E α → σ → α × σ
  | .ret a, s => (a, s)
  | .op e k, s => run h (k (h e s).1) (h e s).2

@[simp] theorem run_pure (h : Handler E σ) (a : α) (s : σ) :
    (pure a : Prog E α).run h s = (a, s) := rfl

@[simp] theorem run_call (h : Handler E σ) (e : E β) (s : σ) :
    (call e).run h s = h e s := rfl

/-- Running a composition runs its parts one after the other. -/
@[simp] theorem run_bind (h : Handler E σ) (p : Prog E α) (f : α → Prog E β)
    (s : σ) : (p >>= f).run h s = (f (p.run h s).1).run h (p.run h s).2 := by
  show (Prog.bind p f).run h s = _
  induction p generalizing s with
  | ret a => rfl
  | op e k ih =>
    show ((k (h e s).1).bind f).run h (h e s).2 = _
    rw [ih]
    rfl

/-! ## Pre- and postconditions -/

/-- From every state satisfying `P`, the program ends in a result and state
satisfying `Q`. Programs are finite trees, so this is total correctness. -/
def Triple (h : Handler E σ) (P : σ → Prop) (p : Prog E α)
    (Q : α → σ → Prop) : Prop :=
  ∀ s, P s → Q (p.run h s).1 (p.run h s).2

variable {h : Handler E σ} {P P' : σ → Prop} {Q Q' : α → σ → Prop}

theorem triple_pure {a : α} (hP : ∀ s, P s → Q a s) :
    Triple h P (pure a : Prog E α) Q := hP

/-- An error owes nothing to a postcondition about results. -/
theorem triple_error {ε γ : Type} {err : ε} {R : γ → σ → Prop} :
    Triple h P (pure (.error err) : Prog E (Except ε γ)) fun r s => ∀ a, r = .ok a → R a s := by
  intro s _ a ha
  cases ha

theorem triple_true (p : Prog E α) : Triple h P p fun _ _ => True := fun _ _ => trivial

/-- The rule of composition: the middle assertion is the postcondition of the
first part and the precondition of the second. -/
theorem triple_bind {p : Prog E α} {f : α → Prog E β} {R : β → σ → Prop}
    (hp : Triple h P p Q) (hf : ∀ a, Triple h (Q a) (f a) R) :
    Triple h P (p >>= f) R := by
  intro s hs
  rw [run_bind]
  exact hf _ _ (hp s hs)

/-- The rule of consequence. -/
theorem Triple.conseq {p : Prog E α} (hp : Triple h P p Q)
    (hpre : ∀ s, P' s → P s) (hpost : ∀ a s, Q a s → Q' a s) :
    Triple h P' p Q' :=
  fun s hs => hpost _ _ (hp s (hpre s hs))

theorem Triple.post {p : Prog E α} (hp : Triple h P p Q)
    (hpost : ∀ a s, Q a s → Q' a s) : Triple h P p Q' :=
  hp.conseq (fun _ hs => hs) hpost

theorem Triple.pre {p : Prog E α} (hp : Triple h P p Q)
    (hpre : ∀ s, P' s → P s) : Triple h P' p Q :=
  hp.conseq hpre (fun _ _ hq => hq)

theorem Triple.and {p : Prog E α} (hp : Triple h P p Q) (hp' : Triple h P p Q') :
    Triple h P p fun a s => Q a s ∧ Q' a s :=
  fun s hs => ⟨hp s hs, hp' s hs⟩

/-- Composition when the first part also tells something about its result alone. -/
theorem Triple.step {p : Prog E α} {f : α → Prog E β} {φ : α → Prop} {Q : α → σ → Prop}
    {R : β → σ → Prop} (hp : Triple h P p fun a s => φ a ∧ Q a s)
    (hf : ∀ a, φ a → Triple h (Q a) (f a) R) : Triple h P (p >>= f) R :=
  triple_bind hp fun a s hs => hf a hs.1 s hs.2

/-- A precondition may be split on what it says about no state. -/
theorem triple_exists {ι : Sort*} {P : ι → σ → Prop} {p : Prog E α}
    (hp : ∀ i, Triple h (P i) p Q) : Triple h (fun s => ∃ i, P i s) p Q :=
  fun s ⟨i, hs⟩ => hp i s hs

theorem triple_and {φ : Prop} {p : Prog E α} (hp : φ → Triple h P p Q) :
    Triple h (fun s => φ ∧ P s) p Q :=
  fun s ⟨hφ, hs⟩ => hp hφ s hs

/-- What every effect keeps, a program keeps. -/
theorem run_preserves {I : σ → Prop} (hI : ∀ {β : Type} (e : E β) (s : σ), I s → I (h e s).2)
    (p : Prog E α) {s : σ} (hs : I s) : I (p.run h s).2 := by
  induction p generalizing s with
  | ret a => exact hs
  | op e k ih => exact ih _ (hI e s hs)

/-! ## A program among other parties -/

/-- The steps `p` performs itself, as pairs of the shared state right before and
right after each of its effects, when the other parties take the shared state
from `s` to `env i s` before its `i`-th effect. -/
def ownSteps (h : Handler E σ) (env : Nat → σ → σ) :
    Prog E α → Nat → σ → List (σ × σ)
  | .ret _, _, _ => []
  | .op e k, i, s =>
    (env i s, (h e (env i s)).2) ::
      ownSteps h env (k (h e (env i s)).1) (i + 1) (h e (env i s)).2

/-- Each of the program's own steps satisfies `R`. -/
def EachOwnStep (h : Handler E σ) (env : Nat → σ → σ) (R : σ → σ → Prop) (p : Prog E α)
    (i : Nat) (s : σ) : Prop :=
  ∀ x ∈ ownSteps h env p i s, R x.1 x.2

/-- The program performs only effects that satisfy `C`, whatever the answers. -/
def Only (C : (β : Type) → E β → Prop) : Prog E α → Prop
  | .ret _ => True
  | .op e k => C _ e ∧ ∀ b, Only C (k b)

/-- Whatever the answers, every effect satisfies `C` and every result `φ`. -/
def Always (C : (β : Type) → E β → Prop) (φ : α → Prop) : Prog E α → Prop
  | .ret a => φ a
  | .op e k => C _ e ∧ ∀ b, Always C φ (k b)

/-- Each effect `p` performs, run from `s`, meets `C` in the state it is performed in. -/
def Performs (h : Handler E σ) (C : (β : Type) → E β → σ → Prop) : Prog E α → σ → Prop
  | .ret _, _ => True
  | .op e k, s => C _ e s ∧ Performs h C (k (h e s).1) (h e s).2

/-- Two handlers that answer every effect of a run alike, in related states, give the
same result and related states. -/
theorem run_eq_of_simulation {h g : Handler E σ} {C : (β : Type) → E β → σ → Prop}
    {D : (β : Type) → E β → Prop} {R : σ → σ → Prop}
    (hsim : ∀ {β : Type} (e : E β) (s t : σ), D β e → C β e s → R s t →
      (h e s).1 = (g e t).1 ∧ R (h e s).2 (g e t).2)
    {p : Prog E α} {s t : σ} (hD : Only D p) (hC : Performs h C p s) (hR : R s t) :
    (p.run h s).1 = (p.run g t).1 ∧ R (p.run h s).2 (p.run g t).2 := by
  induction p generalizing s t with
  | ret a => exact ⟨rfl, hR⟩
  | op e k ih =>
    obtain ⟨hans, hR⟩ := hsim e s t hD.1 hC.1 hR
    have hrest := ih (h e s).1 (hD.2 _) hC.2 hR
    have hrun : (op e k).run g t = (k (h e s).1).run g (g e t).2 := by
      rw [hans]
      rfl
    rw [hrun]
    exact hrest

theorem performs_bind {C : (β : Type) → E β → σ → Prop} {p : Prog E α} {f : α → Prog E β} {s : σ} :
    Performs h C (p >>= f) s ↔
      Performs h C p s ∧ Performs h C (f (p.run h s).1) (p.run h s).2 := by
  show Performs h C (Prog.bind p f) s ↔ _
  induction p generalizing s with
  | ret a => exact (iff_of_eq (true_and _)).symm
  | op e k ih => exact (and_congr_right' (ih (h e s).1)).trans and_assoc.symm

theorem performs_forall {ι : Sort*} {C : ι → (β : Type) → E β → σ → Prop} {p : Prog E α} {s : σ}
    (hp : ∀ i, Performs h (C i) p s) : Performs h (fun β e s => ∀ i, C i β e s) p s := by
  induction p generalizing s with
  | ret a => trivial
  | op e k ih => exact ⟨fun i => (hp i).1, ih _ fun i => (hp i).2⟩

/-- The rule of composition for runs in which each effect meets `C`. -/
theorem triple_performs_bind {C : (β : Type) → E β → σ → Prop} {p : Prog E α}
    {f : α → Prog E β} {R : β → σ → Prop}
    (hp : Triple h (fun s => Performs h C p s ∧ P s) p Q)
    (hf : ∀ a, Triple h (fun s => Performs h C (f a) s ∧ Q a s) (f a) R) :
    Triple h (fun s => Performs h C (p >>= f) s ∧ P s) (p >>= f) R := by
  rintro s ⟨hperf, hs⟩
  obtain ⟨hfirst, hrest⟩ := performs_bind.mp hperf
  rw [run_bind]
  exact hf _ _ ⟨hrest, hp s ⟨hfirst, hs⟩⟩

variable {env : Nat → σ → σ} {R : σ → σ → Prop} {C : (β : Type) → E β → Prop}

theorem eachOwnStep_call_bind (e : E β) (k : β → Prog E α) (i : Nat) (s : σ) :
    EachOwnStep h env R (call e >>= k) i s ↔
      R (env i s) (h e (env i s)).2 ∧
        EachOwnStep h env R (k (h e (env i s)).1) (i + 1) (h e (env i s)).2 :=
  List.forall_mem_cons

theorem only_pure (a : α) : Only C (pure a : Prog E α) := trivial

theorem only_call {e : E β} (he : C β e) : Only C (call e : Prog E β) := ⟨he, fun _ => trivial⟩

theorem only_bind {p : Prog E α} {f : α → Prog E β} (hp : Only C p) (hf : ∀ a, Only C (f a)) :
    Only C (p >>= f) := by
  show Only C (Prog.bind p f)
  induction p with
  | ret a => exact hf a
  | op e k ih => exact ⟨hp.1, fun b => ih b (hp.2 b)⟩

theorem Only.mono {D : (β : Type) → E β → Prop} {p : Prog E α} (hp : Only C p)
    (h : ∀ {β : Type} (e : E β), C β e → D β e) : Only D p := by
  induction p with
  | ret a => trivial
  | op e k ih => exact ⟨h e hp.1, fun b => ih b (hp.2 b)⟩

section Always

variable {φ : α → Prop} {ψ : β → Prop}

theorem always_pure {a : α} (ha : φ a) : Always C φ (pure a : Prog E α) := ha

theorem always_call {e : E α} (he : C α e) (hφ : ∀ a, φ a) : Always C φ (call e) := ⟨he, hφ⟩

theorem always_bind {p : Prog E α} {f : α → Prog E β} (hp : Always C φ p)
    (hf : ∀ a, φ a → Always C ψ (f a)) : Always C ψ (p >>= f) := by
  show Always C ψ (Prog.bind p f)
  induction p with
  | ret a => exact hf a hp
  | op e k ih => exact ⟨hp.1, fun b => ih b (hp.2 b)⟩

theorem Always.post {φ' : α → Prop} {p : Prog E α} (hp : Always C φ p) (hpost : ∀ a, φ a → φ' a) :
    Always C φ' p := by
  induction p with
  | ret a => exact hpost a hp
  | op e k ih => exact ⟨hp.1, fun b => ih b (hp.2 b)⟩

theorem Always.only {p : Prog E α} (hp : Always C φ p) : Only C p := by
  induction p with
  | ret a => trivial
  | op e k ih => exact ⟨hp.1, fun b => ih b (hp.2 b)⟩

theorem Always.run {p : Prog E α} (hp : Always C φ p) (h : Handler E σ) (s : σ) :
    φ (p.run h s).1 := by
  induction p generalizing s with
  | ret a => exact hp
  | op e k ih => exact ih _ (hp.2 _) _

end Always

/-- What each of the effects keeps, the program keeps. -/
theorem Only.triple {p : Prog E α} (hp : Only C p)
    (hC : ∀ {β : Type} (e : E β) (s : σ), C β e → P s → P (h e s).2) :
    Triple h P p fun _ => P := by
  induction p with
  | ret a => exact fun s hs => hs
  | op e k ih => exact fun s hs => ih _ (hp.2 _) _ (hC e s hp.1 hs)

/-- Handlers that answer each of the effects alike run the program alike. -/
theorem Only.run_eq {g : Handler E σ} {p : Prog E α} (hp : Only C p)
    (hC : ∀ {β : Type} (e : E β) (s : σ), C β e → h e s = g e s) (s : σ) :
    p.run h s = p.run g s := by
  induction p generalizing s with
  | ret a => rfl
  | op e k ih =>
    have hrest := ih (g e s).1 (hp.2 _) (g e s).2
    rw [run, run, hC e s hp.1]
    exact hrest

/-- What each of the effects guarantees, each own step does. -/
theorem Only.eachOwnStep {p : Prog E α} (hp : Only C p)
    (hC : ∀ {β : Type} (e : E β) (s : σ), C β e → R s (h e s).2) (i : Nat) (s : σ) :
    EachOwnStep h env R p i s := by
  induction p generalizing i s with
  | ret a => exact fun x hx => absurd hx List.not_mem_nil
  | op e k ih => exact List.forall_mem_cons.mpr ⟨hC e _ hp.1, ih _ (hp.2 _) _ _⟩

end Prog

end S3Gateway.Lib
