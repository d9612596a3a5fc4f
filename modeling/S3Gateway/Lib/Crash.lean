import S3Gateway.Lib.Prog

/-!
# Programs that may be stopped

Effects whose answers depend on more than the state (a clock, a failing device) are
handled under an outcome, one for each step. `Crashable` is such a handler together with
what a stop of the machine leaves behind: of a state between two steps, and from within
a step that is not atomic for that purpose.

- `Prog.advance`, `Prog.Admits`: the program after some of its steps, and that each
  outcome was one the step may have;
- `Prog.stops`: everything a stop on the way there can leave behind;
- `Prog.Along m K Q p s`: whatever admissible outcomes its steps have, `p` leaves
  behind only what satisfies `K` when stopped, and returns in a state satisfying `Q`.
  It is the program logic: one rule per constructor, and `Along.stops`, `Along.advance`
  to read results off it.
-/

namespace S3Gateway.Lib

/-- A handler under outcomes `Ω`, and what a stop leaves behind of its states `σ`. -/
structure Crashable (E : Type → Type) (Ω σ τ : Type) where
  handle : Ω → Handler E σ
  /-- The outcomes a step may have. -/
  admits : Ω → (β : Type) → E β → σ → Prop
  /-- What is left of a state. -/
  remains : σ → τ
  /-- What a stop within a step can leave, apart from the states before and after it. -/
  within : Ω → (β : Type) → E β → σ → List τ

namespace Prog

variable {E : Type → Type} {Ω σ τ α β : Type} (m : Crashable E Ω σ τ)

/-- The program and the state after one step for each outcome; a program that has
returned makes none. -/
def advance : List Ω → Prog E α → σ → Prog E α × σ
  | [], p, s => (p, s)
  | _ :: _, .ret a, s => (.ret a, s)
  | o :: os, .op e k, s => advance os (k (m.handle o e s).1) (m.handle o e s).2

/-- Each outcome is one its step may have. -/
def Admits : List Ω → Prog E α → σ → Prop
  | [], _, _ => True
  | _ :: _, .ret _, _ => True
  | o :: os, .op e k, s =>
    m.admits o _ e s ∧ Admits os (k (m.handle o e s).1) (m.handle o e s).2

/-- What a stop during these steps can leave behind. -/
def stops : List Ω → Prog E α → σ → List τ
  | [], _, s => [m.remains s]
  | _ :: _, .ret _, s => [m.remains s]
  | o :: os, .op e k, s =>
    m.remains s :: m.within o _ e s ++ stops os (k (m.handle o e s).1) (m.handle o e s).2

/-- Under all admissible outcomes, a stop leaves what satisfies `K`, and the program
returns in a state satisfying `Q`. -/
def Along (K : τ → Prop) (Q : α → σ → Prop) : Prog E α → σ → Prop
  | .ret a, s => K (m.remains s) ∧ Q a s
  | .op e k, s => K (m.remains s) ∧ ∀ o, m.admits o _ e s →
    (∀ t ∈ m.within o _ e s, K t) ∧ Along K Q (k (m.handle o e s).1) (m.handle o e s).2

variable {m} {K : τ → Prop} {Q : α → σ → Prop} {R : β → σ → Prop}

theorem along_pure {a : α} {s : σ} (hK : K (m.remains s)) (hQ : Q a s) :
    Along m K Q (pure a : Prog E α) s := ⟨hK, hQ⟩

/-- One effect, then the rest. -/
theorem along_call_bind {e : E β} {k : β → Prog E α} {s : σ} (hK : K (m.remains s))
    (h : ∀ o, m.admits o _ e s → (∀ t ∈ m.within o _ e s, K t) ∧
      Along m K Q (k (m.handle o e s).1) (m.handle o e s).2) :
    Along m K Q (call e >>= k) s := ⟨hK, h⟩

theorem along_bind {p : Prog E α} {f : α → Prog E β} {s : σ}
    (h : Along m K (fun a s => Along m K R (f a) s) p s) : Along m K R (p >>= f) s := by
  show Along m K R (Prog.bind p f) s
  induction p generalizing s with
  | ret a => exact h.2
  | op e k ih => exact ⟨h.1, fun o ho => ⟨(h.2 o ho).1, ih _ (h.2 o ho).2⟩⟩

theorem Along.mono {Q' : α → σ → Prop} {p : Prog E α} {s : σ} (h : Along m K Q p s)
    (hQ : ∀ a s, K (m.remains s) → Q a s → Q' a s) : Along m K Q' p s := by
  induction p generalizing s with
  | ret a => exact ⟨h.1, hQ a s h.1 h.2⟩
  | op e k ih => exact ⟨h.1, fun o ho => ⟨(h.2 o ho).1, ih _ (h.2 o ho).2⟩⟩

/-- What a stop leaves behind satisfies the crash condition. -/
theorem Along.stops {p : Prog E α} {s : σ} {os : List Ω} (h : Along m K Q p s)
    (hos : Admits m os p s) : ∀ t ∈ p.stops m os s, K t := by
  induction os generalizing p s with
  | nil =>
    intro t ht
    rw [List.mem_singleton.mp ht]
    cases p with
    | ret a => exact h.1
    | op e k => exact h.1
  | cons o os ih =>
    cases p with
    | ret a =>
      intro t ht
      rw [List.mem_singleton.mp ht]
      exact h.1
    | op e k =>
      intro t ht
      rcases List.mem_append.mp ht with ht | ht
      · rcases List.mem_cons.mp ht with rfl | ht
        · exact h.1
        · exact (h.2 o hos.1).1 t ht
      · exact ih (h.2 o hos.1).2 hos.2 t ht

/-- A program that has returned has met its postcondition. -/
theorem Along.advance {p : Prog E α} {s : σ} {os : List Ω} {a : α} (h : Along m K Q p s)
    (hos : Admits m os p s) (hret : (p.advance m os s).1 = .ret a) :
    K (m.remains (p.advance m os s).2) ∧ Q a (p.advance m os s).2 := by
  induction os generalizing p s with
  | nil =>
    cases p with
    | ret a' =>
      cases hret
      exact h
    | op e k => cases hret
  | cons o os ih =>
    cases p with
    | ret a' =>
      cases hret
      exact h
    | op e k => exact ih (h.2 o hos.1).2 hos.2 hret

end Prog

end S3Gateway.Lib
