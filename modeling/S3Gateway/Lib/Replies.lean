import S3Gateway.Lib.Pool

/-!
# Programs that depend on what they are told

Other programs and the world around may change the shared state between any two effects of
a program. All it learns of that are the replies.

- `Prog.Given K C φ p`: as long as each reply to an effect is one that `K` allows, each
  effect of `p` meets `C` and the result satisfies `φ`.
- `Pool.Given K C s`: all programs of the pool are such. A step keeps that if the reply is
  allowed in the state it is given in.

With `K` always true this is `Prog.Only`. What `K` says of a reply is not lost when the
state changes, so it can be used any number of effects later.
-/

namespace S3Gateway.Lib

variable {E : Type → Type} {σ α β : Type} {K : (β : Type) → E β → β → Prop}
  {C : (β : Type) → E β → Prop}

namespace Prog

/-- Replies that are allowed lead to effects that meet the condition. -/
def Given (K : (β : Type) → E β → β → Prop) (C : (β : Type) → E β → Prop) (φ : α → Prop) :
    Prog E α → Prop
  | .ret a => φ a
  | .op e k => C _ e ∧ ∀ b, K _ e b → Given K C φ (k b)

variable {φ : α → Prop} {ψ : β → Prop}

theorem given_pure {a : α} (ha : φ a) : Given K C φ (pure a : Prog E α) := ha

theorem given_call {e : E β} (he : C β e) : Given K C (K β e) (call e) := ⟨he, fun _ hb => hb⟩

theorem given_bind {p : Prog E α} {f : α → Prog E β} (hp : Given K C φ p)
    (hf : ∀ a, φ a → Given K C ψ (f a)) : Given K C ψ (p >>= f) := by
  show Given K C ψ (Prog.bind p f)
  induction p with
  | ret a => exact hf a hp
  | op e k ih => exact ⟨hp.1, fun b hb => ih b (hp.2 b hb)⟩

theorem Given.post {p : Prog E α} {φ' : α → Prop} (hp : Given K C φ p) (h : ∀ a, φ a → φ' a) :
    Given K C φ' p := by
  induction p with
  | ret a => exact h a hp
  | op e k ih => exact ⟨hp.1, fun b hb => ih b (hp.2 b hb)⟩

/-- An effect, and what follows it. -/
theorem given_call_bind {e : E β} (he : C β e) {f : β → Prog E α}
    (hf : ∀ b, K β e b → Given K C φ (f b)) : Given K C φ (call e >>= f) :=
  given_bind (given_call he) hf

/-- A program whose effects meet the condition whatever the replies. -/
theorem Only.given {p : Prog E α} (hp : Only C p) : Given K C (fun _ => True) p := by
  induction p with
  | ret a => trivial
  | op e k ih => exact ⟨hp.1, fun b _ => ih b (hp.2 b)⟩

end Prog

namespace Pool

variable {h : Handler E σ} {s : Pool E σ α}

/-- All programs keep to the condition as long as the replies are allowed. -/
def Given (K : (β : Type) → E β → β → Prop) (C : (β : Type) → E β → Prop) (s : Pool E σ α) :
    Prop :=
  ∀ p ∈ s.threads, p.Given K C fun _ => True

theorem Given.spawn (hs : s.Given K C) {p : Prog E α} (hp : p.Given K C fun _ => True) :
    (s.spawn p).Given K C := by
  intro q hq
  rcases List.mem_append.mp hq with hq | hq
  · exact hs q hq
  · rw [List.mem_singleton.mp hq]
    exact hp

/-- A step does nothing, or performs an effect that meets the condition; if its reply is
allowed, the programs are as before. -/
theorem Given.step (hs : s.Given K C) (i : Nat) :
    s.step h i = s ∨ ∃ (β : Type) (e : E β), C β e ∧ (s.step h i).shared = (h e s.shared).2 ∧
      (K β e (h e s.shared).1 → (s.step h i).Given K C) := by
  rcases s.step_cases h i with ⟨heq, -⟩ | ⟨β, e, k, hi, heq⟩
  · exact Or.inl heq
  · have hp := hs _ (List.mem_of_getElem? hi)
    rw [heq]
    refine Or.inr ⟨β, e, hp.1, rfl, fun hreply q hq => ?_⟩
    rcases List.mem_or_eq_of_mem_set hq with hq | rfl
    · exact hs q hq
    · exact hp.2 _ hreply

end Pool

end S3Gateway.Lib
