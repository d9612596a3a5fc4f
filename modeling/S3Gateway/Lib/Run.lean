import Mathlib

/-!
# Runs of a deterministic machine

A machine `step : σ → ε → σ` is fed with a list of events. `Throughout` and
`EachStep` say that a property holds in every state, respectively at every step,
of a run; `throughout_of_eachStep` and `throughout_iff_eachStep` are the induction
over runs, stated once.

A machine may also answer each event (`out : σ → ε → ο`). `outputs` are the
answers along a run, and `outputs_eq_of_simulation` is refinement: machines whose
states stay related, and that answer alike from related states, have the same
answers along every run.

Where a machine keeps what events write, `LastWrite` says which event a value goes
back to, and `lastWrite_of_holds` is the induction that finds it.
-/

namespace S3Gateway.Lib

universe u v

variable {σ : Type u} {ε : Type v} (step : σ → ε → σ)

/-- The property holds in every state of the run, the first and the last
included. -/
def Throughout (P : σ → Prop) : σ → List ε → Prop
  | s, [] => P s
  | s, e :: es => P s ∧ Throughout P (step s e) es

/-- Every event of the run meets the condition in the state it is applied to. -/
def EachStep (C : σ → ε → Prop) : σ → List ε → Prop
  | _, [] => True
  | s, e :: es => C s e ∧ EachStep C (step s e) es

variable {step} {I P : σ → Prop} {C D : σ → ε → Prop}

theorem Throughout.head {s : σ} {es : List ε} (h : Throughout step P s es) :
    P s := by
  cases es with
  | nil => exact h
  | cons _ _ => exact h.1

theorem Throughout.last {s : σ} {es : List ε} (h : Throughout step P s es) :
    P (es.foldl step s) := by
  induction es generalizing s with
  | nil => exact h
  | cons e es ih => exact ih h.2

theorem Throughout.drop {s : σ} {es es' : List ε} (h : Throughout step P s (es ++ es')) :
    Throughout step P (es.foldl step s) es' := by
  induction es generalizing s with
  | nil => exact h
  | cons e es ih => exact ih h.2

theorem EachStep.append {s : σ} {es es' : List ε} :
    EachStep step C s (es ++ es') ↔
      EachStep step C s es ∧ EachStep step C (es.foldl step s) es' := by
  induction es generalizing s with
  | nil => exact ⟨fun h => ⟨trivial, h⟩, fun h => h.2⟩
  | cons e es ih =>
    constructor
    · intro h
      exact ⟨⟨h.1, (ih.mp h.2).1⟩, (ih.mp h.2).2⟩
    · intro h
      exact ⟨h.1.1, ih.mpr ⟨h.1.2, h.2⟩⟩

/-- An invariant that every admissible step preserves holds throughout every
admissible run. -/
theorem throughout_of_eachStep (hstep : ∀ s e, I s → C s e → I (step s e))
    (hP : ∀ s, I s → P s) {s : σ} {es : List ε} (hs : I s)
    (hC : EachStep step C s es) : Throughout step P s es := by
  induction es generalizing s with
  | nil => exact hP s hs
  | cons e es ih => exact ⟨hP s hs, ih (hstep s e hs hC.1) hC.2⟩

/-- With no condition on the steps, an invariant holds throughout every run. -/
theorem throughout_of_invariant (hstep : ∀ s e, I s → I (step s e))
    (hP : ∀ s, I s → P s) {s : σ} (hs : I s) (es : List ε) :
    Throughout step P s es := by
  induction es generalizing s with
  | nil => exact hP s hs
  | cons e es ih => exact ⟨hP s hs, ih (hstep s e hs)⟩

/-- In a run whose steps all meet `D`, and where a step that misses the condition leaves
the property, the property holds throughout exactly if every step meets the condition. -/
theorem throughout_iff_eachStep_of (hstep : ∀ s e, I s → D s e → C s e → I (step s e))
    (hP : ∀ s, I s → P s) (hbad : ∀ s e, I s → D s e → P (step s e) → C s e)
    {s : σ} {es : List ε} (hs : I s) (hD : EachStep step D s es) :
    Throughout step P s es ↔ EachStep step C s es := by
  induction es generalizing s with
  | nil => exact ⟨fun _ => trivial, fun _ => hP s hs⟩
  | cons e es ih =>
    constructor
    · intro h
      have hC : C s e := hbad s e hs hD.1 h.2.head
      exact ⟨hC, (ih (hstep s e hs hD.1 hC) hD.2).mp h.2⟩
    · intro h
      exact ⟨hP s hs, (ih (hstep s e hs hD.1 h.1) hD.2).mpr h.2⟩

/-- If a step that misses the condition leaves a mark, and the mark stays, then in a run
that ends without it every step met the condition. -/
theorem eachStep_of_unmarked {L : σ → Prop} (hstep : ∀ s e, I s → D s e → C s e → I (step s e))
    (hbad : ∀ s e, I s → D s e → ¬ C s e → L (step s e)) (hL : ∀ s e, L s → D s e → L (step s e))
    {s : σ} {es : List ε} (hs : I s) (hD : EachStep step D s es) (h : ¬ L (es.foldl step s)) :
    EachStep step C s es := by
  induction es generalizing s with
  | nil => trivial
  | cons e es ih =>
    by_cases hC : C s e
    · exact ⟨hC, ih (hstep s e hs hD.1 hC) hD.2 h⟩
    · exact absurd (throughout_of_eachStep hL (fun _ h => h) (hbad s e hs hD.1 hC) hD.2).last h

theorem EachStep.of_forall {A : ε → Prop} {s : σ} {es : List ε} (h : ∀ e ∈ es, A e) :
    EachStep step (fun _ e => A e) s es := by
  induction es generalizing s with
  | nil => trivial
  | cons e es ih => exact ⟨h e List.mem_cons_self, ih fun e' he' => h e' (List.mem_cons_of_mem _ he')⟩

/-- When a step that misses the condition leaves the property, the property
holds throughout a run exactly if every step meets the condition. -/
theorem throughout_iff_eachStep (hstep : ∀ s e, I s → C s e → I (step s e))
    (hP : ∀ s, I s → P s) (hbad : ∀ s e, I s → P (step s e) → C s e)
    {s : σ} {es : List ε} (hs : I s) :
    Throughout step P s es ↔ EachStep step C s es :=
  throughout_iff_eachStep_of (D := fun _ _ => True) (fun s e hI _ => hstep s e hI) hP
    (fun s e hI _ => hbad s e hI) hs (EachStep.of_forall fun _ _ => trivial)

/-- What a step guarantees from the invariant is guaranteed at every step of an
admissible run. -/
theorem EachStep.of_invariant (hstep : ∀ s e, I s → C s e → D s e ∧ I (step s e))
    {s : σ} {es : List ε} (hs : I s) (hC : EachStep step C s es) :
    EachStep step D s es := by
  induction es generalizing s with
  | nil => trivial
  | cons e es ih =>
    obtain ⟨hD, hI⟩ := hstep s e hs hC.1
    exact ⟨hD, ih hI hC.2⟩

/-- Two conditions that are the same wherever the invariant holds. -/
theorem EachStep.iff_of_invariant (hstep : ∀ s e, I s → I (step s e))
    (h : ∀ s e, I s → (C s e ↔ D s e)) {s : σ} {es : List ε} (hs : I s) :
    EachStep step C s es ↔ EachStep step D s es := by
  constructor
  · exact EachStep.of_invariant (fun s e hI hC => ⟨(h s e hI).mp hC, hstep s e hI⟩) hs
  · exact EachStep.of_invariant (fun s e hI hD => ⟨(h s e hI).mpr hD, hstep s e hI⟩) hs

theorem EachStep.and {s : σ} {es : List ε} (h : EachStep step C s es) (h' : EachStep step D s es) :
    EachStep step (fun s e => C s e ∧ D s e) s es := by
  induction es generalizing s with
  | nil => trivial
  | cons e es ih => exact ⟨⟨h.1, h'.1⟩, ih h.2 h'.2⟩

/-! ## Answers -/

/-- The answers along a run. -/
def outputs {ο : Type} (step : σ → ε → σ) (out : σ → ε → ο) : σ → List ε → List ο
  | _, [] => []
  | s, e :: es => out s e :: outputs step out (step s e) es

theorem outputs_concat {ο : Type} (step : σ → ε → σ) (out : σ → ε → ο) (s : σ) (es : List ε)
    (e : ε) : outputs step out s (es ++ [e])
      = outputs step out s es ++ [out (es.foldl step s) e] := by
  induction es generalizing s with
  | nil => rfl
  | cons e' es ih => exact congrArg (out s e' :: ·) (ih (step s e'))

theorem outputs_take {ο : Type} (step : σ → ε → σ) (out : σ → ε → ο) (s : σ) (es : List ε)
    (n : Nat) : outputs step out s (es.take n) = (outputs step out s es).take n := by
  induction es generalizing s n with
  | nil => simp [outputs]
  | cons e es ih =>
    cases n with
    | zero => rfl
    | succ n => exact congrArg (out s e :: ·) (ih (step s e) n)

/-- If related states answer each admissible event alike and step to related
states, then the answers along an admissible run are the same and the final states
related. -/
theorem outputs_eq_of_simulation {τ ο : Type} {R : σ → τ → Prop}
    {step' : τ → ε → τ} {out : σ → ε → ο} {out' : τ → ε → ο}
    (hsim : ∀ s t e, R s t → C s e → out s e = out' t e ∧ R (step s e) (step' t e))
    {s : σ} {t : τ} {es : List ε} (h : R s t) (hC : EachStep step C s es) :
    outputs step out s es = outputs step' out' t es ∧ R (es.foldl step s) (es.foldl step' t) := by
  induction es generalizing s t with
  | nil => exact ⟨rfl, h⟩
  | cons e es ih =>
    obtain ⟨hout, hR⟩ := hsim s t e h hC.1
    obtain ⟨houts, hlast⟩ := ih hR hC.2
    exact ⟨by rw [outputs, outputs, hout, houts], hlast⟩

/-! ## Last writes -/

/-- An event of the run wrote `v`, and no later event of the run touched it. -/
def LastWrite {ν : Type} (writes : ε → ν → Prop) (touches : ε → Prop) (es : List ε) (v : ν) :
    Prop :=
  ∃ before e after, es = before ++ e :: after ∧ writes e v ∧ ∀ e' ∈ after, ¬ touches e'

theorem LastWrite.cons {ν : Type} {writes : ε → ν → Prop} {touches : ε → Prop} {es : List ε} {v : ν}
    (h : LastWrite writes touches es v) (e : ε) : LastWrite writes touches (e :: es) v := by
  obtain ⟨before, e', after, rfl, hw, ht⟩ := h
  exact ⟨e :: before, e', after, rfl, hw, ht⟩

/-- If each admissible step only keeps a value that the event does not touch, or takes
the one it writes, then a value held at the end was written last by an event of the run,
or was there at the start and never touched. -/
theorem lastWrite_of_holds {ν : Type} {writes : ε → ν → Prop} {touches : ε → Prop}
    {H : σ → ν → Prop} (hI : ∀ s e, I s → C s e → I (step s e))
    (hstep : ∀ s e v, I s → C s e → H (step s e) v → writes e v ∨ ¬ touches e ∧ H s v)
    {s : σ} {es : List ε} (hs : I s) (hC : EachStep step C s es) {v : ν}
    (h : H (es.foldl step s) v) :
    LastWrite writes touches es v ∨ (∀ e ∈ es, ¬ touches e) ∧ H s v := by
  induction es generalizing s with
  | nil => exact Or.inr ⟨nofun, h⟩
  | cons e es ih =>
    rcases ih (hI s e hs hC.1) hC.2 h with hlast | ⟨hes, hv⟩
    · exact Or.inl (hlast.cons e)
    · rcases hstep s e v hs hC.1 hv with hw | ⟨ht, hv⟩
      · exact Or.inl ⟨[], e, es, rfl, hw, hes⟩
      · exact Or.inr ⟨List.forall_mem_cons.mpr ⟨ht, hes⟩, hv⟩

end S3Gateway.Lib
