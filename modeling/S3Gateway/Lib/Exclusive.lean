import S3Gateway.Lib.Pool

/-!
# Exclusive names

Programs that share a state may create things under names of their own, and use them
while nobody else does: temporary files, for one. `view n s` is what the state `s` has
under the name `n`, if anything; a program holds at most one name at a time, and knows
what is there.

- `Moves view held held' s s'`: a step from `s` to `s'` by a program that holds `held`
  before and `held'` after it. It takes a name only if nothing is there, gives it up only
  by leaving nothing there, and touches no other name.
- `Prog.Exclusive h I view φ held p`: whatever other such programs do in between, each
  effect of `p`, which holds `held`, keeps the invariant and moves like that; a result
  and what is held then satisfy `φ`.
- `Pool.Exclusive`: the names that programs of a pool hold are pairwise different, each
  has what its holder knows, and no other name has anything, those in `strays` apart. A
  step of any program keeps that.
-/

namespace S3Gateway.Lib

variable {E : Type → Type} {σ ι ν τ α β : Type}

/-- What a step does to the names. -/
structure Moves (view : ν → σ → Option τ) (held held' : Option (ν × τ)) (s s' : σ) : Prop where
  others : ∀ n, (∀ v, held ≠ some (n, v)) → (∀ v, held' ≠ some (n, v)) → view n s' = view n s
  taken : ∀ n v, held' = some (n, v) →
    view n s' = some v ∧ ((∃ v', held = some (n, v')) ∨ view n s = none)
  given : ∀ n v, held = some (n, v) → (∃ v', held' = some (n, v')) ∨ view n s' = none

namespace Prog

/-- Each effect keeps the invariant and minds the names of others. -/
def Exclusive (h : ι → Handler E σ) (I : σ → Prop) (view : ν → σ → Option τ)
    (φ : α → Option (ν × τ) → Prop) : Option (ν × τ) → Prog E α → Prop
  | held, .ret a => φ a held
  | held, .op e k => ∀ o s, I s → (∀ n v, held = some (n, v) → view n s = some v) →
      I (h o e s).2 ∧ ∃ held', Moves view held held' s (h o e s).2 ∧
        Exclusive h I view φ held' (k (h o e s).1)

variable {h : ι → Handler E σ} {I : σ → Prop} {view : ν → σ → Option τ}
  {φ : α → Option (ν × τ) → Prop} {ψ : β → Option (ν × τ) → Prop} {held : Option (ν × τ)}

theorem exclusive_call {e : E α}
    (he : ∀ o s, I s → (∀ n v, held = some (n, v) → view n s = some v) →
      I (h o e s).2 ∧ ∃ held', Moves view held held' s (h o e s).2 ∧ φ (h o e s).1 held') :
    Exclusive h I view φ held (call e) := he

end Prog

namespace Pool

/-- Who holds what: every name in use is held by one program, or is a stray. -/
structure Exclusive (h : ι → Handler E σ) (I : σ → Prop) (view : ν → σ → Option τ)
    (φ : α → Option (ν × τ) → Prop) (strays : ν → Prop) (holds : Nat → Option (ν × τ))
    (s : Pool E σ α) : Prop where
  inv : I s.shared
  programs : ∀ (j : Nat) (p : Prog E α), s.threads[j]? = some p →
    p.Exclusive h I view φ (holds j)
  known : ∀ j n v, holds j = some (n, v) → view n s.shared = some v
  apart : ∀ i j n v v', holds i = some (n, v) → holds j = some (n, v') → i = j
  owned : ∀ n v, view n s.shared = some v →
    strays n ∨ ∃ j v', j < s.threads.length ∧ holds j = some (n, v')
  bounded : ∀ j, s.threads.length ≤ j → holds j = none

variable {h : ι → Handler E σ} {I : σ → Prop} {view : ν → σ → Option τ}
  {φ : α → Option (ν × τ) → Prop} {strays : ν → Prop} {holds : Nat → Option (ν × τ)}
  {s : Pool E σ α}

/-- A program that holds nothing joins. -/
theorem Exclusive.spawn (hs : s.Exclusive h I view φ strays holds) {p : Prog E α}
    (hp : p.Exclusive h I view φ none) : (s.spawn p).Exclusive h I view φ strays holds where
  inv := hs.inv
  programs j q hj := by
    rcases Nat.lt_trichotomy j s.threads.length with hlt | heq | hgt
    · have hj := (List.getElem?_append_left hlt).symm.trans hj
      exact hs.programs j q hj
    · subst heq
      have hj : (s.threads ++ [p])[s.threads.length]? = some q := hj
      rw [List.getElem?_concat_length] at hj
      cases hj
      rw [hs.bounded _ (Nat.le_refl _)]
      exact hp
    · have hlen : (s.threads ++ [p]).length ≤ j := by
        rw [List.length_append]
        exact hgt
      exact absurd ((List.getElem?_eq_none hlen).symm.trans hj) (by simp)
  known := hs.known
  apart := hs.apart
  owned n v hn := by
    rcases hs.owned n v hn with hstray | ⟨j, v', hj, hheld⟩
    · exact Or.inl hstray
    · refine Or.inr ⟨j, v', ?_, hheld⟩
      show j < (s.threads ++ [p]).length
      rw [List.length_append]
      omega
  bounded j hj := by
    refine hs.bounded j ?_
    have hj : (s.threads ++ [p]).length ≤ j := hj
    rw [List.length_append] at hj
    omega

theorem Exclusive.step (hs : s.Exclusive h I view φ strays holds) (o : ι) (i : Nat) :
    ∃ holds', (s.step (h o) i).Exclusive h I view φ strays holds' := by
  rcases s.step_cases (h o) i with ⟨heq, -⟩ | ⟨β, e, k, hi, heq⟩
  · rw [heq]
    exact ⟨holds, hs⟩
  · rw [heq]
    have hlt : i < s.threads.length := (List.getElem?_eq_some_iff.mp hi).1
    obtain ⟨hI, held', hmoves, hk⟩ := hs.programs i _ hi o s.shared hs.inv (hs.known i)
    have hself : Function.update holds i held' i = held' := Function.update_self _ _ _
    have hother : ∀ j, j ≠ i → Function.update holds i held' j = holds j :=
      fun j hj => Function.update_of_ne hj _ _
    -- no other program holds a name the step takes
    have hfree : ∀ j n v v', j ≠ i → holds j = some (n, v) → held' ≠ some (n, v') := by
      intro j n v v' hj hn hn'
      rcases (hmoves.taken n v' hn').2 with ⟨v'', hold⟩ | hnone
      · exact hj (hs.apart j i n v v'' hn hold)
      · rw [hs.known j n v hn] at hnone
        cases hnone
    refine ⟨Function.update holds i held', hI, fun j p hj => ?_, fun j n v hn => ?_,
      fun a b n v v' ha hb => ?_, fun n v hn => ?_, fun j hj => ?_⟩
    · by_cases hji : j = i
      · subst hji
        cases (List.getElem?_set_self hlt).symm.trans hj
        rw [hself]
        exact hk
      · rw [hother j hji]
        exact hs.programs j p ((List.getElem?_set_ne (Ne.symm hji)).symm.trans hj)
    · by_cases hji : j = i
      · subst hji
        rw [hself] at hn
        exact (hmoves.taken n v hn).1
      · rw [hother j hji] at hn
        refine (hmoves.others n (fun v' hn' => ?_) fun v' => hfree j n v v' hji hn).trans
          (hs.known j n v hn)
        exact hji (hs.apart j i n v v' hn hn')
    · by_cases hai : a = i <;> by_cases hbi : b = i
      · rw [hai, hbi]
      · rw [hai, hself] at ha
        rw [hother b hbi] at hb
        exact absurd ha (hfree b n v' v hbi hb)
      · rw [hbi, hself] at hb
        rw [hother a hai] at ha
        exact absurd hb (hfree a n v v' hai ha)
      · rw [hother a hai] at ha
        rw [hother b hbi] at hb
        exact hs.apart a b n v v' ha hb
    · have hlen : (s.threads.set i (k (h o e s.shared).1)).length = s.threads.length :=
        List.length_set
      show _ ∨ ∃ j v', j < (s.threads.set i (k (h o e s.shared).1)).length ∧ _
      rw [hlen]
      by_cases hnew : ∃ v', held' = some (n, v')
      · obtain ⟨v', hv'⟩ := hnew
        exact Or.inr ⟨i, v', hlt, hself.trans hv'⟩
      · have hnew : ∀ v', held' ≠ some (n, v') := fun v' hv' => hnew ⟨v', hv'⟩
        -- a name given up has nothing
        have hold : ∀ v', holds i ≠ some (n, v') := by
          intro v' hv'
          rcases hmoves.given n v' hv' with ⟨v'', hv''⟩ | hnone
          · exact hnew v'' hv''
          · rw [hn] at hnone
            cases hnone
        rcases hs.owned n v ((hmoves.others n hold hnew).symm.trans hn) with
          hstray | ⟨j, v', hj, hheld⟩
        · exact Or.inl hstray
        · refine Or.inr ⟨j, v', hj, (hother j ?_).trans hheld⟩
          rintro rfl
          exact hold v' hheld
    · have hj : (s.threads.set i (k (h o e s.shared).1)).length ≤ j := hj
      rw [List.length_set] at hj
      rw [hother j (by omega)]
      exact hs.bounded j hj

end Pool

end S3Gateway.Lib
