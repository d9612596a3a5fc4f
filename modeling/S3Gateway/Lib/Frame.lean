import S3Gateway.Lib.Pool

/-!
# What programs leave alone

`v` is a view of the shared state that most programs of a pool leave alone.

- `Prog.Spares h v p`: no effect of `p` changes what `v` sees.
- `Prog.Guards h v J p x`: if `v` sees `x` and nobody else changes that, then `J` holds of
  what `v` sees at every point of `p`.
- `Pool.Guarded h v J i s`: program `i` guards the view and the others spare it. Then `J`
  holds of what is seen, whatever the schedule: the effects of the others drop out, and
  program `i` is verified as if it were alone.
-/

namespace S3Gateway.Lib

variable {E : Type → Type} {σ κ α β : Type}

namespace Prog

/-- No effect changes what `v` sees. -/
def Spares (h : Handler E σ) (v : σ → κ) (p : Prog E α) : Prop :=
  Only (fun _ e => ∀ s, v (h e s).2 = v s) p

/-- From a state in which `v` sees `x`, and as long as no one else changes what it sees,
`J` holds before and after each effect. -/
def Guards (h : Handler E σ) (v : σ → κ) (J : κ → Prop) : Prog E α → κ → Prop
  | .ret _, x => J x
  | .op e k, x => J x ∧ ∀ s, v s = x → Guards h v J (k (h e s).1) (v (h e s).2)

variable {h : Handler E σ} {v : σ → κ} {J : κ → Prop}

theorem Guards.holds {p : Prog E α} {x : κ} (hp : p.Guards h v J x) : J x := by
  cases p with
  | ret a => exact hp
  | op e k => exact hp.1

/-- A program that spares the view guards it. -/
theorem Spares.guards {p : Prog E α} (hp : p.Spares h v) {x : κ} (hx : J x) : p.Guards h v J x := by
  induction p with
  | ret a => exact hx
  | op e k ih =>
    refine ⟨hx, fun s hs => ?_⟩
    rw [hp.1 s, hs]
    exact ih _ (hp.2 _)

/-- If the effects of a safe program keep one more property, it is safe for both. -/
theorem Safe.and_only {I K : σ → Prop} {φ : α → Prop} {C : (β : Type) → E β → Prop}
    {p : Prog E α} (hp : p.Safe h I φ) (hC : p.Only C)
    (hK : ∀ {β : Type} (e : E β) (s : σ), C β e → I s → K s → K (h e s).2) :
    p.Safe h (fun s => I s ∧ K s) φ := by
  induction p with
  | ret a => exact hp
  | op e k ih =>
    rintro s ⟨hI, hKs⟩
    obtain ⟨hI', hk⟩ := hp s hI
    exact ⟨⟨hI', hK e s hC.1 hI hKs⟩, ih _ hk (hC.2 _)⟩

theorem guards_bind {p : Prog E α} {f : α → Prog E β} {x : κ} (hp : p.Guards h v J x)
    (hf : ∀ a y, J y → (f a).Guards h v J y) : (p >>= f).Guards h v J x := by
  show (Prog.bind p f).Guards h v J x
  induction p generalizing x with
  | ret a => exact hf a x hp
  | op e k ih => exact ⟨hp.1, fun s hs => ih _ (hp.2 s hs)⟩

/-- An effect, and what follows it. -/
theorem guards_call_bind {e : E β} {f : β → Prog E α} {x : κ} (hx : J x)
    (hf : ∀ s, v s = x → (f (h e s).1).Guards h v J (v (h e s).2)) :
    (call e >>= f).Guards h v J x :=
  ⟨hx, hf⟩

/-- An effect that spares the view, and what follows it. -/
theorem guards_spare_bind {e : E β} {f : β → Prog E α} {x : κ} (hx : J x)
    (he : ∀ s, v (h e s).2 = v s) (hf : ∀ b, (f b).Guards h v J x) :
    (call e >>= f).Guards h v J x := by
  refine guards_call_bind hx fun s hs => ?_
  rw [he s, hs]
  exact hf _

end Prog

namespace Pool

variable {h : Handler E σ} {v : σ → κ} {J : κ → Prop} {i : Nat} {s : Pool E σ α}

/-- Program `i` guards the view, and the others spare it. -/
structure Guarded (h : Handler E σ) (v : σ → κ) (J : κ → Prop) (i : Nat) (s : Pool E σ α) :
    Prop where
  holds : J (v s.shared)
  programs : ∀ (j : Nat) (p : Prog E α), s.threads[j]? = some p →
    p.Spares h v ∨ j = i ∧ p.Guards h v J (v s.shared)

theorem Guarded.of_spares (hJ : J (v s.shared)) (hs : ∀ p ∈ s.threads, p.Spares h v) :
    s.Guarded h v J i :=
  ⟨hJ, fun _ _ hj => Or.inl (hs _ (List.mem_of_getElem? hj))⟩

/-- A program that spares the view joins. -/
theorem Guarded.spawn (hs : s.Guarded h v J i) {p : Prog E α} (hp : p.Spares h v) :
    (s.spawn p).Guarded h v J i := by
  refine ⟨hs.holds, fun j q hj => ?_⟩
  have hj : (s.threads ++ [p])[j]? = some q := hj
  by_cases hlt : j < s.threads.length
  · rw [List.getElem?_append_left hlt] at hj
    exact hs.programs j q hj
  · rw [List.getElem?_append_right (Nat.le_of_not_lt hlt)] at hj
    rw [List.mem_singleton.mp (List.mem_of_getElem? hj)]
    exact Or.inl hp

/-- The program that guards the view joins a pool that spares it. -/
theorem Guarded.spawn_guards (hs : ∀ p ∈ s.threads, p.Spares h v) {p : Prog E α}
    (hp : p.Guards h v J (v s.shared)) : (s.spawn p).Guarded h v J s.threads.length := by
  refine ⟨hp.holds, fun j q hj => ?_⟩
  have hj : (s.threads ++ [p])[j]? = some q := hj
  by_cases hlt : j < s.threads.length
  · rw [List.getElem?_append_left hlt] at hj
    exact Or.inl (hs q (List.mem_of_getElem? hj))
  · rw [List.getElem?_append_right (Nat.le_of_not_lt hlt)] at hj
    obtain ⟨hlt', -⟩ := List.getElem?_eq_some_iff.mp hj
    rw [List.length_singleton] at hlt'
    rw [List.mem_singleton.mp (List.mem_of_getElem? hj)]
    exact Or.inr ⟨by omega, hp⟩

/-- The shared state changes, but not the view. -/
theorem Guarded.of_view (hs : s.Guarded h v J i) {s' : σ} (hv : v s' = v s.shared) :
    Pool.Guarded h v J i { s with shared := s' } := by
  refine ⟨?_, fun j p hj => ?_⟩
  · show J (v s')
    rw [hv]
    exact hs.holds
  · show p.Spares h v ∨ j = i ∧ p.Guards h v J (v s')
    rw [hv]
    exact hs.programs j p hj

theorem Guarded.step (hs : s.Guarded h v J i) (n : Nat) : (s.step h n).Guarded h v J i := by
  rcases s.step_cases h n with ⟨heq, -⟩ | ⟨β, e, k, hn, heq⟩
  · rw [heq]
    exact hs
  · rw [heq]
    have hlt : n < s.threads.length := (List.getElem?_eq_some_iff.mp hn).1
    have hset : ∀ (j : Nat) (p : Prog E α),
        (s.threads.set n (k (h e s.shared).1))[j]? = some p →
          j = n ∧ p = k (h e s.shared).1 ∨ j ≠ n ∧ s.threads[j]? = some p := by
      intro j p hj
      by_cases hnj : n = j
      · subst hnj
        rw [List.getElem?_set_self hlt] at hj
        exact Or.inl ⟨rfl, (Option.some.inj hj).symm⟩
      · rw [List.getElem?_set_ne hnj] at hj
        exact Or.inr ⟨Ne.symm hnj, hj⟩
    rcases hs.programs n _ hn with hsp | ⟨rfl, hg⟩
    · -- a program that spares the view
      refine ⟨?_, fun j p hj => ?_⟩
      · show J (v (h e s.shared).2)
        rw [hsp.1 s.shared]
        exact hs.holds
      · show p.Spares h v ∨ j = i ∧ p.Guards h v J (v (h e s.shared).2)
        rw [hsp.1 s.shared]
        rcases hset j p hj with ⟨rfl, rfl⟩ | ⟨-, hj⟩
        · exact Or.inl (hsp.2 _)
        · exact hs.programs j p hj
    · -- the program that guards it: the others are not program `n`
      have hg' := hg.2 s.shared rfl
      refine ⟨hg'.holds, fun j p hj => ?_⟩
      rcases hset j p hj with ⟨rfl, rfl⟩ | ⟨hne, hj⟩
      · exact Or.inr ⟨rfl, hg'⟩
      · exact (hs.programs j p hj).imp_right fun hj => absurd hj.1 hne

end Pool

end S3Gateway.Lib
