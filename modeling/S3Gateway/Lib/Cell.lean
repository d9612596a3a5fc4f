import Mathlib.Logic.Function.Basic

/-!
# Read-modify-write of a shared map

Parties change a shared map without a lock: each of them reads it, makes its change
in the copy it has read, and writes the whole copy back. A `Change` sets some of the
keys, and the changes of different parties are `Apart`.

- `Cell.Kept`: the map has the changes of all who have written back. A write that is
  `Fresh`, that is, changes only what its party touches, keeps that (`Step.kept`).
- `Cell.Lost`: neither the map nor any copy has all of them, or a party has failed. A
  write that is not fresh ends there, if its party's change is a change at all
  (`Step.lost_of_stale`), and no step leads out (`Step.lost`).
-/

namespace S3Gateway.Lib

/-- New values for some of the keys of a map. -/
structure Change (κ ν : Type) where
  touches : κ → Prop
  value : κ → ν

namespace Change

variable {κ ν : Type} {u v : Change κ ν} {m m' : κ → ν}

/-- The map has the new values. -/
def In (u : Change κ ν) (m : κ → ν) : Prop := ∀ k, u.touches k → m k = u.value k

/-- `m'` is `m` with the new values. -/
structure Makes (u : Change κ ν) (m m' : κ → ν) : Prop where
  inside : u.In m'
  outside : ∀ k, ¬ u.touches k → m' k = m k

theorem Makes.of_ite {touches : κ → Prop} [DecidablePred touches] {value : κ → ν}
    (h : ∀ k, m' k = if touches k then value k else m k) : Makes ⟨touches, value⟩ m m' where
  inside k hk := (h k).trans (if_pos hk)
  outside k hk := (h k).trans (if_neg hk)

/-- No key is touched by both. -/
def Apart (u v : Change κ ν) : Prop := ∀ k, u.touches k → ¬ v.touches k

/-- Maps that differ only where `u` touches them agree on what is apart from `u`. -/
theorem Apart.in_iff (h : v.Apart u) (hout : ∀ k, ¬ u.touches k → m' k = m k) :
    v.In m' ↔ v.In m := by
  constructor
  · intro hin k hk
    rw [← hout k (h k hk)]
    exact hin k hk
  · intro hin k hk
    rw [hout k (h k hk)]
    exact hin k hk

end Change

/-- How far a party has come. -/
inductive Phase (κ ν : Type) where
  | idle
  /-- It has read the map and made its change in the copy. -/
  | holding (copy : κ → ν)
  | done
  /-- Its write was refused. -/
  | failed

/-- A shared map and the parties that change it. -/
structure Cell (ι κ ν : Type) where
  shared : κ → ν
  phase : ι → Phase κ ν

namespace Cell

variable {ι κ ν : Type}

/-- What party `i` may do. -/
inductive Step [DecidableEq ι] (u : ι → Change κ ν) (i : ι) (c : Cell ι κ ν) : Cell ι κ ν → Prop where
  | stutter (hi : ∀ copy, c.phase i ≠ .holding copy) : Step u i c c
  | read {copy : κ → ν} (hi : c.phase i = .idle) (h : (u i).Makes c.shared copy) :
      Step u i c { c with phase := Function.update c.phase i (.holding copy) }
  | write {copy : κ → ν} (hi : c.phase i = .holding copy) :
      Step u i c ⟨copy, Function.update c.phase i .done⟩
  | refused {copy : κ → ν} (hi : c.phase i = .holding copy) :
      Step u i c { c with phase := Function.update c.phase i .failed }

variable (u : ι → Change κ ν) (m₀ : κ → ν)

/-- The map `m` has the changes of all who have written back. -/
def Has (c : Cell ι κ ν) (m : κ → ν) : Prop := ∀ i, c.phase i = .done → (u i).In m

/-- No one who has written back touches the key. -/
def Untouched (c : Cell ι κ ν) (k : κ) : Prop := ∀ i, c.phase i = .done → ¬ (u i).touches k

/-- The values of the map and of the copies go back to `m₀` and to the changes. -/
structure Traced (c : Cell ι κ ν) : Prop where
  shared : ∀ k, c.Untouched u k → c.shared k = m₀ k
  own : ∀ i copy, c.phase i = .holding copy → (u i).In copy
  copy : ∀ i copy, c.phase i = .holding copy →
    ∀ k, c.Untouched u k → ¬ (u i).touches k → copy k = m₀ k

def Kept (c : Cell ι κ ν) : Prop := c.Has u c.shared

def Lost (c : Cell ι κ ν) : Prop :=
  (∃ i, c.phase i = .failed) ∨
    ¬ c.Has u c.shared ∧ ∀ i copy, c.phase i = .holding copy → ¬ c.Has u copy

/-- If party `i` holds a copy, it is the map as it is now, with the change made. -/
def Fresh (c : Cell ι κ ν) (i : ι) : Prop :=
  ∀ copy, c.phase i = .holding copy → ∀ k, ¬ (u i).touches k → copy k = c.shared k

variable {u m₀} {c c' : Cell ι κ ν} {i j : ι} {copy : κ → ν} {ph ph' : Phase κ ν}

/-- Where the parties start. -/
theorem traced_start (hc : ∀ i, c.phase i = .idle) (hm : c.shared = m₀) : c.Traced u m₀ where
  shared k _ := by rw [hm]
  own i copy hi := by
    rw [hc i] at hi
    cases hi
  copy i copy hi := by
    rw [hc i] at hi
    cases hi

theorem kept_start (hc : ∀ i, c.phase i = .idle) : c.Kept u := by
  intro i hi
  rw [hc i] at hi
  cases hi

/-- A party that is not done is another one than one that is. -/
theorem ne_of_done (hi : c.phase i = ph) (hj : c.phase j = .done) (hph : ph ≠ .done) : j ≠ i := by
  rintro rfl
  exact hph (hi.symm.trans hj)

variable [DecidableEq ι]

theorem update_phase_iff :
    Function.update c.phase i ph j = ph' ↔ j = i ∧ ph = ph' ∨ j ≠ i ∧ c.phase j = ph' := by
  by_cases hj : j = i
  · subst hj
    rw [Function.update_self]
    exact ⟨fun h => Or.inl ⟨rfl, h⟩, fun h => h.elim And.right fun h => absurd rfl h.1⟩
  · rw [Function.update_of_ne hj]
    exact ⟨fun h => Or.inr ⟨hj, h⟩, fun h => h.elim (fun h => absurd h.1 hj) And.right⟩

/-- Whoever is done stays done when another party moves. -/
theorem done_update (hi : c.phase i = ph') (hph' : ph' ≠ .done) (hj : c.phase j = .done) :
    Function.update c.phase i ph j = .done :=
  update_phase_iff.mpr (Or.inr ⟨ne_of_done hi hj hph', hj⟩)

/-- Whoever is done was so before, if the party that moves is not done now. -/
theorem done_of_update (hj : Function.update c.phase i ph j = .done) (hph : ph ≠ .done) :
    c.phase j = .done :=
  (update_phase_iff.mp hj).elim (fun h => absurd h.2 hph) And.right

/-- One party moves: what is to be shown of the map and of the copy it then holds. -/
theorem Traced.update (hc : c.Traced u m₀) {m : κ → ν}
    (hdone : ∀ j, c.phase j = .done → Function.update c.phase i ph j = .done)
    (hshared : ∀ k, c.Untouched u k → (ph = .done → ¬ (u i).touches k) → m k = m₀ k)
    (hcopy : ∀ copy, ph = .holding copy → (u i).In copy ∧
      ∀ k, c.Untouched u k → ¬ (u i).touches k → copy k = m₀ k) :
    Traced u m₀ ⟨m, Function.update c.phase i ph⟩ := by
  have hbefore : ∀ k, Untouched u ⟨m, Function.update c.phase i ph⟩ k → c.Untouched u k :=
    fun k hk j hj => hk j (hdone j hj)
  refine ⟨fun k hk => hshared k (hbefore k hk) fun hph => ?_, fun j copy hj => ?_,
    fun j copy hj k hk => ?_⟩
  · exact hk i (update_phase_iff.mpr (Or.inl ⟨rfl, hph⟩))
  · rcases update_phase_iff.mp hj with ⟨rfl, hph⟩ | ⟨-, hj⟩
    · exact (hcopy copy hph).1
    · exact hc.own j copy hj
  · rcases update_phase_iff.mp hj with ⟨rfl, hph⟩ | ⟨-, hj⟩
    · exact (hcopy copy hph).2 k (hbefore k hk)
    · exact hc.copy j copy hj k (hbefore k hk)

theorem Step.traced (h : Step u i c c') (hc : c.Traced u m₀) : c'.Traced u m₀ := by
  cases h with
  | stutter => exact hc
  | read hi hmakes =>
    refine hc.update (fun j => done_update hi nofun) (fun k hk _ => hc.shared k hk) ?_
    intro copy hph
    cases hph
    refine ⟨hmakes.inside, fun k hk hik => ?_⟩
    rw [hmakes.outside k hik, hc.shared k hk]
  | write hi =>
    exact hc.update (fun j => done_update hi nofun)
      (fun k hk hik => hc.copy i _ hi k hk (hik rfl)) nofun
  | refused hi =>
    exact hc.update (fun j => done_update hi nofun) (fun k hk _ => hc.shared k hk) nofun

/-- A fresh write keeps what was written before. -/
theorem Step.kept (hapart : ∀ i j, i ≠ j → (u i).Apart (u j)) (h : Step u i c c')
    (hc : c.Traced u m₀) (hkept : c.Kept u) (hfresh : c.Fresh u i) : c'.Kept u := by
  cases h with
  | stutter => exact hkept
  | read | refused => exact fun j hj => hkept j (done_of_update hj nofun)
  | @write copy hi =>
    intro j hj
    rcases update_phase_iff.mp hj with ⟨rfl, -⟩ | ⟨hne, hj⟩
    · exact hc.own j copy hi
    · exact ((hapart j i hne).in_iff (hfresh copy hi)).mpr (hkept j hj)

/-- A write that is not fresh undoes a change, and no copy that is still held has
both. -/
theorem Step.lost_of_stale (hapart : ∀ i j, i ≠ j → (u i).Apart (u j)) (hnew : ¬ (u i).In m₀)
    (h : Step u i c c') (hc : c.Traced u m₀) (hkept : c.Kept u) (hstale : ¬ c.Fresh u i) :
    c'.Lost u := by
  cases h with
  | stutter hi => exact absurd (fun copy hcopy => absurd hcopy (hi copy)) hstale
  | read hi _ =>
    refine absurd (fun copy hcopy => ?_) hstale
    rw [hi] at hcopy
    cases hcopy
  | refused hi => exact Or.inl ⟨i, Function.update_self ..⟩
  | @write copy hi =>
    refine Or.inr ⟨fun hall => hstale ?_, fun l copy' hl hall => hnew ?_⟩
    · -- a key on which the copy differs has been written by another
      intro copy' hcopy' k hk
      rw [hi] at hcopy'
      cases hcopy'
      by_cases huntouched : c.Untouched u k
      · rw [hc.shared k huntouched, hc.copy i copy hi k huntouched hk]
      · obtain ⟨j, hj⟩ := not_forall.mp huntouched
        obtain ⟨hdone, hjk⟩ := Classical.not_imp.mp hj
        rw [hkept j hdone k (not_not.mp hjk)]
        exact hall j (done_update hi nofun hdone) k (not_not.mp hjk)
    · -- a copy that was read before this write has the old values where it changes them
      rcases update_phase_iff.mp hl with ⟨-, hph⟩ | ⟨hne, hl⟩
      · cases hph
      · intro k hk
        have huntouched : c.Untouched u k :=
          fun j hj => hapart i j (ne_of_done hi hj nofun).symm k hk
        rw [← hc.copy l copy' hl k huntouched (hapart i l hne.symm k hk)]
        exact hall i (update_phase_iff.mpr (Or.inl ⟨rfl, rfl⟩)) k hk

/-- A party that has failed does not move. -/
theorem failed_update (hi : c.phase i = ph') (hph' : ph' ≠ .failed) (hj : c.phase j = .failed) :
    Function.update c.phase i ph j = .failed := by
  refine update_phase_iff.mpr (Or.inr ⟨?_, hj⟩)
  rintro rfl
  exact hph' (hi.symm.trans hj)

/-- What is lost stays lost. -/
theorem Step.lost (hapart : ∀ i j, i ≠ j → (u i).Apart (u j)) (h : Step u i c c')
    (hlost : c.Lost u) : c'.Lost u := by
  cases h with
  | stutter => exact hlost
  | @read copy hi hmakes =>
    rcases hlost with ⟨j, hj⟩ | ⟨hshared, hcopies⟩
    · exact Or.inl ⟨j, failed_update hi nofun hj⟩
    · refine Or.inr ⟨fun hall => hshared fun j hj => hall j (done_update hi nofun hj),
        fun l copy' hl hall => ?_⟩
      rcases update_phase_iff.mp hl with ⟨rfl, hph⟩ | ⟨-, hl⟩
      · -- the copy that is read lacks what the map lacks
        cases hph
        refine hshared fun j hj => ?_
        exact ((hapart j l (ne_of_done hi hj nofun)).in_iff hmakes.outside).mp
          (hall j (done_update hi nofun hj))
      · exact hcopies l copy' hl fun j hj => hall j (done_update hi nofun hj)
  | @write copy hi =>
    rcases hlost with ⟨j, hj⟩ | ⟨-, hcopies⟩
    · exact Or.inl ⟨j, failed_update hi nofun hj⟩
    · refine Or.inr ⟨fun hall => hcopies i copy hi fun j hj => hall j (done_update hi nofun hj),
        fun l copy' hl hall => ?_⟩
      rcases update_phase_iff.mp hl with ⟨-, hph⟩ | ⟨-, hl⟩
      · cases hph
      · exact hcopies l copy' hl fun j hj => hall j (done_update hi nofun hj)
  | refused hi => exact Or.inl ⟨i, Function.update_self ..⟩

end Cell

end S3Gateway.Lib
