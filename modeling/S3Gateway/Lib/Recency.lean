import Mathlib.Data.Finset.Card
import Mathlib.Data.List.TakeWhile

/-!
# Least recently used

A history of uses, newest first, orders the keys by their last use (`recency`). A key's
place in that order is the number of different keys used since its own last use
(`length_takeWhile_recency`).

A list that holds at most `n` keys, puts every used key at its front and gives up its
last key for a new one (`insertLru`) holds the first `n` keys of the order
(`insertLru_take`). So it has a key exactly if fewer than `n` others were used since
(`mem_take_recency`).
-/

namespace S3Gateway.Lib

variable {κ : Type*} [DecidableEq κ]

/-- The key moves to the front, or is added there. -/
def touch (k : κ) (l : List κ) : List κ := k :: l.erase k

/-- The keys of a history, the last used one first. -/
def recency : List κ → List κ
  | [] => []
  | k :: uses => touch k (recency uses)

theorem mem_touch {k k' : κ} {l : List κ} : k' ∈ touch k l ↔ k' = k ∨ k' ∈ l := by
  rw [touch, List.mem_cons]
  by_cases h : k' = k
  · simp [h]
  · simp [h, List.mem_erase_of_ne h]

theorem touch_eq_filter {k : κ} {l : List κ} (h : l.Nodup) :
    touch k l = k :: l.filter (· ≠ k) := by
  rw [touch, h.erase_eq_filter]
  exact congrArg (k :: ·) (List.filter_congr fun a _ => by simp [bne, BEq.beq])

/-- Bringing a key to the front keeps the order of the others. -/
theorem touch_sublist {k : κ} {l l' : List κ} (h : l.Sublist l') :
    (touch k l).Sublist (touch k l') :=
  (h.erase k).cons_cons k

theorem mem_recency {k : κ} {uses : List κ} : k ∈ recency uses ↔ k ∈ uses := by
  induction uses with
  | nil => rfl
  | cons k' uses ih => rw [recency, mem_touch, ih, List.mem_cons]

theorem nodup_recency (uses : List κ) : (recency uses).Nodup := by
  induction uses with
  | nil => exact List.nodup_nil
  | cons k uses ih => exact List.nodup_cons.mpr ⟨ih.not_mem_erase, ih.erase k⟩

/-- Keys that come once each are in the order of their last use. -/
theorem recency_of_nodup {l : List κ} (h : l.Nodup) : recency l = l := by
  induction l with
  | nil => rfl
  | cons k l ih =>
    obtain ⟨hk, hl⟩ := List.nodup_cons.mp h
    rw [recency, ih hl, touch, List.erase_of_not_mem hk]

/-! ## The place of a key -/

theorem takeWhile_ne_erase {a k : κ} (h : a ≠ k) (l : List κ) :
    (l.erase a).takeWhile (· ≠ k) = (l.takeWhile (· ≠ k)).erase a := by
  induction l with
  | nil => rfl
  | cons b l ih =>
    by_cases hba : b = a
    · subst hba
      rw [List.erase_cons_head, List.takeWhile_cons_of_pos (by simpa using h),
        List.erase_cons_head]
    · rw [List.erase_cons_tail (by simpa using hba)]
      by_cases hbk : b = k
      · rw [List.takeWhile_cons_of_neg (by simpa using hbk),
          List.takeWhile_cons_of_neg (by simpa using hbk)]
        rfl
      · rw [List.takeWhile_cons_of_pos (by simpa using hbk),
          List.takeWhile_cons_of_pos (by simpa using hbk), ih,
          List.erase_cons_tail (by simpa using hba)]

/-- Before a key come the keys used since. -/
theorem takeWhile_recency (k : κ) (uses : List κ) :
    (recency uses).takeWhile (· ≠ k) = recency (uses.takeWhile (· ≠ k)) := by
  induction uses with
  | nil => rfl
  | cons a uses ih =>
    by_cases h : a = k
    · rw [recency, touch, List.takeWhile_cons_of_neg (by simpa using h),
        List.takeWhile_cons_of_neg (by simpa using h)]
      rfl
    · rw [recency, touch, List.takeWhile_cons_of_pos (by simpa using h),
        List.takeWhile_cons_of_pos (by simpa using h), takeWhile_ne_erase h, ih]
      rfl

/-- The number of different keys used since the last use of `k`. -/
def usedSince (k : κ) (uses : List κ) : Nat := (uses.takeWhile (· ≠ k)).toFinset.card

theorem length_recency (uses : List κ) : (recency uses).length = uses.toFinset.card := by
  rw [← List.toFinset_card_of_nodup (nodup_recency uses)]
  congr 1
  ext k
  rw [List.mem_toFinset, List.mem_toFinset, mem_recency]

theorem length_takeWhile_recency (k : κ) (uses : List κ) :
    ((recency uses).takeWhile (· ≠ k)).length = usedSince k uses := by
  rw [takeWhile_recency, length_recency, usedSince]

theorem mem_take_iff_takeWhile {k : κ} {l : List κ} {n : Nat} :
    k ∈ l.take n ↔ k ∈ l ∧ (l.takeWhile (· ≠ k)).length < n := by
  induction l generalizing n with
  | nil => simp
  | cons a l ih =>
    cases n with
    | zero => simp
    | succ n =>
      rw [List.take_succ_cons, List.mem_cons, List.mem_cons, ih]
      by_cases h : a = k
      · rw [List.takeWhile_cons_of_neg (by simpa using h)]
        simp [h]
      · rw [List.takeWhile_cons_of_pos (by simpa using h), List.length_cons]
        have hk : k ≠ a := fun heq => h heq.symm
        simp [hk]

/-- A key is among the first `n` exactly if fewer than `n` others were used since. -/
theorem mem_take_recency {k : κ} {uses : List κ} {n : Nat} :
    k ∈ (recency uses).take n ↔ k ∈ uses ∧ usedSince k uses < n := by
  rw [mem_take_iff_takeWhile, mem_recency, length_takeWhile_recency]

/-! ## A list of bounded length -/

/-- The key comes to the front; if it is new and there are `n` keys, the last one makes
room. -/
def insertLru (n : Nat) (k : κ) (l : List κ) : List κ :=
  if k ∈ l then touch k l else k :: if n ≤ l.length then l.dropLast else l

theorem erase_take_of_mem {k : κ} {l : List κ} {n : Nat} (h : k ∈ l.take (n + 1)) :
    (l.take (n + 1)).erase k = (l.erase k).take n := by
  induction l generalizing n with
  | nil => cases h
  | cons a l ih =>
    by_cases hak : a = k
    · subst hak
      rw [List.take_succ_cons, List.erase_cons_head, List.erase_cons_head]
    · rw [List.take_succ_cons] at h ⊢
      have hmem : k ∈ l.take n := (List.mem_cons.mp h).resolve_left fun heq => hak heq.symm
      rw [List.erase_cons_tail (by simpa using hak), List.erase_cons_tail (by simpa using hak)]
      cases n with
      | zero => cases hmem
      | succ n => rw [ih hmem, List.take_succ_cons]

theorem take_erase_of_notMem {k : κ} {l : List κ} {n : Nat} (h : k ∉ l.take (n + 1)) :
    (l.erase k).take n = l.take n := by
  induction l generalizing n with
  | nil => rfl
  | cons a l ih =>
    rw [List.take_succ_cons, List.mem_cons, not_or] at h
    rw [List.erase_cons_tail (by simpa using fun heq => h.1 heq.symm)]
    cases n with
    | zero => rfl
    | succ n => rw [List.take_succ_cons, List.take_succ_cons, ih h.2]

/-- Such a list holds the first `n` keys of the order. -/
theorem insertLru_take {n : Nat} (hn : 0 < n) (k : κ) (l : List κ) :
    insertLru n k (l.take n) = (touch k l).take n := by
  obtain ⟨n, rfl⟩ : ∃ m, n = m + 1 := ⟨n - 1, by omega⟩
  rw [insertLru, touch, touch, List.take_succ_cons]
  split
  · next hmem => rw [erase_take_of_mem hmem]
  · next hmem =>
    rw [take_erase_of_notMem hmem]
    congr 1
    split
    · next hlen =>
      rw [List.length_take] at hlen
      rw [List.dropLast_eq_take, List.take_take, List.length_take]
      congr 1
      omega
    · next hlen =>
      rw [List.length_take] at hlen
      rw [List.take_of_length_le (by omega), List.take_of_length_le (by omega)]

end S3Gateway.Lib
