import Mathlib

/-!
# Slices

`slice c i n` are the at most `n` elements of `c` from position `i` on, what a
ranged read of `c` returns. Slices of slices are slices, and adjacent slices join.
-/

namespace S3Gateway.Lib

variable {β : Type}

/-- The elements of `c` at positions `i ≤ j < i + n`. -/
def slice (c : List β) (i n : Nat) : List β := (c.drop i).take n

@[simp] theorem length_slice (c : List β) (i n : Nat) :
    (slice c i n).length = min n (c.length - i) := by
  simp [slice]

theorem slice_isInfix (c : List β) (i n : Nat) : slice c i n <:+: c :=
  (List.take_prefix n _).isInfix.trans (List.drop_suffix i c).isInfix

theorem slice_append (c : List β) (i m n : Nat) :
    slice c i m ++ slice c (i + m) n = slice c i (m + n) := by
  rw [slice, slice, slice, List.take_add, List.drop_drop]

theorem slice_drop_take (c : List β) (i n j m : Nat) :
    ((slice c i n).drop j).take m = slice c (i + j) (min m (n - j)) := by
  rw [slice, slice, List.drop_take, List.drop_drop, List.take_take]

/-- A prefix of a slice is the slice of its own length. -/
theorem eq_slice_of_isPrefix {c x : List β} {i n : Nat} (h : x <+: slice c i n) :
    x = slice c i x.length :=
  List.prefix_iff_eq_take.mp (h.trans (List.take_prefix n _))

/-- A slice that goes to the end is as long as any longer one. -/
theorem slice_eq_of_le {c : List β} {i m n : Nat} (hm : c.length ≤ i + m) (hmn : m ≤ n) :
    slice c i m = slice c i n := by
  have hlen : (c.drop i).length ≤ m := by
    rw [List.length_drop]
    omega
  rw [slice, slice, List.take_of_length_le hlen, List.take_of_length_le (hlen.trans hmn)]

end S3Gateway.Lib
