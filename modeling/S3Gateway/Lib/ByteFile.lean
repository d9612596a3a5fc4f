import Mathlib

/-!
# Plain files

A file as a POSIX process sees it through one descriptor: its contents and a
cursor. Reads and writes happen at the cursor and advance it, a write past the
end fills the gap with zeros, `seek` moves the cursor without touching the
contents, and `truncate` empties the contents without touching the cursor.

Positions are offsets of type `off_t`, a signed 64-bit integer, so a seek whose
target is negative or does not fit is refused.
-/

namespace S3Gateway.Lib

/-- The first offset that does not fit a signed 64-bit integer. -/
def offsetLimit : Int := 2 ^ 63

/-- `lseek` on a file of length `size` whose cursor is at `pos`: the new cursor,
or `none` when the request is refused (`EINVAL`). `whence` is `0`, `1` or `2`
for the start, the cursor and the end. -/
def seekTarget (size pos : Nat) (offset whence : Int) : Option Nat :=
  let target : Option Int :=
    if whence = 0 then some offset
    else if whence = 1 then some (pos + offset)
    else if whence = 2 then some (size + offset)
    else none
  target.bind fun t => if 0 ≤ t ∧ t < offsetLimit then some t.toNat else none

/-- An open file: contents and cursor. -/
@[ext] structure ByteFile (β : Type) where
  data : List β
  pos : Nat
deriving DecidableEq

namespace ByteFile

variable {β : Type} [Zero β]

/-- The empty file with its cursor at the start. -/
def empty : ByteFile β := ⟨[], 0⟩

/-- The file holding `b`, just opened. -/
def ofData (b : List β) : ByteFile β := ⟨b, 0⟩

/-- Read at most `n` bytes at the cursor. -/
def read (f : ByteFile β) (n : Nat) : List β × ByteFile β :=
  let got := (f.data.drop f.pos).take n
  (got, { f with pos := f.pos + got.length })

/-- The contents after `p` is written at offset `i`, zero-filling a gap. -/
def overwrite (data : List β) (i : Nat) (p : List β) : List β :=
  data.take i ++ List.replicate (i - data.length) 0 ++ p ++ data.drop (i + p.length)

/-- Write `p` at the cursor. An empty write changes nothing. -/
def write (f : ByteFile β) (p : List β) : ByteFile β :=
  if p = [] then f
  else ⟨overwrite f.data f.pos p, f.pos + p.length⟩

/-- Move the cursor. -/
def seek (f : ByteFile β) (offset whence : Int) : Option (ByteFile β) :=
  (seekTarget f.data.length f.pos offset whence).map fun i => { f with pos := i }

/-- Set the length to zero, keeping the cursor. -/
def truncate (f : ByteFile β) : ByteFile β := { f with data := [] }

omit [Zero β] in
theorem seek_data {f f' : ByteFile β} {offset whence : Int}
    (h : f.seek offset whence = some f') : f'.data = f.data := by
  obtain ⟨i, -, rfl⟩ := Option.map_eq_some_iff.mp h
  rfl

@[simp] theorem write_nil (f : ByteFile β) : f.write [] = f := if_pos rfl

/-- Writing into an empty file whose cursor is at the start stores the bytes and
leaves the cursor behind them. -/
theorem write_empty (b : List β) :
    (empty : ByteFile β).write b = ⟨b, b.length⟩ := by
  by_cases hb : b = []
  · subst hb
    rfl
  · simp [write, empty, overwrite, hb]

/-- Writing with the cursor at the end appends. -/
theorem write_end {f : ByteFile β} (h : f.pos = f.data.length) (p : List β) :
    f.write p = ⟨f.data ++ p, f.data.length + p.length⟩ := by
  by_cases hp : p = []
  · subst hp
    cases f
    simp_all
  · simp [write, overwrite, hp, h]

end ByteFile

end S3Gateway.Lib
