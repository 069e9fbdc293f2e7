/-
Blocks of memory, as lists.

`slice` is what is read from a block and `overwrite` what a copy into it leaves.  What a slice
of an overwritten block is depends on where it is: before the copy, in it, or after it.
-/
import Mathlib.Data.List.TakeDrop
import Mathlib.Tactic.Common

namespace Blocks

variable {α : Type} {block src : List α} {a n i len : Nat}

/-- The `len` elements from `i` on. -/
def slice (block : List α) (i len : Nat) : List α := (block.drop i).take len

/-- The block with `src` copied to `i`. -/
def overwrite (block : List α) (i : Nat) (src : List α) : List α :=
  block.take i ++ (src ++ block.drop (i + src.length))

/-- A block of `size` elements: those of the old one as far as they fit, and then new ones. -/
def resize (block : List α) (size : Nat) (fresh : Nat → α) : List α :=
  block.take size ++ (List.range (size - block.length)).map fresh

theorem length_slice (h : i + len ≤ block.length) : (slice block i len).length = len := by
  unfold slice
  rw [List.length_take, List.length_drop]
  omega

theorem length_overwrite (h : i + src.length ≤ block.length) :
    (overwrite block i src).length = block.length := by
  unfold overwrite
  simp only [List.length_append, List.length_take, List.length_drop]
  omega

theorem length_resize {size : Nat} {fresh : Nat → α} :
    (resize block size fresh).length = size := by
  unfold resize
  rw [List.length_append, List.length_take, List.length_map, List.length_range]
  omega

/-- A slice of a slice. -/
theorem slice_slice (h : a + n ≤ len) : slice (slice block i len) a n = slice block (i + a) n := by
  unfold slice
  rw [List.drop_take, List.take_take, List.drop_drop, Nat.min_eq_left (by omega)]

/-- Before the copy the block is as it was. -/
theorem slice_overwrite_before (h : a + n ≤ i) (hi : i ≤ block.length) :
    slice (overwrite block i src) a n = slice block a n := by
  have hlen : a + n ≤ (block.take i).length := by
    rw [List.length_take]
    omega
  unfold slice overwrite
  rw [List.drop_append_of_le_length (by omega), List.take_append_of_le_length
    (by rw [List.length_drop]; omega), List.drop_take, List.take_take, Nat.min_eq_left (by omega)]

/-- Where it was copied to there is what was copied. -/
theorem slice_overwrite_within (h : a + n ≤ src.length) (hi : i ≤ block.length) :
    slice (overwrite block i src) (i + a) n = slice src a n := by
  have hlen : (block.take i).length = i := List.length_take_of_le hi
  unfold slice overwrite
  rw [← List.drop_drop, List.drop_left' hlen, List.drop_append_of_le_length (by omega),
    List.take_append_of_le_length (by rw [List.length_drop]; omega)]

theorem slice_overwrite_self (hi : i ≤ block.length) :
    slice (overwrite block i src) i src.length = src := by
  have h := slice_overwrite_within (Nat.le_of_eq (Nat.zero_add src.length)) hi
  rw [Nat.add_zero] at h
  rw [h]
  exact List.take_length

/-- After the copy the block is as it was. -/
theorem slice_overwrite_after (h : i + src.length ≤ a) (hi : i ≤ block.length) :
    slice (overwrite block i src) a n = slice block a n := by
  have hlen : (block.take i).length = i := List.length_take_of_le hi
  obtain ⟨k, rfl⟩ := Nat.exists_eq_add_of_le h
  unfold slice overwrite
  rw [Nat.add_assoc, ← List.drop_drop, List.drop_left' hlen, ← List.drop_drop,
    List.drop_left' rfl, List.drop_drop, Nat.add_assoc]

/-- Resizing leaves what was there. -/
theorem slice_resize {size : Nat} {fresh : Nat → α} (h : a + n ≤ block.length)
    (hsize : block.length ≤ size) : slice (resize block size fresh) a n = slice block a n := by
  unfold slice resize
  rw [List.take_of_length_le hsize, List.drop_append_of_le_length (by omega),
    List.take_append_of_le_length (by rw [List.length_drop]; omega)]

end Blocks
