/-
A list in which one entry changes.
-/
import Mathlib.Data.List.Basic

namespace Cells

variable {α : Type*} {l : List α} {k : Nat} {a : α} {f : α → α}

theorem getElem?_modify_iff (ha : l[k]? = some a) {j : Nat} {b : α} :
    (l.modify k f)[j]? = some b ↔ j = k ∧ b = f a ∨ j ≠ k ∧ l[j]? = some b := by
  rw [List.getElem?_modify]
  by_cases hj : k = j
  · subst hj
    simp [ha, eq_comm]
  · simp [hj, Ne.symm hj]

theorem mem_modify_iff (ha : l[k]? = some a) {b : α} :
    b ∈ l.modify k f ↔ b = f a ∨ ∃ j, j ≠ k ∧ l[j]? = some b := by
  rw [List.mem_iff_getElem?]
  simp only [getElem?_modify_iff ha]
  constructor
  · rintro ⟨j, ⟨_, hb⟩ | hb⟩
    · exact .inl hb
    · exact .inr ⟨j, hb⟩
  · rintro (hb | ⟨j, hb⟩)
    · exact ⟨k, .inl ⟨rfl, hb⟩⟩
    · exact ⟨j, .inr hb⟩

theorem mem_modify {b : α} (hb : b ∈ l.modify k f) : b ∈ l ∨ ∃ a ∈ l, b = f a := by
  obtain ⟨j, hb⟩ := List.getElem?_of_mem hb
  rw [List.getElem?_modify] at hb
  split at hb
  · obtain ⟨a, ha, rfl⟩ := Option.map_eq_some_iff.mp hb
    exact .inr ⟨a, List.mem_of_getElem? ha, rfl⟩
  · exact .inl (List.mem_of_getElem? (by simpa using hb))

end Cells
