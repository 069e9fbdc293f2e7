/-
A lock for many readers or one writer.

The lock keeps a number of readers and whether there is a writer.  It does not know who they are;
each thread knows how it holds the lock.  `Fits` says that the two agree: the readers are counted,
there is a writer if and only if one thread holds the lock for itself, and then nobody else holds
it.
-/
import Mathlib

/-- How a thread holds a lock. -/
inductive Hold
  | none
  | shared
  | exclusive
  deriving DecidableEq, Repr

theorem Hold.shared_ne_none : Hold.shared ≠ .none := by decide

theorem Hold.exclusive_ne_none : Hold.exclusive ≠ .none := by decide

/-- What a lock knows of those who hold it. -/
structure RwLock where
  readers : Nat
  writer : Bool
  deriving DecidableEq, Repr

namespace RwLock

def free : RwLock := ⟨0, false⟩

/-- Given back by someone who holds it so. -/
def release (l : RwLock) : Hold → RwLock
  | .none => l
  | .shared => { l with readers := l.readers - 1 }
  | .exclusive => { l with writer := false }

/-- The lock and how the threads hold it. -/
structure Fits (l : RwLock) (holds : List Hold) : Prop where
  readers : l.readers = holds.count .shared
  writer : holds.count .exclusive = l.writer.toNat
  apart : l.writer = true → l.readers = 0

namespace Fits

variable {l : RwLock} {pre post : List Hold} {h : Hold}

theorem free : RwLock.free.Fits [] := ⟨rfl, rfl, fun _ => rfl⟩

theorem join {holds : List Hold} (f : l.Fits holds) : l.Fits (holds ++ [.none]) :=
  ⟨by simpa using f.readers, by simpa using f.writer, f.apart⟩

theorem share (f : l.Fits (pre ++ .none :: post)) (hw : l.writer = false) :
    RwLock.Fits { l with readers := l.readers + 1 } (pre ++ .shared :: post) := by
  obtain ⟨hr, hx, -⟩ := f
  refine ⟨?_, ?_, fun h => by simp [hw] at h⟩
  · simp only [List.count_append, List.count_cons] at hr ⊢
    simp at hr ⊢
    omega
  · simpa [List.count_append, List.count_cons] using hx

theorem exclude (f : l.Fits (pre ++ .none :: post)) (hw : l.writer = false)
    (hn : l.readers = 0) : RwLock.Fits { l with writer := true } (pre ++ .exclusive :: post) := by
  obtain ⟨hr, hx, -⟩ := f
  refine ⟨?_, ?_, fun _ => hn⟩
  · simpa [List.count_append, List.count_cons] using hr
  · simp only [List.count_append, List.count_cons, hw] at hx ⊢
    simp at hx ⊢
    omega

theorem release (f : l.Fits (pre ++ h :: post)) : (l.release h).Fits (pre ++ .none :: post) := by
  obtain ⟨hr, hx, ha⟩ := f
  cases h with
  | none => exact ⟨hr, hx, ha⟩
  | shared =>
      refine ⟨?_, ?_, fun h => ?_⟩
      · simp [RwLock.release, List.count_append] at hr ⊢
        omega
      · simpa [RwLock.release, List.count_append, List.count_cons] using hx
      · have := ha h
        simp only [RwLock.release]
        omega
  | exclusive =>
      refine ⟨?_, ?_, fun h => by simp [RwLock.release] at h⟩
      · simpa [RwLock.release, List.count_append, List.count_cons] using hr
      · have hle := Bool.toNat_le l.writer
        simp [RwLock.release, List.count_append] at hx ⊢
        omega

theorem exclusive_writer (f : l.Fits (pre ++ .exclusive :: post)) : l.writer = true := by
  cases hw : l.writer with
  | true => rfl
  | false =>
      have hx := f.writer
      simp [hw] at hx

theorem no_writer {holds : List Hold} (f : l.Fits holds) (h : .exclusive ∉ holds) :
    l.writer = false := by
  have hx := f.writer
  rw [List.count_eq_zero.mpr h] at hx
  cases hw : l.writer with
  | false => rfl
  | true => simp [hw] at hx

/-- What nobody holds is free. -/
theorem is_free {holds : List Hold} (f : l.Fits holds) (h : ∀ hold ∈ holds, hold = .none) :
    l = .free := by
  have hr : l.readers = 0 := by
    rw [f.readers, List.count_eq_zero]
    exact fun hmem => absurd (h _ hmem) nofun
  have hw : l.writer = false := f.no_writer fun hmem => absurd (h _ hmem) nofun
  cases l
  exact congrArg₂ RwLock.mk hr hw

/-- Who holds it for itself is alone. -/
theorem alone (f : l.Fits (pre ++ .exclusive :: post)) : ∀ h ∈ pre ++ post, h = .none := by
  have hn := f.apart f.exclusive_writer
  obtain ⟨hr, hx, -⟩ := f
  have hle := Bool.toNat_le l.writer
  simp only [List.count_append, List.count_cons, beq_self_eq_true, if_true] at hx hr
  simp at hr
  intro h hh
  have hs : (pre ++ post).count .shared = 0 := by
    rw [List.count_append]
    omega
  have he : (pre ++ post).count .exclusive = 0 := by
    rw [List.count_append]
    omega
  rw [List.count_eq_zero] at hs he
  cases h with
  | none => rfl
  | shared => exact absurd hh hs
  | exclusive => exact absurd hh he

/-- While someone shares it, nobody has it alone. -/
theorem shared_writer (f : l.Fits (pre ++ .shared :: post)) : l.writer = false := by
  cases hw : l.writer with
  | false => rfl
  | true =>
      have hr := f.readers
      rw [f.apart hw, List.count_append, List.count_cons_self] at hr
      omega

end Fits

end RwLock
