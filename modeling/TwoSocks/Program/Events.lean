/-
Machines that are driven by events.

`step` says what an event leads to, and is `none` for an event that cannot happen.  `Along` speaks
of every event of a run at once: it holds of a sequence of events if each that does happen is as
`P` says, in the state it happens in and with the state it leads to.  A run ends at the first event
that cannot happen.

An invariant may hold only of the runs whose events keep to a condition `Q`.  `Along.invariant` is
the induction for that.
-/
import Mathlib.Data.Option.Basic

section Events

variable {σ ε : Type} {step : σ → ε → Option σ}

def Along (step : σ → ε → Option σ) (P : σ → ε → σ → Prop) : σ → List ε → Prop
  | _, [] => True
  | s, e :: es => ∀ s' ∈ step s e, P s e s' ∧ Along step P s' es

instance Along.decidable {P : σ → ε → σ → Prop} [∀ s e s', Decidable (P s e s')] :
    ∀ s es, Decidable (Along step P s es)
  | _, [] => isTrue trivial
  | s, e :: es =>
      have : ∀ s', Decidable (Along step P s' es) := fun s' => Along.decidable s' es
      inferInstanceAs (Decidable (∀ s' ∈ step s e, P s e s' ∧ Along step P s' es))

variable {P Q : σ → ε → σ → Prop} {I : σ → Prop} {s s' : σ} {es : List ε}

/-- **An invariant that events which are as `Q` says keep, and which makes them as `P` says.** -/
theorem Along.invariant (hs : I s) (hQ : Along step Q s es)
    (hP : ∀ {s e s'}, I s → step s e = some s' → Q s e s' → P s e s')
    (hI : ∀ {s e s'}, I s → step s e = some s' → Q s e s' → I s') : Along step P s es := by
  induction es generalizing s with
  | nil => trivial
  | cons e es ih =>
      intro s' h
      obtain ⟨he, hes⟩ := hQ s' h
      exact ⟨hP hs h he, ih (hI hs h he) hes⟩

/-- The invariant holds at the end. -/
theorem Along.ends (hs : I s) (hQ : Along step Q s es)
    (hI : ∀ {s e s'}, I s → step s e = some s' → Q s e s' → I s')
    (hend : es.foldlM step s = some s') : I s' := by
  induction es generalizing s with
  | nil =>
      obtain rfl := Option.some.inj hend
      exact hs
  | cons e es ih =>
      obtain ⟨s₁, h, hend⟩ := Option.bind_eq_some_iff.mp hend
      obtain ⟨he, hes⟩ := hQ s₁ h
      exact ih (hI hs h he) hes hend

theorem Along.and (hP : Along step P s es) (hQ : Along step Q s es) :
    Along step (fun s e s' => P s e s' ∧ Q s e s') s es := by
  induction es generalizing s with
  | nil => trivial
  | cons e es ih =>
      intro s' h
      exact ⟨⟨(hP s' h).1, (hQ s' h).1⟩, ih (hP s' h).2 (hQ s' h).2⟩

end Events
