/-
Programs running side by side.

A pool is a shared world and any number of threads, each running its own program
on its own memory.  A step starts a new thread or lets one thread take one step;
nothing else is said about the schedule, so a fact about every reachable pool is a
fact about every interleaving.  A `Machine` says what the operations mean: which
answers the world and the thread's memory admit, and what becomes of both.

Each thread keeps the trace of what it has performed.  No step looks at it; it is
there for statements about what a thread has done so far.

`Reachable.invariant` is the one induction.  It takes a relation between the world
and the ghost states of all threads, kept by every event that a thread's own spec
lets it perform, and a `wlp` for each program that may be started.
-/
import TwoSocks.Program.Spec

/-- What the operations of `S` do to a shared world `W` and a thread's memory `L`. -/
structure Machine (S : Sig) (W L : Type) where
  /-- The answers that are possible. -/
  can : W → L → (o : S.Op) → S.Ret o → Prop
  /-- The world and the memory afterwards. -/
  upd : W → L → (o : S.Op) → S.Ret o → W × L

/-- A running program: who it is, what it has left to do, its memory, its past. -/
structure Thread (S : Sig) (ι L : Type) where
  id : ι
  prog : Prog S Unit
  mem : L
  trace : Trace S

/-- How a thread begins. -/
structure Boot (S : Sig) (ι L : Type) where
  prog : ι → Prog S Unit
  mem : ι → L

/-- The shared world and the threads, in the order they were started. -/
structure Pool (S : Sig) (ι W L : Type) where
  world : W
  threads : List (Thread S ι L)

namespace Pool

variable {S : Sig} {ι W L G : Type}

/-- Performing a trace event by event, with answers the machine admits. -/
inductive Performs (M : Machine S W L) : W → L → Trace S → W → L → Prop
  | nil {w : W} {m : L} : Performs M w m [] w m
  | cons {w w' : W} {m m' : L} {o : S.Op} {r : S.Ret o} {tr : Trace S} (h : M.can w m o r)
      (h' : Performs M (M.upd w m o r).1 (M.upd w m o r).2 tr w' m') :
      Performs M w m (⟨o, r⟩ :: tr) w' m'

/-- One step of the pool: a thread is started, or a thread takes a step. -/
inductive Step (M : Machine S W L) (B : Boot S ι L) (whole : S.Tag → Prop) :
    Pool S ι W L → Pool S ι W L → Prop
  | start (i : ι) {w : W} {ts : List (Thread S ι L)} :
      Step M B whole ⟨w, ts⟩ ⟨w, ts ++ [⟨i, B.prog i, B.mem i, []⟩]⟩
  | thread {w w' : W} {pre post : List (Thread S ι L)} {i : ι} {p p' : Prog S Unit}
      {m m' : L} {past tr : Trace S} (h : Prog.Step whole p tr p')
      (hp : Performs M w m tr w' m') :
      Step M B whole ⟨w, pre ++ ⟨i, p, m, past⟩ :: post⟩
        ⟨w', pre ++ ⟨i, p', m', past ++ tr⟩ :: post⟩

/-- Every pool some schedule leads to from `w₀` with nothing running. -/
inductive Reachable (M : Machine S W L) (B : Boot S ι L) (whole : S.Tag → Prop) (w₀ : W) :
    Pool S ι W L → Prop
  | init : Reachable M B whole w₀ ⟨w₀, []⟩
  | step {c c' : Pool S ι W L} (h : Reachable M B whole w₀ c) (h' : Step M B whole c c') :
      Reachable M B whole w₀ c'

theorem Performs.split {M : Machine S W L} {tr tr' : Trace S} {w w' : W} {m m' : L}
    (h : Performs M w m (tr ++ tr') w' m') :
    ∃ w₁ m₁, Performs M w m tr w₁ m₁ ∧ Performs M w₁ m₁ tr' w' m' := by
  induction tr generalizing w m with
  | nil => exact ⟨w, m, .nil, h⟩
  | cons e tr ih =>
      cases h with
      | cons hc h =>
          obtain ⟨w₁, m₁, h₁, h₂⟩ := ih h
          exact ⟨w₁, m₁, .cons hc h₁, h₂⟩

/-- What a schedule does that leads somewhere. -/
theorem Reachable.run {M : Machine S W L} {B : Boot S ι L} {whole : S.Tag → Prop} {w₀ : W}
    {c : Pool S ι W L} (h : Reachable M B whole w₀ c) :
    Relation.ReflTransGen (Step M B whole) ⟨w₀, []⟩ c := by
  induction h with
  | init => exact .refl
  | step _ hs ih => exact .tail ih hs

theorem Reachable.further {M : Machine S W L} {B : Boot S ι L} {whole : S.Tag → Prop} {w₀ : W}
    {c c' : Pool S ι W L} (h : Reachable M B whole w₀ c)
    (hrun : Relation.ReflTransGen (Step M B whole) c c') : Reachable M B whole w₀ c' := by
  induction hrun with
  | refl => exact h
  | tail _ hs ih => exact .step ih hs

/-- A thread runs on alone. -/
theorem runs_on {M : Machine S W L} {B : Boot S ι L} {whole : S.Tag → Prop}
    {pre post : List (Thread S ι L)} {i : ι} {p p' : Prog S Unit} {past tr : Trace S}
    (h : Prog.Steps whole p tr p') : ∀ {w w' : W} {m m' : L}, Performs M w m tr w' m' →
      Relation.ReflTransGen (Step M B whole) ⟨w, pre ++ ⟨i, p, m, past⟩ :: post⟩
        ⟨w', pre ++ ⟨i, p', m', past ++ tr⟩ :: post⟩ := by
  induction h with
  | refl =>
      intro w w' m m' hp
      cases hp
      rw [List.append_nil]
  | tail _ hs ih =>
      intro w w' m m' hp
      obtain ⟨w₁, m₁, h₁, h₂⟩ := hp.split
      rw [← List.append_assoc]
      exact .tail (ih h₁) (.thread hs h₂)

/-- The last thread runs on alone. -/
theorem Reachable.advance {M : Machine S W L} {B : Boot S ι L} {whole : S.Tag → Prop} {w₀ : W}
    {ts : List (Thread S ι L)} {i : ι} {p p' : Prog S Unit} {past tr : Trace S} {w w' : W}
    {m m' : L} (h : Prog.Steps whole p tr p') (hp : Performs M w m tr w' m')
    (hc : Reachable M B whole w₀ ⟨w, ts ++ [⟨i, p, m, past⟩]⟩) :
    Reachable M B whole w₀ ⟨w', ts ++ [⟨i, p', m', past ++ tr⟩]⟩ :=
  hc.further (runs_on h hp)

/-- A thread is started and runs to its end before anything else happens. -/
theorem Reachable.session {M : Machine S W L} {B : Boot S ι L} {whole : S.Tag → Prop} {w₀ w w' : W}
    {ts : List (Thread S ι L)} {m' : L} {tr : Trace S} (i : ι)
    (hc : Reachable M B whole w₀ ⟨w, ts⟩) (h : Prog.Eval (B.prog i) tr ())
    (hp : Performs M w (B.mem i) tr w' m') :
    Reachable M B whole w₀ ⟨w', ts ++ [⟨i, .ret (), m', tr⟩]⟩ := by
  show Reachable M B whole w₀ ⟨w', ts ++ [⟨i, .ret (), m', [] ++ tr⟩]⟩
  exact Reachable.advance h.steps hp (.step hc (.start i))

/-! ### Invariants of a pool -/

/-- A thread as an invariant sees it: who it is, its memory, its ghost state. -/
abbrev View (ι L G : Type) := ι × L × G

/-- Threads between two steps. -/
def Resting (P : ι → Spec S G) (vs : List (View ι L G)) : Prop :=
  ∀ v ∈ vs, (P v.1).inv v.2.2

/-- What is needed of a relation between the world and the threads for it to hold in
every reachable pool: the answers the machine gives are ones the thread's spec
relies on, and an event the spec guarantees keeps the relation.  The other threads are
between two steps meanwhile. -/
structure Keeps (M : Machine S W L) (B : Boot S ι L) (P : ι → Spec S G) (g₀ : ι → G)
    (R : W → List (View ι L G) → Prop) : Prop where
  start : ∀ w vs i, R w vs → R w (vs ++ [(i, B.mem i, g₀ i)])
  rely : ∀ w pre post i m g o r, Resting P (pre ++ post) → R w (pre ++ (i, m, g) :: post) →
    M.can w m o r → (P i).rely g o r
  event : ∀ w pre post i m g o r, Resting P (pre ++ post) → R w (pre ++ (i, m, g) :: post) →
    M.can w m o r → (P i).guar g o →
    R (M.upd w m o r).1 (pre ++ (i, (M.upd w m o r).2, (P i).next g o r) :: post)

/-- The view of a thread whose ghost state is that of its past. -/
def Thread.view (P : ι → Spec S G) (g₀ : ι → G) (t : Thread S ι L) : View ι L G :=
  (t.id, t.mem, (P t.id).run (g₀ t.id) t.trace)

/-- The events of one step, one after the other. -/
theorem performs_keeps {M : Machine S W L} {B : Boot S ι L} {P : ι → Spec S G} {g₀ : ι → G}
    {R : W → List (View ι L G) → Prop} (K : Keeps M B P g₀ R) {pre post : List (View ι L G)}
    (hrest : Resting P (pre ++ post)) {i : ι} {w w' : W} {m m' : L} {tr : Trace S}
    (hp : Performs M w m tr w' m') : ∀ {g : G} {Q : G → Prop},
      R w (pre ++ (i, m, g) :: post) → (P i).Follows g tr Q →
      R w' (pre ++ (i, m', (P i).run g tr) :: post) ∧ (P i).Legal g tr ∧
        (P i).Guaranteed g tr ∧ Q ((P i).run g tr) := by
  induction hp with
  | nil => intro g Q hR hf; exact ⟨hR, trivial, trivial, hf⟩
  | cons hc _ ih =>
      intro g Q hR hf
      have hrely := K.rely _ _ _ _ _ _ _ _ hrest hR hc
      obtain ⟨h₁, h₂, h₃, h₄⟩ := ih (K.event _ _ _ _ _ _ _ _ hrest hR hc hf.1) (hf.2 hrely)
      exact ⟨h₁, ⟨hrely, h₂⟩, ⟨hf.1, h₃⟩, h₄⟩

/-- What holds of every thread of a reachable pool. -/
structure Behaves (P : ι → Spec S G) (g₀ : ι → G) (Q : ι → G → Prop) (t : Thread S ι L) :
    Prop where
  legal : (P t.id).Legal (g₀ t.id) t.trace
  guaranteed : (P t.id).Guaranteed (g₀ t.id) t.trace
  wlp : Prog.wlp (P t.id) t.prog (fun _ g => Q t.id g) ((P t.id).run (g₀ t.id) t.trace)

/-- **A relation that every guaranteed event keeps holds in every reachable pool.** -/
theorem Reachable.invariant {M : Machine S W L} {B : Boot S ι L} {whole : S.Tag → Prop}
    {w₀ : W} {P : ι → Spec S G} {g₀ : ι → G} {R : W → List (View ι L G) → Prop}
    {Q : ι → G → Prop} (K : Keeps M B P g₀ R) (h₀ : R w₀ [])
    (hu : ∀ i t, ¬ whole t → (P i).atomic t → ∀ g, (P i).inv g)
    (hw : ∀ i, Prog.wlp (P i) (B.prog i) (fun _ g => Q i g) (g₀ i))
    {c : Pool S ι W L} (hc : Reachable M B whole w₀ c) :
    R c.world (c.threads.map (Thread.view P g₀)) ∧ ∀ t ∈ c.threads, Behaves P g₀ Q t := by
  induction hc with
  | init => exact ⟨h₀, by simp⟩
  | step _ hs ih =>
      obtain ⟨hR, hB⟩ := ih
      cases hs with
      | start i =>
          refine ⟨by simpa [Thread.view] using K.start _ _ i hR, fun t ht => ?_⟩
          rcases List.mem_append.mp ht with ht | ht
          · exact hB t ht
          · rw [List.mem_singleton.mp ht]
            exact ⟨trivial, trivial, hw i⟩
      | @thread w w' pre post i p p' m m' past tr hstep hp =>
          have hold : Behaves P g₀ Q (⟨i, p, m, past⟩ : Thread S ι L) := hB _ (by simp)
          have hfol := Prog.wlp_step hstep (hu i) hold.wlp
          simp only [List.map_append, List.map_cons] at hR
          have hrest : Resting P (pre.map (Thread.view P g₀) ++ post.map (Thread.view P g₀)) := by
            intro v hv
            rw [← List.map_append] at hv
            obtain ⟨t, ht, rfl⟩ := List.mem_map.mp hv
            refine Prog.wlp_inv _ (hB t ?_).wlp
            rcases List.mem_append.mp ht with ht | ht
            · exact List.mem_append_left _ ht
            · exact List.mem_append_right _ (List.mem_cons_of_mem _ ht)
          obtain ⟨h₁, h₂, h₃, h₄⟩ := performs_keeps K hrest hp hR hfol
          have hnew : Behaves P g₀ Q (⟨i, p', m', past ++ tr⟩ : Thread S ι L) :=
            ⟨Spec.legal_append.mpr ⟨hold.legal, h₂⟩,
              Spec.guaranteed_append.mpr ⟨hold.guaranteed, h₃⟩, by
                rw [Spec.run_append]; exact h₄⟩
          refine ⟨?_, fun t ht => ?_⟩
          · simpa [Thread.view, Spec.run_append] using h₁
          · rcases List.mem_append.mp ht with ht | ht
            · exact hB t (List.mem_append_left _ ht)
            · rcases List.mem_cons.mp ht with rfl | ht
              · exact hnew
              · exact hB t (by simp [ht])

/-- A thread of a reachable pool is between two steps. -/
theorem Behaves.inv {P : ι → Spec S G} {g₀ : ι → G} {Q : ι → G → Prop} {t : Thread S ι L}
    (h : Behaves P g₀ Q t) : (P t.id).inv ((P t.id).run (g₀ t.id) t.trace) :=
  Prog.wlp_inv _ h.wlp

/-- A thread of a reachable pool that has returned satisfies its postcondition. -/
theorem Behaves.returned {P : ι → Spec S G} {g₀ : ι → G} {Q : ι → G → Prop}
    {t : Thread S ι L} (h : Behaves P g₀ Q t) (hr : t.prog = .ret ()) :
    Q t.id ((P t.id).run (g₀ t.id) t.trace) := by
  have := h.wlp
  rw [hr] at this
  exact this.2

end Pool
