/-
Sections that a schedule opens, and sections that are one step.

A section is a block that a schedule may take as one step or open.  If it opens one, the steps of
other threads come between the section's own.  `Defers` says when that makes no difference.  A
pool in which the sections are opened is followed by one in which each is a single step, and which
is behind: what a thread has done of the section it is in is kept back, and is done at once when
the section ends.  For that, the steps of the others must be possible although what is kept back
has not happened yet.

A `Protocol` is what is known of a section: what it may ask for after what it has done, and what it
may have done when it ends.  Outside its sections a program keeps to operations that no
section needs.
-/
import TwoSocks.Program.Pool
import TwoSocks.Program.Termination

/-- What a section may ask for, and with what it may end. -/
structure Protocol (S : Sig) where
  guar : Trace S → S.Op → Prop
  ends : Trace S → Prop

namespace Prog

variable {S : Sig} {α β σ : Type} {whole : S.Tag → Prop}

/-! ### Programs without loops and blocks -/

/-- The program runs no loop and no block. -/
def Plain : {α : Type} → Prog S α → Prop
  | _, .ret _ => True
  | _, .call _ k => ∀ r, Plain (k r)
  | _, .loop _ _ _ => False
  | _, .block _ _ _ => False

theorem Plain.bind {α : Type} {p : Prog S α} :
    ∀ {f : α → Prog S β}, Plain p → (∀ a, Plain (f a)) → Plain (p.bind f) := by
  induction p with
  | ret a => intro f _ hf; exact hf a
  | call o k ih => intro f hp hf; exact fun r => ih r (hp r) hf
  | loop body s k ihb ihk => intro f hp _; exact hp.elim
  | block t p k ihp ihk => intro f hp _; exact hp.elim

theorem Plain.perform (o : S.Op) : Plain (perform o) := fun _ => trivial

/-- What is left of a section keeps to the protocol, after what it has done. -/
def Obeys (Q : Protocol S) (done : Trace S) (p : Prog S α) : Prop :=
  Plain p ∧ wlp (Spec.watching (fun _ _ => True) Q.guar) p (fun _ h => Q.ends h) done

/-- A section goes on with something the protocol allows. -/
theorem Obeys.step {Q : Protocol S} {done tr : Trace S} {p p' : Prog S α} (h : Obeys Q done p)
    (hs : Step whole p tr p') :
    ∃ o r, tr = [⟨o, r⟩] ∧ Q.guar done o ∧ Obeys Q (done ++ tr) p' := by
  cases hs with
  | call r =>
      obtain ⟨hplain, -, hguar, hnext⟩ := h
      exact ⟨_, r, rfl, hguar, hplain r, hnext r trivial⟩
  | unfold => exact h.1.elim
  | whole ht he => exact h.1.elim
  | enter ht => exact h.1.elim

/-- A section that has not returned has something to ask for. -/
theorem Obeys.goes_on {Q : Protocol S} {done : Trace S} {p : Prog S α} (h : Obeys Q done p)
    (hp : ∀ a, p ≠ .ret a) : ∃ o, Q.guar done o := by
  cases p with
  | ret a => exact absurd rfl (hp a)
  | call o k => exact ⟨o, h.2.2.1⟩
  | loop body s k => exact h.1.elim
  | block t p k => exact h.1.elim

/-- Steps to a return are a whole run. -/
theorem Steps.eval {p : Prog S α} {tr : Trace S} {a : α} (h : Steps whole p tr (.ret a)) :
    Eval p tr a := by
  suffices ∀ {q : Prog S α} {tr' : Trace S}, Steps whole p tr q → Eval q tr' a →
      Eval p (tr ++ tr') a by
    simpa using this h (.ret a)
  clear h
  intro q tr' h
  induction h generalizing tr' with
  | refl => intro h'; exact h'
  | tail _ hs ih =>
      intro h'
      rw [List.append_assoc]
      exact ih (hs.eval h')

/-- With every block opened a step performs one operation at most. -/
theorem Step.opened {p p' : Prog S α} {tr : Trace S} (h : Step (fun _ => False) p tr p') :
    tr = [] ∨ ∃ o r, tr = [⟨o, r⟩] := by
  cases h with
  | call r => exact .inr ⟨_, r, rfl⟩
  | unfold => exact .inl rfl
  | whole ht => exact ht.elim
  | enter => exact .inl rfl

/-- With every block opened a run can be stopped after any operation. -/
theorem Steps.stopped {p q : Prog S α} {all : Trace S} (h : Steps (fun _ => False) p all q) :
    ∀ {tr tr' : Trace S}, all = tr ++ tr' →
      ∃ p', Steps (fun _ => False) p tr p' ∧ Steps (fun _ => False) p' tr' q := by
  induction h with
  | refl =>
      intro tr tr' htr
      obtain ⟨rfl, rfl⟩ := List.append_eq_nil_iff.mp htr.symm
      exact ⟨_, .refl, .refl⟩
  | @tail p₁ p₂ tr₁ tr₂ h hs ih =>
      intro tr tr' htr
      rcases List.append_eq_append_iff.mp htr with ⟨more, rfl, rfl⟩ | ⟨more, rfl, rfl⟩
      · -- the last step performs one operation at most, so it is not cut in two
        rcases hs.opened with hnone | ⟨o, r, hone⟩
        · obtain ⟨rfl, rfl⟩ := List.append_eq_nil_iff.mp hnone
          exact ⟨p₂, .tail h hs, .refl⟩
        · cases more with
          | nil => exact ⟨p₁, by simpa using h, .single hs⟩
          | cons e more =>
              obtain ⟨-, rfl⟩ := List.append_eq_nil_iff.mp (List.cons.inj hone).2
              rw [List.append_nil] at hs
              exact ⟨p₂, .tail h hs, .refl⟩
      · obtain ⟨p', h₁, h₂⟩ := ih rfl
        exact ⟨p', h₁, .tail h₂ hs⟩

theorem Eval.stopped {p : Prog S α} {tr tr' : Trace S} {a : α} (h : Eval p (tr ++ tr') a) :
    ∃ p', Steps (fun _ => False) p tr p' ∧ Steps (fun _ => False) p' tr' (.ret a) :=
  h.steps.stopped rfl

/-! ### Programs with sections -/

/-- The blocks named in `T` are sections that keep to `Q`, and there are none inside other
blocks.  Outside, the program asks for operations in `out`. -/
def Sectioned (T : S.Tag → Prop) (out : S.Op → Prop) (Q : Protocol S) :
    {α : Type} → Prog S α → Prop
  | _, .ret _ => True
  | _, .call o k => out o ∧ ∀ r, Sectioned T out Q (k r)
  | _, .loop body _ k => (∀ s, Sectioned T out Q (body s)) ∧ ∀ b, Sectioned T out Q (k b)
  | _, .block t p k =>
      (T t ∧ Obeys Q [] p ∨ ¬ T t ∧ Uses out p ∧ Sectioned T out Q p) ∧
        ∀ b, Sectioned T out Q (k b)

variable {T : S.Tag → Prop} {out : S.Op → Prop} {Q : Protocol S}

theorem Sectioned.bind {α : Type} {p : Prog S α} : ∀ {f : α → Prog S β},
    Sectioned T out Q p → (∀ a, Sectioned T out Q (f a)) → Sectioned T out Q (p.bind f) := by
  induction p with
  | ret a => intro f _ hf; exact hf a
  | call o k ih => intro f hp hf; exact ⟨hp.1, fun r => ih r (hp.2 r) hf⟩
  | loop body s k ihb ihk => intro f hp hf; exact ⟨hp.1, fun b => ihk b (hp.2 b) hf⟩
  | block t p k ihp ihk => intro f hp hf; exact ⟨hp.1, fun b => ihk b (hp.2 b) hf⟩

theorem Sectioned.perform {o : S.Op} (h : out o) : Sectioned T out Q (perform o) :=
  ⟨h, fun _ => trivial⟩

theorem Sectioned.iterate {body : σ → Prog S (σ ⊕ β)} {s : σ}
    (h : ∀ s, Sectioned T out Q (body s)) : Sectioned T out Q (iterate body s) :=
  ⟨h, fun _ => trivial⟩

/-- A section. -/
theorem Sectioned.section {t : S.Tag} {p : Prog S α} (ht : T t) (h : Obeys Q [] p) :
    Sectioned T out Q (atomically t p) := ⟨.inl ⟨ht, h⟩, fun _ => trivial⟩

/-- The blocks a program runs are named in `B`. -/
def Opens (B : S.Tag → Prop) : {α : Type} → Prog S α → Prop
  | _, .ret _ => True
  | _, .call _ k => ∀ r, Opens B (k r)
  | _, .loop body _ k => (∀ s, Opens B (body s)) ∧ ∀ b, Opens B (k b)
  | _, .block t p k => B t ∧ Opens B p ∧ ∀ b, Opens B (k b)

theorem Opens.bind {B : S.Tag → Prop} {α : Type} {p : Prog S α} :
    ∀ {f : α → Prog S β}, Opens B p → (∀ a, Opens B (f a)) → Opens B (p.bind f) := by
  induction p with
  | ret a => intro f _ hf; exact hf a
  | call o k ih => intro f hp hf; exact fun r => ih r (hp r) hf
  | loop body s k ihb ihk => intro f hp hf; exact ⟨hp.1, fun b => ihk b (hp.2 b) hf⟩
  | block t p k ihp ihk =>
      intro f hp hf
      exact ⟨hp.1, hp.2.1, fun b => ihk b (hp.2.2 b) hf⟩

theorem Opens.perform {B : S.Tag → Prop} (o : S.Op) : Opens B (perform o) := fun _ => trivial

theorem Opens.iterate {B : S.Tag → Prop} {body : σ → Prog S (σ ⊕ β)} {s : σ}
    (h : ∀ s, Opens B (body s)) : Opens B (iterate body s) := ⟨h, fun _ => trivial⟩

theorem Opens.atomically {B : S.Tag → Prop} {t : S.Tag} {p : Prog S α} (ht : B t)
    (h : Opens B p) : Opens B (atomically t p) := ⟨ht, h, fun _ => trivial⟩

/-- A program without sections. -/
theorem Opens.sectioned {B : S.Tag → Prop} (hB : ∀ t, B t → ¬ T t) {α : Type} {p : Prog S α} :
    Opens B p → Uses out p → Sectioned T out Q p := by
  induction p with
  | ret a => intro _ _; trivial
  | call o k ih => intro ho hu; exact ⟨hu.1, fun r => ih r (ho r) (hu.2 r)⟩
  | loop body s k ihb ihk =>
      intro ho hu
      exact ⟨fun s => ihb s (ho.1 s) (hu.1 s), fun b => ihk b (ho.2 b) (hu.2 b)⟩
  | block t p k ihp ihk =>
      intro ho hu
      exact ⟨.inr ⟨hB t ho.1, hu.1, ihp ho.2.1 hu.1⟩, fun b => ihk b (ho.2.2 b) (hu.2 b)⟩

/-- A step outside a section is a step of the other schedule as well; otherwise a section is
entered. -/
theorem Sectioned.step {whole' : S.Tag → Prop} {p p' : Prog S α} {tr : Trace S}
    (hsame : ∀ t, ¬ T t → (whole' t ↔ whole t)) (hopen : ∀ t, T t → ¬ whole' t)
    (h : Sectioned T out Q p) (hs : Step whole' p tr p') :
    (Step whole p tr p' ∧ (∀ e ∈ tr, out e.op) ∧ Sectioned T out Q p') ∨
      ∃ (γ : Type) (t : S.Tag) (q : Prog S γ) (k : γ → Prog S α), p = .block t q k ∧
        p' = q.bind k ∧ tr = [] ∧ T t ∧ Obeys Q [] q ∧ ∀ b, Sectioned T out Q (k b) := by
  cases hs with
  | call r =>
      refine .inl ⟨.call r, fun e he => ?_, h.2 r⟩
      rw [List.mem_singleton.mp he]
      exact h.1
  | unfold =>
      refine .inl ⟨.unfold, by simp, (h.1 _).bind fun x => ?_⟩
      cases x with
      | inl s' => exact ⟨h.1, h.2⟩
      | inr b => exact h.2 b
  | @whole _ _ t q k tr b ht he =>
      rcases h.1 with ⟨hT, -⟩ | ⟨hT, hu, -⟩
      · exact absurd ht (hopen t hT)
      · exact .inl ⟨.whole ((hsame t hT).mp ht) he, Uses.eval he hu, h.2 b⟩
  | @enter _ _ t q k ht =>
      rcases h.1 with ⟨hT, hq⟩ | ⟨hT, -, hq⟩
      · exact .inr ⟨_, t, q, k, rfl, rfl, rfl, hT, hq, h.2⟩
      · exact .inl ⟨.enter fun hw => ht ((hsame t hT).mpr hw), by simp, hq.bind h.2⟩

end Prog

namespace Pool

variable {S : Sig} {ι W W' L L' : Type}

/-- A thread of the two pools: who it is, its memory in the one that is behind, what that one has
yet to do, its memory in the other. -/
structure Lag (S : Sig) (ι L L' : Type) where
  id : ι
  mem : L
  kept : Trace S
  ahead : L'

/-- What is needed of a relation between two pools for the one to follow the other with whole
sections. -/
structure Defers (M : Machine S W L) (M' : Machine S W' L') (B : Boot S ι L) (B' : Boot S ι L')
    (out : S.Op → Prop) (Q : Protocol S) (R : W → W' → List (Lag S ι L L') → Prop) : Prop where
  start : ∀ w w' vs i, R w w' vs → R w w' (vs ++ [⟨i, B.mem i, [], B'.mem i⟩])
  /-- Outside a section both do the same. -/
  event : ∀ w w' pre post i m m' o r, R w w' (pre ++ ⟨i, m, [], m'⟩ :: post) →
    M'.can w' m' o r → out o → M.can w m o r ∧
      R (M.upd w m o r).1 (M'.upd w' m' o r).1
        (pre ++ ⟨i, (M.upd w m o r).2, [], (M'.upd w' m' o r).2⟩ :: post)
  /-- What is done in a section that goes on is kept back. -/
  inside : ∀ w w' pre post i m done m' o r, R w w' (pre ++ ⟨i, m, done, m'⟩ :: post) →
    Q.guar done o → (∃ o', Q.guar (done ++ [⟨o, r⟩]) o') → M'.can w' m' o r →
      R w (M'.upd w' m' o r).1 (pre ++ ⟨i, m, done ++ [⟨o, r⟩], (M'.upd w' m' o r).2⟩ :: post)
  /-- When the section ends everything is made up for. -/
  finish : ∀ w w' pre post i m done m' o r, R w w' (pre ++ ⟨i, m, done, m'⟩ :: post) →
    Q.guar done o → Q.ends (done ++ [⟨o, r⟩]) → M'.can w' m' o r →
      ∃ w₁ m₁, Performs M w m (done ++ [⟨o, r⟩]) w₁ m₁ ∧
        R w₁ (M'.upd w' m' o r).1 (pre ++ ⟨i, m₁, [], (M'.upd w' m' o r).2⟩ :: post)

/-- A thread is started and stopped after some of its operations. -/
theorem Reachable.stopped {M : Machine S W L} {B : Boot S ι L} {w₀ w w' : W}
    {ts : List (Thread S ι L)} {m' : L} {tr rest : Trace S} (i : ι)
    (hc : Reachable M B (fun _ => False) w₀ ⟨w, ts⟩) (h : Prog.Eval (B.prog i) (tr ++ rest) ())
    (hp : Performs M w (B.mem i) tr w' m') :
    ∃ p, Prog.Steps (fun _ => False) p rest (.ret ()) ∧
      Reachable M B (fun _ => False) w₀ ⟨w', ts ++ [⟨i, p, m', tr⟩]⟩ := by
  obtain ⟨p, h₁, h₂⟩ := h.stopped
  exact ⟨p, h₂, Reachable.advance h₁ hp (.step hc (.start i))⟩

/-- A thread of one pool trails the same thread of the other by what it has done of the section
it is in. -/
inductive Trails (T : S.Tag → Prop) (out : S.Op → Prop) (Q : Protocol S) (whole' : S.Tag → Prop) :
    Thread S ι L → Trace S → Thread S ι L' → Prop
  | level {i : ι} {p : Prog S Unit} {m : L} {m' : L'} {past : Trace S}
      (h : Prog.Sectioned T out Q p) :
      Trails T out Q whole' ⟨i, p, m, past⟩ [] ⟨i, p, m', past⟩
  | inside {β : Type} {i : ι} {t : S.Tag} {p q : Prog S β} {k : β → Prog S Unit} {m : L} {m' : L'}
      {past done : Trace S} (ht : T t) (hsteps : Prog.Steps whole' p done q)
      (hobeys : Prog.Obeys Q done q) (hq : ∀ b, q ≠ .ret b)
      (hk : ∀ b, Prog.Sectioned T out Q (k b)) :
      Trails T out Q whole' ⟨i, .block t p k, m, past⟩ done ⟨i, q.bind k, m', past ++ done⟩

theorem Trails.past {T : S.Tag → Prop} {out : S.Op → Prop} {Q : Protocol S}
    {whole' : S.Tag → Prop} {t : Thread S ι L} {done : Trace S} {t' : Thread S ι L'}
    (h : Trails T out Q whole' t done t') : t'.id = t.id ∧ t'.trace = t.trace ++ done := by
  cases h with
  | level => exact ⟨rfl, (List.append_nil _).symm⟩
  | inside => exact ⟨rfl, rfl⟩

/-- The same threads in two pools, with what the one pool has yet to do. -/
abbrev Pairing (S : Sig) (ι L L' : Type) := List (Thread S ι L × Trace S × Thread S ι L')

def Pairing.behind (xs : Pairing S ι L L') : List (Thread S ι L) := xs.map fun x => x.1

def Pairing.ahead (xs : Pairing S ι L L') : List (Thread S ι L') := xs.map fun x => x.2.2

def Pairing.lags (xs : Pairing S ι L L') : List (Lag S ι L L') :=
  xs.map fun x => ⟨x.1.id, x.1.mem, x.2.1, x.2.2.mem⟩

section Following

variable {M : Machine S W L} {M' : Machine S W' L'} {B : Boot S ι L} {B' : Boot S ι L'}
  {T : S.Tag → Prop} {out : S.Op → Prop} {Q : Protocol S} {whole whole' : S.Tag → Prop}
  {R : W → W' → List (Lag S ι L L') → Prop} {w₀ : W} {w₀' : W'}

/-- The pool that is behind can get to where it trails `c'`. -/
def Follows (M : Machine S W L) (B : Boot S ι L) (T : S.Tag → Prop) (out : S.Op → Prop)
    (Q : Protocol S) (whole whole' : S.Tag → Prop) (R : W → W' → List (Lag S ι L L') → Prop)
    (w₀ : W) (c' : Pool S ι W' L') : Prop :=
  ∃ (w : W) (xs : Pairing S ι L L'), Reachable M B whole w₀ ⟨w, xs.behind⟩ ∧
    c'.threads = xs.ahead ∧ (∀ x ∈ xs, Trails T out Q whole' x.1 x.2.1 x.2.2) ∧
    R w c'.world xs.lags

/-- The events of one step outside a section, one after the other. -/
theorem Defers.performs (D : Defers M M' B B' out Q R) {pre post : List (Lag S ι L L')} {i : ι}
    {w' w₁' : W'} {m' m₁' : L'} {tr : Trace S} (hp : Performs M' w' m' tr w₁' m₁') :
    ∀ {w : W} {m : L}, (∀ e ∈ tr, out e.op) → R w w' (pre ++ ⟨i, m, [], m'⟩ :: post) →
      ∃ w₁ m₁, Performs M w m tr w₁ m₁ ∧ R w₁ w₁' (pre ++ ⟨i, m₁, [], m₁'⟩ :: post) := by
  induction hp with
  | nil => intro w m _ hR; exact ⟨w, m, .nil, hR⟩
  | cons hc _ ih =>
      intro w m hout hR
      obtain ⟨hcan, hR₁⟩ := D.event _ _ _ _ _ _ _ _ _ hR hc (hout _ List.mem_cons_self)
      obtain ⟨w₁, m₁, hp₁, hR₂⟩ := ih (fun e he => hout e (List.mem_cons_of_mem _ he)) hR₁
      exact ⟨w₁, m₁, .cons hcan hp₁, hR₂⟩

theorem performs_single {w w₁ : W} {m m₁ : L} {o : S.Op} {r : S.Ret o}
    (h : Performs M w m [⟨o, r⟩] w₁ m₁) :
    M.can w m o r ∧ w₁ = (M.upd w m o r).1 ∧ m₁ = (M.upd w m o r).2 := by
  cases h with
  | cons hc h =>
      cases h
      exact ⟨hc, rfl, rfl⟩

/-- One thread takes a step. -/
theorem Defers.thread (D : Defers M M' B B' out Q R) (hwhole : ∀ t, T t → whole t ∧ ¬ whole' t)
    (hsame : ∀ t, ¬ T t → (whole' t ↔ whole t)) {w : W} {pre post : Pairing S ι L L'}
    {x : Thread S ι L} {done : Trace S} {i : ι} {p' p₁' : Prog S Unit} {m' m₁' : L'}
    {past' tr : Trace S} {w' w₁' : W'}
    (hreach : Reachable M B whole w₀ ⟨w, (pre ++ (x, done, ⟨i, p', m', past'⟩) :: post).behind⟩)
    (htrails : Trails T out Q whole' x done (⟨i, p', m', past'⟩ : Thread S ι L'))
    (hR : R w w' (pre ++ (x, done, ⟨i, p', m', past'⟩) :: post).lags)
    (hstep : Prog.Step whole' p' tr p₁') (hperf : Performs M' w' m' tr w₁' m₁') :
    ∃ w₁ x₁ done₁,
      Reachable M B whole w₀
        ⟨w₁, (pre ++ (x₁, done₁, (⟨i, p₁', m₁', past' ++ tr⟩ : Thread S ι L')) :: post).behind⟩ ∧
      Trails T out Q whole' x₁ done₁ (⟨i, p₁', m₁', past' ++ tr⟩ : Thread S ι L') ∧
      R w₁ w₁' (pre ++ (x₁, done₁, (⟨i, p₁', m₁', past' ++ tr⟩ : Thread S ι L')) :: post).lags := by
  simp only [Pairing.behind, Pairing.lags, List.map_append, List.map_cons] at hreach hR ⊢
  cases htrails with
  | @level _ p m _ past hsec =>
      rcases hsec.step hsame (fun t ht => (hwhole t ht).2) hstep with
        ⟨hs, hout, hsec₁⟩ | ⟨γ, t, q, k, rfl, rfl, rfl, hT, hobeys, hk⟩
      · obtain ⟨w₁, m₁, hp₁, hR₁⟩ := D.performs hperf hout hR
        exact ⟨w₁, ⟨i, p₁', m₁, past' ++ tr⟩, [], .step hreach (.thread hs hp₁), .level hsec₁, hR₁⟩
      · cases hperf
        by_cases hq : ∃ b, q = .ret b
        · -- an empty section is over as soon as it is entered
          obtain ⟨b, rfl⟩ := hq
          exact ⟨w, ⟨i, k b, m, past' ++ []⟩, [],
            .step hreach (.thread (.whole (hwhole t hT).1 (.ret b)) .nil), .level (hk b), hR⟩
        · exact ⟨w, ⟨i, .block t q k, m, past'⟩, [], hreach,
            .inside hT .refl hobeys (fun b hb => hq ⟨b, hb⟩) hk, hR⟩
  | @inside β _ t p q k m _ past _ ht hsteps hobeys hq hk =>
      obtain ⟨q₁, hs, rfl⟩ := hstep.of_bind hq
      obtain ⟨o, r, rfl, hguar, hobeys₁⟩ := hobeys.step hs
      obtain ⟨hcan, rfl, rfl⟩ := performs_single hperf
      rw [List.append_assoc]
      by_cases hq₁ : ∃ b, q₁ = .ret b
      · obtain ⟨b, rfl⟩ := hq₁
        obtain ⟨w₁, m₁, hp₁, hR₁⟩ :=
          D.finish _ _ _ _ _ _ _ _ _ _ hR hguar hobeys₁.2.2 hcan
        have heval : Prog.Eval p (done ++ [⟨o, r⟩]) b := (Prog.Steps.tail hsteps hs).eval
        exact ⟨w₁, ⟨i, k b, m₁, past ++ (done ++ [⟨o, r⟩])⟩, [],
          .step hreach (.thread (.whole (hwhole t ht).1 heval) hp₁), .level (hk b), hR₁⟩
      · have hq₁ : ∀ b, q₁ ≠ .ret b := fun b hb => hq₁ ⟨b, hb⟩
        exact ⟨w, ⟨i, .block t p k, m, past⟩, done ++ [⟨o, r⟩], hreach,
          .inside ht (.tail hsteps hs) hobeys₁ hq₁ hk,
          D.inside _ _ _ _ _ _ _ _ _ _ hR hguar (hobeys₁.goes_on hq₁) hcan⟩

/-- **Whatever a schedule does that opens the sections, one that does not can follow it.** -/
theorem Reachable.follows (D : Defers M M' B B' out Q R) (hprog : B.prog = B'.prog)
    (hsec : ∀ i, Prog.Sectioned T out Q (B.prog i)) (h₀ : R w₀ w₀' [])
    (hwhole : ∀ t, T t → whole t ∧ ¬ whole' t) (hsame : ∀ t, ¬ T t → (whole' t ↔ whole t))
    {c' : Pool S ι W' L'} (hc : Reachable M' B' whole' w₀' c') :
    Follows M B T out Q whole whole' R w₀ c' := by
  induction hc with
  | init => exact ⟨w₀, [], .init, rfl, by simp, h₀⟩
  | step _ hs ih =>
      obtain ⟨w, xs, hreach, hahead, htrails, hR⟩ := ih
      cases hs with
      | @start i w' ts =>
          refine ⟨w, xs ++ [(⟨i, B.prog i, B.mem i, []⟩, [], ⟨i, B'.prog i, B'.mem i, []⟩)],
            ?_, ?_, fun x hx => ?_, ?_⟩
          · simpa [Pairing.behind] using Reachable.step hreach (.start i)
          · simpa [Pairing.ahead] using hahead
          · rcases List.mem_append.mp hx with hx | hx
            · exact htrails x hx
            · rw [List.mem_singleton.mp hx, ← hprog]
              exact .level (hsec i)
          · simpa [Pairing.lags] using D.start _ _ _ i hR
      | @thread w' w₁' pre' post' i p' p₁' m' m₁' past' tr hstep hperf =>
          obtain ⟨pre, rest, rfl, rfl, hrest⟩ := List.map_eq_append_iff.mp hahead.symm
          obtain ⟨⟨x, done, x'⟩, post, rfl, rfl, rfl⟩ := List.map_eq_cons_iff.mp hrest
          obtain ⟨w₁, x₁, done₁, hreach₁, htrails₁, hR₁⟩ := D.thread hwhole hsame hreach
            (htrails _ (List.mem_append_right _ List.mem_cons_self)) hR hstep hperf
          refine ⟨w₁, pre ++ (x₁, done₁, ⟨i, p₁', m₁', past' ++ tr⟩) :: post, hreach₁, ?_,
            fun y hy => ?_, hR₁⟩
          · simp [Pairing.ahead]
          · rcases List.mem_append.mp hy with hy | hy
            · exact htrails y (List.mem_append_left _ hy)
            · rcases List.mem_cons.mp hy with rfl | hy
              · exact htrails₁
              · exact htrails y (by simp [hy])

end Following

end Pool
