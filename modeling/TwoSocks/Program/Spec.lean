/-
Preconditions for programs, against a ghost state.

A `Spec` watches a run.  It carries a ghost state that moves with every event, it
says which answers the environment may give (`rely`), which operations the program
is allowed to ask for (`guar`), and what holds of the ghost state whenever the
program is between two steps (`inv`).  `atomic` says which blocks are one step.

`wlp` is the weakest liberal precondition for such a spec, by recursion on the
program.  A loop is handled by exhibiting an invariant over its variables and the
ghost state.  Inside an atomic block `inv` is not asked for.

`Follows` is the same condition read along one trace: the program guarantees each
operation as long as the environment has kept to `rely` so far.  The soundness
theorems turn a `wlp` into a `Follows` of whatever trace a run produced, and
`Follows.elim` cashes that in.
-/
import TwoSocks.Program.Tree

/-- A monitor for runs over `S`, with ghost state `G`. -/
structure Spec (S : Sig) (G : Type) where
  /-- The answers the environment may give. -/
  rely : G → (o : S.Op) → S.Ret o → Prop
  /-- The operations the program may ask for. -/
  guar : G → S.Op → Prop
  /-- How the ghost state follows an event. -/
  next : G → (o : S.Op) → S.Ret o → G
  /-- What holds between steps. -/
  inv : G → Prop := fun _ => True
  /-- The blocks that are one step. -/
  atomic : S.Tag → Prop := fun _ => True

namespace Spec

variable {S : Sig} {G : Type}

/-- What a block is held to: nothing between its operations if it is atomic. -/
def within (P : Spec S G) (t : S.Tag) : Spec S G :=
  { P with inv := fun g => P.atomic t ∨ P.inv g }

@[simp] theorem within_rely (P : Spec S G) (t : S.Tag) : (P.within t).rely = P.rely := rfl
@[simp] theorem within_guar (P : Spec S G) (t : S.Tag) : (P.within t).guar = P.guar := rfl
@[simp] theorem within_next (P : Spec S G) (t : S.Tag) : (P.within t).next = P.next := rfl

/-- A block that is opened is held to what everything else is. -/
theorem within_eq {P : Spec S G} {t : S.Tag} (h : P.atomic t → ∀ g, P.inv g) :
    P.within t = P := by
  obtain ⟨rely, guar, next, inv, atomic⟩ := P
  have hinv : (fun g => atomic t ∨ inv g) = inv :=
    funext fun g => propext ⟨fun hg => hg.elim (fun ha => h ha g) id, .inr⟩
  simp only [within, hinv]

/-- The ghost state after a trace. -/
def run (P : Spec S G) (g : G) (tr : Trace S) : G :=
  tr.foldl (fun g e => P.next g e.op e.ret) g

@[simp] theorem run_nil (P : Spec S G) (g : G) : P.run g [] = g := rfl

@[simp] theorem run_cons (P : Spec S G) (g : G) (e : Event S) (tr : Trace S) :
    P.run g (e :: tr) = P.run (P.next g e.op e.ret) tr := rfl

theorem run_append (P : Spec S G) (g : G) (tr tr' : Trace S) :
    P.run g (tr ++ tr') = P.run (P.run g tr) tr' := List.foldl_append ..

/-- The environment keeps to `rely` along the trace. -/
def Legal (P : Spec S G) : G → Trace S → Prop
  | _, [] => True
  | g, e :: tr => P.rely g e.op e.ret ∧ P.Legal (P.next g e.op e.ret) tr

/-- The program keeps to `guar` along the trace. -/
def Guaranteed (P : Spec S G) : G → Trace S → Prop
  | _, [] => True
  | g, e :: tr => P.guar g e.op ∧ P.Guaranteed (P.next g e.op e.ret) tr

/-- Each operation of the trace is guaranteed while the environment keeps to
`rely`, and `R` holds at its end. -/
def Follows (P : Spec S G) : G → Trace S → (G → Prop) → Prop
  | g, [], R => R g
  | g, e :: tr, R => P.guar g e.op ∧ (P.rely g e.op e.ret → P.Follows (P.next g e.op e.ret) tr R)

theorem legal_append {P : Spec S G} {tr tr' : Trace S} : ∀ {g : G},
    P.Legal g (tr ++ tr') ↔ P.Legal g tr ∧ P.Legal (P.run g tr) tr' := by
  induction tr with
  | nil => intro g; simp [Legal]
  | cons e tr ih => intro g; simp [Legal, ih, and_assoc]

theorem guaranteed_append {P : Spec S G} {tr tr' : Trace S} : ∀ {g : G},
    P.Guaranteed g (tr ++ tr') ↔ P.Guaranteed g tr ∧ P.Guaranteed (P.run g tr) tr' := by
  induction tr with
  | nil => intro g; simp [Guaranteed]
  | cons e tr ih => intro g; simp [Guaranteed, ih, and_assoc]

theorem Follows.append {P : Spec S G} {tr tr' : Trace S} {R : G → Prop} : ∀ {g : G},
    P.Follows g tr (fun g' => P.Follows g' tr' R) → P.Follows g (tr ++ tr') R := by
  induction tr with
  | nil => intro g h; exact h
  | cons e tr ih => intro g h; exact ⟨h.1, fun hr => ih (h.2 hr)⟩

theorem Follows.mono {P : Spec S G} {tr : Trace S} {R R' : G → Prop}
    (hR : ∀ g, R g → R' g) : ∀ {g : G}, P.Follows g tr R → P.Follows g tr R' := by
  induction tr with
  | nil => intro g h; exact hR _ h
  | cons e tr ih => intro g h; exact ⟨h.1, fun hr => ih (h.2 hr)⟩

/-- Against an environment that kept its word, everything was guaranteed. -/
theorem Follows.elim {P : Spec S G} {tr : Trace S} {R : G → Prop} : ∀ {g : G},
    P.Follows g tr R → P.Legal g tr → P.Guaranteed g tr ∧ R (P.run g tr) := by
  induction tr with
  | nil => intro g h _; exact ⟨trivial, h⟩
  | cons e tr ih =>
      intro g h hl
      obtain ⟨hg, hR⟩ := ih (h.2 hl.1) hl.2
      exact ⟨⟨h.1, hg⟩, hR⟩

theorem follows_within {P : Spec S G} {t : S.Tag} {tr : Trace S} {R : G → Prop} : ∀ {g : G},
    (P.within t).Follows g tr R ↔ P.Follows g tr R := by
  induction tr with
  | nil => intro g; exact Iff.rfl
  | cons e tr ih => intro g; simp only [Follows, within_guar, within_rely, within_next, ih]

/-- What is guaranteed at one event of a trace. -/
theorem Guaranteed.at {P : Spec S G} {g : G} {pre post : Trace S} {e : Event S}
    (h : P.Guaranteed g (pre ++ e :: post)) : P.guar (P.run g pre) e.op :=
  (guaranteed_append.mp h).2.1

/-- What was relied on at one event of a trace. -/
theorem Legal.at {P : Spec S G} {g : G} {pre post : Trace S} {e : Event S}
    (h : P.Legal g (pre ++ e :: post)) : P.rely (P.run g pre) e.op e.ret :=
  (legal_append.mp h).2.1

/-- Legal is what `rely` says at every event. -/
theorem legal_iff {P : Spec S G} {g : G} {tr : Trace S} : P.Legal g tr ↔
    ∀ pre e post, tr = pre ++ e :: post → P.rely (P.run g pre) e.op e.ret := by
  refine ⟨fun hl pre e post he => (he ▸ hl).at, ?_⟩
  induction tr generalizing g with
  | nil => intro _; trivial
  | cons e tr ih =>
      intro hr
      exact ⟨hr [] e tr rfl, ih fun pre e' post he => hr (e :: pre) e' post (by rw [he]; rfl)⟩

/-! ### Watching the history itself -/

/-- The spec whose ghost state is all that has happened. -/
def history (rely : Event S → Prop) : Spec S (Trace S) where
  rely _ o r := rely ⟨o, r⟩
  guar _ _ := True
  next h o r := h ++ [⟨o, r⟩]

@[simp] theorem history_rely {rely : Event S → Prop} {h : Trace S} {o : S.Op} {r : S.Ret o} :
    (history rely).rely h o r = rely ⟨o, r⟩ := rfl
@[simp] theorem history_guar {rely : Event S → Prop} {h : Trace S} {o : S.Op} :
    (history rely).guar h o = True := rfl
@[simp] theorem history_next {rely : Event S → Prop} {h : Trace S} {o : S.Op} {r : S.Ret o} :
    (history rely).next h o r = h ++ [⟨o, r⟩] := rfl
@[simp] theorem history_inv {rely : Event S → Prop} {h : Trace S} :
    (history rely).inv h = True := rfl

@[simp] theorem history_run {rely : Event S → Prop} (tr : Trace S) :
    ∀ h : Trace S, (history rely).run h tr = h ++ tr := by
  induction tr with
  | nil => intro h; simp
  | cons e tr ih => intro h; simp [ih]

theorem history_legal {rely : Event S → Prop} {tr : Trace S} (hr : ∀ e ∈ tr, rely e) :
    ∀ {h : Trace S}, (history rely).Legal h tr := by
  induction tr with
  | nil => intro h; trivial
  | cons e tr ih => intro h; exact ⟨hr e (by simp), ih fun e he => hr e (by simp [he])⟩

/-- The spec in which what may be answered, and what may be asked for, depends on all that
has happened. -/
def watching (rely : Trace S → Event S → Prop) (guar : Trace S → S.Op → Prop) :
    Spec S (Trace S) where
  rely h o r := rely h ⟨o, r⟩
  guar := guar
  next h o r := h ++ [⟨o, r⟩]

section Watching

variable {rely : Trace S → Event S → Prop} {guar : Trace S → S.Op → Prop}

@[simp] theorem watching_rely {h : Trace S} {o : S.Op} {r : S.Ret o} :
    (watching rely guar).rely h o r = rely h ⟨o, r⟩ := rfl
@[simp] theorem watching_guar {h : Trace S} {o : S.Op} :
    (watching rely guar).guar h o = guar h o := rfl
@[simp] theorem watching_next {h : Trace S} {o : S.Op} {r : S.Ret o} :
    (watching rely guar).next h o r = h ++ [⟨o, r⟩] := rfl
@[simp] theorem watching_inv {h : Trace S} : (watching rely guar).inv h = True := rfl

@[simp] theorem watching_run (tr : Trace S) :
    ∀ h : Trace S, (watching rely guar).run h tr = h ++ tr := by
  induction tr with
  | nil => intro h; simp
  | cons e tr ih => intro h; simp [ih]

theorem watching_legal_iff {h tr : Trace S} : (watching rely guar).Legal h tr ↔
    ∀ pre e post, tr = pre ++ e :: post → rely (h ++ pre) e := by
  simp only [legal_iff, watching_run]
  rfl

end Watching

/-! ### Keeping the history beside a ghost state -/

/-- The same spec with all that has happened kept beside its ghost state. -/
def recording (P : Spec S G) : Spec S (G × Trace S) where
  rely g := P.rely g.1
  guar g := P.guar g.1
  next g o r := (P.next g.1 o r, g.2 ++ [⟨o, r⟩])
  inv g := P.inv g.1
  atomic := P.atomic

@[simp] theorem recording_next_fst (P : Spec S G) (g : G × Trace S) (o : S.Op) (r : S.Ret o) :
    (P.recording.next g o r).1 = P.next g.1 o r := rfl
@[simp] theorem recording_next_snd (P : Spec S G) (g : G × Trace S) (o : S.Op) (r : S.Ret o) :
    (P.recording.next g o r).2 = g.2 ++ [⟨o, r⟩] := rfl

@[simp] theorem recording_run (P : Spec S G) (tr : Trace S) : ∀ g : G × Trace S,
    P.recording.run g tr = (P.run g.1 tr, g.2 ++ tr) := by
  induction tr with
  | nil => intro g; simp
  | cons e tr ih => intro g; rw [run_cons, ih]; simp [recording]

theorem recording_legal {P : Spec S G} {tr : Trace S} : ∀ {g : G × Trace S},
    P.recording.Legal g tr ↔ P.Legal g.1 tr := by
  induction tr with
  | nil => intro g; exact Iff.rfl
  | cons e tr ih => intro g; exact and_congr_right fun _ => ih

theorem recording_guaranteed {P : Spec S G} {tr : Trace S} : ∀ {g : G × Trace S},
    P.recording.Guaranteed g tr ↔ P.Guaranteed g.1 tr := by
  induction tr with
  | nil => intro g; exact Iff.rfl
  | cons e tr ih => intro g; exact and_congr_right fun _ => ih

end Spec

namespace Prog

variable {S : Sig} {G : Type} {α β σ : Type}

/-- From ghost state `g`, every run of the program keeps `P`, and a run that
returns satisfies `Q`. -/
def wlp (P : Spec S G) : {α : Type} → Prog S α → (α → G → Prop) → G → Prop
  | _, .ret a, Q, g => P.inv g ∧ Q a g
  | _, .call o k, Q, g =>
      P.inv g ∧ P.guar g o ∧ ∀ r, P.rely g o r → wlp P (k r) Q (P.next g o r)
  | _, .loop body s k, Q, g =>
      ∃ I : _ → G → Prop, I s g ∧ ∀ s g, I s g →
        wlp P (body s) (Sum.elim I fun b g' => wlp P (k b) Q g') g
  | _, .block t p k, Q, g => P.inv g ∧ wlp (P.within t) p (fun b g' => wlp P (k b) Q g') g

/-- Wherever a program has a precondition, it is between two steps. -/
theorem wlp_inv {α : Type} (p : Prog S α) :
    ∀ {P : Spec S G} {Q : α → G → Prop} {g : G}, wlp P p Q g → P.inv g := by
  induction p with
  | ret a => intro P Q g h; exact h.1
  | call o k ih => intro P Q g h; exact h.1
  | loop body s k ihb ihk => intro P Q g ⟨I, hI, h⟩; exact ihb s (h s g hI)
  | block t p k ihp ihk => intro P Q g h; exact h.1

theorem wlp_mono {α : Type} (p : Prog S α) :
    ∀ {P : Spec S G} {Q Q' : α → G → Prop} {g : G}, (∀ a g, Q a g → Q' a g) →
      wlp P p Q g → wlp P p Q' g := by
  induction p with
  | ret a => intro P Q Q' g hQ h; exact ⟨h.1, hQ _ _ h.2⟩
  | call o k ih => intro P Q Q' g hQ h; exact ⟨h.1, h.2.1, fun r hr => ih r hQ (h.2.2 r hr)⟩
  | loop body s k ihb ihk =>
      intro P Q Q' g hQ ⟨I, hI, h⟩
      refine ⟨I, hI, fun s g hs => ihb s ?_ (h s g hs)⟩
      rintro (s' | b) g' hx
      · exact hx
      · exact ihk b hQ hx
  | block t p k ihp ihk =>
      intro P Q Q' g hQ h
      exact ⟨h.1, ihp (fun b g' hb => ihk b hQ hb) h.2⟩

/-- A program that returns is between two steps as well. -/
theorem wlp_and_inv {α : Type} (p : Prog S α) :
    ∀ {P : Spec S G} {Q : α → G → Prop} {g : G}, wlp P p Q g →
      wlp P p (fun a g' => P.inv g' ∧ Q a g') g := by
  induction p with
  | ret a => intro P Q g h; exact ⟨h.1, h⟩
  | call o k ih => intro P Q g h; exact ⟨h.1, h.2.1, fun r hr => ih r (h.2.2 r hr)⟩
  | loop body s k ihb ihk =>
      intro P Q g ⟨I, hI, h⟩
      refine ⟨I, hI, fun s g hs => wlp_mono _ ?_ (h s g hs)⟩
      rintro (s' | b) g' hx
      · exact hx
      · exact ihk b hx
  | block t p k ihp ihk =>
      intro P Q g h
      exact ⟨h.1, wlp_mono _ (fun b g' hb => ihk b hb) h.2⟩

/-- Sequencing: the precondition of `p` for the precondition of what follows. -/
@[simp] theorem wlp_bind {α : Type} (p : Prog S α) :
    ∀ {P : Spec S G} {f : α → Prog S β} {Q : β → G → Prop} {g : G},
      wlp P (p.bind f) Q g ↔ wlp P p (fun a g' => wlp P (f a) Q g') g := by
  induction p with
  | ret a => intro P f Q g; exact ⟨fun h => ⟨wlp_inv _ h, h⟩, fun h => h.2⟩
  | call o k ih => intro P f Q g; simp only [bind, wlp, ih]
  | loop body s k ihb ihk => intro P f Q g; simp only [bind, wlp, ihk]
  | block t p k ihp ihk => intro P f Q g; simp only [bind, wlp, ihk]

@[simp] theorem wlp_ret {P : Spec S G} {a : α} {Q : α → G → Prop} {g : G} :
    wlp P (.ret a) Q g ↔ P.inv g ∧ Q a g := Iff.rfl

@[simp] theorem wlp_call {P : Spec S G} {o : S.Op} {k : S.Ret o → Prog S α}
    {Q : α → G → Prop} {g : G} : wlp P (.call o k) Q g ↔
      P.inv g ∧ P.guar g o ∧ ∀ r, P.rely g o r → wlp P (k r) Q (P.next g o r) := Iff.rfl

/-- The loop rule: an invariant the body keeps, and that gives the postcondition
when the body leaves. -/
theorem wlp_iterate {P : Spec S G} {body : σ → Prog S (σ ⊕ β)} {s : σ} {Q : β → G → Prop}
    {g : G} (I : σ → G → Prop) (hI : I s g)
    (h : ∀ s g, I s g → wlp P (body s) (Sum.elim I Q) g) : wlp P (iterate body s) Q g := by
  refine ⟨I, hI, fun s g hs => wlp_mono _ ?_ (wlp_and_inv _ (h s g hs))⟩
  rintro (s' | b) g' ⟨hinv, hx⟩
  · exact hx
  · exact ⟨hinv, hx⟩

/-- The block rule. -/
theorem wlp_atomically {P : Spec S G} {t : S.Tag} {p : Prog S α} {Q : α → G → Prop} {g : G}
    (hinv : P.inv g) (h : wlp (P.within t) p (fun a g' => P.inv g' ∧ Q a g') g) :
    wlp P (atomically t p) Q g := ⟨hinv, h⟩

/-- A block makes no difference to a spec that asks for nothing between steps, or that
opens it. -/
theorem wlp_opened {P : Spec S G} {t : S.Tag} {p : Prog S α} {Q : α → G → Prop} {g : G}
    (ht : P.atomic t → ∀ g, P.inv g) (h : wlp P p Q g) : wlp P (atomically t p) Q g := by
  refine ⟨wlp_inv _ h, ?_⟩
  rw [Spec.within_eq ht]
  exact wlp_and_inv _ h

@[simp] theorem wlp_perform {P : Spec S G} {o : S.Op} {Q : S.Ret o → G → Prop} {g : G} :
    wlp P (perform o) Q g ↔
      P.inv g ∧ P.guar g o ∧ ∀ r, P.rely g o r → P.inv (P.next g o r) ∧ Q r (P.next g o r) :=
  Iff.rfl

/-- The frame rule: a program that asks only for operations in `A` keeps whatever every
such operation keeps. -/
theorem wlp_of_uses {A : S.Op → Prop} {J : G → Prop} {α : Type} {p : Prog S α} :
    ∀ {P : Spec S G} {g : G}, (∀ g, J g → P.inv g) → (∀ g o, J g → A o → P.guar g o) →
      (∀ g o r, J g → A o → P.rely g o r → J (P.next g o r)) → Uses A p → J g →
        wlp P p (fun _ g' => J g') g := by
  induction p with
  | ret a => intro P g hinv _ _ _ hJ; exact ⟨hinv g hJ, hJ⟩
  | call o k ih =>
      intro P g hinv hguar hnext hp hJ
      exact ⟨hinv g hJ, hguar g o hJ hp.1, fun r hr =>
        ih r hinv hguar hnext (hp.2 r) (hnext g o r hJ hp.1 hr)⟩
  | loop body s k ihb ihk =>
      intro P g hinv hguar hnext hp hJ
      refine ⟨fun _ => J, hJ, fun s g hs => wlp_mono _ ?_ (ihb s hinv hguar hnext (hp.1 s) hs)⟩
      rintro (s' | b) g' hg
      · exact hg
      · exact ihk b hinv hguar hnext (hp.2 b) hg
  | block t p k ihp ihk =>
      intro P g hinv hguar hnext hp hJ
      refine ⟨hinv g hJ, wlp_mono _ (fun b g' hg => ihk b hinv hguar hnext (hp.2 b) hg) ?_⟩
      exact ihp (fun g hg => .inr (hinv g hg)) hguar hnext hp.1 hJ

/-- What a program can return at all may be assumed of what it returns. -/
theorem wlp_returns {α : Type} {p : Prog S α} :
    ∀ {P : Spec S G} {Φ : α → Prop} {Q : α → G → Prop} {g : G}, Returns Φ p → wlp P p Q g →
      wlp P p (fun a g' => Φ a ∧ Q a g') g := by
  induction p with
  | ret a => intro P Φ Q g hp h; exact ⟨h.1, hp, h.2⟩
  | call o k ih =>
      intro P Φ Q g hp h
      exact ⟨h.1, h.2.1, fun r hr => ih r (hp r) (h.2.2 r hr)⟩
  | loop body s k ihb ihk =>
      intro P Φ Q g hp ⟨I, hI, h⟩
      refine ⟨I, hI, fun s g hs => wlp_mono _ ?_ (ihb s (hp s) (h s g hs))⟩
      rintro (s' | b) g' ⟨hb, hx⟩
      · exact hx
      · exact ihk b hb hx
  | block t p k ihp ihk =>
      intro P Φ Q g hp h
      exact ⟨h.1, wlp_mono _ (fun b g' hb => ihk b hb.1 hb.2) (ihp hp h.2)⟩

/-! ### Soundness -/

/-- **A whole run follows the spec to its postcondition.** -/
theorem wlp_eval {α : Type} {p : Prog S α} {tr : Trace S} {a : α} (h : Eval p tr a) :
    ∀ {P : Spec S G} {Q : α → G → Prop} {g : G}, wlp P p Q g → P.Follows g tr (Q a) := by
  induction h with
  | ret a => intro P Q g hw; exact hw.2
  | call h ih => intro P Q g hw; exact ⟨hw.2.1, fun hr => ih (hw.2.2 _ hr)⟩
  | again hb hl ihb ihl =>
      intro P Q g ⟨I, hI, h⟩
      exact (Spec.Follows.mono (fun g' hs => ihl ⟨I, hs, h⟩) (ihb (h _ _ hI))).append
  | leave hb hk ihb ihk =>
      intro P Q g ⟨I, hI, h⟩
      exact (Spec.Follows.mono (fun g' hs => ihk hs) (ihb (h _ _ hI))).append
  | block hp hk ihp ihk =>
      intro P Q g hw
      exact (Spec.Follows.mono (fun g' hs => ihk hs) (Spec.follows_within.mp (ihp hw.2))).append

/-- **One step follows the spec to the precondition of what is left.** -/
theorem wlp_step {whole : S.Tag → Prop} {α : Type} {p p' : Prog S α} {tr : Trace S}
    (h : Step whole p tr p') {P : Spec S G} (hu : ∀ t, ¬ whole t → P.atomic t → ∀ g, P.inv g)
    {Q : α → G → Prop} {g : G} (hw : wlp P p Q g) :
    P.Follows g tr (fun g' => wlp P p' Q g') := by
  cases h with
  | call r => exact ⟨hw.2.1, fun hr => hw.2.2 r hr⟩
  | unfold =>
      obtain ⟨I, hI, h⟩ := hw
      refine (wlp_bind _).mpr (wlp_mono _ ?_ (h _ _ hI))
      rintro (s' | b) g' hx
      · exact ⟨I, hx, h⟩
      · exact hx
  | whole ht hp => exact Spec.follows_within.mp (wlp_eval hp hw.2)
  | enter ht =>
      have hwithin := hw.2
      rw [Spec.within_eq (hu _ ht)] at hwithin
      exact (wlp_bind _).mpr hwithin

/-- Any number of steps. -/
theorem wlp_steps {whole : S.Tag → Prop} {p p' : Prog S α} {tr : Trace S}
    (h : Steps whole p tr p') {P : Spec S G} (hu : ∀ t, ¬ whole t → P.atomic t → ∀ g, P.inv g)
    {Q : α → G → Prop} {g : G} (hw : wlp P p Q g) :
    P.Follows g tr (fun g' => wlp P p' Q g') := by
  induction h with
  | refl => exact hw
  | tail _ hs ih => exact (Spec.Follows.mono (fun g' hg => wlp_step hs hu hg) ih).append

/-- **A loop invariant holds whenever the loop is back at its head.** -/
theorem wlp_iters {body : σ → Prog S (σ ⊕ β)} {s s' : σ} {tr : Trace S}
    (h : Iters body s tr s') {P : Spec S G} {g : G} (I : σ → G → Prop) (Q : β → G → Prop)
    (hI : I s g)
    (hbody : ∀ s g, I s g → wlp P (body s) (Sum.elim I Q) g) : P.Follows g tr (I s') := by
  induction h with
  | refl => exact hI
  | tail _ hs ih =>
      exact (Spec.Follows.mono (fun g' hg => wlp_eval hs (hbody _ _ hg)) ih).append

end Prog
