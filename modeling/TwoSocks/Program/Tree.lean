/-
Programs that talk to their environment.

A program is a tree: it returns a value, asks its environment one operation and
goes on with the answer, runs a loop, or runs a block that a scheduler may be told
to treat as one step.  The environment is never written down.  What a program does
is the set of traces it can produce, one event for each operation together with
the answer it got, over all answers.

`Eval` is the whole run of a program that returns, `Steps` any run at all, whether
it returns or not.  The loop constructor keeps the variables the loop carries as
data, so `Iters` can speak of the state a loop is in when it comes back to its
head, which is where loop invariants live.

`replay` follows a given trace and says what is returned at its end.  It is how a
concrete run is exhibited.
-/
import Mathlib

/-- The operations a program may ask for, what each is answered with, and the names
of the blocks a scheduler can tell apart. -/
structure Sig where
  Op : Type
  Ret : Op → Type
  Tag : Type

/-- One operation and the answer it was given. -/
structure Event (S : Sig) where
  op : S.Op
  ret : S.Ret op

/-- A trace is what the environment saw of a run, in order. -/
abbrev Trace (S : Sig) := List (Event S)

/-- A program over a signature that returns an `α`. -/
inductive Prog (S : Sig) : Type → Type 1
  /-- Return. -/
  | ret {α : Type} (a : α) : Prog S α
  /-- Ask the environment and go on with its answer. -/
  | call {α : Type} (o : S.Op) (k : S.Ret o → Prog S α) : Prog S α
  /-- Run `body` from `s` until it leaves with a `β`, then go on. -/
  | loop {σ β α : Type} (body : σ → Prog S (σ ⊕ β)) (s : σ) (k : β → Prog S α) : Prog S α
  /-- Run `p` as the block named `t`, then go on. -/
  | block {β α : Type} (t : S.Tag) (p : Prog S β) (k : β → Prog S α) : Prog S α

namespace Prog

variable {S : Sig} {α β σ : Type}

/-- Run one program after another. -/
def bind {α β : Type} : Prog S α → (α → Prog S β) → Prog S β
  | .ret a, f => f a
  | .call o k, f => .call o fun r => (k r).bind f
  | .loop body s k, f => .loop body s fun b => (k b).bind f
  | .block t p k, f => .block t p fun b => (k b).bind f

instance : Monad (Prog S) where
  pure := .ret
  bind := .bind

/-- Ask for one operation and return the answer. -/
def perform (o : S.Op) : Prog S (S.Ret o) := .call o .ret

/-- Iterate `body` from `s`; `.inl` comes back to the head, `.inr` leaves. -/
def iterate (body : σ → Prog S (σ ⊕ β)) (s : σ) : Prog S β := .loop body s .ret

/-- Run `p` as a block. -/
def atomically (t : S.Tag) (p : Prog S α) : Prog S α := .block t p .ret

@[simp] theorem pure_eq (a : α) : (pure a : Prog S α) = .ret a := rfl

@[simp] theorem bind_eq (p : Prog S α) (f : α → Prog S β) : (p >>= f) = p.bind f := rfl

@[simp] theorem ret_bind (a : α) (f : α → Prog S β) : (ret a : Prog S α).bind f = f a := rfl

/-! ### Whole runs -/

/-- `p` can perform exactly the trace `tr` and then return `a`. -/
inductive Eval : {α : Type} → Prog S α → Trace S → α → Prop
  | ret {α : Type} (a : α) : Eval (.ret a) [] a
  | call {α : Type} {o : S.Op} {k : S.Ret o → Prog S α} {r : S.Ret o} {tr : Trace S} {a : α}
      (h : Eval (k r) tr a) : Eval (.call o k) (⟨o, r⟩ :: tr) a
  | again {σ β α : Type} {body : σ → Prog S (σ ⊕ β)} {s s' : σ} {k : β → Prog S α}
      {tr tr' : Trace S} {a : α}
      (h : Eval (body s) tr (.inl s')) (h' : Eval (.loop body s' k) tr' a) :
      Eval (.loop body s k) (tr ++ tr') a
  | leave {σ β α : Type} {body : σ → Prog S (σ ⊕ β)} {s : σ} {b : β} {k : β → Prog S α}
      {tr tr' : Trace S} {a : α}
      (h : Eval (body s) tr (.inr b)) (h' : Eval (k b) tr' a) :
      Eval (.loop body s k) (tr ++ tr') a
  | block {β α : Type} {t : S.Tag} {p : Prog S β} {k : β → Prog S α}
      {tr tr' : Trace S} {b : β} {a : α}
      (h : Eval p tr b) (h' : Eval (k b) tr' a) : Eval (.block t p k) (tr ++ tr') a

/-- The loop `body` can come from the head with `s` back to the head with `s'`. -/
inductive Iters (body : σ → Prog S (σ ⊕ β)) : σ → Trace S → σ → Prop
  | refl {s : σ} : Iters body s [] s
  | tail {s s' s'' : σ} {tr tr' : Trace S} (h : Iters body s tr s')
      (h' : Eval (body s') tr' (.inl s'')) : Iters body s (tr ++ tr') s''

/-! ### Single steps

A scheduler decides which blocks it runs as a unit.  `whole t` says that block `t`
is one step; any other block is opened and its operations become steps of their
own.
-/

/-- One step of a program, with what it performed. -/
inductive Step (whole : S.Tag → Prop) : {α : Type} → Prog S α → Trace S → Prog S α → Prop
  | call {α : Type} {o : S.Op} {k : S.Ret o → Prog S α} (r : S.Ret o) :
      Step whole (.call o k) [⟨o, r⟩] (k r)
  | unfold {σ β α : Type} {body : σ → Prog S (σ ⊕ β)} {s : σ} {k : β → Prog S α} :
      Step whole (.loop body s k) []
        ((body s).bind fun x => match x with
          | .inl s' => .loop body s' k
          | .inr b => k b)
  | whole {β α : Type} {t : S.Tag} {p : Prog S β} {k : β → Prog S α} {tr : Trace S} {b : β}
      (ht : whole t) (h : Eval p tr b) : Step whole (.block t p k) tr (k b)
  | enter {β α : Type} {t : S.Tag} {p : Prog S β} {k : β → Prog S α} (ht : ¬ whole t) :
      Step whole (.block t p k) [] (p.bind k)

/-- Any number of steps. -/
inductive Steps (whole : S.Tag → Prop) : Prog S α → Trace S → Prog S α → Prop
  | refl {p : Prog S α} : Steps whole p [] p
  | tail {p p' p'' : Prog S α} {tr tr' : Trace S} (h : Steps whole p tr p')
      (h' : Step whole p' tr' p'') : Steps whole p (tr ++ tr') p''

/-- Against an environment that keeps to `rely`, no run of `p` goes on forever. -/
inductive Terminates (rely : Event S → Prop) : Prog S α → Prop
  | intro {p : Prog S α}
      (h : ∀ (whole : S.Tag → Prop) (tr : Trace S) (p' : Prog S α), Step whole p tr p' →
        (∀ e ∈ tr, rely e) → Terminates rely p') : Terminates rely p

/-- A program that has returned takes no more steps. -/
theorem terminates_ret {rely : Event S → Prop} (a : α) : Terminates rely (.ret a : Prog S α) :=
  .intro fun _ _ _ h => nomatch h

/-! ### What a program asks for -/

/-- Every operation the program may ask for is in `A`. -/
def Uses (A : S.Op → Prop) : {α : Type} → Prog S α → Prop
  | _, .ret _ => True
  | _, .call o k => A o ∧ ∀ r, Uses A (k r)
  | _, .loop body _ k => (∀ s, Uses A (body s)) ∧ ∀ b, Uses A (k b)
  | _, .block _ p k => Uses A p ∧ ∀ b, Uses A (k b)

theorem Uses.bind {A : S.Op → Prop} {α : Type} {p : Prog S α} :
    ∀ {f : α → Prog S β}, Uses A p → (∀ a, Uses A (f a)) → Uses A (p.bind f) := by
  induction p with
  | ret a => intro f _ hf; exact hf a
  | call o k ih => intro f hp hf; exact ⟨hp.1, fun r => ih r (hp.2 r) hf⟩
  | loop body s k ihb ihk => intro f hp hf; exact ⟨hp.1, fun b => ihk b (hp.2 b) hf⟩
  | block t p k ihp ihk => intro f hp hf; exact ⟨hp.1, fun b => ihk b (hp.2 b) hf⟩

theorem Uses.mono {A B : S.Op → Prop} (hAB : ∀ o, A o → B o) {α : Type} {p : Prog S α} :
    Uses A p → Uses B p := by
  induction p with
  | ret a => intro _; trivial
  | call o k ih => intro hp; exact ⟨hAB o hp.1, fun r => ih r (hp.2 r)⟩
  | loop body s k ihb ihk => intro hp; exact ⟨fun s => ihb s (hp.1 s), fun b => ihk b (hp.2 b)⟩
  | block t p k ihp ihk => intro hp; exact ⟨ihp hp.1, fun b => ihk b (hp.2 b)⟩

theorem Uses.iterate {A : S.Op → Prop} {body : σ → Prog S (σ ⊕ β)} {s : σ}
    (h : ∀ s, Uses A (body s)) : Uses A (iterate body s) := ⟨h, fun _ => trivial⟩

theorem Uses.atomically {A : S.Op → Prop} {t : S.Tag} {p : Prog S α} (h : Uses A p) :
    Uses A (atomically t p) := ⟨h, fun _ => trivial⟩

/-! ### What a program comes back with -/

/-- Whatever it is answered, the program returns nothing outside `Φ`. -/
def Returns : {α : Type} → (α → Prop) → Prog S α → Prop
  | _, Φ, .ret a => Φ a
  | _, Φ, .call _ k => ∀ r, Returns Φ (k r)
  | _, Φ, .loop body _ k => ∀ s,
      Returns (Sum.elim (fun _ => True) fun b => Returns Φ (k b)) (body s)
  | _, Φ, .block _ p k => Returns (fun b => Returns Φ (k b)) p

theorem Returns.mono {α : Type} {p : Prog S α} :
    ∀ {Φ Ψ : α → Prop}, (∀ a, Φ a → Ψ a) → Returns Φ p → Returns Ψ p := by
  induction p with
  | ret a => intro Φ Ψ h hp; exact h a hp
  | call o k ih => intro Φ Ψ h hp; exact fun r => ih r h (hp r)
  | loop body s k ihb ihk =>
      intro Φ Ψ h hp s
      refine ihb s ?_ (hp s)
      rintro (s' | b) hx
      · trivial
      · exact ihk b h hx
  | block t p k ihp ihk => intro Φ Ψ h hp; exact ihp (fun b hb => ihk b h hb) hp

theorem Returns.any {α : Type} (p : Prog S α) : Returns (fun _ => True) p := by
  induction p with
  | ret a => trivial
  | call o k ih => exact ih
  | loop body s k ihb ihk =>
      refine fun s => (ihb s).mono ?_
      rintro (s' | b) _
      · trivial
      · exact ihk b
  | block t p k ihp ihk => exact Returns.mono (p := p) (fun b _ => ihk b) ihp

theorem Returns.bind {α : Type} {p : Prog S α} :
    ∀ {Φ : α → Prop} {Ψ : β → Prop} {f : α → Prog S β}, Returns Φ p →
      (∀ a, Φ a → Returns Ψ (f a)) → Returns Ψ (p.bind f) := by
  induction p with
  | ret a => intro Φ Ψ f hp hf; exact hf a hp
  | call o k ih => intro Φ Ψ f hp hf; exact fun r => ih r (hp r) hf
  | loop body s k ihb ihk =>
      intro Φ Ψ f hp hf s
      refine (hp s).mono ?_
      rintro (s' | b) hx
      · trivial
      · exact ihk b hx hf
  | block t p k ihp ihk =>
      intro Φ Ψ f hp hf
      exact Returns.mono (p := p) (fun b hb => ihk b hb hf) hp

theorem Returns.iterate {Φ : β → Prop} {body : σ → Prog S (σ ⊕ β)} {s : σ}
    (h : ∀ s, Returns (Sum.elim (fun _ => True) Φ) (body s)) : Returns Φ (iterate body s) := h

/-! ### Following a trace -/

/-- Follow a trace from the front, as far as the program needs it; the result is
what is left of the trace and the value returned. -/
def replay [DecidableEq S.Op] : {α : Type} → Nat → Prog S α → Trace S → Option (Trace S × α)
  | _, 0, _, _ => none
  | _, _ + 1, .ret a, tr => some (tr, a)
  | _, _ + 1, .call _ _, [] => none
  | _, n + 1, .call o k, e :: tr =>
      if h : e.op = o then replay n (k (h ▸ e.ret)) tr else none
  | _, n + 1, .loop body s k, tr =>
      match replay n (body s) tr with
      | none => none
      | some (tr', .inl s') => replay n (.loop body s' k) tr'
      | some (tr', .inr b) => replay n (k b) tr'
  | _, n + 1, .block _ p k, tr =>
      match replay n p tr with
      | none => none
      | some (tr', b) => replay n (k b) tr'

theorem eval_of_replay_append [DecidableEq S.Op] (n : Nat) :
    ∀ {α : Type} (p : Prog S α) (tr rest : Trace S) (a : α),
      replay n p tr = some (rest, a) → ∃ used, tr = used ++ rest ∧ Eval p used a := by
  induction n with
  | zero => intro α p tr rest a h; simp [replay] at h
  | succ n ih =>
      intro α p tr rest a h
      cases p with
      | ret b =>
          simp only [replay, Option.some.injEq, Prod.mk.injEq] at h
          obtain ⟨rfl, rfl⟩ := h
          exact ⟨[], rfl, .ret _⟩
      | call o k =>
          cases tr with
          | nil => simp [replay] at h
          | cons e tr =>
              obtain ⟨o', r⟩ := e
              simp only [replay] at h
              split at h
              · rename_i ho
                subst ho
                obtain ⟨used, rfl, hev⟩ := ih _ _ _ _ h
                exact ⟨_ :: used, rfl, .call hev⟩
              · simp at h
      | loop body s k =>
          simp only [replay] at h
          split at h
          · simp at h
          · rename_i tr' s' hb
            obtain ⟨used, rfl, hev⟩ := ih _ _ _ _ hb
            obtain ⟨used', rfl, hev'⟩ := ih _ _ _ _ h
            exact ⟨used ++ used', by simp, .again hev hev'⟩
          · rename_i tr' b hb
            obtain ⟨used, rfl, hev⟩ := ih _ _ _ _ hb
            obtain ⟨used', rfl, hev'⟩ := ih _ _ _ _ h
            exact ⟨used ++ used', by simp, .leave hev hev'⟩
      | block t p k =>
          simp only [replay] at h
          split at h
          · simp at h
          · rename_i tr' b hb
            obtain ⟨used, rfl, hev⟩ := ih _ _ _ _ hb
            obtain ⟨used', rfl, hev'⟩ := ih _ _ _ _ h
            exact ⟨used ++ used', by simp, .block hev hev'⟩

/-- **A trace that can be followed to its end is a run.** -/
theorem eval_of_replay [DecidableEq S.Op] (n : Nat) (tr : Trace S) {p : Prog S α} {a : α}
    (h : replay n p tr = some ([], a)) : Eval p tr a := by
  obtain ⟨used, rfl, hev⟩ := eval_of_replay_append n p tr [] a h
  simpa using hev

/-! ### Runs of composed programs -/

theorem Eval.bind {p : Prog S α} {f : α → Prog S β} {tr tr' : Trace S} {a : α} {b : β}
    (h : Eval p tr a) (h' : Eval (f a) tr' b) : Eval (p.bind f) (tr ++ tr') b := by
  induction h with
  | ret a => exact h'
  | call _ ih => exact .call (ih h')
  | again hb _ _ ih => rw [List.append_assoc]; exact .again hb (ih h')
  | leave hb _ _ ih => rw [List.append_assoc]; exact .leave hb (ih h')
  | block hb _ _ ih => rw [List.append_assoc]; exact .block hb (ih h')

theorem bind_assoc {γ : Type} {α : Type} (p : Prog S α) :
    ∀ {f : α → Prog S β} {g : β → Prog S γ},
      (p.bind f).bind g = p.bind fun a => (f a).bind g := by
  induction p with
  | ret a => intro f g; rfl
  | call o k ih => intro f g; simp only [bind, ih]
  | loop body s k ihb ihk => intro f g; simp only [bind, ihk]
  | block t p k ihp ihk => intro f g; simp only [bind, ihk]

theorem Step.bind {whole : S.Tag → Prop} {p p' : Prog S α} {tr : Trace S} {f : α → Prog S β}
    (h : Step whole p tr p') : Step whole (p.bind f) tr (p'.bind f) := by
  cases h with
  | call r => exact .call r
  | @unfold σ γ _ body s k =>
      have hmatch : (fun x : σ ⊕ γ => Prog.bind (match x with
            | .inl s' => Prog.loop body s' k
            | .inr b => k b) f) = fun x => match x with
          | .inl s' => Prog.loop body s' fun b => (k b).bind f
          | .inr b => (k b).bind f := by
        funext x
        cases x <;> rfl
      rw [bind_assoc, hmatch]
      exact .unfold
  | whole ht he => exact .whole ht he
  | enter ht =>
      rw [bind_assoc]
      exact .enter ht

theorem Steps.bind {whole : S.Tag → Prop} {p p' : Prog S α} {tr : Trace S} {f : α → Prog S β}
    (h : Steps whole p tr p') : Steps whole (p.bind f) tr (p'.bind f) := by
  induction h with
  | refl => exact .refl
  | tail _ hs ih => exact .tail ih hs.bind

theorem Steps.trans {whole : S.Tag → Prop} {p p' p'' : Prog S α} {tr tr' : Trace S}
    (h : Steps whole p tr p') (h' : Steps whole p' tr' p'') :
    Steps whole p (tr ++ tr') p'' := by
  induction h' with
  | refl => simpa using h
  | tail _ hs ih => rw [← List.append_assoc]; exact .tail ih hs

theorem Steps.single {whole : S.Tag → Prop} {p p' : Prog S α} {tr : Trace S}
    (h : Step whole p tr p') : Steps whole p tr p' := Steps.tail .refl h

theorem Steps.call {whole : S.Tag → Prop} {o : S.Op} {k : S.Ret o → Prog S α} {r : S.Ret o}
    {tr : Trace S} {p : Prog S α} (h : Steps whole (k r) tr p) :
    Steps whole (.call o k) (⟨o, r⟩ :: tr) p := (Steps.single (.call r)).trans h

/-- A whole run is some steps, whichever blocks are taken whole. -/
theorem Eval.steps {whole : S.Tag → Prop} {α : Type} {p : Prog S α} {tr : Trace S} {a : α}
    (h : Eval p tr a) : Steps whole p tr (.ret a) := by
  induction h with
  | ret a => exact .refl
  | @call _ o k r tr a _ ih => exact (Steps.single (.call r)).trans ih
  | again _ _ ihb ihl => exact (Steps.single .unfold).trans (ihb.bind.trans ihl)
  | leave _ _ ihb ihk => exact (Steps.single .unfold).trans (ihb.bind.trans ihk)
  | @block _ _ t p k tr tr' b a hp _ ihp ihk =>
      by_cases ht : whole t
      · exact (Steps.single (.whole ht hp)).trans ihk
      · exact (Steps.single (.enter ht)).trans (ihp.bind.trans ihk)

theorem Iters.single {body : σ → Prog S (σ ⊕ β)} {s s' : σ} {tr : Trace S}
    (h : Eval (body s) tr (.inl s')) : Iters body s tr s' := Iters.tail .refl h

theorem Iters.head {body : σ → Prog S (σ ⊕ β)} {s s' s'' : σ} {tr tr' : Trace S}
    (h : Eval (body s) tr (.inl s')) (h' : Iters body s' tr' s'') :
    Iters body s (tr ++ tr') s'' := by
  induction h' with
  | refl => simpa using Iters.tail .refl h
  | tail _ hs ih => rw [← List.append_assoc]; exact .tail ih hs

theorem eval_ret {a b : α} {tr : Trace S} : Eval (.ret a) tr b ↔ tr = [] ∧ b = a := by
  constructor
  · intro h
    cases h
    exact ⟨rfl, rfl⟩
  · rintro ⟨rfl, rfl⟩
    exact .ret _

theorem eval_call {o : S.Op} {k : S.Ret o → Prog S α} {tr : Trace S} {a : α} :
    Eval (.call o k) tr a ↔ ∃ r tr', tr = ⟨o, r⟩ :: tr' ∧ Eval (k r) tr' a := by
  constructor
  · intro h
    cases h with
    | call h => exact ⟨_, _, rfl, h⟩
  · rintro ⟨r, tr', rfl, h⟩
    exact .call h

theorem eval_block {t : S.Tag} {p : Prog S β} {k : β → Prog S α} {tr : Trace S} {a : α} :
    Eval (.block t p k) tr a ↔
      ∃ tr₁ b tr₂, tr = tr₁ ++ tr₂ ∧ Eval p tr₁ b ∧ Eval (k b) tr₂ a := by
  constructor
  · intro h
    cases h with
    | block h h' => exact ⟨_, _, _, rfl, h, h'⟩
  · rintro ⟨tr₁, b, tr₂, rfl, h, h'⟩
    exact .block h h'

/-- A run of one operation. -/
theorem eval_perform {o : S.Op} {tr : Trace S} {r : S.Ret o} (h : Eval (perform o) tr r) :
    tr = [⟨o, r⟩] := by
  cases h with
  | call h =>
      cases h
      rfl

/-- A run of a loop is some iterations, one that leaves, and what follows. -/
theorem eval_loop {body : σ → Prog S (σ ⊕ β)} {s : σ} {k : β → Prog S α} {tr : Trace S}
    {a : α} (h : Eval (.loop body s k) tr a) :
    ∃ tr₁ s' tr₂ b tr₃, tr = tr₁ ++ tr₂ ++ tr₃ ∧ Iters body s tr₁ s' ∧
      Eval (body s') tr₂ (.inr b) ∧ Eval (k b) tr₃ a := by
  generalize hp : Prog.loop body s k = q at h
  induction h generalizing s with
  | ret a => cases hp
  | call h ih => cases hp
  | block h h' => cases hp
  | again hb hl _ ih =>
      cases hp
      obtain ⟨tr₁, s', tr₂, b, tr₃, rfl, hi, hl, hk⟩ := ih rfl
      exact ⟨_ ++ tr₁, s', tr₂, b, tr₃, by simp, hi.head hb, hl, hk⟩
  | leave hb hk =>
      cases hp
      exact ⟨[], s, _, _, _, by simp, .refl, hb, hk⟩

theorem Iters.eval {body : σ → Prog S (σ ⊕ β)} {s s' : σ} {k : β → Prog S α}
    {tr tr₂ tr₃ : Trace S} {b : β} {a : α} (h : Iters body s tr s')
    (hl : Eval (body s') tr₂ (.inr b)) (hk : Eval (k b) tr₃ a) :
    Eval (.loop body s k) (tr ++ tr₂ ++ tr₃) a := by
  suffices ∀ {tr' : Trace S}, Eval (.loop body s' k) tr' a →
      Eval (.loop body s k) (tr ++ tr') a by
    rw [List.append_assoc]
    exact this (.leave hl hk)
  clear hl
  induction h with
  | refl => intro tr' h; exact h
  | tail _ hb ih =>
      intro tr' h
      rw [List.append_assoc]
      exact ih (.again hb h)

/-- A run of a composed program is a run of its first part and one of its second. -/
theorem eval_bind {α : Type} (p : Prog S α) :
    ∀ {f : α → Prog S β} {tr : Trace S} {b : β}, Eval (p.bind f) tr b →
      ∃ tr₁ a tr₂, tr = tr₁ ++ tr₂ ∧ Eval p tr₁ a ∧ Eval (f a) tr₂ b := by
  induction p with
  | ret a => intro f tr b h; exact ⟨[], a, tr, rfl, .ret a, h⟩
  | call o k ih =>
      intro f tr b h
      cases h with
      | call h =>
          obtain ⟨tr₁, a, tr₂, rfl, h₁, h₂⟩ := ih _ h
          exact ⟨_ :: tr₁, a, tr₂, rfl, .call h₁, h₂⟩
  | loop body s k ihb ihk =>
      intro f tr b h
      obtain ⟨tr₁, s', tr₂, c, tr₃, rfl, hi, hl, hk⟩ := eval_loop h
      obtain ⟨tr₄, a, tr₅, rfl, h₁, h₂⟩ := ihk _ hk
      exact ⟨tr₁ ++ tr₂ ++ tr₄, a, tr₅, by simp, hi.eval hl h₁, h₂⟩
  | block t p k ihp ihk =>
      intro f tr b h
      cases h with
      | block h h' =>
          obtain ⟨tr₁, a, tr₂, rfl, h₁, h₂⟩ := ihk _ h'
          exact ⟨_ ++ tr₁, a, tr₂, by simp, .block h h₁, h₂⟩

/-- A run asks for nothing the program may not ask for. -/
theorem Uses.eval {A : S.Op → Prop} {α : Type} {p : Prog S α} {tr : Trace S} {a : α}
    (h : Eval p tr a) : Uses A p → ∀ e ∈ tr, A e.op := by
  induction h with
  | ret a => intro _ e he; cases he
  | call _ ih =>
      intro hp e he
      rcases List.mem_cons.mp he with rfl | he
      · exact hp.1
      · exact ih (hp.2 _) e he
  | again _ _ ihb ihl =>
      intro hp e he
      rcases List.mem_append.mp he with he | he
      · exact ihb (hp.1 _) e he
      · exact ihl hp e he
  | leave _ _ ihb ihk =>
      intro hp e he
      rcases List.mem_append.mp he with he | he
      · exact ihb (hp.1 _) e he
      · exact ihk (hp.2 _) e he
  | block _ _ ihp ihk =>
      intro hp e he
      rcases List.mem_append.mp he with he | he
      · exact ihp hp.1 e he
      · exact ihk (hp.2 _) e he

/-! ### Two runs of one program -/

/-- Two traces are the same up to an operation that is answered differently. -/
def Diverge (tr₁ tr₂ : Trace S) : Prop :=
  ∃ pre o r₁ r₂ post₁ post₂, r₁ ≠ r₂ ∧
    tr₁ = pre ++ ⟨o, r₁⟩ :: post₁ ∧ tr₂ = pre ++ ⟨o, r₂⟩ :: post₂

theorem Diverge.append {tr₁ tr₂ : Trace S} (h : Diverge tr₁ tr₂) (more₁ more₂ : Trace S) :
    Diverge (tr₁ ++ more₁) (tr₂ ++ more₂) := by
  obtain ⟨pre, o, r₁, r₂, post₁, post₂, hne, rfl, rfl⟩ := h
  exact ⟨pre, o, r₁, r₂, post₁ ++ more₁, post₂ ++ more₂, hne, by simp, by simp⟩

theorem Diverge.after {tr₁ tr₂ : Trace S} (h : Diverge tr₁ tr₂) (earlier : Trace S) :
    Diverge (earlier ++ tr₁) (earlier ++ tr₂) := by
  obtain ⟨pre, o, r₁, r₂, post₁, post₂, hne, rfl, rfl⟩ := h
  exact ⟨earlier ++ pre, o, r₁, r₂, post₁, post₂, hne, by simp, by simp⟩

/-- **What a program does is up to the answers it is given.** -/
theorem Eval.same_or_diverge {α : Type} {p : Prog S α} {tr₁ : Trace S} {a₁ : α}
    (h₁ : Eval p tr₁ a₁) : ∀ {tr₂ : Trace S} {a₂ : α}, Eval p tr₂ a₂ →
      (tr₁ = tr₂ ∧ a₁ = a₂) ∨ Diverge tr₁ tr₂ := by
  induction h₁ with
  | ret a =>
      intro tr₂ a₂ h₂
      cases h₂
      exact .inl ⟨rfl, rfl⟩
  | @call _ o k r tr a _ ih =>
      intro tr₂ a₂ h₂
      cases h₂ with
      | @call _ _ _ r' tr' _ h₂ =>
          by_cases hr : r = r'
          · subst hr
            rcases ih h₂ with ⟨rfl, rfl⟩ | hd
            · exact .inl ⟨rfl, rfl⟩
            · exact .inr (hd.after [⟨o, r⟩])
          · exact .inr ⟨[], o, r, r', tr, tr', hr, rfl, rfl⟩
  | again _ _ ihb ihl =>
      intro tr₂ a₂ h₂
      cases h₂ with
      | again hb₂ hl₂ =>
          rcases ihb hb₂ with ⟨rfl, hs⟩ | hd
          · cases hs
            rcases ihl hl₂ with ⟨rfl, rfl⟩ | hd
            · exact .inl ⟨rfl, rfl⟩
            · exact .inr (hd.after _)
          · exact .inr (hd.append _ _)
      | leave hb₂ hk₂ =>
          rcases ihb hb₂ with ⟨-, hs⟩ | hd
          · cases hs
          · exact .inr (hd.append _ _)
  | leave _ _ ihb ihk =>
      intro tr₂ a₂ h₂
      cases h₂ with
      | again hb₂ hl₂ =>
          rcases ihb hb₂ with ⟨-, hs⟩ | hd
          · cases hs
          · exact .inr (hd.append _ _)
      | leave hb₂ hk₂ =>
          rcases ihb hb₂ with ⟨rfl, hs⟩ | hd
          · cases hs
            rcases ihk hk₂ with ⟨rfl, rfl⟩ | hd
            · exact .inl ⟨rfl, rfl⟩
            · exact .inr (hd.after _)
          · exact .inr (hd.append _ _)
  | block _ _ ihp ihk =>
      intro tr₂ a₂ h₂
      cases h₂ with
      | block hp₂ hk₂ =>
          rcases ihp hp₂ with ⟨rfl, rfl⟩ | hd
          · rcases ihk hk₂ with ⟨rfl, rfl⟩ | hd
            · exact .inl ⟨rfl, rfl⟩
            · exact .inr (hd.after _)
          · exact .inr (hd.append _ _)

end Prog
