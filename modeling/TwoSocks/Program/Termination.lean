/-
When a program comes to an end.

`Terminates` looks at single steps, because blocks may be taken whole or opened.  What is
proved of a program looks at its parts: a program without loops terminates, a composed
program does if its parts do, and a loop does if its body does and so does everything the
body may come back with.  In each case the second part only has to terminate for what the
first can really return, which is where `Eval` comes in.
-/
import TwoSocks.Program.Tree

namespace Prog

variable {S : Sig} {α β σ : Type} {rely : Event S → Prop}

/-- A step and a whole run from where it leads are a whole run. -/
theorem Step.eval {whole : S.Tag → Prop} {p p' : Prog S α} {tr tr' : Trace S} {a : α}
    (h : Step whole p tr p') (h' : Eval p' tr' a) : Eval p (tr ++ tr') a := by
  cases h with
  | call r => exact .call h'
  | unfold =>
      obtain ⟨tr₁, x, tr₂, rfl, hb, hk⟩ := eval_bind _ h'
      rw [List.nil_append]
      cases x with
      | inl s' => exact .again hb hk
      | inr b => exact .leave hb hk
  | whole ht he => exact .block he h'
  | enter ht =>
      obtain ⟨tr₁, b, tr₂, rfl, hp, hk⟩ := eval_bind _ h'
      rw [List.nil_append]
      exact .block hp hk

/-- Until the first part of a composed program has returned, its steps are the first
part's. -/
theorem Step.of_bind {whole : S.Tag → Prop} {p : Prog S α} {f : α → Prog S β} {q : Prog S β}
    {tr : Trace S} (hp : ∀ a, p ≠ .ret a) (h : Step whole (p.bind f) tr q) :
    ∃ p', Step whole p tr p' ∧ q = p'.bind f := by
  cases p with
  | ret a => exact absurd rfl (hp a)
  | call o k =>
      cases h with
      | call r => exact ⟨_, .call r, rfl⟩
  | loop body s k =>
      cases h with
      | unfold =>
          refine ⟨_, .unfold, ?_⟩
          rw [bind_assoc]
          congr 1
          funext x
          cases x <;> rfl
  | block t p k =>
      cases h with
      | whole ht he => exact ⟨_, .whole ht he, rfl⟩
      | enter ht => exact ⟨_, .enter ht, (bind_assoc _).symm⟩

/-- A composed program terminates if both parts do. -/
theorem Terminates.bind {p : Prog S α} {f : α → Prog S β} (hp : Terminates rely p) :
    (∀ tr a, Eval p tr a → (∀ e ∈ tr, rely e) → Terminates rely (f a)) →
      Terminates rely (p.bind f) := by
  induction hp with
  | @intro p hp ih =>
      intro hf
      by_cases hret : ∃ a, p = .ret a
      · obtain ⟨a, rfl⟩ := hret
        exact hf [] a (.ret a) (by simp)
      · refine .intro fun whole tr q hstep hrely => ?_
        obtain ⟨p', hp', rfl⟩ := hstep.of_bind fun a ha => hret ⟨a, ha⟩
        refine ih whole tr p' hp' hrely fun tr' a ha hrely' => ?_
        refine hf (tr ++ tr') a (hp'.eval ha) fun e he => ?_
        rcases List.mem_append.mp he with he | he
        · exact hrely e he
        · exact hrely' e he

/-- A loop terminates if its body does, and the loop from wherever the body comes back
to the head with, and what follows once the body leaves. -/
theorem Terminates.loop {body : σ → Prog S (σ ⊕ β)} {s : σ} {k : β → Prog S α}
    (hbody : Terminates rely (body s))
    (hinl : ∀ tr s', Eval (body s) tr (.inl s') → (∀ e ∈ tr, rely e) →
      Terminates rely (.loop body s' k))
    (hinr : ∀ tr b, Eval (body s) tr (.inr b) → (∀ e ∈ tr, rely e) → Terminates rely (k b)) :
    Terminates rely (.loop body s k) := by
  refine .intro fun whole tr q hstep _ => ?_
  cases hstep with
  | unfold =>
      refine hbody.bind fun tr x hx hrely => ?_
      cases x with
      | inl s' => exact hinl tr s' hx hrely
      | inr b => exact hinr tr b hx hrely

/-! ### Without loops -/

/-- The program runs no loop. -/
def Straight : {α : Type} → Prog S α → Prop
  | _, .ret _ => True
  | _, .call _ k => ∀ r, Straight (k r)
  | _, .loop _ _ _ => False
  | _, .block _ p k => Straight p ∧ ∀ b, Straight (k b)

theorem Straight.bind {α : Type} {p : Prog S α} :
    ∀ {f : α → Prog S β}, Straight p → (∀ a, Straight (f a)) → Straight (p.bind f) := by
  induction p with
  | ret a => intro f _ hf; exact hf a
  | call o k ih => intro f hp hf; exact fun r => ih r (hp r) hf
  | loop body s k ihb ihk => intro f hp hf; exact absurd hp id
  | block t p k ihp ihk => intro f hp hf; exact ⟨hp.1, fun b => ihk b (hp.2 b) hf⟩

/-- **A program without loops terminates.** -/
theorem Straight.terminates {α : Type} {p : Prog S α} : Straight p → Terminates rely p := by
  induction p with
  | ret a => exact fun _ => terminates_ret a
  | call o k ih =>
      refine fun hp => .intro fun whole tr q hstep _ => ?_
      cases hstep with
      | call r => exact ih r (hp r)
  | loop body s k ihb ihk => exact fun hp => absurd hp id
  | block t p k ihp ihk =>
      refine fun hp => .intro fun whole tr q hstep _ => ?_
      cases hstep with
      | whole ht he => exact ihk _ (hp.2 _)
      | enter ht => exact (ihp hp.1).bind fun tr b _ _ => ihk b (hp.2 b)

end Prog
