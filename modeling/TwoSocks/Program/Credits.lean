/-
Programs that pay for what they do.

Every operation costs one, and its answer may bring something in, which is `gain`.  A program that
can always pay has done no more than what it began with and what came in allow.  `Spec.paying` asks
for that; its ghost state is what is left, so a precondition in it may save for later.

Where the answers do not matter, because there is no loop, `Within` is enough: it counts the
operations that a program can come to.
-/
import TwoSocks.Program.Spec

namespace Spec

variable {S : Sig}

/-- The spec of a program that pays for each operation. -/
def paying (rely : Event S → Prop) (gain : Event S → Nat) : Spec S Nat where
  rely _ o r := rely ⟨o, r⟩
  guar c _ := 0 < c
  next c o r := c - 1 + gain ⟨o, r⟩

variable {rely : Event S → Prop} {gain : Event S → Nat}

@[simp] theorem paying_rely {c : Nat} {o : S.Op} {r : S.Ret o} :
    (paying rely gain).rely c o r = rely ⟨o, r⟩ := rfl
@[simp] theorem paying_guar {c : Nat} {o : S.Op} :
    (paying rely gain).guar c o = (0 < c) := rfl
@[simp] theorem paying_next {c : Nat} {o : S.Op} {r : S.Ret o} :
    (paying rely gain).next c o r = c - 1 + gain ⟨o, r⟩ := rfl
@[simp] theorem paying_inv {c : Nat} : (paying rely gain).inv c = True := rfl

theorem paying_legal {tr : Trace S} (h : ∀ e ∈ tr, rely e) :
    ∀ {c : Nat}, (paying rely gain).Legal c tr := by
  induction tr with
  | nil => intro c; trivial
  | cons e tr ih =>
      intro c
      exact ⟨h e List.mem_cons_self, ih fun e he => h e (List.mem_cons_of_mem _ he)⟩

/-- **What was done was paid for.** -/
theorem paying_length {tr : Trace S} : ∀ {c : Nat}, (paying rely gain).Guaranteed c tr →
    tr.length ≤ c + (tr.map gain).sum := by
  induction tr with
  | nil => intro c _; exact Nat.zero_le _
  | cons e tr ih =>
      intro c h
      have hpaid : 0 < c := h.1
      have hrest : tr.length ≤ c - 1 + gain e + (tr.map gain).sum := ih h.2
      rw [List.length_cons, List.map_cons, List.sum_cons]
      omega

end Spec

namespace Prog

variable {S : Sig} {α β : Type}

/-- The program has no loop, and comes to at most `n` operations. -/
def Within : Nat → {α : Type} → Prog S α → Prop
  | _, _, .ret _ => True
  | n, _, .call _ k => 0 < n ∧ ∀ r, Within (n - 1) (k r)
  | _, _, .loop _ _ _ => False
  | n, _, .block _ p k => ∃ m, m ≤ n ∧ Within m p ∧ ∀ b, Within (n - m) (k b)

theorem Within.mono {α : Type} {p : Prog S α} : ∀ {m n : Nat}, Within m p → m ≤ n → Within n p := by
  induction p with
  | ret a => intro m n _ _; trivial
  | call o k ih =>
      intro m n h hle
      exact ⟨lt_of_lt_of_le h.1 hle, fun r => ih r (h.2 r) (Nat.sub_le_sub_right hle 1)⟩
  | loop body s k ihb ihk => intro m n h _; exact h.elim
  | block t p k ihp ihk =>
      intro m n h hle
      obtain ⟨m', hm', hp, hk⟩ := h
      exact ⟨m', hm'.trans hle, hp, fun b => ihk b (hk b) (Nat.sub_le_sub_right hle m')⟩

theorem Within.bind {α : Type} {p : Prog S α} : ∀ {m : Nat}, Within m p →
    ∀ {f : α → Prog S β} {n : Nat}, (∀ a, Within n (f a)) → Within (n + m) (p.bind f) := by
  induction p with
  | ret a => intro m _ f n hf; exact (hf a).mono (Nat.le_add_right _ _)
  | call o k ih =>
      intro m h f n hf
      refine ⟨Nat.add_pos_right n h.1, fun r => ?_⟩
      rw [Nat.add_sub_assoc h.1]
      exact ih r (h.2 r) hf
  | loop body s k ihb ihk => intro m h; exact h.elim
  | block t p k ihp ihk =>
      intro m h f n hf
      obtain ⟨m', hm', hp, hk⟩ := h
      refine ⟨m', hm'.trans (Nat.le_add_left _ _), hp, fun b => ?_⟩
      rw [Nat.add_sub_assoc hm']
      exact ihk b (hk b) hf

theorem Within.perform (o : S.Op) : Within 1 (perform o) := ⟨Nat.one_pos, fun _ => trivial⟩

theorem Within.atomically {p : Prog S α} {t : S.Tag} {n : Nat} (h : Within n p) :
    Within n (atomically t p) := ⟨n, le_rfl, h, fun _ => trivial⟩

variable {rely : Event S → Prop} {gain : Event S → Nat}

/-- A program costs no more than the operations it comes to. -/
theorem Within.leaves {α : Type} {p : Prog S α} : ∀ {n k c : Nat}, Within n p → k + n ≤ c →
    wlp (.paying rely gain) p (fun _ c' => k ≤ c') c := by
  induction p with
  | ret a => intro n k c _ hle; exact ⟨trivial, (Nat.le_add_right k n).trans hle⟩
  | call o k ih =>
      intro n k c h hle
      have hpos := h.1
      have hpaid : 0 < c := by omega
      refine ⟨trivial, hpaid, fun r _ => ?_⟩
      have hle' : k + (n - 1) ≤ c - 1 + gain ⟨o, r⟩ := by omega
      exact ih r (h.2 r) hle'
  | loop body s k ihb ihk => intro n k c h _; exact h.elim
  | block t p k ihp ihk =>
      intro n j c h hle
      obtain ⟨m, hm, hp, hk⟩ := h
      have hopen : (Spec.paying rely gain).within t = .paying rely gain :=
        Spec.within_eq fun _ _ => trivial
      have hle' : (j + (n - m)) + m ≤ c := by omega
      refine ⟨trivial, ?_⟩
      rw [hopen]
      exact wlp_mono _ (fun b _ hc' => ihk b (hk b) hc') (ihp hp hle')

end Prog
