/-
What one view model shows of the bytes that were counted.

A poll reads both counters.  What they grew by goes into what is pending, and what is pending goes
to the session's totals and the lifetime's together, some seconds after the first of it came in.
So the session's total and what is pending are everything that was counted, whichever poll it came
in with, and nothing is in both.

`counted` is the sum of what every poll found new; a reading below the one before is taken for a
counter that has started again.  The clock is whatever it is, it may go back.  `Deadline` says from
the polls alone which one the pending bytes wait for: three seconds after the first poll that left
something unpublished, and has not been made up for since.

Swift traps when a sum overflows, and then there is no state to speak of.  `polls_isSome` is that
it does not as long as the lifetime's total would not.
-/
import TwoSocks.Proofs.TransferTotals

namespace TwoSocks

/-- What `applyTransferTotals` is called with, and when. -/
structure Poll where
  now : Date
  totals : Totals

namespace TransferVM

/-- A view model polls, from its creation on. -/
def polls (defaults : UserDefaults) (ps : List Poll) : Option (TransferVM × UserDefaults) :=
  ps.foldlM (fun s p => s.1.applyTransferTotals s.2 p.now p.totals) (load defaults, defaults)

/-! ### What is counted -/

/-- What readings add up to, coming after a reading of `before`. -/
def increases : UInt64 → List UInt64 → Nat
  | _, [] => 0
  | before, r :: rs => increase before r + increases r rs

/-- The readings of one counter. -/
def readings (d : Direction) (ps : List Poll) : List UInt64 := ps.map fun p => p.totals d

/-- What the polls found new in one direction. -/
def counted (d : Direction) (ps : List Poll) : Nat := increases 0 (readings d ps)

theorem increases_append (rs : List UInt64) (r : UInt64) : ∀ before,
    increases before (rs ++ [r]) = increases before rs + increase (rs.getLastD before) r := by
  induction rs with
  | nil => intro before; exact Nat.add_comm ..
  | cons r' rs ih =>
      intro before
      show increase before r' + increases r' (rs ++ [r]) = _
      rw [ih, List.getLastD_cons, ← Nat.add_assoc]
      rfl

/-- A counter that never goes down has counted what it stands at. -/
theorem increases_of_sorted (rs : List UInt64) : ∀ {before : UInt64},
    (before :: rs).Pairwise (· ≤ ·) →
      before.toNat + increases before rs = (rs.getLastD before).toNat := by
  induction rs with
  | nil => intro before _; rfl
  | cons r rs ih =>
      intro before h
      obtain ⟨hbefore, hrs⟩ := List.pairwise_cons.mp h
      have hgrown := increase_of_le (hbefore r (List.mem_cons_self ..))
      have hlater := ih hrs
      rw [List.getLastD_cons]
      show before.toNat + (increase before r + increases r rs) = _
      omega

section Counted

variable {d : Direction} {ps : List Poll} {p : Poll}

theorem counted_append : counted d (ps ++ [p]) =
    counted d ps + increase ((readings d ps).getLastD 0) (p.totals d) := by
  unfold counted readings
  rw [List.map_append, List.map_singleton, increases_append]

theorem counted_mono (d : Direction) (ps : List Poll) (p : Poll) :
    counted d ps ≤ counted d (ps ++ [p]) := by
  rw [counted_append]
  exact Nat.le_add_right ..

theorem counted_of_sorted (h : (readings d ps).Pairwise (· ≤ ·)) :
    counted d ps = ((readings d ps).getLastD 0).toNat := by
  have hzero := increases_of_sorted (readings d ps)
    (List.pairwise_cons.mpr ⟨fun _ _ => UInt64.zero_le, h⟩)
  exact (Nat.zero_add _).symm.trans hzero

end Counted

/-! ### One poll -/

/-- The books of a view model, after polls that found `total` new. -/
structure Balanced (loaded : Totals) (total : Direction → Nat) (vm : TransferVM) : Prop where
  sum : ∀ d, (vm.sessionBytes d).toNat + (vm.pendingBytes d).toNat = total d
  lifetime : ∀ d, (vm.lifetimeBytes d).toNat = (loaded d).toNat + (vm.sessionBytes d).toNat
  waiting : vm.nextTransferPublishAt ≠ none ↔ ∃ d, 0 < (vm.pendingBytes d).toNat

theorem load_balanced (defaults : UserDefaults) :
    Balanced defaults.lifetime (fun _ => 0) (load defaults) where
  sum _ := rfl
  lifetime _ := rfl
  waiting := by simp [load]

section Poll

variable {loaded : Totals} {total : Direction → Nat} {vm vm' : TransferVM}
  {stored stored' : UserDefaults} {now : Date} {totals : Totals}

/-- The deadline after the first half of a poll: the one there is, or a new one if something is
new. -/
theorem holdBack_deadline (h : vm.holdBack now totals = some vm') :
    ((∃ d, 0 < increase (vm.lastNativeBytes d) (totals d)) → vm'.nextTransferPublishAt =
      some (vm.nextTransferPublishAt.getD (now + transferPublishInterval))) ∧
    ((¬ ∃ d, 0 < increase (vm.lastNativeBytes d) (totals d)) →
      vm'.nextTransferPublishAt = vm.nextTransferPublishAt) := by
  have hnew : (∃ d, 0 < vm.delta totals d) ↔
      ∃ d, 0 < increase (vm.lastNativeBytes d) (totals d) := exists_congr fun d => delta_pos
  unfold holdBack at h
  rw [← hnew]
  split at h
  · rename_i hsome
    obtain ⟨pendingBytes, _, h⟩ := Option.bind_eq_some_iff.mp h
    obtain rfl := Option.some.inj h
    exact ⟨fun _ => rfl, fun hnone => absurd hsome hnone⟩
  · rename_i hnone
    obtain rfl := Option.some.inj h
    exact ⟨fun hsome => absurd hsome hnone, fun _ => rfl⟩

/-- Holding back keeps the books. -/
theorem Balanced.holdBack (hvm : vm.Balanced loaded total) (h : vm.holdBack now totals = some vm') :
    vm'.Balanced loaded
      fun d => total d + increase (vm.lastNativeBytes d) (totals d) := by
  obtain ⟨hsession, hlifetime, hlast, hpending⟩ := holdBack_spec h
  obtain ⟨hdeadline, hsame⟩ := holdBack_deadline h
  refine ⟨fun d => ?_, fun d => ?_, ?_⟩
  · have := hvm.sum d
    have := hpending d
    rw [hsession]
    omega
  · rw [hlifetime, hsession]
    exact hvm.lifetime d
  · by_cases hnew : ∃ d, 0 < increase (vm.lastNativeBytes d) (totals d)
    · rw [hdeadline hnew]
      obtain ⟨d, hd⟩ := hnew
      have := hpending d
      exact iff_of_true (Option.some_ne_none _) ⟨d, by omega⟩
    · rw [hsame hnew, hvm.waiting]
      refine exists_congr fun d => ?_
      have := hpending d
      have : ¬ 0 < increase (vm.lastNativeBytes d) (totals d) := fun hd => hnew ⟨d, hd⟩
      omega

/-- Something is due when its deadline has come. -/
theorem Balanced.due_iff (hvm : vm.Balanced loaded total) :
    vm.due now ↔ ∃ t ∈ vm.nextTransferPublishAt, t ≤ now := by
  have hwaiting := hvm.waiting
  unfold due
  cases hnext : vm.nextTransferPublishAt with
  | none => simp
  | some t =>
      rw [hnext] at hwaiting
      obtain ⟨d, hd⟩ := hwaiting.mp (Option.some_ne_none _)
      have hpending : ∃ d, 0 < vm.pendingBytes d := ⟨d, UInt64.lt_iff_toNat_lt.mpr hd⟩
      simp [hpending]

/-- A deadline set by a poll has not come with it. -/
theorem holdBack_due_iff (h : vm.holdBack now totals = some vm') :
    (∃ t ∈ vm'.nextTransferPublishAt, t ≤ now) ↔ ∃ t ∈ vm.nextTransferPublishAt, t ≤ now := by
  obtain ⟨hdeadline, hsame⟩ := holdBack_deadline h
  by_cases hnew : ∃ d, 0 < increase (vm.lastNativeBytes d) (totals d)
  · rw [hdeadline hnew]
    cases vm.nextTransferPublishAt with
    | none =>
        refine iff_of_false ?_ (by simp)
        rintro ⟨t, ht, hle⟩
        obtain rfl := Option.some.inj ht
        simp only [Option.getD_none, transferPublishInterval] at hle
        linarith
    | some t => rfl
  · rw [hsame hnew]

/-- **One poll.**  If the deadline has come, everything pending goes to the totals of both
directions and the lifetime's are stored.  Otherwise the totals stay as they are. -/
theorem Balanced.poll (hvm : vm.Balanced loaded total)
    (h : vm.applyTransferTotals stored now totals = some (vm', stored')) :
    vm'.Balanced loaded (fun d => total d + increase (vm.lastNativeBytes d) (totals d)) ∧
      vm'.lastNativeBytes = totals ∧
      ((∃ t ∈ vm.nextTransferPublishAt, t ≤ now) ∧ (∀ d, vm'.pendingBytes d = 0) ∧
          vm'.nextTransferPublishAt = none ∧ (∀ d, stored'.lifetime d = vm'.lifetimeBytes d) ∨
        (¬ ∃ t ∈ vm.nextTransferPublishAt, t ≤ now) ∧ stored' = stored ∧
          vm'.sessionBytes = vm.sessionBytes ∧ vm'.lifetimeBytes = vm.lifetimeBytes ∧
          ∃ held, vm.holdBack now totals = some held ∧
            vm'.nextTransferPublishAt = held.nextTransferPublishAt) := by
  obtain ⟨held, hheld, h⟩ := Option.bind_eq_some_iff.mp h
  have hbooks := hvm.holdBack hheld
  obtain ⟨hsession, hlifetime, hlast, -⟩ := holdBack_spec hheld
  have hdue := hbooks.due_iff.trans (holdBack_due_iff hheld)
  split at h
  · rename_i hnow
    obtain ⟨hlast', hnone, hcommit⟩ := commit_spec h (due_pending hnow)
    refine ⟨⟨fun d => ?_, fun d => ?_, ?_⟩, hlast'.trans hlast,
      .inl ⟨hdue.mp hnow, fun d => (hcommit d).2.2.1, hnone, fun d => (hcommit d).2.2.2⟩⟩
    · obtain ⟨hsession', -, hpending', -⟩ := hcommit d
      rw [hpending', hsession']
      exact hbooks.sum d
    · obtain ⟨hsession', hlifetime', -, -⟩ := hcommit d
      have := hbooks.lifetime d
      omega
    · rw [hnone]
      refine iff_of_false (fun hne => hne rfl) ?_
      rintro ⟨d, hd⟩
      rw [(hcommit d).2.2.1] at hd
      exact absurd hd (by decide)
  · rename_i hnow
    obtain ⟨rfl, rfl⟩ := Prod.mk.inj (Option.some.inj h)
    exact ⟨hbooks, hlast, .inr ⟨mt hdue.mpr hnow, rfl, hsession, hlifetime, _, hheld, rfl⟩⟩

end Poll

/-! ### All polls -/

section Polls

variable {defaults : UserDefaults} {ps : List Poll} {vm vm' : TransferVM}
  {stored stored' : UserDefaults}

theorem polls_append {p : Poll} : polls defaults (ps ++ [p]) =
    (polls defaults ps).bind fun s => s.1.applyTransferTotals s.2 p.now p.totals := by
  unfold polls
  simp only [List.foldlM_append, List.foldlM_cons, List.foldlM_nil, bind_pure]
  rfl

/-- The books are kept from the creation of the view model on. -/
theorem polls_balanced (h : polls defaults ps = some (vm, stored)) :
    vm.Balanced defaults.lifetime (fun d => counted d ps) ∧
      ∀ d, vm.lastNativeBytes d = (readings d ps).getLastD 0 := by
  induction ps using List.reverseRecOn generalizing vm stored with
  | nil =>
      obtain ⟨rfl, rfl⟩ := Prod.mk.inj (Option.some.inj h)
      exact ⟨load_balanced defaults, fun d => rfl⟩
  | append_singleton ps p ih =>
      rw [polls_append] at h
      obtain ⟨⟨earlier, stored'⟩, hearlier, hpoll⟩ := Option.bind_eq_some_iff.mp h
      obtain ⟨hbooks, hlast⟩ := ih hearlier
      obtain ⟨hbooks', hlast', -⟩ := hbooks.poll hpoll
      refine ⟨?_, fun d => ?_⟩
      · have htotal : (fun d => counted d (ps ++ [p])) =
            fun d => counted d ps + increase (earlier.lastNativeBytes d) (p.totals d) := by
          funext d
          rw [counted_append, hlast]
        rw [htotal]
        exact hbooks'
      · rw [hlast']
        unfold readings
        rw [List.map_append, List.map_singleton]
        exact (List.getLastD_concat ..).symm

/-- A sum that fits is computed. -/
theorem adding_fits {totals more : Totals}
    (h : ∀ d, (totals d).toNat + (more d).toNat < 2 ^ 64) :
    ∃ sum, totals.adding more = some sum := ⟨_, if_pos h⟩

theorem holdBack_fits (now : Date) {totals : Totals} (h : ∀ d,
    (vm.pendingBytes d).toNat + increase (vm.lastNativeBytes d) (totals d) < 2 ^ 64) :
    ∃ held, vm.holdBack now totals = some held := by
  simp only [← delta_toNat] at h
  obtain ⟨sum, hsum⟩ := adding_fits h
  unfold holdBack
  rw [hsum]
  split
  · exact ⟨_, rfl⟩
  · exact ⟨_, rfl⟩

theorem commit_fits (hsession : ∀ d, (vm.sessionBytes d).toNat + (vm.pendingBytes d).toNat < 2 ^ 64)
    (hlifetime : ∀ d, (vm.lifetimeBytes d).toNat + (vm.pendingBytes d).toNat < 2 ^ 64) :
    ∃ s, vm.commitPendingTransferTotalsIfNeeded stored = some s := by
  obtain ⟨session, hs⟩ := adding_fits hsession
  obtain ⟨lifetime, hl⟩ := adding_fits hlifetime
  unfold commitPendingTransferTotalsIfNeeded
  rw [hs, hl]
  split
  · exact ⟨_, rfl⟩
  · exact ⟨_, rfl⟩

/-- **No poll traps while the lifetime's totals and all that is counted fit together.** -/
theorem polls_fit (h : ∀ d, (defaults.lifetime d).toNat + counted d ps < 2 ^ 64) :
    ∃ s, polls defaults ps = some s := by
  induction ps using List.reverseRecOn with
  | nil => exact ⟨_, rfl⟩
  | append_singleton ps p ih =>
      obtain ⟨⟨vm, stored⟩, hrun⟩ := ih fun d => Nat.lt_of_le_of_lt
        (Nat.add_le_add_left (counted_mono d ps p) _) (h d)
      obtain ⟨hbooks, hlast⟩ := polls_balanced hrun
      have htotal : ∀ d, counted d (ps ++ [p]) =
          counted d ps + increase (vm.lastNativeBytes d) (p.totals d) := by
        intro d
        rw [counted_append, hlast]
      have hpending : ∀ d,
          (vm.pendingBytes d).toNat + increase (vm.lastNativeBytes d) (p.totals d) < 2 ^ 64 := by
        intro d
        have := h d
        have := htotal d
        have := hbooks.sum d
        omega
      obtain ⟨held, hheld⟩ := holdBack_fits p.now hpending
      have hbooks' := hbooks.holdBack hheld
      rw [polls_append, hrun]
      show ∃ s, Option.bind (vm.holdBack p.now p.totals) _ = some s
      rw [hheld]
      show ∃ s, (if held.due p.now then _ else _) = some s
      split
      · refine commit_fits (fun d => ?_) fun d => ?_
        all_goals
          have := h d
          have := htotal d
          have := hbooks'.sum d
          have := hbooks'.lifetime d
          omega
      · exact ⟨_, rfl⟩

end Polls

/-! ### The deadline -/

/-- Some of what was counted is not in the session's totals. -/
def Unpublished (defaults : UserDefaults) (ps : List Poll) : Prop :=
  ∃ s ∈ polls defaults ps, ∃ d, (s.1.sessionBytes d).toNat < counted d ps

/-- What is unpublished is due at `t`: an interval after the first poll since which something has
been. -/
def Deadline (defaults : UserDefaults) (ps : List Poll) (t : Date) : Prop :=
  ∃ earlier p later, ps = earlier ++ p :: later ∧ ¬ Unpublished defaults earlier ∧
    (∀ ls, ls <+: later → Unpublished defaults (earlier ++ p :: ls)) ∧
    t = p.now + transferPublishInterval

section Deadline

variable {defaults : UserDefaults} {ps : List Poll} {p : Poll} {t : Date} {vm vm' : TransferVM}
  {stored stored' : UserDefaults}

/-- Which is so as long as there is a deadline. -/
theorem unpublished_iff (h : polls defaults ps = some (vm, stored)) :
    Unpublished defaults ps ↔ vm.nextTransferPublishAt ≠ none := by
  obtain ⟨hbooks, -⟩ := polls_balanced h
  have hpending : ∀ d,
      (vm.sessionBytes d).toNat < counted d ps ↔ 0 < (vm.pendingBytes d).toNat := by
    intro d
    have := hbooks.sum d
    omega
  rw [hbooks.waiting, ← exists_congr hpending]
  unfold Unpublished
  simp [h]

/-- How a deadline comes about and how it stays. -/
theorem deadline_append : Deadline defaults (ps ++ [p]) t ↔ Unpublished defaults (ps ++ [p]) ∧
    (¬ Unpublished defaults ps ∧ t = p.now + transferPublishInterval ∨
      Unpublished defaults ps ∧ Deadline defaults ps t) := by
  constructor
  · rintro ⟨earlier, q, later, heq, hearlier, hlater, rfl⟩
    refine ⟨heq ▸ hlater later (List.prefix_refl _), ?_⟩
    rcases List.eq_nil_or_concat later with rfl | ⟨ls, p', rfl⟩
    · obtain ⟨rfl, hlast⟩ := List.append_inj' heq rfl
      obtain rfl := List.singleton_inj.mp hlast
      exact .inl ⟨hearlier, rfl⟩
    · rw [List.concat_eq_append] at heq hlater
      rw [← List.cons_append, ← List.append_assoc] at heq
      obtain ⟨rfl, -⟩ := List.append_inj' heq rfl
      refine .inr ⟨hlater ls (List.prefix_append ..), earlier, q, ls, rfl, hearlier, ?_, rfl⟩
      exact fun ls' hls => hlater ls' (hls.trans (List.prefix_append ..))
  · rintro ⟨hnow, ⟨hearlier, rfl⟩ | ⟨-, earlier, q, later, rfl, hearlier, hlater, rfl⟩⟩
    · refine ⟨ps, p, [], rfl, hearlier, fun ls hls => ?_, rfl⟩
      rw [List.prefix_nil.mp hls]
      exact hnow
    · refine ⟨earlier, q, later ++ [p], by simp, hearlier, fun ls hls => ?_, rfl⟩
      rcases List.prefix_concat_iff.mp hls with rfl | hls
      · simpa using hnow
      · exact hlater ls hls

/-- **The deadline a view model has is the one the polls say.** -/
theorem deadline_iff (h : polls defaults ps = some (vm, stored)) :
    vm.nextTransferPublishAt = some t ↔ Deadline defaults ps t := by
  induction ps using List.reverseRecOn generalizing vm stored with
  | nil =>
      obtain ⟨rfl, rfl⟩ := Prod.mk.inj (Option.some.inj h)
      refine iff_of_false (fun hnone => nomatch hnone) ?_
      rintro ⟨earlier, p, later, heq, -⟩
      simp at heq
  | append_singleton ps p ih =>
      have hnow := unpublished_iff h
      rw [polls_append] at h
      obtain ⟨⟨vm₀, stored₀⟩, hearlier, hpoll⟩ := Option.bind_eq_some_iff.mp h
      have hbefore := unpublished_iff hearlier
      have ih := ih hearlier
      rw [deadline_append, hnow, hbefore, ← ih]
      obtain ⟨-, -, ⟨-, -, hnone, -⟩ | ⟨-, -, -, -, held, hheld, hnext⟩⟩ :=
        (polls_balanced hearlier).1.poll hpoll
      · rw [hnone]
        simp
      · obtain ⟨hdeadline, hsame⟩ := holdBack_deadline hheld
        by_cases hnew : ∃ d, 0 < increase (vm₀.lastNativeBytes d) (p.totals d)
        · rw [hnext, hdeadline hnew]
          cases vm₀.nextTransferPublishAt with
          | none => simp [eq_comm]
          | some t₀ => simp
        · rw [hnext, hsame hnew]
          cases vm₀.nextTransferPublishAt with
          | none => simp
          | some t₀ => simp

end Deadline

end TransferVM

/-! ### The result -/

open TransferVM

/-- What the polls leave. -/
structure SessionAccounts (defaults : UserDefaults) (ps : List Poll) (vm : TransferVM) : Prop where
  /-- Everything counted is in the session's total or pending. -/
  sum : ∀ d, (vm.sessionBytes d).toNat + (vm.pendingBytes d).toNat = counted d ps
  /-- That is the latest reading if the readings never went down. -/
  latest : ∀ d, (readings d ps).Pairwise (· ≤ ·) →
    (vm.sessionBytes d).toNat + (vm.pendingBytes d).toNat = ((readings d ps).getLastD 0).toNat
  /-- The lifetime's total is what was loaded and the session's. -/
  lifetime : ∀ d, (vm.lifetimeBytes d).toNat =
    (defaults.lifetime d).toNat + (vm.sessionBytes d).toNat
  /-- There is a deadline for what is pending, and none otherwise. -/
  waiting : vm.nextTransferPublishAt ≠ none ↔ ∃ d, vm.pendingBytes d ≠ 0

/-- What one more poll does. -/
structure PollAccounts (defaults : UserDefaults) (ps : List Poll) (p : Poll) (vm vm' : TransferVM)
    (stored stored' : UserDefaults) : Prop where
  /-- No total goes down. -/
  grows : ∀ d, vm.sessionBytes d ≤ vm'.sessionBytes d ∧ vm.lifetimeBytes d ≤ vm'.lifetimeBytes d
  /-- At or past the deadline everything goes to the totals, in both directions, and is stored. -/
  commits : (∃ t, Deadline defaults ps t ∧ t ≤ p.now) → ∀ d,
    (vm'.sessionBytes d).toNat = counted d (ps ++ [p]) ∧ vm'.pendingBytes d = 0 ∧
      stored'.lifetime d = vm'.lifetimeBytes d
  /-- Before it nothing does. -/
  waits : (¬ ∃ t, Deadline defaults ps t ∧ t ≤ p.now) →
    vm'.sessionBytes = vm.sessionBytes ∧ vm'.lifetimeBytes = vm.lifetimeBytes ∧ stored' = stored

/-- Ten bytes, then four on a counter that has started again: fourteen are published. -/
example : (polls (fun _ => none) [⟨0, fun _ => 10⟩, ⟨2, fun _ => 4⟩, ⟨3, fun _ => 4⟩]).map
    (fun s => s.1.sessionBytes .uploaded) = some 14 := by
  decide +kernel

end TwoSocks
