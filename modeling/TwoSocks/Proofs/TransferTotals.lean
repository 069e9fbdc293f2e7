/-
What the stored lifetime totals count.

A view model that polls keeps its session total and what it has pending at what the server has
counted, and its lifetime total at what it loaded and its session total.  So when it publishes, it
stores what it loaded plus everything the server has counted since the process started.  That is
right if it loaded what was stored before the process started.  A view model that is created after
another one has published loaded some of the same bytes already, and stores them twice.

`Kept` is the invariant, for one direction.  It is kept as long as the stored total is right, so it
serves both ways: to show that the total stays right, and to show that it does not.
-/
import TwoSocks.App.Transfer
import TwoSocks.Program.Events

namespace TwoSocks

namespace TransferApp

/-! ### Runs -/

/-- The stored total of a direction is at most what was stored at first and what the server
counted, and does not go down. -/
def CountsOnce (base : Totals) (d : Direction) (a : TransferApp) (_ : TransferEvent)
    (a' : TransferApp) : Prop :=
  (a'.defaults.lifetime d).toNat ≤ (base d).toNat + (a'.native d).toNat ∧
    a.defaults.lifetime d ≤ a'.defaults.lifetime d

/-- A view model that publishes loaded what was stored at first: its lifetime total is that and
its session total. -/
def FromBase (base : Totals) (d : Direction) (a : TransferApp) :
    TransferEvent → TransferApp → Prop
  | .poll view now native, _ => ∀ vm ∈ a.views view, vm.Publishes now (a.loads native) →
      (vm.lifetimeBytes d).toNat = (base d).toNat + (vm.sessionBytes d).toNat
  | _, _ => True

/-- The server counts nothing in a direction between the two loads of a poll. -/
def Still (d : Direction) (a : TransferApp) : TransferEvent → TransferApp → Prop
  | .poll _ _ native, _ => a.loads native d = native d
  | _, _ => True

section Decidable

variable {base : Totals} {d : Direction}

instance (a : TransferApp) (e : TransferEvent) (a' : TransferApp) :
    Decidable (CountsOnce base d a e a') :=
  inferInstanceAs (Decidable (_ ∧ _))

instance (vm : TransferVM) (now : Date) (totals : Totals) : Decidable (vm.Publishes now totals) :=
  inferInstanceAs (Decidable (∃ vm' ∈ vm.holdBack now totals, vm'.due now))

instance FromBase.decidable (a : TransferApp) : ∀ e a', Decidable (FromBase base d a e a')
  | .poll view now native, _ => inferInstanceAs (Decidable (∀ vm ∈ a.views view,
      vm.Publishes now (a.loads native) →
        (vm.lifetimeBytes d).toNat = (base d).toNat + (vm.sessionBytes d).toNat))
  | .record _, _ | .create _ _ _, _ | .destroy _, _ => isTrue trivial

end Decidable

end TransferApp

/-! ### One poll -/

section Poll

variable {d : Direction}

theorem Totals.adding_spec {totals more sum : Totals} (h : totals.adding more = some sum) :
    (sum d).toNat = (totals d).toNat + (more d).toNat := by
  unfold adding at h
  split at h
  · rename_i hfits
    obtain rfl := Option.some.inj h
    rw [UInt64.toNat_add, Nat.mod_eq_of_lt (hfits d)]
  · cases h

/-- How much a counter grew from one reading to the next.  A lower reading is that of a counter
that has started again. -/
def increase (before now : UInt64) : Nat :=
  if before ≤ now then now.toNat - before.toNat else now.toNat

theorem increase_of_le {before now : UInt64} (h : before ≤ now) :
    before.toNat + increase before now = now.toNat := by
  have hle := UInt64.le_iff_toNat_le.mp h
  unfold increase
  rw [if_pos h]
  omega

@[simp] theorem lifetime_persist (vm : TransferVM) (defaults : UserDefaults) :
    (vm.persistLifetimeTransferTotals defaults).lifetime d = vm.lifetimeBytes d := by
  cases d <;> rfl

namespace TransferVM

variable {vm vm' : TransferVM} {defaults defaults' : UserDefaults} {now : Date} {totals : Totals}

theorem delta_toNat : (vm.delta totals d).toNat = increase (vm.lastNativeBytes d) (totals d) := by
  unfold delta increase
  by_cases h : vm.lastNativeBytes d ≤ totals d
  · rw [if_pos h, if_pos h, UInt64.toNat_sub_of_le _ _ h]
  · rw [if_neg h, if_neg h]

theorem delta_pos : 0 < vm.delta totals d ↔ 0 < increase (vm.lastNativeBytes d) (totals d) := by
  rw [UInt64.lt_iff_toNat_lt, delta_toNat]
  rfl

/-- What the counter grew by is pending. -/
theorem holdBack_spec (h : vm.holdBack now totals = some vm') :
    vm'.sessionBytes = vm.sessionBytes ∧ vm'.lifetimeBytes = vm.lifetimeBytes ∧
      vm'.lastNativeBytes = totals ∧
      ∀ d, (vm'.pendingBytes d).toNat =
        (vm.pendingBytes d).toNat + increase (vm.lastNativeBytes d) (totals d) := by
  unfold holdBack at h
  split at h
  · obtain ⟨pendingBytes, hp, h⟩ := Option.bind_eq_some_iff.mp h
    obtain rfl := Option.some.inj h
    refine ⟨rfl, rfl, rfl, fun d => ?_⟩
    rw [← delta_toNat]
    exact Totals.adding_spec hp
  · rename_i hnone
    obtain rfl := Option.some.inj h
    refine ⟨rfl, rfl, rfl, fun d => ?_⟩
    have hzero := mt delta_pos.mpr fun hd => hnone ⟨d, hd⟩
    show (vm.pendingBytes d).toNat = _
    omega

theorem due_pending (h : vm.due now) : ∃ d, 0 < vm.pendingBytes d := by
  unfold due at h
  split at h
  · exact (of_decide_eq_true h).1
  · cases h

/-- Everything pending goes to the totals, and the lifetime total is stored. -/
theorem commit_spec (h : vm.commitPendingTransferTotalsIfNeeded defaults = some (vm', defaults'))
    (hpending : ∃ d, 0 < vm.pendingBytes d) :
    vm'.lastNativeBytes = vm.lastNativeBytes ∧ vm'.nextTransferPublishAt = none ∧ ∀ d,
      (vm'.sessionBytes d).toNat = (vm.sessionBytes d).toNat + (vm.pendingBytes d).toNat ∧
      (vm'.lifetimeBytes d).toNat = (vm.lifetimeBytes d).toNat + (vm.pendingBytes d).toNat ∧
      vm'.pendingBytes d = 0 ∧ defaults'.lifetime d = vm'.lifetimeBytes d := by
  unfold commitPendingTransferTotalsIfNeeded at h
  rw [if_pos hpending] at h
  obtain ⟨sessionBytes, hs, h⟩ := Option.bind_eq_some_iff.mp h
  obtain ⟨lifetimeBytes, hl, h⟩ := Option.bind_eq_some_iff.mp h
  obtain ⟨rfl, rfl⟩ := Prod.mk.inj (Option.some.inj h)
  exact ⟨rfl, rfl, fun d =>
    ⟨Totals.adding_spec hs, Totals.adding_spec hl, rfl, lifetime_persist _ _⟩⟩

/-- The session total and what is pending are what the view model saw counted. -/
def UpToDate (d : Direction) (vm : TransferVM) : Prop :=
  (vm.sessionBytes d).toNat + (vm.pendingBytes d).toNat = (vm.lastNativeBytes d).toNat

/-- What a poll leaves: the view model has seen `totals`, and its lifetime total has grown with its
session total. -/
structure Polled (d : Direction) (totals : Totals) (vm vm' : TransferVM) : Prop where
  upToDate : UpToDate d vm'
  seen : vm'.lastNativeBytes = totals
  together : (vm'.lifetimeBytes d).toNat + (vm.sessionBytes d).toNat =
    (vm.lifetimeBytes d).toNat + (vm'.sessionBytes d).toNat

/-- **One poll.**  If it publishes, the session total is what was loaded, and the lifetime total is
stored; otherwise nothing is. -/
theorem applyTransferTotals_spec
    (h : vm.applyTransferTotals defaults now totals = some (vm', defaults'))
    (hvm : vm.UpToDate d) (hle : vm.lastNativeBytes d ≤ totals d) :
    Polled d totals vm vm' ∧
      (vm.Publishes now totals ∧ vm'.sessionBytes d = totals d ∧
        defaults'.lifetime d = vm'.lifetimeBytes d ∨
      ¬ vm.Publishes now totals ∧ defaults' = defaults) := by
  obtain ⟨held, hheld, h⟩ := Option.bind_eq_some_iff.mp h
  obtain ⟨hsession, hlifetime, hlast, hpending⟩ := holdBack_spec hheld
  have hgrown := increase_of_le hle
  have hpending := hpending d
  unfold UpToDate at hvm
  split at h
  · rename_i hdue
    obtain ⟨hlast', -, hcommit⟩ := commit_spec h (due_pending hdue)
    obtain ⟨hsession', hlifetime', hpending', hstored⟩ := hcommit d
    rw [hsession] at hsession'
    rw [hlifetime] at hlifetime'
    have hcounted : vm'.sessionBytes d = totals d := UInt64.toNat_inj.mp (by omega)
    refine ⟨⟨?_, by rw [hlast', hlast], by omega⟩, .inl ⟨⟨held, hheld, hdue⟩, hcounted, hstored⟩⟩
    unfold UpToDate
    rw [hpending', hlast', hlast, hcounted]
    rfl
  · rename_i hdue
    obtain ⟨rfl, rfl⟩ := Prod.mk.inj (Option.some.inj h)
    refine ⟨⟨?_, hlast, ?_⟩, .inr ⟨?_, rfl⟩⟩
    · unfold UpToDate
      rw [hlast, hsession]
      omega
    · rw [hlifetime, hsession]
    · rintro ⟨held', hheld', hdue'⟩
      obtain rfl := Option.some.inj (hheld.symm.trans hheld')
      exact hdue hdue'

/-- A view model never publishes with the poll it is created with. -/
theorem load_holds : ¬ (load defaults).Publishes now totals := by
  rintro ⟨held, hheld, hdue⟩
  unfold holdBack at hheld
  split at hheld
  · obtain ⟨pendingBytes, _, hheld⟩ := Option.bind_eq_some_iff.mp hheld
    obtain rfl := Option.some.inj hheld
    have hnow := (of_decide_eq_true hdue).2
    simp only [load, Option.getD_none, transferPublishInterval] at hnow
    linarith
  · obtain rfl := Option.some.inj hheld
    cases hdue

end TransferVM

end Poll

/-! ### The process -/

namespace TransferApp

section Run

variable {base : Totals} {d : Direction} {a a' : TransferApp}

/-- A view model the server's counters are ahead of, and that loaded no less than was stored at
first. -/
structure Fit (base : Totals) (d : Direction) (a : TransferApp) (vm : TransferVM) : Prop where
  upToDate : vm.UpToDate d
  behind : vm.lastNativeBytes d ≤ a.native d
  loaded : (base d).toNat + (vm.sessionBytes d).toNat ≤ (vm.lifetimeBytes d).toNat

theorem Fit.later {vm : TransferVM} (h : a.Fit base d vm) (hle : a.native d ≤ a'.native d) :
    a'.Fit base d vm :=
  ⟨h.upToDate, UInt64.le_trans h.behind hle, h.loaded⟩

/-- What holds between two events, for one direction. -/
structure Kept (base : Totals) (d : Direction) (a : TransferApp) : Prop where
  counted : (a.defaults.lifetime d).toNat ≤ (base d).toNat + (a.native d).toNat
  grown : base d ≤ a.defaults.lifetime d
  views : ∀ k, ∀ vm ∈ a.views k, a.Fit base d vm

theorem initial_kept (defaults : UserDefaults) : (initial defaults).Kept defaults.lifetime d where
  counted := Nat.le_add_right _ _
  grown := UInt64.le_refl _
  views := by simp [initial]

theorem le_loads {native : Totals} (hle : ∀ d, a.native d ≤ native d) :
    a.native d ≤ a.loads native d ∧ a.loads native d ≤ native d := by
  cases d with
  | downloaded => exact ⟨UInt64.le_refl _, hle _⟩
  | uploaded => exact ⟨hle _, UInt64.le_refl _⟩

theorem Kept.load_fit (h : a.Kept base d) : a.Fit base d (.load a.defaults) where
  upToDate := rfl
  behind := UInt64.zero_le
  loaded := UInt64.le_iff_toNat_le.mp h.grown

section Refresh

variable {view : Nat} {vm : TransferVM} {now : Date} {native : Totals}

/-- What a refresh stores, if it stores anything. -/
theorem refresh_spec (hvm : a.Fit base d vm) (hle : ∀ d, a.native d ≤ native d)
    (h : a.refreshTransferTotals view vm now native = some a') :
    ∃ vm', a'.Fit base d vm' ∧ a'.native = native ∧
      a'.views = Function.update a.views view (some vm') ∧
      (vm.Publishes now (a.loads native) ∧ vm'.sessionBytes d = a.loads native d ∧
          a'.defaults.lifetime d = vm'.lifetimeBytes d ∧
          (vm'.lifetimeBytes d).toNat + (vm.sessionBytes d).toNat =
            (vm.lifetimeBytes d).toNat + (a.loads native d).toNat ∨
        ¬ vm.Publishes now (a.loads native) ∧ a'.defaults = a.defaults) := by
  obtain ⟨⟨vm', defaults'⟩, happly, h⟩ := Option.bind_eq_some_iff.mp h
  obtain rfl := Option.some.inj h
  have hbefore : vm.lastNativeBytes d ≤ a.loads native d :=
    UInt64.le_trans hvm.behind (le_loads hle).1
  obtain ⟨hpolled, hcases⟩ := TransferVM.applyTransferTotals_spec happly hvm.upToDate hbefore
  have hvm' := hvm.loaded
  have htogether := hpolled.together
  refine ⟨vm', ⟨hpolled.upToDate, ?_, by omega⟩, rfl, rfl, ?_⟩
  · rw [hpolled.seen]
    exact (le_loads hle).2
  · obtain ⟨hpublishes, hsession, hstored⟩ | hquiet := hcases
    · exact .inl ⟨hpublishes, hsession, hstored, hsession ▸ htogether⟩
    · exact .inr hquiet

/-- A refresh counts once if what it publishes was loaded from the base. -/
theorem refresh_counts (ha : a.Kept base d) (hvm : a.Fit base d vm)
    (hle : ∀ d, a.native d ≤ native d)
    (hbase : vm.Publishes now (a.loads native) →
      (vm.lifetimeBytes d).toNat = (base d).toNat + (vm.sessionBytes d).toNat)
    (h : a.refreshTransferTotals view vm now native = some a') :
    (a'.defaults.lifetime d).toNat ≤ (base d).toNat + (a'.native d).toNat ∧
      a.defaults.lifetime d ≤ a'.defaults.lifetime d := by
  have hcounted := ha.counted
  have hfrom := UInt64.le_iff_toNat_le.mp (le_loads (d := d) hle).1
  have hto := UInt64.le_iff_toNat_le.mp (le_loads (d := d) hle).2
  obtain ⟨vm', _, hnative, _, ⟨hpublishes, _, hstored, htogether⟩ | ⟨_, hsame⟩⟩ :=
    refresh_spec hvm hle h
  · have := hbase hpublishes
    rw [hnative, hstored]
    refine ⟨by omega, UInt64.le_iff_toNat_le.mpr ?_⟩
    omega
  · rw [hnative, hsame]
    exact ⟨by omega, UInt64.le_refl _⟩

/-- A refresh that counts once keeps the invariant. -/
theorem refresh_kept (ha : a.Kept base d) (hvm : a.Fit base d vm)
    (hle : ∀ d, a.native d ≤ native d)
    (h : a.refreshTransferTotals view vm now native = some a')
    (hcounts : (a'.defaults.lifetime d).toNat ≤ (base d).toNat + (a'.native d).toNat ∧
      a.defaults.lifetime d ≤ a'.defaults.lifetime d) : a'.Kept base d := by
  obtain ⟨vm', hvm', hnative, hviews, _⟩ := refresh_spec hvm hle h
  refine ⟨hcounts.1, UInt64.le_trans ha.grown hcounts.2, fun k v hv => ?_⟩
  rw [hviews] at hv
  by_cases hk : k = view
  · subst hk
    rw [Function.update_self] at hv
    obtain rfl := Option.some.inj hv
    exact hvm'
  · rw [Function.update_of_ne hk] at hv
    exact (ha.views k v hv).later (hnative ▸ hle d)

/-- A refresh that publishes and counts once loaded from the base, if nothing was counted between
the loads. -/
theorem refresh_fromBase (hvm : a.Fit base d vm) (hle : ∀ d, a.native d ≤ native d)
    (h : a.refreshTransferTotals view vm now native = some a')
    (hcounted : (a'.defaults.lifetime d).toNat ≤ (base d).toNat + (a'.native d).toNat)
    (hstill : a.loads native d = native d) (hpublishes : vm.Publishes now (a.loads native)) :
    (vm.lifetimeBytes d).toNat = (base d).toNat + (vm.sessionBytes d).toNat := by
  have hloaded := hvm.loaded
  obtain ⟨vm', _, hnative, _, ⟨_, _, hstored, htogether⟩ | ⟨hquiet, _⟩⟩ := refresh_spec hvm hle h
  · rw [hnative, hstored] at hcounted
    rw [hstill] at htogether
    omega
  · exact absurd hpublishes hquiet

end Refresh

/-! ### One event -/

variable {e : TransferEvent}

theorem Kept.counts (ha : a.Kept base d) (he : FromBase base d a e a') (h : a.step e = some a') :
    CountsOnce base d a e a' := by
  have hcounted := ha.counted
  cases e with
  | record native =>
      obtain ⟨hle, h⟩ := Option.ite_none_right_eq_some.mp h
      obtain rfl := Option.some.inj h
      have := UInt64.le_iff_toNat_le.mp (hle d)
      exact ⟨by dsimp only; omega, UInt64.le_refl _⟩
  | create view now native =>
      obtain ⟨⟨hle, _⟩, h⟩ := Option.ite_none_right_eq_some.mp h
      exact refresh_counts ha ha.load_fit hle (fun hp => absurd hp TransferVM.load_holds) h
  | poll view now native =>
      obtain ⟨hle, h⟩ := Option.ite_none_right_eq_some.mp h
      obtain ⟨vm, hvm, h⟩ := Option.bind_eq_some_iff.mp h
      exact refresh_counts ha (ha.views view vm hvm) hle (he vm hvm) h
  | destroy view =>
      obtain rfl := Option.some.inj h
      exact ⟨hcounted, UInt64.le_refl _⟩

theorem Kept.kept (ha : a.Kept base d) (he : CountsOnce base d a e a') (h : a.step e = some a') :
    a'.Kept base d := by
  cases e with
  | record native =>
      obtain ⟨hle, h⟩ := Option.ite_none_right_eq_some.mp h
      obtain rfl := Option.some.inj h
      exact ⟨he.1, ha.grown, fun k vm hvm => (ha.views k vm hvm).later (hle d)⟩
  | create view now native =>
      obtain ⟨⟨hle, _⟩, h⟩ := Option.ite_none_right_eq_some.mp h
      exact refresh_kept ha ha.load_fit hle h he
  | poll view now native =>
      obtain ⟨hle, h⟩ := Option.ite_none_right_eq_some.mp h
      obtain ⟨vm, hvm, h⟩ := Option.bind_eq_some_iff.mp h
      exact refresh_kept ha (ha.views view vm hvm) hle h he
  | destroy view =>
      obtain rfl := Option.some.inj h
      refine ⟨ha.counted, ha.grown, fun k vm hvm => ?_⟩
      by_cases hk : k = view
      · subst hk
        simp at hvm
      · dsimp only at hvm
        rw [Function.update_of_ne hk] at hvm
        exact (ha.views k vm hvm).later (UInt64.le_refl _)

theorem Kept.fromBase (ha : a.Kept base d) (he : CountsOnce base d a e a')
    (hstill : Still d a e a') (h : a.step e = some a') : FromBase base d a e a' := by
  cases e with
  | poll view now native =>
      intro vm hvm hpublishes
      obtain ⟨hle, h⟩ := Option.ite_none_right_eq_some.mp h
      obtain ⟨vm', hvm', h⟩ := Option.bind_eq_some_iff.mp h
      obtain rfl := Option.some.inj (hvm.symm.trans hvm')
      exact refresh_fromBase (ha.views view vm hvm) hle h he.1 hstill hpublishes
  | _ => trivial

/-! ### Whole runs -/

variable {es : List TransferEvent}

theorem Kept.run_counts (ha : a.Kept base d) (hes : Along step (FromBase base d) a es) :
    Along step (CountsOnce base d) a es :=
  hes.invariant ha (fun ha h he => ha.counts he h) fun ha h he => ha.kept (ha.counts he h) h

theorem Kept.run_fromBase (ha : a.Kept base d) (hes : Along step (CountsOnce base d) a es)
    (hstill : Along step (Still d) a es) : Along step (FromBase base d) a es :=
  (hes.and hstill).invariant ha (fun ha h he => ha.fromBase he.1 he.2 h) fun ha h he =>
    ha.kept he.1 h

end Run

end TransferApp

/-! ### The result -/

open TransferApp

/--
**A lifetime total counts each byte once if whoever publishes loaded what was stored before the
process started.**

Over any events of one process, for each direction.  If no byte of the direction is counted between
the two loads of a poll, it counts each byte once only then.
-/
theorem lifetime_counts_once_iff (defaults : UserDefaults) (d : Direction)
    (es : List TransferEvent) :
    (Along step (FromBase defaults.lifetime d) (.initial defaults) es →
        Along step (CountsOnce defaults.lifetime d) (.initial defaults) es) ∧
      (Along step (Still d) (.initial defaults) es →
        Along step (CountsOnce defaults.lifetime d) (.initial defaults) es →
          Along step (FromBase defaults.lifetime d) (.initial defaults) es) :=
  ⟨(initial_kept defaults).run_counts, fun hstill hes =>
    (initial_kept defaults).run_fromBase hes hstill⟩

/-- Ten bytes have been downloaded. -/
def tenDownloaded : Totals
  | .downloaded => 10
  | .uploaded => 0

/-- A window is open while ten bytes are downloaded, and publishes them. -/
def firstWindow : List TransferEvent :=
  [.create 0 0 (fun _ => 0), .record tenDownloaded, .poll 0 1 tenDownloaded,
    .poll 0 4 tenDownloaded]

/-- Then it is closed, and another one is opened. -/
def secondWindow : List TransferEvent :=
  firstWindow ++ [.destroy 0, .create 1 5 tenDownloaded, .poll 1 8 tenDownloaded]

/-- One window counts each byte once. -/
theorem lifetime_counts_once_window :
    Along step (CountsOnce (fun _ => 0) .downloaded) (.initial fun _ => none) firstWindow :=
  (lifetime_counts_once_iff (fun _ => none) .downloaded firstWindow).1 (by decide +kernel)

/-- The second window stores twenty bytes of the ten. -/
theorem lifetime_counts_twice : ¬ ∀ (defaults : UserDefaults) (d : Direction)
    (es : List TransferEvent),
      Along step (CountsOnce defaults.lifetime d) (.initial defaults) es := by
  intro h
  exact absurd (h (fun _ => none) .downloaded secondWindow) (by decide +kernel)

end TwoSocks
