/-
When the server is started.

The two flags of a view model know of the tasks it started itself, and `socks_main` is one for the
whole process.  As long as a view model is only created when it is alone, no other one being there
and no earlier task still to come or in `socks_main`, the flags say what there is: `Settled` is that
invariant.  A task that is outstanding is then the one view model's own, which is waiting for it or
listening, and has not failed.

It is also the only way.  A second view model starts a task at once, and from there the events can
go on so that both tasks are in `socks_main`, or so that the new server listens while the other view
model has failed.
-/
import TwoSocks.App.Lifecycle
import TwoSocks.Program.Cells
import TwoSocks.Program.Events

namespace TwoSocks

open Cells

/-! ### What is asked for -/

/-- The task is to call `socks_main` or has not come back from it. -/
def StartStage.outstanding : StartStage → Bool
  | .queued | .called | .ready => true
  | _ => false

/-- The task is in `socks_main`. -/
def StartStage.live : StartStage → Bool
  | .called | .ready => true
  | _ => false

namespace LifecycleApp

/-- At most one task is in `socks_main`, none calls it once a server is ready, and no view model has
failed while a server that became ready is live. -/
structure Orderly (a : LifecycleApp) (e : LifecycleEvent) (a' : LifecycleApp) : Prop where
  one : ∀ (i j : Nat) (t t' : StartTask), a'.tasks[i]? = some t → a'.tasks[j]? = some t' →
    t.stage.live → t'.stage.live → i = j
  notAgain : ∀ task, e = .call task → ∀ t ∈ a.tasks, t.stage ≠ .ready
  notFailed : ∀ k, ∀ vm ∈ a'.view? k, ∀ code, vm.serverState = .failed code →
    ∀ t ∈ a'.tasks, t.stage ≠ .ready

/-- A view model is created only when there is no other one and no task is outstanding. -/
def Alone (a : LifecycleApp) : LifecycleEvent → LifecycleApp → Prop
  | .create _ _, _ => (∀ k, a.view? k = none) ∧ ∀ t ∈ a.tasks, t.stage.outstanding = false
  | _, _ => True

end LifecycleApp

/-! ### One view model -/

namespace LifecycleVM

variable {vm : LifecycleVM} {now : Date} {ipAddress : Option String}

@[simp] theorem refreshEndpointAvailability_inFlight :
    (vm.refreshEndpointAvailability ipAddress).isProxyStartInFlight = vm.isProxyStartInFlight := by
  unfold refreshEndpointAvailability
  cases ipAddress <;> dsimp only <;> split <;> rfl

@[simp] theorem refreshEndpointAvailability_listening :
    (vm.refreshEndpointAvailability ipAddress).isProxyListening = vm.isProxyListening := by
  unfold refreshEndpointAvailability
  cases ipAddress <;> dsimp only <;> split <;> rfl

/-- Looking for the address never makes a view model fail. -/
theorem refreshEndpointAvailability_failed {code : Int32}
    (h : (vm.refreshEndpointAvailability ipAddress).serverState = .failed code) :
    vm.serverState = .failed code ∧ vm.isProxyListening = false := by
  unfold refreshEndpointAvailability at h
  cases ipAddress with
  | none =>
      dsimp only at h
      split at h
      · cases h
      · exact ⟨h, Bool.eq_false_of_not_eq_true ‹_›⟩
  | some ipAddress =>
      dsimp only at h
      split at h
      · cases h
      · exact ⟨h, Bool.eq_false_of_not_eq_true ‹_›⟩

/-- What a refresh comes to: a task is started by a view model that is neither waiting nor
listening, or the flags are as they were and it has not failed now. -/
inductive Refreshed (vm : LifecycleVM) (done : LifecycleVM × Bool) : Prop
  | started (hd : done.2 = true) (hl : vm.isProxyListening = false)
      (hf : vm.isProxyStartInFlight = false) (hl' : done.1.isProxyListening = false)
      (hf' : done.1.isProxyStartInFlight = true)
      (hs : ∀ code, done.1.serverState ≠ .failed code)
  | kept (hd : done.2 = false) (hl : done.1.isProxyListening = vm.isProxyListening)
      (hf : done.1.isProxyStartInFlight = vm.isProxyStartInFlight)
      (hs : done.1.serverState = vm.serverState ∨
        vm.isProxyListening = true ∧ ∀ code, done.1.serverState ≠ .failed code)

theorem Refreshed.same : Refreshed vm (vm, false) := .kept rfl rfl rfl (.inl rfl)

theorem startProxy_spec (hl : vm.isProxyListening = false) (hf : vm.isProxyStartInFlight = false) :
    Refreshed vm (vm.startProxy ipAddress) := by
  unfold startProxy
  rw [if_pos (by simp [hl, hf])]
  refine .started rfl hl hf (by simp [hl]) (by simp) fun code hs => ?_
  cases (refreshEndpointAvailability_failed hs).1

theorem refreshProxyLifecycle_spec : Refreshed vm (vm.refreshProxyLifecycle now ipAddress) := by
  unfold refreshProxyLifecycle
  split
  · rename_i hl
    refine .kept rfl (by simp) (by simp) (.inr ⟨hl, fun code hs => ?_⟩)
    have hl' := (refreshEndpointAvailability_failed hs).2
    rw [hl] at hl'
    cases hl'
  · rename_i hl
    have hl : vm.isProxyListening = false := by simpa using hl
    split
    · exact .same
    · rename_i hf
      have hf : vm.isProxyStartInFlight = false := by simpa using hf
      split
      · exact startProxy_spec hl hf
      · split
        · exact startProxy_spec hl hf
        · exact .same

theorem retryProxy_spec : Refreshed vm (vm.retryProxy now ipAddress) := by
  unfold retryProxy
  split
  · have h : Refreshed { vm with nextProxyStartAttemptAt := none }
        ({ vm with nextProxyStartAttemptAt := none }.refreshProxyLifecycle now ipAddress) :=
      refreshProxyLifecycle_spec
    cases h with
    | started hd hl hf hl' hf' hs => exact .started hd hl hf hl' hf' hs
    | kept hd hl hf hs => exact .kept hd hl hf hs
  · exact .same

theorem markServerFailed_state (vm : LifecycleVM) (code : Int32) (now : Date) :
    (vm.markServerFailed code now).serverState = .failed code := by
  unfold markServerFailed
  dsimp only
  split
  · rfl
  · rename_i hsame
    exact not_not.mp hsame

/-- A new view model starts a task at once. -/
theorem initial_refresh (now : Date) (ipAddress : Option String) :
    (initial.refreshProxyLifecycle now ipAddress).2 = true := rfl

end LifecycleVM

/-! ### What there is -/

/-- A view model has to do with a task: the task is outstanding, or its message is for it. -/
def StartTask.concerns (t : StartTask) (view : Nat) : Bool :=
  match t.stage with
  | .returned _ => t.owner = view
  | .over => false
  | _ => true

theorem StartTask.concerns_of_outstanding {t : StartTask} (h : t.stage.outstanding = true)
    (view : Nat) : t.concerns view = true := by
  unfold concerns
  cases hs : t.stage <;> simp [hs, StartStage.outstanding] at h ⊢

theorem StartStage.outstanding_of_live {stage : StartStage} (h : stage.live = true) :
    stage.outstanding = true := by
  cases stage <;> first | rfl | cases h

namespace LifecycleApp

/-- A view model is right about the tasks. -/
structure ViewSettled (tasks : List StartTask) (view : Nat) (vm : LifecycleVM) : Prop where
  one : ∀ (i j : Nat) (t t' : StartTask), tasks[i]? = some t → tasks[j]? = some t' →
    t.concerns view → t'.concerns view → i = j
  own : ∀ t ∈ tasks, t.concerns view → t.owner = view ∧
    (vm.isProxyStartInFlight = true ∨ vm.isProxyListening = true ∧ t.stage = .ready) ∧
      ∀ code, vm.serverState ≠ .failed code
  waits : vm.isProxyStartInFlight = true → ∃ t ∈ tasks, t.concerns view
  listens : vm.isProxyListening = true → ∃ t ∈ tasks, t.stage = .ready
  idle : vm.isProxyStartInFlight = false → vm.isProxyListening = false →
    ∃ code, vm.serverState = .failed code

/-- There is at most one view model and one outstanding task, and the view model is right about
it. -/
structure Settled (a : LifecycleApp) : Prop where
  oneView : ∀ j k, (a.view? j).isSome → (a.view? k).isSome → j = k
  oneTask : ∀ (i j : Nat) (t t' : StartTask), a.tasks[i]? = some t → a.tasks[j]? = some t' →
    t.stage.outstanding → t'.stage.outstanding → i = j
  announced : a.readyMessages ≠ 0 → ∃ t ∈ a.tasks, t.stage = .ready
  owners : ∀ t ∈ a.tasks, t.owner < a.views.length
  view : ∀ k vm, a.view? k = some vm → ViewSettled a.tasks k vm

section Settled

variable {a a' : LifecycleApp} {k : Nat} {vm : LifecycleVM} {done : LifecycleVM × Bool}

theorem view?_lt (hvm : a.view? k = some vm) : k < a.views.length := by
  by_contra hk
  unfold view? at hvm
  rw [List.getElem?_eq_none (not_lt.mp hk)] at hvm
  cases hvm

theorem view?_act (hvm : a.view? k = some vm) (done : LifecycleVM × Bool) (j : Nat) :
    (a.act k done).view? j = if j = k then some done.1 else a.view? j := by
  have hk := view?_lt hvm
  unfold view? act
  dsimp only
  rw [List.getElem?_set]
  by_cases hj : k = j
  · subst hj
    simp [hk]
  · simp [hj, Ne.symm hj]

/-- What is true of no earlier task is at most true of the new one. -/
theorem index_of_new {tasks : List StartTask} {t₀ t : StartTask} {p : StartTask → Bool} {i : Nat}
    (hnone : ∀ t ∈ tasks, p t = false) (ht : (tasks ++ [t₀])[i]? = some t) (hp : p t = true) :
    i = tasks.length := by
  rw [List.getElem?_append] at ht
  split at ht
  · rw [hnone t (List.mem_of_getElem? ht)] at hp
    cases hp
  · rename_i hi
    have := (List.getElem?_eq_some_iff.mp ht).1
    simp at this
    omega

/-- A task is started for a view model that none concerns. -/
theorem ViewSettled.started {tasks : List StartTask} (hnone : ∀ t ∈ tasks, t.concerns k = false)
    (hl : vm.isProxyListening = false) (hf : vm.isProxyStartInFlight = true)
    (hs : ∀ code, vm.serverState ≠ .failed code) :
    ViewSettled (tasks ++ [⟨k, .queued⟩]) k vm := by
  refine ⟨fun i j t t' ht ht' hc hc' => ?_, fun t ht hc => ?_, fun _ => ?_, ?_, ?_⟩
  · have hi := index_of_new (p := (·.concerns k)) hnone ht hc
    have hj := index_of_new (p := (·.concerns k)) hnone ht' hc'
    rw [hi, hj]
  · rcases List.mem_append.mp ht with ht | ht
    · rw [hnone t ht] at hc
      cases hc
    · rw [List.mem_singleton.mp ht]
      exact ⟨rfl, .inl hf, hs⟩
  · exact ⟨_, List.mem_append_right _ (List.mem_singleton_self _), rfl⟩
  · simp [hl]
  · simp [hf]

/-- A view model that is neither waiting nor listening has to do with no task. -/
theorem ViewSettled.none {tasks : List StartTask} (h : ViewSettled tasks k vm)
    (hl : vm.isProxyListening = false) (hf : vm.isProxyStartInFlight = false) :
    ∀ t ∈ tasks, t.concerns k = false := by
  intro t ht
  by_contra hc
  obtain ⟨_, hflags, _⟩ := h.own t ht (by simpa using hc)
  simp [hl, hf] at hflags

theorem oneTask_append {tasks : List StartTask} (t₀ : StartTask)
    (hnone : ∀ t ∈ tasks, t.stage.outstanding = false) :
    ∀ (i j : Nat) (t t' : StartTask), (tasks ++ [t₀])[i]? = some t →
      (tasks ++ [t₀])[j]? = some t' → t.stage.outstanding → t'.stage.outstanding → i = j := by
  intro i j t t' ht ht' hc hc'
  have hi := index_of_new (p := (·.stage.outstanding)) hnone ht hc
  have hj := index_of_new (p := (·.stage.outstanding)) hnone ht' hc'
  rw [hi, hj]

theorem initial_settled : initial.Settled where
  oneView j k h := by simp [initial, view?] at h
  oneTask i j t t' h := by simp [initial] at h
  announced h := absurd rfl h
  owners t h := by cases h
  view k vm h := by simp [initial, view?] at h

/-! ### One event -/

theorem Settled.only (h : a.Settled) (hvm : a.view? k = some vm) {j : Nat} (hj : j ≠ k) :
    a.view? j = none := by
  by_contra hne
  exact hj (h.oneView j k (Option.isSome_iff_ne_none.mpr hne) (by simp [hvm]))

/-- No task concerns the one view model, so none is outstanding. -/
theorem none_outstanding {tasks : List StartTask} (h : ∀ t ∈ tasks, t.concerns k = false) :
    ∀ t ∈ tasks, t.stage.outstanding = false := by
  intro t ht
  by_contra hout
  have := StartTask.concerns_of_outstanding (by simpa using hout) k
  rw [h t ht] at this
  cases this

/-- The one view model does something, and the tasks change. -/
theorem Settled.change (h : a.Settled) (hvm : a.view? k = some vm) {vm' : LifecycleVM}
    {tasks : List StartTask} (hview : ViewSettled tasks k vm')
    (hone : ∀ (i j : Nat) (t t' : StartTask), tasks[i]? = some t → tasks[j]? = some t' →
      t.stage.outstanding → t'.stage.outstanding → i = j)
    (hready : (∃ t ∈ a.tasks, t.stage = .ready) → ∃ t ∈ tasks, t.stage = .ready)
    (howners : ∀ t ∈ tasks, t.owner < a.views.length) :
    Settled { a with views := a.views.set k (some vm'), tasks } := by
  have hat : ∀ j, LifecycleApp.view? { a with views := a.views.set k (some vm'), tasks } j =
      if j = k then some vm' else none := by
    intro j
    have hset := view?_act hvm (vm', false) j
    by_cases hj : j = k
    · rw [if_pos hj] at hset ⊢
      exact hset
    · rw [if_neg hj, h.only hvm hj] at hset
      rw [if_neg hj]
      exact hset
  refine ⟨fun i j hi hj => ?_, hone, fun hm => hready (h.announced hm), fun t ht => ?_,
    fun j v hv => ?_⟩
  · have honly : ∀ i, (LifecycleApp.view? { a with views := a.views.set k (some vm'), tasks }
        i).isSome → i = k := by
      intro i hi
      by_contra hne
      rw [hat, if_neg hne] at hi
      cases hi
    rw [honly i hi, honly j hj]
  · rw [List.length_set]
    exact howners t ht
  · rw [hat] at hv
    by_cases hj : j = k
    · rw [if_pos hj] at hv
      obtain rfl := Option.some.inj hv
      exact hj ▸ hview
    · rw [if_neg hj] at hv
      cases hv

/-- A timer fires, or the button is tapped. -/
theorem Settled.refreshed (h : a.Settled) (hvm : a.view? k = some vm)
    (hd : vm.Refreshed done) : (a.act k done).Settled := by
  have hview := h.view k vm hvm
  obtain ⟨vm', starts⟩ := done
  cases hd with
  | started hd hl hf hl' hf' hs =>
      obtain rfl : starts = true := hd
      have hnone := hview.none hl hf
      refine h.change hvm (.started hnone hl' hf' hs)
        (oneTask_append _ (none_outstanding hnone)) ?_ ?_
      · rintro ⟨t, ht, hr⟩
        exact ⟨t, List.mem_append_left _ ht, hr⟩
      · intro t ht
        rcases List.mem_append.mp ht with ht | ht
        · exact h.owners t ht
        · rw [List.mem_singleton.mp ht]
          exact view?_lt hvm
  | kept hd hl hf hs =>
      obtain rfl : starts = false := hd
      dsimp only at hl hf hs
      refine h.change hvm ⟨hview.one, fun t ht hc => ?_, ?_, ?_, fun hf' hl' => ?_⟩ h.oneTask id
        h.owners
      · obtain ⟨howner, hflags, hstate⟩ := hview.own t ht hc
        rw [hl, hf]
        refine ⟨howner, hflags, fun code => ?_⟩
        obtain hs | ⟨_, hs⟩ := hs
        · rw [hs]
          exact hstate code
        · exact hs code
      · rw [hf]
        exact hview.waits
      · rw [hl]
        exact hview.listens
      · rw [hf] at hf'
        rw [hl] at hl'
        obtain hs | ⟨hlistening, _⟩ := hs
        · rw [hs]
          exact hview.idle hf' hl'
        · rw [hl'] at hlistening
          cases hlistening

/-- What does not change the flags of a view model or the task keeps it right, if the task it has to
do with is still its own. -/
theorem ViewSettled.advance {tasks : List StartTask} (h : ViewSettled tasks k vm) {i : Nat}
    {t : StartTask} (ht : tasks[i]? = some t) {stage : StartStage}
    (hout : t.stage.outstanding = true) (hready : t.stage ≠ .ready)
    (hstage : stage.outstanding = true ∨ ∃ code, stage = .returned code) :
    ViewSettled (tasks.modify i fun t => { t with stage }) k vm := by
  have hmem : t ∈ tasks := List.mem_of_getElem? ht
  have hc : t.concerns k = true := StartTask.concerns_of_outstanding hout k
  obtain ⟨howner, hflags, hstate⟩ := h.own t hmem hc
  have hf : vm.isProxyStartInFlight = true := by
    obtain hf | ⟨_, hr⟩ := hflags
    · exact hf
    · exact absurd hr hready
  have hc' : StartTask.concerns { t with stage } k = true := by
    obtain hstage | ⟨code, rfl⟩ := hstage
    · exact StartTask.concerns_of_outstanding hstage k
    · simp [StartTask.concerns, howner]
  have hback : ∀ {j : Nat} {v : StartTask},
      (tasks.modify i fun t => { t with stage })[j]? = some v → v.concerns k →
        ∃ v' : StartTask, tasks[j]? = some v' ∧ v'.concerns k := by
    intro j v hv hcv
    obtain ⟨rfl, rfl⟩ | ⟨_, hv⟩ := (getElem?_modify_iff ht).mp hv
    · exact ⟨t, ht, hc⟩
    · exact ⟨v, hv, hcv⟩
  refine ⟨fun j j' v v' hv hv' hcv hcv' => ?_, fun v hv hcv => ?_, fun _ => ?_, fun hl => ?_,
    fun hf' => ?_⟩
  · obtain ⟨u, hu, hcu⟩ := hback hv hcv
    obtain ⟨u', hu', hcu'⟩ := hback hv' hcv'
    exact h.one j j' u u' hu hu' hcu hcu'
  · obtain rfl | ⟨j, _, hv⟩ := (mem_modify_iff ht).mp hv
    · exact ⟨howner, .inl hf, hstate⟩
    · exact h.own v (List.mem_of_getElem? hv) hcv
  · exact ⟨_, (mem_modify_iff ht).mpr (.inl rfl), hc'⟩
  · obtain ⟨u, hu, hr⟩ := h.listens hl
    obtain ⟨j, hu⟩ := List.getElem?_of_mem hu
    refine ⟨u, (mem_modify_iff ht).mpr (.inr ⟨j, ?_, hu⟩), hr⟩
    rintro rfl
    rw [ht] at hu
    exact hready (Option.some.inj hu ▸ hr)
  · rw [hf] at hf'
    cases hf'

/-- A task that is outstanding gets further. -/
theorem Settled.advance (h : a.Settled) {i : Nat} {t : StartTask} (ht : a.tasks[i]? = some t)
    {stage : StartStage} (hout : t.stage.outstanding = true) (hready : t.stage ≠ .ready)
    (hstage : stage.outstanding = true ∨ ∃ code, stage = .returned code) :
    (a.advance i stage).Settled := by
  have hback : ∀ {j : Nat} {v : StartTask},
      (a.tasks.modify i fun t => { t with stage })[j]? = some v → v.stage.outstanding →
        ∃ v' : StartTask, a.tasks[j]? = some v' ∧ v'.stage.outstanding := by
    intro j v hv hcv
    obtain ⟨rfl, rfl⟩ | ⟨_, hv⟩ := (getElem?_modify_iff ht).mp hv
    · exact ⟨t, ht, hout⟩
    · exact ⟨v, hv, hcv⟩
  refine ⟨h.oneView, fun j j' v v' hv hv' hcv hcv' => ?_, fun hm => ?_, fun v hv => ?_,
    fun k vm hvm => (h.view k vm hvm).advance ht hout hready hstage⟩
  · obtain ⟨u, hu, hcu⟩ := hback hv hcv
    obtain ⟨u', hu', hcu'⟩ := hback hv' hcv'
    exact h.oneTask j j' u u' hu hu' hcu hcu'
  · obtain ⟨u, hu, hr⟩ := h.announced hm
    obtain ⟨j, hu⟩ := List.getElem?_of_mem hu
    refine ⟨u, (mem_modify_iff ht).mpr (.inr ⟨j, ?_, hu⟩), hr⟩
    rintro rfl
    rw [ht] at hu
    exact hready (Option.some.inj hu ▸ hr)
  · obtain rfl | ⟨j, _, hv⟩ := (mem_modify_iff ht).mp hv
    · exact h.owners t (List.mem_of_getElem? ht)
    · exact h.owners v (List.mem_of_getElem? hv)

/-- The server listens, and says so. -/
theorem Settled.setUp (h : a.Settled) {i : Nat} {t : StartTask} (ht : a.tasks[i]? = some t)
    (hstage : t.stage = .called) :
    Settled { a.advance i .ready with readyMessages := a.readyMessages + 1 } := by
  have hadvance : (a.advance i .ready).Settled :=
    h.advance ht (by rw [hstage]; rfl) (by simp [hstage]) (.inl rfl)
  exact ⟨hadvance.oneView, hadvance.oneTask,
    fun _ => ⟨_, (mem_modify_iff ht).mpr (.inl rfl), rfl⟩, hadvance.owners, hadvance.view⟩

theorem Settled.fewer (h : a.Settled) :
    Settled { a with readyMessages := a.readyMessages - 1 } :=
  ⟨h.oneView, h.oneTask, fun hm => h.announced fun he => hm (by rw [he]), h.owners, h.view⟩

/-- The message that the server is ready arrives. -/
theorem Settled.serverReady (h : a.Settled) (hready : ∃ t ∈ a.tasks, t.stage = .ready)
    (hvm : a.view? k = some vm) (ipAddress : Option String) :
    (a.act k (vm.handleServerReady ipAddress, false)).Settled := by
  have hview := h.view k vm hvm
  obtain ⟨t, ht, hr⟩ := hready
  obtain ⟨i, ht⟩ := List.getElem?_of_mem ht
  have hc : t.concerns k = true := StartTask.concerns_of_outstanding (by rw [hr]; rfl) k
  have hlistening : (vm.handleServerReady ipAddress).isProxyListening = true := by
    simp [LifecycleVM.handleServerReady]
  refine h.change hvm ⟨hview.one, fun v hv hcv => ?_, fun hf => ?_, fun _ => ?_, fun _ hl => ?_⟩
    h.oneTask id h.owners
  · obtain ⟨j, hv⟩ := List.getElem?_of_mem hv
    obtain rfl := hview.one i j t v ht hv hc hcv
    obtain rfl : t = v := Option.some.inj (ht.symm.trans hv)
    refine ⟨(hview.own t (List.mem_of_getElem? ht) hc).1, .inr ⟨hlistening, hr⟩, fun code hs => ?_⟩
    cases (LifecycleVM.refreshEndpointAvailability_failed hs).2
  · simp [LifecycleVM.handleServerReady] at hf
  · exact ⟨t, List.mem_of_getElem? ht, hr⟩
  · rw [hlistening] at hl
    cases hl

section Arrived

variable {i : Nat} {t : StartTask} {code : Int32}

/-- Once its message has arrived a task is over, and the others are as before. -/
theorem arrived_cases {tasks : List StartTask} (ht : tasks[i]? = some t) {j : Nat} {v : StartTask}
    (hv : (tasks.modify i fun t => { t with stage := .over })[j]? = some v) :
    v.stage = .over ∨ j ≠ i ∧ tasks[j]? = some v := by
  obtain ⟨rfl, rfl⟩ | hv := (getElem?_modify_iff ht).mp hv
  · exact .inl rfl
  · exact .inr hv

theorem Settled.arrived_oneTask (h : a.Settled) (ht : a.tasks[i]? = some t) :
    ∀ (j j' : Nat) (v v' : StartTask), (a.advance i .over).tasks[j]? = some v →
      (a.advance i .over).tasks[j']? = some v' → v.stage.outstanding → v'.stage.outstanding →
        j = j' := by
  intro j j' v v' hv hv' hout hout'
  obtain hover | ⟨_, hv⟩ := arrived_cases ht hv
  · rw [hover] at hout
    cases hout
  · obtain hover | ⟨_, hv'⟩ := arrived_cases ht hv'
    · rw [hover] at hout'
      cases hout'
    · exact h.oneTask j j' v v' hv hv' hout hout'

theorem arrived_ready (ht : a.tasks[i]? = some t) (hstage : t.stage = .returned code)
    (hready : ∃ v ∈ a.tasks, v.stage = .ready) :
    ∃ v ∈ (a.advance i .over).tasks, v.stage = .ready := by
  obtain ⟨v, hv, hr⟩ := hready
  obtain ⟨j, hv⟩ := List.getElem?_of_mem hv
  refine ⟨v, (mem_modify_iff ht).mpr (.inr ⟨j, ?_, hv⟩), hr⟩
  rintro rfl
  obtain rfl := Option.some.inj (ht.symm.trans hv)
  rw [hstage] at hr
  cases hr

theorem Settled.arrived_owners (h : a.Settled) (ht : a.tasks[i]? = some t) :
    ∀ v ∈ (a.advance i .over).tasks, v.owner < a.views.length := by
  intro v hv
  obtain rfl | ⟨j, _, hv⟩ := (mem_modify_iff ht).mp hv
  · exact h.owners t (List.mem_of_getElem? ht)
  · exact h.owners v (List.mem_of_getElem? hv)

/-- The message that `socks_main` has returned arrives, but the view model is gone. -/
theorem Settled.arrived (h : a.Settled) (ht : a.tasks[i]? = some t)
    (hstage : t.stage = .returned code) (hgone : a.view? t.owner = none) :
    (a.advance i .over).Settled := by
  refine ⟨h.oneView, h.arrived_oneTask ht, fun hm => arrived_ready ht hstage (h.announced hm),
    h.arrived_owners ht, fun k vm hvm => ?_⟩
  have hview := h.view k vm hvm
  have howner : t.owner ≠ k := by
    rintro rfl
    cases hgone.symm.trans hvm
  have hback : ∀ {j : Nat} {v : StartTask}, (a.advance i .over).tasks[j]? = some v →
      v.concerns k → a.tasks[j]? = some v := by
    intro j v hv hc
    obtain hover | ⟨_, hv⟩ := arrived_cases ht hv
    · simp [StartTask.concerns, hover] at hc
    · exact hv
  refine ⟨fun j j' v v' hv hv' hc hc' => ?_, fun v hv hc => ?_, fun hf => ?_, fun hl => ?_,
    hview.idle⟩
  · exact hview.one j j' v v' (hback hv hc) (hback hv' hc') hc hc'
  · obtain ⟨j, hv⟩ := List.getElem?_of_mem hv
    exact hview.own v (List.mem_of_getElem? (hback hv hc)) hc
  · obtain ⟨v, hv, hc⟩ := hview.waits hf
    obtain ⟨j, hv⟩ := List.getElem?_of_mem hv
    refine ⟨v, (mem_modify_iff ht).mpr (.inr ⟨j, ?_, hv⟩), hc⟩
    rintro rfl
    obtain rfl := Option.some.inj (ht.symm.trans hv)
    simp [StartTask.concerns, hstage, howner] at hc
  · exact arrived_ready ht hstage (hview.listens hl)

/-- The message that `socks_main` has returned arrives. -/
theorem Settled.serverFailed (h : a.Settled) (ht : a.tasks[i]? = some t)
    (hstage : t.stage = .returned code) (hvm : a.view? t.owner = some vm) (now : Date) :
    ((a.advance i .over).act t.owner (vm.markServerFailed code now, false)).Settled := by
  have hview := h.view t.owner vm hvm
  have hc : t.concerns t.owner = true := by simp [StartTask.concerns, hstage]
  have hnone : ∀ v ∈ (a.advance i .over).tasks, v.concerns t.owner = false := by
    intro v hv
    obtain ⟨j, hv⟩ := List.getElem?_of_mem hv
    by_contra hcv
    have hcv : v.concerns t.owner = true := by simpa using hcv
    obtain hover | ⟨hj, hv⟩ := arrived_cases ht hv
    · simp [StartTask.concerns, hover] at hcv
    · exact hj (hview.one j i v t hv ht hcv hc)
  refine h.change hvm ⟨fun j j' v v' hv _ hcv _ => ?_, fun v hv hcv => ?_, fun hf => ?_,
    fun hl => ?_, fun _ _ => ⟨code, LifecycleVM.markServerFailed_state vm code now⟩⟩
    (h.arrived_oneTask ht) (arrived_ready ht hstage) (h.arrived_owners ht)
  · rw [hnone v (List.mem_of_getElem? hv)] at hcv
    cases hcv
  · rw [hnone v hv] at hcv
    cases hcv
  · cases hf
  · cases hl

end Arrived

theorem Settled.destroy (h : a.Settled) (k : Nat) (receiver : Option Nat) :
    Settled { a with views := a.views.set k none, receiver } := by
  have hback : ∀ {j v}, LifecycleApp.view? { a with views := a.views.set k none, receiver } j =
      some v → a.view? j = some v := by
    intro j v hv
    unfold LifecycleApp.view? at hv ⊢
    dsimp only at hv
    rw [List.getElem?_set] at hv
    split at hv
    · split at hv <;> cases hv
    · exact hv
  refine ⟨fun i j hi hj => ?_, h.oneTask, h.announced, fun t ht => ?_,
    fun j v hv => h.view j v (hback hv)⟩
  · obtain ⟨v, hv⟩ := Option.isSome_iff_exists.mp hi
    obtain ⟨w, hw⟩ := Option.isSome_iff_exists.mp hj
    exact h.oneView i j (by simp [hback hv]) (by simp [hback hw])
  · rw [List.length_set]
    exact h.owners t ht

theorem view?_add (a : LifecycleApp) (j : Nat) :
    a.add.view? j = if j = a.views.length then some .initial else a.view? j := by
  unfold view? add
  dsimp only
  rw [List.getElem?_append]
  split
  · rename_i hj
    rw [if_neg (by omega)]
  · by_cases hj : j = a.views.length
    · simp [hj]
    · rw [if_neg hj, List.getElem?_eq_none (by simp; omega), List.getElem?_eq_none (by omega)]

/-- A view model is created where there is none, and no task is outstanding. -/
theorem Settled.create (h : a.Settled) (hviews : ∀ k, a.view? k = none)
    (htasks : ∀ t ∈ a.tasks, t.stage.outstanding = false) (now : Date)
    (ipAddress : Option String) :
    (a.add.act a.views.length
      (LifecycleVM.initial.refreshProxyLifecycle now ipAddress)).Settled := by
  have hnone : ∀ t ∈ a.tasks, t.concerns a.views.length = false := by
    intro t ht
    have hout := htasks t ht
    have howner := h.owners t ht
    unfold StartTask.concerns
    cases hs : t.stage <;> simp [hs, StartStage.outstanding] at hout ⊢
    omega
  have hnew := (view?_add a a.views.length).trans (if_pos rfl)
  have hstarts := LifecycleVM.initial_refresh now ipAddress
  have hrefreshed : LifecycleVM.initial.Refreshed
      (LifecycleVM.initial.refreshProxyLifecycle now ipAddress) :=
    LifecycleVM.refreshProxyLifecycle_spec
  generalize LifecycleVM.initial.refreshProxyLifecycle now ipAddress = done at *
  obtain ⟨vm', starts⟩ := done
  obtain rfl : starts = true := hstarts
  cases hrefreshed with
  | kept hd => cases hd
  | started hd hl hf hl' hf' hs =>
      have hat : ∀ j, (a.add.act a.views.length (vm', true)).view? j =
          if j = a.views.length then some vm' else none := by
        intro j
        rw [view?_act hnew]
        split
        · rfl
        · rw [view?_add, if_neg ‹_›, hviews]
      refine ⟨fun i j hi hj => ?_, oneTask_append _ htasks, fun hm => ?_, fun t ht => ?_,
        fun j v hv => ?_⟩
      · have honly : ∀ i, ((a.add.act a.views.length (vm', true)).view? i).isSome →
            i = a.views.length := by
          intro i hi
          by_contra hne
          rw [hat, if_neg hne] at hi
          cases hi
        rw [honly i hi, honly j hj]
      · obtain ⟨t, ht, hr⟩ := h.announced hm
        exact ⟨t, List.mem_append_left _ ht, hr⟩
      · have hlength : (a.add.act a.views.length (vm', true)).views.length =
            a.views.length + 1 := by
          simp [LifecycleApp.act, add]
        rw [hlength]
        rcases List.mem_append.mp ht with ht | ht
        · have := h.owners t ht
          omega
        · rw [List.mem_singleton.mp ht]
          exact Nat.lt_succ_self _
      · rw [hat] at hv
        by_cases hj : j = a.views.length
        · subst hj
          rw [if_pos rfl] at hv
          obtain rfl := Option.some.inj hv
          exact .started hnone hl' hf' hs
        · rw [if_neg hj] at hv
          cases hv

/-- **One event.** -/
theorem Settled.settled {e : LifecycleEvent} (h : a.Settled) (hstep : a.step e = some a')
    (he : Alone a e a') : a'.Settled := by
  cases e with
  | create now ipAddress =>
      obtain rfl := Option.some.inj hstep
      exact h.create he.1 he.2 now ipAddress
  | destroy view =>
      obtain ⟨_, _, hstep⟩ := Option.bind_eq_some_iff.mp hstep
      obtain rfl := Option.some.inj hstep
      exact h.destroy view _
  | tick view now ipAddress =>
      obtain ⟨vm, hvm, hstep⟩ := Option.bind_eq_some_iff.mp hstep
      obtain rfl := Option.some.inj hstep
      exact h.refreshed hvm LifecycleVM.refreshProxyLifecycle_spec
  | tap view now ipAddress =>
      obtain ⟨vm, hvm, hstep⟩ := Option.bind_eq_some_iff.mp hstep
      obtain rfl := Option.some.inj hstep
      exact h.refreshed hvm LifecycleVM.retryProxy_spec
  | call task =>
      obtain ⟨t, ht, hstep⟩ := Option.bind_eq_some_iff.mp hstep
      obtain ⟨hs, hstep⟩ := Option.ite_none_right_eq_some.mp hstep
      obtain rfl := Option.some.inj hstep
      exact h.advance ht (by rw [hs]; rfl) (by simp [hs]) (.inl rfl)
  | setUp task =>
      obtain ⟨t, ht, hstep⟩ := Option.bind_eq_some_iff.mp hstep
      obtain ⟨⟨hs, _⟩, hstep⟩ := Option.ite_none_right_eq_some.mp hstep
      obtain rfl := Option.some.inj hstep
      exact h.setUp ht hs
  | fail task code =>
      obtain ⟨t, ht, hstep⟩ := Option.bind_eq_some_iff.mp hstep
      obtain ⟨hs, hstep⟩ := Option.ite_none_right_eq_some.mp hstep
      obtain rfl := Option.some.inj hstep
      exact h.advance ht (by rw [hs]; rfl) (by simp [hs]) (.inr ⟨code, rfl⟩)
  | deliverReady ipAddress =>
      obtain ⟨hm, hstep⟩ := Option.ite_none_left_eq_some.mp hstep
      have hready := h.announced hm
      dsimp only at hstep
      split at hstep
      · rename_i view vm hreceiver
        obtain rfl := Option.some.inj hstep
        obtain ⟨k, _, hk⟩ := Option.bind_eq_some_iff.mp hreceiver
        obtain ⟨v, hv, hkv⟩ := Option.map_eq_some_iff.mp hk
        obtain ⟨rfl, rfl⟩ := Prod.mk.inj hkv
        exact h.fewer.serverReady hready hv ipAddress
      · obtain rfl := Option.some.inj hstep
        exact h.fewer
  | deliverFailed task now =>
      obtain ⟨t, ht, hstep⟩ := Option.bind_eq_some_iff.mp hstep
      split at hstep
      · rename_i code hs
        dsimp only at hstep
        split at hstep
        · rename_i vm hvm
          obtain rfl := Option.some.inj hstep
          exact h.serverFailed ht hs hvm now
        · rename_i hgone
          obtain rfl := Option.some.inj hstep
          exact h.arrived ht hs hgone
      · cases hstep

/-- Where things are settled, what happens is orderly. -/
theorem Settled.orderly {e : LifecycleEvent} (h : a.Settled) (hstep : a.step e = some a')
    (h' : a'.Settled) : Orderly a e a' where
  one i j t t' ht ht' hl hl' := h'.oneTask i j t t' ht ht' (StartStage.outstanding_of_live hl)
    (StartStage.outstanding_of_live hl')
  notAgain task he t ht hr := by
    subst he
    obtain ⟨u, hu, hstep⟩ := Option.bind_eq_some_iff.mp hstep
    obtain ⟨hs, _⟩ := Option.ite_none_right_eq_some.mp hstep
    obtain ⟨j, ht⟩ := List.getElem?_of_mem ht
    obtain rfl := h.oneTask task j u t hu ht (by rw [hs]; rfl) (by rw [hr]; rfl)
    obtain rfl := Option.some.inj (hu.symm.trans ht)
    rw [hs] at hr
    cases hr
  notFailed k vm hvm code hs t ht hr := by
    have hc : t.concerns k = true := StartTask.concerns_of_outstanding (by rw [hr]; rfl) k
    exact ((h'.view k vm hvm).own t ht hc).2.2 code hs

end Settled

/-! ### Where another view model is created -/

section Converse

variable {a a' : LifecycleApp}

theorem disorder_cons {e : LifecycleEvent} {es : List LifecycleEvent} (h : a.step e = some a')
    (hes : ¬ Along step Orderly a' es) : ¬ Along step Orderly a (e :: es) :=
  fun hall => hes (hall a' h).2

/-- A task is called while another one is in `socks_main`. -/
theorem disorder_call {i n : Nat} {t u : StartTask} (ht : a.tasks[i]? = some t)
    (hlive : t.stage.live = true) (hu : a.tasks[n]? = some u) (hqueued : u.stage = .queued) :
    ¬ Along step Orderly a [.call n] := by
  intro h
  have hstep : a.step (.call n) = some (a.advance n .called) := by
    simp [step, hu, hqueued]
  have hne : i ≠ n := by
    rintro rfl
    obtain rfl := Option.some.inj (ht.symm.trans hu)
    rw [hqueued] at hlive
    cases hlive
  have hold : (a.advance n .called).tasks[i]? = some t :=
    (getElem?_modify_iff hu).mpr (.inr ⟨hne, ht⟩)
  have hnew : (a.advance n .called).tasks[n]? = some { u with stage := .called } :=
    (getElem?_modify_iff hu).mpr (.inl ⟨rfl, rfl⟩)
  exact hne ((h _ hstep).1.one i n _ _ hold hnew hlive rfl)

/-- A task is called, and its server listens, while a view model has failed. -/
theorem disorder_setUp {n k : Nat} {u : StartTask} {vm : LifecycleVM} {code : Int32}
    (hu : a.tasks[n]? = some u) (hqueued : u.stage = .queued)
    (hready : ∀ t ∈ a.tasks, t.stage ≠ .ready) (hvm : a.view? k = some vm)
    (hs : vm.serverState = .failed code) : ¬ Along step Orderly a [.call n, .setUp n] := by
  intro h
  have hcall : a.step (.call n) = some (a.advance n .called) := by
    simp [step, hu, hqueued]
  have hu' : (a.advance n .called).tasks[n]? = some { u with stage := .called } :=
    (getElem?_modify_iff hu).mpr (.inl ⟨rfl, rfl⟩)
  have hready' : ∀ t ∈ (a.advance n .called).tasks, t.stage ≠ .ready := by
    intro t ht
    obtain rfl | ⟨j, _, ht⟩ := (mem_modify_iff hu).mp ht
    · simp
    · exact hready t (List.mem_of_getElem? ht)
  have hsetUp : (a.advance n .called).step (.setUp n) =
      some { (a.advance n .called).advance n .ready with
        readyMessages := a.readyMessages + 1 } := by
    refine Option.bind_eq_some_iff.mpr ⟨_, hu', ?_⟩
    rw [if_pos ⟨rfl, hready'⟩]
    rfl
  have horderly := ((h _ hcall).2 _ hsetUp).1
  exact horderly.notFailed k vm hvm code hs _ ((mem_modify_iff hu').mpr (.inl rfl)) rfl

/-- Two tasks that wait are called, one after the other. -/
theorem disorder_queued {i n : Nat} {t u : StartTask} (hne : n ≠ i) (ht : a.tasks[i]? = some t)
    (hqueued : t.stage = .queued) (hu : a.tasks[n]? = some u) (hqueued' : u.stage = .queued) :
    ¬ Along step Orderly a [.call i, .call n] := by
  have hcall : a.step (.call i) = some (a.advance i .called) := by
    simp [step, ht, hqueued]
  have hcalled : (a.advance i .called).tasks[i]? = some { t with stage := .called } :=
    (getElem?_modify_iff ht).mpr (.inl ⟨rfl, rfl⟩)
  have hu' : (a.advance i .called).tasks[n]? = some u :=
    (getElem?_modify_iff ht).mpr (.inr ⟨hne, hu⟩)
  exact disorder_cons hcall (disorder_call hcalled rfl hu' hqueued')

/-- The message that a task has returned arrives, and then another one is called and listens. -/
theorem disorder_undelivered {i n : Nat} {t u : StartTask} {vm : LifecycleVM} {code : Int32}
    (hne : n ≠ i) (ht : a.tasks[i]? = some t) (hs : t.stage = .returned code)
    (hvm : a.view? t.owner = some vm) (hu : a.tasks[n]? = some u) (hqueued : u.stage = .queued)
    (hready : ∀ t ∈ a.tasks, t.stage ≠ .ready) :
    ¬ Along step Orderly a [.deliverFailed i 0, .call n, .setUp n] := by
  have hvm' : (a.advance i .over).view? t.owner = some vm := hvm
  have hdeliver : a.step (.deliverFailed i 0) = some
      ((a.advance i .over).act t.owner (vm.markServerFailed code 0, false)) := by
    refine Option.bind_eq_some_iff.mpr ⟨t, ht, ?_⟩
    simp only [hs, hvm']
    rfl
  have hu' := (getElem?_modify_iff (f := fun t => { t with stage := .over }) ht).mpr
    (.inr ⟨hne, hu⟩)
  refine disorder_cons hdeliver (disorder_setUp hu' hqueued (fun v hv hr => ?_)
    ((view?_act hvm' _ t.owner).trans (if_pos rfl)) (vm.markServerFailed_state code 0))
  obtain rfl | ⟨j, _, hv⟩ := (mem_modify_iff ht).mp hv
  · cases hr
  · exact hready v (List.mem_of_getElem? hv) hr

/-- What was there before a view model was created, and the task it starts. -/
structure Created (a a' : LifecycleApp) : Prop where
  new : a'.tasks[a.tasks.length]? = some ⟨a.views.length, .queued⟩
  old : ∀ {i t}, a.tasks[i]? = some t → a'.tasks[i]? = some t ∧ a.tasks.length ≠ i
  views : ∀ {k vm}, a.view? k = some vm → a'.view? k = some vm
  ready : (∀ t ∈ a.tasks, t.stage ≠ .ready) → ∀ t ∈ a'.tasks, t.stage ≠ .ready

theorem step_created {now : Date} {ipAddress : Option String}
    (hstep : a.step (.create now ipAddress) = some a') : a.Created a' := by
  obtain rfl := Option.some.inj hstep
  have hstarts := LifecycleVM.initial_refresh now ipAddress
  generalize LifecycleVM.initial.refreshProxyLifecycle now ipAddress = done at *
  obtain ⟨vm', starts⟩ := done
  obtain rfl : starts = true := hstarts
  refine ⟨by simp [act, add], fun {i t} ht => ?_, fun {k vm} hvm => ?_, fun h t ht => ?_⟩
  · have hi := (List.getElem?_eq_some_iff.mp ht).1
    simp only [LifecycleApp.act, add, if_true]
    rw [List.getElem?_append_left hi]
    exact ⟨ht, hi.ne'⟩
  · have hk : k ≠ a.views.length := (view?_lt hvm).ne
    rw [view?_act ((view?_add a a.views.length).trans (if_pos rfl)), if_neg hk, view?_add,
      if_neg hk]
    exact hvm
  · rcases List.mem_append.mp ht with ht | ht
    · exact h t ht
    · rw [List.mem_singleton.mp ht]
      simp

/-- **A view model that is created beside another one, or with a task outstanding, can bring
disorder.** -/
theorem Settled.disorder (h : a.Settled) {now : Date} {ipAddress : Option String}
    (hstep : a.step (.create now ipAddress) = some a')
    (halone : ¬ Alone a (.create now ipAddress) a') :
    ∃ es, Along step Alone a' es ∧ ¬ Along step Orderly a' es := by
  have hcreated := step_created hstep
  by_cases hout : ∃ t ∈ a.tasks, t.stage.outstanding = true
  · obtain ⟨t, ht, hout⟩ := hout
    obtain ⟨i, ht⟩ := List.getElem?_of_mem ht
    obtain ⟨hold, hne⟩ := hcreated.old ht
    by_cases hlive : t.stage.live = true
    · -- The earlier task is in `socks_main`, and the new one follows it.
      exact ⟨[.call a.tasks.length], fun _ _ => ⟨trivial, trivial⟩,
        disorder_call hold hlive hcreated.new rfl⟩
    · -- The earlier task is still to call, and so is the new one.
      have hqueued : t.stage = .queued := by
        cases hs : t.stage <;> simp [hs, StartStage.outstanding, StartStage.live] at hout hlive ⊢
      exact ⟨[.call i, .call a.tasks.length],
        fun _ _ => ⟨trivial, fun _ _ => ⟨trivial, trivial⟩⟩,
        disorder_queued hne hold hqueued hcreated.new rfl⟩
  · have hover : ∀ t ∈ a.tasks, t.stage.outstanding = false := by simpa using hout
    have hready : ∀ t ∈ a.tasks, t.stage ≠ .ready := by
      intro t ht hr
      have := hover t ht
      rw [hr] at this
      cases this
    obtain ⟨k, vm, hvm⟩ : ∃ k vm, a.view? k = some vm := by
      by_contra hnone
      refine halone ⟨fun k => ?_, hover⟩
      cases hk : a.view? k with
      | none => rfl
      | some vm => exact absurd ⟨k, vm, hk⟩ hnone
    have hview := h.view k vm hvm
    cases hf : vm.isProxyStartInFlight with
    | true =>
        -- The message that its task has returned is still on its way.
        obtain ⟨t, ht, hc⟩ := hview.waits hf
        have hout := hover t ht
        obtain ⟨code, hs, rfl⟩ : ∃ code, t.stage = .returned code ∧ t.owner = k := by
          unfold StartTask.concerns at hc
          cases hs : t.stage <;> simp [hs, StartStage.outstanding] at hout hc ⊢
          exact hc
        obtain ⟨i, ht⟩ := List.getElem?_of_mem ht
        obtain ⟨hold, hne⟩ := hcreated.old ht
        exact ⟨[.deliverFailed i 0, .call a.tasks.length, .setUp a.tasks.length],
          fun _ _ => ⟨trivial, fun _ _ => ⟨trivial, fun _ _ => ⟨trivial, trivial⟩⟩⟩,
          disorder_undelivered hne hold hs (hcreated.views hvm) hcreated.new rfl
            (hcreated.ready hready)⟩
    | false =>
        have hl : vm.isProxyListening = false := by
          by_contra hl
          obtain ⟨t, ht, hr⟩ := hview.listens (by simpa using hl)
          exact hready t ht hr
        obtain ⟨code, hs⟩ := hview.idle hf hl
        exact ⟨[.call a.tasks.length, .setUp a.tasks.length],
          fun _ _ => ⟨trivial, fun _ _ => ⟨trivial, trivial⟩⟩,
          disorder_setUp hcreated.new rfl (hcreated.ready hready) (hcreated.views hvm) hs⟩

end Converse

end LifecycleApp

/-! ### The result -/

open LifecycleApp

/--
**One server, as long as view models are alone when they are created.**

Over any events of one process.  And only then: whatever happened before, from a creation that is
not so the events can go on, without another creation, to where it is not orderly.
-/
theorem server_lifecycle_orderly_iff (es : List LifecycleEvent) :
    (Along step Alone .initial es → Along step Orderly .initial es) ∧
      ∀ a e a', Along step Alone .initial es → es.foldlM step .initial = some a →
        a.step e = some a' →
          (Alone a e a' ↔ ∀ es', Along step Alone a' es' →
            Orderly a e a' ∧ Along step Orderly a' es') := by
  have hrun : ∀ {a es}, Settled a → Along step Alone a es → Along step Orderly a es :=
    fun ha hes => hes.invariant ha (fun ha h he => ha.orderly h (ha.settled h he))
      fun ha h he => ha.settled h he
  refine ⟨hrun initial_settled, fun a e a' hes hend hstep => ?_⟩
  have ha : a.Settled := hes.ends initial_settled (fun ha h he => ha.settled h he) hend
  constructor
  · intro halone es' hes'
    have ha' := ha.settled hstep halone
    exact ⟨ha.orderly hstep ha', hrun ha' hes'⟩
  · intro hall
    by_contra halone
    cases e with
    | create now ipAddress =>
        obtain ⟨es', hes', hdisorder⟩ := ha.disorder hstep halone
        exact hdisorder (hall es' hes').2
    | _ => exact halone trivial

/-- A first attempt fails, and another one is made two seconds later. -/
def retried : List LifecycleEvent :=
  [.create 0 none, .call 0, .fail 0 1, .deliverFailed 0 1, .tick 0 2 none, .tick 0 3 none, .call 1,
    .setUp 1, .deliverReady none]

/-- One view model keeps to one server. -/
theorem server_lifecycle_orderly_retried : Along step Orderly .initial retried :=
  (server_lifecycle_orderly_iff retried).1 fun _ _ => ⟨⟨fun k => by simp [initial, view?],
    fun t ht => by cases ht⟩, fun _ _ => ⟨trivial, fun _ _ => ⟨trivial, fun _ _ => ⟨trivial,
      fun _ _ => ⟨trivial, fun _ _ => ⟨trivial, fun _ _ => ⟨trivial, fun _ _ => ⟨trivial,
        fun _ _ => ⟨trivial, trivial⟩⟩⟩⟩⟩⟩⟩⟩⟩

/-- A second view model is created while the server of the first listens. -/
def secondView : List LifecycleEvent :=
  [.create 0 none, .call 0, .setUp 0, .deliverReady none, .create 5 none, .call 1, .fail 1 1,
    .deliverFailed 1 6]

/-- It calls `socks_main` again, and fails. -/
theorem server_lifecycle_disorder : ¬ ∀ es, Along step Orderly .initial es := by
  intro h
  have hes := h secondView
  have hsecond := ((((hes _ rfl).2 _ rfl).2 _ rfl).2 _ rfl).2 _ rfl
  have hfailed := (((hsecond.2 _ rfl).2 _ rfl).2 _ rfl).1
  exact hfailed.notFailed 1 _ rfl 1 rfl ⟨0, .ready⟩ (List.mem_cons_self ..) rfl

end TwoSocks
