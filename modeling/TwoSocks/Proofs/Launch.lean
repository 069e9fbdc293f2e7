/-
What the app says of its server.

With `socks_main` in it the app does only what its lifecycle allows.  A task says that the server is
ready while it holds a socket that listens, and another one that said so would hold one too; that
is why a second one is never ready.  The code it returns is 1.

And the app is right: a view model that listens, or shows that the server runs or waits for the
network, was told so by a task that is still in the accept loop, and its socket listens.  The other
way round it need not be, since the message may be under way or have gone to another view model.
-/
import TwoSocks.App.Launch
import TwoSocks.Proofs.ServerLifecycle
import TwoSocks.Proofs.Startup

namespace TwoSocks

/-! ### One view model -/

namespace LifecycleVM

/-- It shows a server only if it listens, and no other code than 1. -/
structure Honest (vm : LifecycleVM) : Prop where
  up : vm.serverState = .running ∨ vm.serverState = .waitingForNetwork → vm.isProxyListening = true
  fails : ∀ code, vm.serverState = .failed code → code = 1

variable {vm : LifecycleVM} {now : Date} {ipAddress : Option String}

theorem initial_honest : initial.Honest := by
  refine ⟨?_, nofun⟩
  rintro (h | h) <;> cases h

theorem Honest.refreshEndpointAvailability (h : vm.Honest) :
    (vm.refreshEndpointAvailability ipAddress).Honest := by
  have hup : ∀ (state : ProxyServerState) (endpointDisplay : String), vm.isProxyListening = true →
      (∀ code, state ≠ .failed code) →
      Honest { vm with serverState := state, endpointDisplay } := fun _ _ hl hs =>
    ⟨fun _ => hl, fun code hc => absurd hc (hs code)⟩
  unfold LifecycleVM.refreshEndpointAvailability
  cases ipAddress with
  | none =>
      dsimp only
      split
      · exact hup _ _ ‹_› nofun
      · exact h
  | some ipAddress =>
      dsimp only
      split
      · exact hup _ _ ‹_› nofun
      · exact ⟨h.up, h.fails⟩

theorem Honest.startProxy (h : vm.Honest) : (vm.startProxy ipAddress).1.Honest := by
  unfold LifecycleVM.startProxy
  split
  · refine Honest.refreshEndpointAvailability ⟨?_, nofun⟩
    rintro (h | h) <;> cases h
  · exact h

theorem Honest.refreshProxyLifecycle (h : vm.Honest) :
    (vm.refreshProxyLifecycle now ipAddress).1.Honest := by
  unfold LifecycleVM.refreshProxyLifecycle
  split
  · exact h.refreshEndpointAvailability
  split
  · exact h
  split
  · exact h.startProxy
  split
  · exact h.startProxy
  · exact h

theorem Honest.retryProxy (h : vm.Honest) : (vm.retryProxy now ipAddress).1.Honest := by
  unfold LifecycleVM.retryProxy
  split
  · exact Honest.refreshProxyLifecycle ⟨h.up, h.fails⟩
  · exact h

theorem Honest.handleServerReady (h : vm.Honest) : (vm.handleServerReady ipAddress).Honest :=
  Honest.refreshEndpointAvailability ⟨fun _ => rfl, h.fails⟩

theorem markServerFailed_honest (vm : LifecycleVM) (now : Date) :
    (vm.markServerFailed 1 now).Honest := by
  have hs := markServerFailed_state vm 1 now
  refine ⟨?_, fun code hc => ?_⟩
  · rw [hs]
    rintro (h | h) <;> cases h
  · exact (ProxyServerState.failed.inj (hs.symm.trans hc)).symm

/-- A refresh does not make a view model listen. -/
theorem Refreshed.listening {done : LifecycleVM × Bool} (h : Refreshed vm done)
    (hl : done.1.isProxyListening = true) : vm.isProxyListening = true := by
  cases h with
  | started _ _ _ hl' =>
      rw [hl'] at hl
      cases hl
  | kept _ hl' => exact hl'.symm.trans hl

end LifecycleVM

/-! ### The app -/

namespace LifecycleApp

/-- Some task is in the accept loop. -/
def Serving (a : LifecycleApp) : Prop := ∃ t ∈ a.tasks, t.stage = .ready

structure Truthful (a : LifecycleApp) : Prop where
  codes : ∀ t ∈ a.tasks, ∀ code, t.stage = .returned code → code = 1
  announced : a.readyMessages ≠ 0 → a.Serving
  honest : ∀ k vm, a.view? k = some vm → vm.Honest
  listens : ∀ k vm, a.view? k = some vm → vm.isProxyListening = true → a.Serving

variable {a a' : LifecycleApp} {k : Nat} {vm : LifecycleVM}

theorem initial_truthful : initial.Truthful :=
  ⟨nofun, fun h => absurd rfl h, fun k vm h => by simp [initial, view?] at h,
    fun k vm h => by simp [initial, view?] at h⟩

theorem Serving.act (h : a.Serving) (done : LifecycleVM × Bool) : (a.act k done).Serving := by
  obtain ⟨t, ht, hs⟩ := h
  refine ⟨t, ?_, hs⟩
  unfold LifecycleApp.act
  dsimp only
  split
  · exact List.mem_append_left _ ht
  · exact ht

theorem Truthful.act (h : a.Truthful) (hvm : a.view? k = some vm) {done : LifecycleVM × Bool}
    (hd : done.1.Honest) (hl : done.1.isProxyListening = true → a.Serving) :
    (a.act k done).Truthful := by
  refine ⟨fun t ht code hc => ?_, fun hm => (h.announced hm).act done, fun j vm' hvm' => ?_,
    fun j vm' hvm' hl' => ?_⟩
  · unfold LifecycleApp.act at ht
    dsimp only at ht
    split at ht
    · rcases List.mem_append.mp ht with ht | ht
      · exact h.codes t ht code hc
      · rw [List.mem_singleton.mp ht] at hc
        cases hc
    · exact h.codes t ht code hc
  · rw [view?_act hvm] at hvm'
    split at hvm'
    · obtain rfl := Option.some.inj hvm'
      exact hd
    · exact h.honest j vm' hvm'
  · rw [view?_act hvm] at hvm'
    split at hvm'
    · obtain rfl := Option.some.inj hvm'
      exact (hl hl').act done
    · exact (h.listens j vm' hvm' hl').act done

/-- A view model does what can start a task. -/
theorem Truthful.refreshed (h : a.Truthful) (hvm : a.view? k = some vm)
    {done : LifecycleVM × Bool} (hd : done.1.Honest) (hr : vm.Refreshed done) :
    (a.act k done).Truthful :=
  h.act hvm hd fun hl => h.listens k vm hvm (hr.listening hl)

theorem Truthful.advance (h : a.Truthful) {i : Nat} {t : StartTask} (ht : a.tasks[i]? = some t)
    (hne : t.stage ≠ .ready) {stage : StartStage}
    (hcode : ∀ code, stage = .returned code → code = 1) : (a.advance i stage).Truthful := by
  have hserving : a.Serving → (a.advance i stage).Serving := by
    rintro ⟨t', ht', hs⟩
    obtain ⟨j, hj⟩ := List.getElem?_of_mem ht'
    refine ⟨t', (Cells.mem_modify_iff ht).mpr (.inr ⟨j, ?_, hj⟩), hs⟩
    rintro rfl
    obtain rfl := Option.some.inj (ht.symm.trans hj)
    exact hne hs
  refine ⟨fun t' ht' code hc => ?_, fun hm => hserving (h.announced hm), h.honest,
    fun j vm hvm hl => hserving (h.listens j vm hvm hl)⟩
  rcases Cells.mem_modify ht' with ht' | ⟨t', _, rfl⟩
  · exact h.codes t' ht' code hc
  · exact hcode code hc

/-- A task is ready and says so. -/
theorem Truthful.announce (h : a.Truthful) {i : Nat} {t : StartTask} (ht : a.tasks[i]? = some t)
    (hne : t.stage ≠ .ready) :
    Truthful { a.advance i .ready with readyMessages := a.readyMessages + 1 } :=
  have h' : (a.advance i .ready).Truthful := h.advance ht hne nofun
  ⟨h'.codes, fun _ => ⟨_, (Cells.mem_modify_iff ht).mpr (.inl rfl), rfl⟩, h'.honest, h'.listens⟩

theorem Truthful.fewer (h : a.Truthful) :
    Truthful { a with readyMessages := a.readyMessages - 1 } :=
  ⟨h.codes, fun hm => h.announced fun h0 => hm (by rw [h0]), h.honest, h.listens⟩

theorem Truthful.add (h : a.Truthful) : a.add.Truthful := by
  refine ⟨h.codes, h.announced, fun j vm hvm => ?_, fun j vm hvm hl => ?_⟩
  · rw [view?_add] at hvm
    split at hvm
    · obtain rfl := Option.some.inj hvm
      exact LifecycleVM.initial_honest
    · exact h.honest j vm hvm
  · rw [view?_add] at hvm
    split at hvm
    · obtain rfl := Option.some.inj hvm
      cases hl
    · exact h.listens j vm hvm hl

theorem Truthful.destroy (h : a.Truthful) (k : Nat) (receiver : Option Nat) :
    Truthful { a with views := a.views.set k none, receiver } := by
  have hback : ∀ {j v}, view? { a with views := a.views.set k none, receiver } j = some v →
      a.view? j = some v := by
    intro j v hv
    unfold view? at hv ⊢
    dsimp only at hv
    rw [List.getElem?_set] at hv
    split at hv
    · split at hv <;> cases hv
    · exact hv
  exact ⟨h.codes, h.announced, fun j v hv => h.honest j v (hback hv),
    fun j v hv => h.listens j v (hback hv)⟩

/-- **What happens on the main actor keeps the app truthful.** -/
theorem Truthful.event (h : a.Truthful) {e : LifecycleEvent} (he : e.onMainActor)
    (hstep : a.step e = some a') : a'.Truthful := by
  cases e with
  | create now ipAddress =>
      obtain rfl := Option.some.inj hstep
      have hnew := (view?_add a a.views.length).trans (if_pos rfl)
      exact h.add.refreshed hnew LifecycleVM.initial_honest.refreshProxyLifecycle
        LifecycleVM.refreshProxyLifecycle_spec
  | destroy view =>
      obtain ⟨_, _, hstep⟩ := Option.bind_eq_some_iff.mp hstep
      obtain rfl := Option.some.inj hstep
      exact h.destroy view _
  | tick view now ipAddress =>
      obtain ⟨vm, hvm, hstep⟩ := Option.bind_eq_some_iff.mp hstep
      obtain rfl := Option.some.inj hstep
      exact h.refreshed hvm (h.honest view vm hvm).refreshProxyLifecycle
        LifecycleVM.refreshProxyLifecycle_spec
  | tap view now ipAddress =>
      obtain ⟨vm, hvm, hstep⟩ := Option.bind_eq_some_iff.mp hstep
      obtain rfl := Option.some.inj hstep
      exact h.refreshed hvm (h.honest view vm hvm).retryProxy LifecycleVM.retryProxy_spec
  | call task => exact he.elim
  | setUp task => exact he.elim
  | fail task code => exact he.elim
  | deliverReady ipAddress =>
      obtain ⟨hm, hstep⟩ := Option.ite_none_left_eq_some.mp hstep
      dsimp only at hstep
      split at hstep
      · rename_i view vm hreceiver
        obtain rfl := Option.some.inj hstep
        obtain ⟨k, _, hk⟩ := Option.bind_eq_some_iff.mp hreceiver
        obtain ⟨v, hv, hkv⟩ := Option.map_eq_some_iff.mp hk
        obtain ⟨rfl, rfl⟩ := Prod.mk.inj hkv
        exact h.fewer.act hv (h.honest k v hv).handleServerReady fun _ => h.announced hm
      · obtain rfl := Option.some.inj hstep
        exact h.fewer
  | deliverFailed task now =>
      obtain ⟨t, ht, hstep⟩ := Option.bind_eq_some_iff.mp hstep
      split at hstep
      · rename_i code hs
        have hover : (a.advance task .over).Truthful := h.advance ht (by simp [hs]) nofun
        dsimp only at hstep
        split at hstep
        · rename_i vm hvm
          obtain rfl := Option.some.inj hstep
          obtain rfl := h.codes t (List.mem_of_getElem? ht) code hs
          exact hover.act hvm (LifecycleVM.markServerFailed_honest vm now) nofun
        · obtain rfl := Option.some.inj hstep
          exact hover
      · cases hstep

/-- What becomes of the tasks on the main actor. -/
inductive TasksMoved (tasks : List StartTask) : List StartTask → Prop
  | same : TasksMoved tasks tasks
  | queued (owner : Nat) : TasksMoved tasks (tasks ++ [⟨owner, .queued⟩])
  | arrived {i : Nat} {t : StartTask} {code : Int32} (ht : tasks[i]? = some t)
      (hs : t.stage = .returned code) :
      TasksMoved tasks (tasks.modify i fun t => { t with stage := .over })

theorem act_moved (a : LifecycleApp) (k : Nat) (done : LifecycleVM × Bool) :
    TasksMoved a.tasks (a.act k done).tasks := by
  unfold LifecycleApp.act
  dsimp only
  split
  · exact .queued k
  · exact .same

theorem event_moved {e : LifecycleEvent} (he : e.onMainActor) (hstep : a.step e = some a') :
    TasksMoved a.tasks a'.tasks := by
  cases e with
  | create now ipAddress =>
      obtain rfl := Option.some.inj hstep
      exact act_moved a.add _ _
  | destroy view =>
      obtain ⟨_, _, hstep⟩ := Option.bind_eq_some_iff.mp hstep
      obtain rfl := Option.some.inj hstep
      exact .same
  | tick view now ipAddress =>
      obtain ⟨vm, hvm, hstep⟩ := Option.bind_eq_some_iff.mp hstep
      obtain rfl := Option.some.inj hstep
      exact act_moved a _ _
  | tap view now ipAddress =>
      obtain ⟨vm, hvm, hstep⟩ := Option.bind_eq_some_iff.mp hstep
      obtain rfl := Option.some.inj hstep
      exact act_moved a _ _
  | call task => exact he.elim
  | setUp task => exact he.elim
  | fail task code => exact he.elim
  | deliverReady ipAddress =>
      obtain ⟨_, hstep⟩ := Option.ite_none_left_eq_some.mp hstep
      dsimp only at hstep
      split at hstep
      · obtain rfl := Option.some.inj hstep
        exact .same
      · obtain rfl := Option.some.inj hstep
        exact .same
  | deliverFailed task now =>
      obtain ⟨t, ht, hstep⟩ := Option.bind_eq_some_iff.mp hstep
      split at hstep
      · rename_i code hs
        dsimp only at hstep
        split at hstep
        · obtain rfl := Option.some.inj hstep
          exact .arrived ht hs
        · obtain rfl := Option.some.inj hstep
          exact .arrived ht hs
      · cases hstep

end LifecycleApp

/-! ### The tasks and their programs -/

/-- What the app takes a task for, and where its program is. -/
inductive Tells : StartStage → StartStage → Prop
  | same {stage : StartStage} : Tells stage stage
  | arrived {code : Int32} : Tells .over (.returned code)

theorem Tells.eq {stage stage' : StartStage} (h : Tells stage stage') (hne : stage ≠ .over) :
    stage' = stage := by
  cases h with
  | same => rfl
  | arrived => exact absurd rfl hne

theorem Tells.not_live {stage stage' : StartStage} (h : Tells stage stage')
    (hl : stage.live = false) : stage'.live = false := by
  cases h with
  | same => exact hl
  | arrived => rfl

theorem Tells.called {stage : StartStage} (h : Tells stage .called) : stage = .called := by
  cases h
  rfl

/-- Each task that was begun has its program. -/
structure Matched (tasks : List StartTask) (ts : List (Thread startupSys Nat Unit)) : Prop where
  ids : (ts.map Thread.id).Nodup
  told : ∀ t ∈ ts, ∃ task, tasks[t.id]? = some task ∧ Tells task.stage (stageOf t.trace)
  begun : ∀ i task, tasks[i]? = some task → task.stage ≠ .queued → ∃ t ∈ ts, t.id = i

namespace LifecycleApp

variable {a : LifecycleApp} {i j : Nat} {t : StartTask} {stage : StartStage}

theorem advance_self (ht : a.tasks[i]? = some t) :
    (a.advance i stage).tasks[i]? = some { t with stage } :=
  (Cells.getElem?_modify_iff ht).mpr (.inl ⟨rfl, rfl⟩)

theorem advance_other (hj : j ≠ i) : (a.advance i stage).tasks[j]? = a.tasks[j]? := by
  unfold advance
  dsimp only
  rw [List.getElem?_modify_ne _ _ hj.symm]

end LifecycleApp

section Matched

variable {tasks tasks' : List StartTask} {ts pre post : List (Thread startupSys Nat Unit)}

theorem Matched.moved (h : Matched tasks ts) (hm : LifecycleApp.TasksMoved tasks tasks') :
    Matched tasks' ts := by
  cases hm with
  | same => exact h
  | queued owner =>
      refine ⟨h.ids, fun t ht => ?_, fun i task hi hs => ?_⟩
      · obtain ⟨task, htask, htells⟩ := h.told t ht
        have hlt := (List.getElem?_eq_some_iff.mp htask).1
        exact ⟨task, (List.getElem?_append_left hlt).trans htask, htells⟩
      · rw [List.getElem?_append] at hi
        split at hi
        · exact h.begun i task hi hs
        · obtain rfl := List.mem_singleton.mp (List.mem_of_getElem? hi)
          exact absurd rfl hs
  | @arrived i u code hu hs =>
      refine ⟨h.ids, fun t ht => ?_, fun j task hj hs' => ?_⟩
      · obtain ⟨task, htask, htells⟩ := h.told t ht
        by_cases hi : t.id = i
        · subst hi
          obtain rfl := Option.some.inj (hu.symm.trans htask)
          refine ⟨_, (Cells.getElem?_modify_iff hu).mpr (.inl ⟨rfl, rfl⟩), ?_⟩
          rw [htells.eq (by simp [hs]), hs]
          exact .arrived
        · exact ⟨task, (Cells.getElem?_modify_iff hu).mpr (.inr ⟨hi, htask⟩), htells⟩
      · rcases (Cells.getElem?_modify_iff hu).mp hj with ⟨rfl, rfl⟩ | ⟨_, hj⟩
        · exact h.begun j u hu (by simp [hs])
        · exact h.begun j task hj hs'

/-- One task's program goes on, and the app is told of it. -/
theorem Matched.go {i : Nat} {p p' : Startup Unit} {past past' : Trace startupSys}
    (h : Matched tasks (pre ++ ⟨i, p, (), past⟩ :: post))
    (hself : ∃ task, tasks'[i]? = some task ∧ Tells task.stage (stageOf past'))
    (hother : ∀ j, j ≠ i → tasks'[j]? = tasks[j]?) :
    Matched tasks' (pre ++ ⟨i, p', (), past'⟩ :: post) := by
  have hids := h.ids
  rw [List.map_append, List.map_cons] at hids
  have hne : ∀ t, t ∈ pre ∨ t ∈ post → t.id ≠ i := by
    rintro t ht rfl
    obtain ⟨_, hcons, hdisj⟩ := List.nodup_append.mp hids
    rcases ht with ht | ht
    · exact hdisj _ (List.mem_map_of_mem ht) _ List.mem_cons_self rfl
    · exact (List.nodup_cons.mp hcons).1 (List.mem_map.mpr ⟨t, ht, rfl⟩)
  refine ⟨by rwa [List.map_append, List.map_cons], fun t ht => ?_, fun j task hj hs => ?_⟩
  · rcases List.mem_append.mp ht with ht | ht
    · rw [hother _ (hne t (.inl ht))]
      exact h.told t (List.mem_append_left _ ht)
    rcases List.mem_cons.mp ht with rfl | ht
    · exact hself
    · rw [hother _ (hne t (.inr ht))]
      exact h.told t (List.mem_append_right _ (List.mem_cons_of_mem _ ht))
  · by_cases hi : j = i
    · exact ⟨_, List.mem_append_right _ List.mem_cons_self, hi.symm⟩
    rw [hother j hi] at hj
    obtain ⟨t, ht, rfl⟩ := h.begun j task hj hs
    rcases List.mem_append.mp ht with ht | ht
    · exact ⟨t, List.mem_append_left _ ht, rfl⟩
    rcases List.mem_cons.mp ht with rfl | ht
    · exact absurd rfl hi
    · exact ⟨t, List.mem_append_right _ (List.mem_cons_of_mem _ ht), rfl⟩

/-- A queued task is begun. -/
theorem Matched.begin {i : Nat} {task : StartTask} (h : Matched tasks ts)
    (ht : tasks[i]? = some task) (hs : task.stage = .queued)
    (hstages : ∀ t ∈ ts, stageOf t.trace ≠ .queued) (p : Startup Unit) :
    Matched (tasks.modify i fun t => { t with stage := .called }) (ts ++ [⟨i, p, (), []⟩]) := by
  have hnew : ∀ t ∈ ts, t.id ≠ i := by
    rintro t hmem rfl
    obtain ⟨task', htask', htells⟩ := h.told t hmem
    obtain rfl := Option.some.inj (ht.symm.trans htask')
    exact hstages t hmem ((htells.eq (by simp [hs])).trans hs)
  refine ⟨?_, fun t hmem => ?_, fun j task' hj hs' => ?_⟩
  · rw [List.map_append, List.nodup_append]
    refine ⟨h.ids, List.nodup_singleton _, ?_⟩
    rintro _ hmem _ hmem' rfl
    obtain ⟨t, hmem, heq⟩ := List.mem_map.mp hmem
    rw [List.map_singleton, List.mem_singleton] at hmem'
    exact hnew t hmem (heq.trans hmem')
  · rcases List.mem_append.mp hmem with hmem | hmem
    · obtain ⟨task', htask', htells⟩ := h.told t hmem
      exact ⟨task', (Cells.getElem?_modify_iff ht).mpr (.inr ⟨hnew t hmem, htask'⟩), htells⟩
    · rw [List.mem_singleton.mp hmem]
      exact ⟨_, (Cells.getElem?_modify_iff ht).mpr (.inl ⟨rfl, rfl⟩), .same⟩
  · rcases (Cells.getElem?_modify_iff ht).mp hj with ⟨rfl, _⟩ | ⟨_, hj⟩
    · exact ⟨_, List.mem_append_right _ (List.mem_singleton_self _), rfl⟩
    · obtain ⟨t, hmem, heq⟩ := h.begun j task' hj hs'
      exact ⟨t, List.mem_append_left _ hmem, heq⟩

end Matched

/-! ### The app with its tasks -/

/-- The app has come to where its lifecycle can come. -/
def LifecycleApp.Comes (a : LifecycleApp) : Prop :=
  ∃ es : List LifecycleEvent, es.foldlM LifecycleApp.step .initial = some a

theorem LifecycleApp.Comes.step {a a' : LifecycleApp} {e : LifecycleEvent} (h : a.Comes)
    (hstep : a.step e = some a') : a'.Comes := by
  obtain ⟨es, hes⟩ := h
  refine ⟨es ++ [e], ?_⟩
  rw [List.foldlM_append, hes]
  simpa using hstep

structure Sound (resolves : Host.Resolves) (out : Outcome) (l : Launch) : Prop where
  process : Starting resolves out l.process
  comes : l.app.Comes
  truthful : l.app.Truthful
  matched : Matched l.app.tasks l.process.threads

section Sound

variable {resolves : Host.Resolves} {out : Outcome} {here : SockaddrUnion} {l l' : Launch}

/-- A step of a task is at most one operation. -/
theorem startup_step {whole : startupSys.Tag → Prop} {p p' : Startup Unit} {tr : Trace startupSys}
    (h : Prog.Step whole p tr p') : tr = [] ∨ ∃ o r, tr = [⟨o, r⟩] := by
  cases h with
  | call r => exact .inr ⟨_, r, rfl⟩
  | unfold => exact .inl rfl
  | @whole _ _ t => exact nomatch t
  | @enter _ _ t => exact nomatch t

theorem told_silent (a : LifecycleApp) (task : Nat) {o : StartupOp} (ho : o.silent) :
    a.told task o = a := by
  cases o <;> first | rfl | cases ho

section Go

variable {a : LifecycleApp} {w w' : Host} {pre post : List (Thread startupSys Nat Unit)}
  {task : Nat} {t : StartTask} {p p' : Startup Unit} {past tr : Trace startupSys}

/-- A task that has a socket that listens, and has not said so, is the only one that can be
ready. -/
theorem Sound.none_ready (hres : resolves.Single out here)
    (h : Sound resolves out ⟨a, ⟨w, pre ++ ⟨task, p, (), past⟩ :: post⟩⟩) {s : HostSocket}
    (hs : s ∈ (startState past).held) (hl : s.listening = true) (hcalled : stageOf past = .called) :
    ∀ t ∈ a.tasks, t.stage ≠ .ready := by
  intro t ht hready
  obtain ⟨j, hj⟩ := List.getElem?_of_mem ht
  obtain ⟨u, hu, rfl⟩ := h.matched.begun j t hj (by simp [hready])
  obtain ⟨t', ht', htells⟩ := h.matched.told u hu
  obtain rfl := Option.some.inj (hj.symm.trans ht')
  have hu' : stageOf u.trace = .ready := (htells.eq (by simp [hready])).trans hready
  have honly : ∀ u ∈ pre ++ post, stageOf u.trace ≠ .ready := fun u hu =>
    h.process.only hres hs hl hu
  rcases List.mem_append.mp hu with hu | hu
  · exact honly u (List.mem_append_left _ hu) hu'
  rcases List.mem_cons.mp hu with rfl | hu
  · cases hcalled.symm.trans hu'
  · exact honly u (List.mem_append_right _ hu) hu'

/-- A task says something. -/
theorem Sound.says (h : Sound resolves out ⟨a, ⟨w, pre ++ ⟨task, p, (), past⟩ :: post⟩⟩)
    (hcalled : stageOf past = .called) : ∃ t, a.tasks[task]? = some t ∧ t.stage = .called ∧
      ∀ stage past', stageOf past' = stage →
        Matched (a.advance task stage).tasks (pre ++ ⟨task, p', (), past'⟩ :: post) := by
  obtain ⟨t, ht, htells⟩ := h.matched.told _ (List.mem_append_right _ List.mem_cons_self)
  simp only [hcalled] at htells
  exact ⟨t, ht, htells.called, fun stage past' hstage => h.matched.go
    ⟨_, LifecycleApp.advance_self ht, hstage ▸ .same⟩ fun j hj => LifecycleApp.advance_other hj⟩

theorem Sound.go (hres : resolves.Single out here)
    (h : Sound resolves out ⟨a, ⟨w, pre ++ ⟨task, p, (), past⟩ :: post⟩⟩)
    (hstep : Prog.Step (fun _ => True) p tr p')
    (hp : Pool.Performs (Host.machine resolves) w () tr w' ()) :
    Sound resolves out ⟨tr.foldl (fun a e => a.told task e.op) a,
      ⟨w', pre ++ ⟨task, p', (), past ++ tr⟩ :: post⟩⟩ := by
  have hprocess := h.process.step (.thread hstep hp)
  have hmem : (⟨task, p, (), past⟩ : Thread startupSys Nat Unit) ∈
      pre ++ ⟨task, p, (), past⟩ :: post := List.mem_append_right _ List.mem_cons_self
  obtain ⟨t, ht, htells⟩ := h.matched.told _ hmem
  rcases startup_step hstep with rfl | ⟨o, r, rfl⟩
  · exact ⟨hprocess, h.comes, h.truthful,
      h.matched.go ⟨t, ht, by simpa using htells⟩ fun _ _ => rfl⟩
  have hasks : (startSpec out here).guar (startState past) o := h.process.asks hres hmem hstep
  have hlast : stageOf (past ++ [⟨o, r⟩]) = (stageOf past).after o := stageOf_append ..
  show Sound resolves out ⟨a.told task o, _⟩
  by_cases ho : o.silent
  · rw [told_silent a task ho]
    exact ⟨hprocess, h.comes, h.truthful, h.matched.go
      ⟨t, ht, by rwa [hlast, StartStage.after_silent _ ho]⟩ fun _ _ => rfl⟩
  cases o with
  | serverReady =>
      obtain ⟨hcalled, _, fd, held⟩ := hasks
      rw [startState_past] at hcalled
      obtain ⟨t, ht, hs, hmatched⟩ := h.says hcalled
      have hnone := h.none_ready hres (by rw [held]; exact List.mem_singleton_self _) rfl hcalled
      have hstep : a.step (.setUp task) = some (a.told task .serverReady) := by
        simp only [LifecycleApp.step, ht, Option.bind_eq_bind, Option.bind_some]
        exact if_pos ⟨hs, hnone⟩
      exact ⟨hprocess, h.comes.step hstep, h.truthful.announce ht (by simp [hs]),
        hmatched _ _ hlast⟩
  | markServerFailed code =>
      obtain ⟨hcalled, _, _, rfl⟩ := hasks
      rw [startState_past] at hcalled
      obtain ⟨t, ht, hs, hmatched⟩ := h.says hcalled
      have hstep : a.step (.fail task 1) = some (a.told task (.markServerFailed 1)) := by
        simp only [LifecycleApp.step, ht, Option.bind_eq_bind, Option.bind_some]
        exact if_pos hs
      exact ⟨hprocess, h.comes.step hstep, h.truthful.advance ht (by simp [hs]) (by simp),
        hmatched _ _ hlast⟩
  | _ => exact absurd trivial ho

end Go

/-- **One step of the app or of a task.** -/
theorem Sound.step (hres : resolves.Single out here) (h : Sound resolves out l)
    (hs : LaunchStep resolves out l l') : Sound resolves out l' := by
  cases hs with
  | event he hstep =>
      exact ⟨h.process, h.comes.step hstep, h.truthful.event he hstep,
        h.matched.moved (LifecycleApp.event_moved he hstep)⟩
  | @begin a w ts task t ht hq =>
      have hstages : ∀ t ∈ ts, stageOf t.trace ≠ .queued := by
        intro t ht hqueued
        rw [← startState_past t.trace] at hqueued
        cases h.process.placed hres ht with
        | called hs => cases hs.symm.trans hqueued
        | ready hs => cases hs.symm.trans hqueued
        | returned hs => cases hs.symm.trans hqueued
      have hstep : a.step (.call task) = some (a.advance task .called) := by
        simp [LifecycleApp.step, ht, hq]
      exact ⟨h.process.step (.start task), h.comes.step hstep,
        h.truthful.advance ht (by simp [hq]) (by simp), h.matched.begin ht hq hstages _⟩
  | go hstep hp => exact h.go hres hstep hp

theorem Launched.sound (hres : resolves.Single out here) (h : Launched resolves out l) :
    Sound resolves out l := by
  induction h with
  | refl => exact ⟨.init, ⟨[], rfl⟩, LifecycleApp.initial_truthful, ⟨.nil, by simp [Launch.initial],
      by simp [Launch.initial, LifecycleApp.initial]⟩⟩
  | tail _ hs ih => exact ih.step hres hs

/-- A task runs on alone. -/
theorem Launched.runs {a : LifecycleApp} {pre post : List (Thread startupSys Nat Unit)} {task : Nat}
    {p p' : Startup Unit} {past tr : Trace startupSys}
    (h : Prog.Steps (fun _ => True) p tr p') : ∀ {w w' : Host},
      Pool.Performs (Host.machine resolves) w () tr w' () →
        Launched resolves out ⟨a, ⟨w, pre ++ ⟨task, p, (), past⟩ :: post⟩⟩ →
          Launched resolves out ⟨tr.foldl (fun a e => a.told task e.op) a,
            ⟨w', pre ++ ⟨task, p', (), past ++ tr⟩ :: post⟩⟩ := by
  induction h with
  | refl =>
      intro w w' hp hl
      cases hp
      simpa using hl
  | tail _ hs ih =>
      intro w w' hp hl
      obtain ⟨w₁, _, h₁, h₂⟩ := hp.split
      rw [List.foldl_append, ← List.append_assoc]
      exact (ih h₁ hl).tail (.go hs h₂)

end Sound

/-! ### The result -/

/-- What the app says of its server is so. -/
structure AsTold (here : SockaddrUnion) (l : Launch) : Prop where
  comes : l.app.Comes
  single : l.process.world.sockets.countP (·.listening) ≤ 1
  bound : ∀ s ∈ l.process.world.sockets, s.listening = true → s.bound = some here
  ready : ∀ t ∈ l.app.tasks, t.stage = .ready →
    ∃ s ∈ l.process.world.sockets, s.listening = true
  shown : ∀ k vm, l.app.view? k = some vm → vm.isProxyListening = true ∨
    vm.serverState = .running ∨ vm.serverState = .waitingForNetwork →
      ∃ s ∈ l.process.world.sockets, s.listening = true
  failed : ∀ k vm, l.app.view? k = some vm → ∀ code, vm.serverState = .failed code → code = 1
  idle : (∀ t ∈ l.app.tasks, t.stage.live = false) → l.process.world.sockets = []
  freed : ∀ t ∈ l.process.threads, stageOf t.trace ≠ .called →
    gotLists t.trace = freedLists t.trace

/--
**The app is right about its server.**

Whatever happens to view models and tasks, in any order, with what `socks_main` does step by step:
the app goes through its lifecycle, at most one socket listens, it does so where it should, and no
view model shows a server unless there is one.  Once no task is in `socks_main` nothing is left
open, and no address list is left by one that got to the accept loop or came back.
-/
theorem server_as_told {resolves : Host.Resolves} {out : Outcome} {here : SockaddrUnion}
    {l : Launch} (hres : resolves.Single out here) (h : Launched resolves out l) :
    AsTold here l := by
  have hsound := h.sound hres
  have hhoused := (hsound.process.housed hres).1
  have hserves : l.app.Serving → ∃ s ∈ l.process.world.sockets, s.listening = true := by
    rintro ⟨t, ht, hs⟩
    obtain ⟨i, hi⟩ := List.getElem?_of_mem ht
    obtain ⟨u, hu, rfl⟩ := hsound.matched.begun i t hi (by simp [hs])
    obtain ⟨t', ht', htells⟩ := hsound.matched.told u hu
    obtain rfl := Option.some.inj (hi.symm.trans ht')
    exact hsound.process.ready_listens hres hu ((htells.eq (by simp [hs])).trans hs)
  refine ⟨hsound.comes, hhoused.single, fun s => hhoused.bound, fun t ht hs => hserves ⟨t, ht, hs⟩,
    fun k vm hvm hup => ?_, fun k vm hvm => (hsound.truthful.honest k vm hvm).fails,
    fun hidle => hsound.process.left_nothing hres fun u hu => ?_,
    fun t ht => hsound.process.freed hres ht⟩
  · refine hserves (hsound.truthful.listens k vm hvm ?_)
    rcases hup with hl | hup
    · exact hl
    · exact (hsound.truthful.honest k vm hvm).up hup
  · obtain ⟨t, ht, htells⟩ := hsound.matched.told u hu
    exact htells.not_live (hidle t (List.mem_of_getElem? ht))

/-- What the arguments of `startProxy` come to. -/
def proxyOutcome : Outcome := ⟨false, none, none, none, cstring "0.0.0.0", 4884, false⟩

example : (socksMain ⟨[cstring "microsocks", cstring "-p", cstring (toString proxyPort)],
    fun _ => true⟩ .initial).map Prod.fst = some proxyOutcome := by decide

/-- Every interface, at the port of the proxy. -/
def everyInterface : SockaddrUnion := .v4 (.replicate 4 0) 4884

def everyInterfaceOnly : Host.Resolves := fun _ _ entries =>
  entries = [⟨.inet, .stream, 6, everyInterface⟩]

/-- `getaddrinfo` fails. -/
def failedStart : Trace startupSys :=
  [⟨.ignoreSigpipe, ()⟩, ⟨.sblistNew 8, true⟩,
    ⟨.getaddrinfo (cstring "0.0.0.0") "4884", (none : Option AddrinfoList)⟩, ⟨.perror, ()⟩,
    ⟨.markServerFailed 1, ()⟩]

/-- The server listens. -/
def readyStart : Trace startupSys :=
  [⟨.ignoreSigpipe, ()⟩, ⟨.sblistNew 8, true⟩,
    ⟨.getaddrinfo (cstring "0.0.0.0") "4884",
      some (⟨1, [⟨.inet, .stream, 6, everyInterface⟩]⟩ : AddrinfoList)⟩,
    ⟨.socket .inet .stream 6, some (3 : Fd)⟩, ⟨.setsockopt 3, ()⟩, ⟨.bind 3 everyInterface, true⟩,
    ⟨.freeaddrinfo 1, ()⟩, ⟨.listen 3, true⟩, ⟨.storeServer 3, ()⟩, ⟨.serverReady, ()⟩]

theorem exists_failedStart :
    ∃ p, Prog.Steps (fun _ => True) (startTask proxyOutcome) failedStart p :=
  ⟨_, .call <| .call <| .call <| .call <| .call .refl⟩

theorem exists_readyStart :
    ∃ p, Prog.Steps (fun _ => True) (startTask proxyOutcome) readyStart p :=
  ⟨_, .call <| .call <| .call <| .call <| .call <| .call <|
    .call <| .call <| .call <| .call .refl⟩

theorem failedStart_performs (w : Host) :
    Pool.Performs (Host.machine everyInterfaceOnly) w () failedStart w () := by
  repeat' first | exact .nil | refine .cons trivial ?_

theorem readyStart_performs :
    Pool.Performs (Host.machine everyInterfaceOnly) ⟨[]⟩ () readyStart
      ⟨[⟨3, some everyInterface, true⟩]⟩ () := by
  refine .cons trivial (.cons trivial (.cons rfl (.cons ?_ (.cons trivial (.cons ?_ (.cons trivial
    (.cons ?_ (.cons trivial (.cons trivial .nil)))))))))
  · intro s hs
    cases hs
  · intro s hs hl
    rw [List.mem_singleton.mp hs] at hl
    cases hl
  · intro _ _ _ s hs hl
    rw [List.mem_singleton.mp hs] at hl
    cases hl

/-- A first attempt fails, the retry button is tapped, and the server runs. -/
theorem server_as_told_retried : ∃ l, Launched everyInterfaceOnly proxyOutcome l ∧
    (l.app.view? 0).map (·.serverState) = some .running ∧ AsTold everyInterface l := by
  obtain ⟨p, hfailed⟩ := exists_failedStart
  obtain ⟨q, hready⟩ := exists_readyStart
  have h₁ : Launched everyInterfaceOnly proxyOutcome ⟨_, ⟨⟨[]⟩, []⟩⟩ :=
    Relation.ReflTransGen.refl.tail (.event (e := .create 0 none) trivial rfl)
  have h₂ : Launched everyInterfaceOnly proxyOutcome
      ⟨_, ⟨⟨[]⟩, [] ++ ⟨0, startTask proxyOutcome, (), []⟩ :: []⟩⟩ := h₁.tail (.begin rfl rfl)
  have h₃ := Launched.runs hfailed (failedStart_performs _) h₂
  have h₄ := h₃.tail (.event (e := .deliverFailed 0 1) trivial rfl)
  have h₅ := h₄.tail (.event (e := .tap 0 2 none) trivial rfl)
  have h₆ : Launched everyInterfaceOnly proxyOutcome
      ⟨_, ⟨⟨[]⟩, [⟨0, p, (), [] ++ failedStart⟩] ++ ⟨1, startTask proxyOutcome, (), []⟩ :: []⟩⟩ :=
    h₅.tail (.begin rfl rfl)
  have h₇ := Launched.runs hready readyStart_performs h₆
  have h₈ := h₇.tail (.event (e := .deliverReady (some "192.168.2.1")) trivial rfl)
  refine ⟨_, h₈, rfl, server_as_told ?_ h₈⟩
  rintro entries rfl p hp
  rw [List.mem_singleton.mp hp]

end TwoSocks
