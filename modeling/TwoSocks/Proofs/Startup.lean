/-
What the app may rely on when it starts a server.

The lifecycle of the app is told of `socks_main` that it says once that the server is ready, and
then does not return, or else returns without having said so; and that this cannot be while another
server listens.  Here that is what `socks_main` does.

A `StartState` is what a task has open and where it has got to.  It has at most one socket, and a
task that is in the accept loop has one that listens.  All tasks listen on one address, so at most
one socket of the process does.
-/
import TwoSocks.Proofs.ServerLifecycle
import TwoSocks.Server.Startup

namespace TwoSocks

open Prog

/-! ### One task -/

/-- How far a task is after an operation. -/
def StartStage.after (stage : StartStage) : StartupOp → StartStage
  | .serverReady => .ready
  | .markServerFailed code => .returned code
  | _ => stage

/-- How far a task has got. -/
def stageOf (tr : Trace startupSys) : StartStage :=
  tr.foldl (fun stage e => stage.after e.op) .called

/-- The address lists a task was given. -/
def gotLists (tr : Trace startupSys) : List Nat :=
  tr.filterMap fun e => match e with
    | ⟨.getaddrinfo _ _, some list⟩ => some list.ainfo
    | _ => none

/-- Those that it freed. -/
def freedLists (tr : Trace startupSys) : List Nat :=
  tr.filterMap fun e => match e with
    | ⟨.freeaddrinfo ainfo, _⟩ => some ainfo
    | _ => none

structure StartState where
  held : List HostSocket
  past : Trace startupSys

def StartState.next (g : StartState) (o : StartupOp) (r : o.Ret) : StartState :=
  ⟨Host.after g.held o r, g.past ++ [⟨o, r⟩]⟩

/-- What a task has after a run. -/
def startState (tr : Trace startupSys) : StartState :=
  tr.foldl (fun g e => g.next e.op e.ret) ⟨[], []⟩

/-- What a task keeps to. -/
def startSpec (out : Outcome) (here : SockaddrUnion) : Spec startupSys StartState where
  rely _ o r := match o, r with
    | .getaddrinfo host port, some list => host = out.listenip → port = toString out.port.toUInt16 →
        ∀ p ∈ list.entries, p.addr = here
    | _, _ => True
  guar g o := match o with
    | .getaddrinfo _ _ => stageOf g.past = .called
    | .freeaddrinfo ainfo => gotLists g.past = freedLists g.past ++ [ainfo]
    | .socket _ _ _ => stageOf g.past = .called ∧ g.held = []
    | .bind fd addr => g.held = [⟨fd, none, false⟩] ∧ addr = here
    | .listen fd => g.held = [⟨fd, some here, false⟩]
    | .close fd => ∃ bound, g.held = [⟨fd, bound, false⟩]
    | .serverReady => stageOf g.past = .called ∧ gotLists g.past = freedLists g.past ∧
        ∃ fd, g.held = [⟨fd, some here, true⟩]
    | .markServerFailed code => stageOf g.past = .called ∧
        gotLists g.past = freedLists g.past ∧ g.held = [] ∧ code = 1
    | _ => True
  next := StartState.next

section Task

variable {out : Outcome} {here : SockaddrUnion} {g : StartState}

@[simp] theorem stageOf_append (tr : Trace startupSys) (e : Event startupSys) :
    stageOf (tr ++ [e]) = (stageOf tr).after e.op := by
  simp [stageOf]

@[simp] theorem gotLists_append (tr tr' : Trace startupSys) :
    gotLists (tr ++ tr') = gotLists tr ++ gotLists tr' := List.filterMap_append

@[simp] theorem freedLists_append (tr tr' : Trace startupSys) :
    freedLists (tr ++ tr') = freedLists tr ++ freedLists tr' := List.filterMap_append

@[simp] theorem startState_past (tr : Trace startupSys) : (startState tr).past = tr := by
  have : ∀ (tr : Trace startupSys) (g : StartState),
      (tr.foldl (fun g e => g.next e.op e.ret) g).past = g.past ++ tr := by
    intro tr
    induction tr with
    | nil => intro g; simp
    | cons e tr ih =>
        intro g
        rw [List.foldl_cons, ih]
        simp [StartState.next]
  exact this tr _

/-- Where a task is before it is ready: what it holds, and the lists it has yet to free. -/
structure Setting (held : List HostSocket) (lists : List Nat) (g : StartState) : Prop where
  held : g.held = held
  lists : gotLists g.past = freedLists g.past ++ lists
  stage : stageOf g.past = .called

/-- What is not about address lists. -/
def StartupOp.listless : StartupOp → Prop
  | .getaddrinfo _ _ | .freeaddrinfo _ => False
  | _ => True

/-- What the app does not see. -/
def StartupOp.silent : StartupOp → Prop
  | .serverReady | .markServerFailed _ => False
  | _ => True

theorem gotLists_next (g : StartState) (o : StartupOp) (r : o.Ret) (ho : o.listless) :
    gotLists (g.next o r).past = gotLists g.past := by
  have : gotLists [⟨o, r⟩] = [] := by
    cases o <;> first | rfl | cases ho
  exact (gotLists_append ..).trans (by rw [this, List.append_nil])

theorem freedLists_next (g : StartState) (o : StartupOp) (r : o.Ret) (ho : o.listless) :
    freedLists (g.next o r).past = freedLists g.past := by
  have : freedLists [⟨o, r⟩] = [] := by
    cases o <;> first | rfl | cases ho
  exact (freedLists_append ..).trans (by rw [this, List.append_nil])

theorem freed_next {g : StartState} (h : gotLists g.past = freedLists g.past) (o : StartupOp)
    (r : o.Ret) (ho : o.listless) : gotLists (g.next o r).past = freedLists (g.next o r).past := by
  rw [gotLists_next g o r ho, freedLists_next g o r ho, h]

theorem stageOf_next (g : StartState) (o : StartupOp) (r : o.Ret) :
    stageOf (g.next o r).past = (stageOf g.past).after o := stageOf_append ..

theorem StartStage.after_silent (stage : StartStage) {o : StartupOp} (ho : o.silent) :
    stage.after o = stage := by
  cases o <;> first | rfl | cases ho

theorem Setting.next {held held' : List HostSocket} {lists : List Nat} (h : Setting held lists g)
    (o : StartupOp) (r : o.Ret) (ho : o.listless ∧ o.silent) (heq : Host.after held o r = held') :
    Setting held' lists (g.next o r) := by
  obtain ⟨rfl, hlists, hstage⟩ := h
  refine ⟨heq, ?_, ?_⟩
  · rw [gotLists_next g o r ho.1, freedLists_next g o r ho.1, hlists]
  · rw [stageOf_next, hstage, StartStage.after_silent _ ho.2]

theorem Setting.resolve {held : List HostSocket} (h : Setting held [] g) (host : CString)
    (port : String) (r : Option AddrinfoList) :
    Setting held (r.toList.map AddrinfoList.ainfo) (g.next (.getaddrinfo host port) r) := by
  obtain ⟨rfl, hlists, hstage⟩ := h
  refine ⟨rfl, ?_, ?_⟩
  · show gotLists (g.past ++ [_]) = freedLists (g.past ++ [_]) ++ _
    rw [gotLists_append, freedLists_append, hlists, List.append_nil]
    cases r <;> simp [gotLists, freedLists]
  · show stageOf (g.past ++ [_]) = .called
    rw [stageOf_append, hstage]
    rfl

theorem Setting.release {held : List HostSocket} {ainfo : Nat} (h : Setting held [ainfo] g) :
    Setting held [] (g.next (.freeaddrinfo ainfo) ()) := by
  obtain ⟨rfl, hlists, hstage⟩ := h
  refine ⟨rfl, ?_, ?_⟩
  · show gotLists (g.past ++ [_]) = freedLists (g.past ++ [_]) ++ []
    rw [gotLists_append, freedLists_append, hlists]
    simp [gotLists, freedLists]
  · show stageOf (g.past ++ [_]) = .called
    rw [stageOf_append, hstage]
    rfl

/-- What a task holds once a socket has been opened and bound, or none could be. -/
def boundTo (here : SockaddrUnion) : Option Fd → List HostSocket
  | none => []
  | some fd => [⟨fd, some here, false⟩]

/-- The loop of `server_setup` holds at most one socket at a time. -/
theorem bindFirst_setting {lists : List Nat} {ps : List Addrinfo} (hps : ∀ p ∈ ps, p.addr = here) :
    ∀ {g : StartState}, Setting [] lists g →
      wlp (startSpec out here) (bindFirst ps)
        (fun r g' => Setting (boundTo here r) lists g') g := by
  induction ps with
  | nil => exact fun h => ⟨trivial, h⟩
  | cons p ps ih =>
      intro g h
      have hrest : ∀ {g}, Setting [] lists g → wlp (startSpec out here) (bindFirst ps)
          (fun r g' => Setting (boundTo here r) lists g') g :=
        ih fun q hq => hps q (List.mem_cons_of_mem _ hq)
      obtain rfl := hps p List.mem_cons_self
      unfold bindFirst Startup.socket Startup.setsockopt Startup.bind Startup.close
      simp only [bind_eq, pure_eq, wlp_bind]
      refine ⟨trivial, ⟨h.stage, h.held⟩, fun r _ => ⟨trivial, ?_⟩⟩
      rcases r with _ | fd
      · exact hrest (h.next (.socket p.family p.socktype p.protocol) none ⟨trivial, trivial⟩ rfl)
      have h₁ : Setting [⟨fd, none, false⟩] lists _ :=
        h.next (.socket p.family p.socktype p.protocol) (some fd) ⟨trivial, trivial⟩ rfl
      have h₂ := h₁.next (.setsockopt fd) () ⟨trivial, trivial⟩ rfl
      simp only [wlp_bind]
      refine ⟨trivial, trivial, fun _ _ => ⟨trivial, trivial, ⟨h₂.held, rfl⟩, fun r _ =>
        ⟨trivial, ?_⟩⟩⟩
      cases r with
      | true =>
          exact ⟨trivial, h₂.next (.bind fd p.addr) true ⟨trivial, trivial⟩
            (by simp [Host.after, boundTo])⟩
      | false =>
          have h₃ := h₂.next (.bind fd p.addr) false ⟨trivial, trivial⟩ rfl
          exact ⟨trivial, ⟨none, h₃.held⟩, fun _ _ =>
            hrest (h₃.next (.close fd) () ⟨trivial, trivial⟩ (by simp [Host.after]))⟩

/-- What `server_setup` leaves. -/
def setUp (here : SockaddrUnion) : Except Int32 Fd → List HostSocket
  | .error _ => []
  | .ok fd => [⟨fd, some here, true⟩]

theorem serverSetup_setting (h : Setting [] [] g) :
    wlp (startSpec out here) (serverSetup out.listenip out.port.toUInt16)
      (fun r g' => Setting (setUp here r) [] g') g := by
  unfold serverSetup resolveTcp Startup.getaddrinfo Startup.freeaddrinfo Startup.listen
    Startup.close
  simp only [bind_eq, pure_eq, wlp_bind]
  refine ⟨trivial, h.stage, fun r hr => ⟨trivial, ?_⟩⟩
  have h₁ := h.resolve out.listenip (toString out.port.toUInt16) r
  rcases r with _ | list
  · exact ⟨trivial, h₁⟩
  simp only [wlp_bind]
  refine wlp_mono _ (fun r g₂ h₂ => ?_) (bindFirst_setting (hr rfl rfl) h₁)
  refine ⟨trivial, h₂.lists, fun _ _ => ⟨trivial, ?_⟩⟩
  have h₃ := h₂.release
  rcases r with _ | fd
  · exact ⟨trivial, h₃⟩
  simp only [wlp_bind]
  refine ⟨trivial, h₃.held, fun r _ => ⟨trivial, ?_⟩⟩
  cases r with
  | true =>
      exact ⟨trivial, h₃.next (.listen fd) true ⟨trivial, trivial⟩
        (by simp [Host.after, boundTo, setUp])⟩
  | false =>
      have h₄ := h₃.next (.listen fd) false ⟨trivial, trivial⟩ rfl
      have h₅ : Setting [] [] _ :=
        h₄.next (.close fd) () ⟨trivial, trivial⟩ (by simp [Host.after, boundTo])
      exact ⟨trivial, ⟨some here, h₄.held⟩, fun _ _ => ⟨trivial, h₅⟩⟩

/-- What a task that has come back has left. -/
structure Gone (g : StartState) : Prop where
  held : g.held = []
  lists : gotLists g.past = freedLists g.past
  stage : stageOf g.past = .returned 1

theorem startTask_gone (h : Setting [] [] g) :
    wlp (startSpec out here) (startTask out) (fun _ g' => Gone g') g := by
  have hfail : ∀ {g}, Setting [] [] g → wlp (startSpec out here) (Startup.markServerFailed 1)
      (fun _ g' => Gone g') g := by
    intro g h
    have hlists : gotLists g.past = freedLists g.past := by simpa using h.lists
    refine ⟨trivial, ⟨h.stage, hlists, h.held, rfl⟩, fun _ _ => ⟨trivial, ?_⟩⟩
    refine ⟨?_, ?_, ?_⟩
    · exact h.held
    · show gotLists (g.past ++ [_]) = freedLists (g.past ++ [_])
      rw [gotLists_append, freedLists_append, hlists]
      rfl
    · exact (stageOf_append ..).trans rfl
  unfold startTask serveFrom
  simp only [bind_eq, pure_eq, wlp_bind]
  split
  · exact ⟨trivial, hfail h⟩
  simp only [wlp_bind]
  unfold Startup.ignoreSigpipe Startup.sblistNew Startup.perror Startup.storeServer
    Startup.serverReady Startup.acceptLoop
  refine ⟨trivial, trivial, fun _ _ => ⟨trivial, trivial, trivial, fun r _ => ⟨trivial, ?_⟩⟩⟩
  have h₁ := h.next .ignoreSigpipe () ⟨trivial, trivial⟩ rfl
  have h₂ := h₁.next (.sblistNew 8) r ⟨trivial, trivial⟩ rfl
  refine wlp_mono _ (fun r g₃ h₃ => ?_) (serverSetup_setting h₂)
  rcases r with code | fd
  · simp only [wlp_bind]
    exact ⟨trivial, trivial, fun _ _ =>
      ⟨trivial, trivial, hfail (h₃.next .perror () ⟨trivial, trivial⟩ rfl)⟩⟩
  · simp only [wlp_bind]
    have h₄ := h₃.next (.storeServer fd) () ⟨trivial, trivial⟩ rfl
    have hlists : gotLists (g₃.next (.storeServer fd) ()).past =
        freedLists (g₃.next (.storeServer fd) ()).past := by simpa using h₄.lists
    exact ⟨trivial, trivial, fun _ _ => ⟨trivial, trivial, ⟨h₄.stage, hlists, fd, h₄.held⟩,
      fun _ _ => ⟨trivial, trivial, trivial, fun r _ => r.elim⟩⟩⟩

/-- What a task has, by how far it is. -/
inductive Placed (here : SockaddrUnion) (g : StartState) : Prop
  | called (hs : stageOf g.past = .called) (few : g.held.length ≤ 1)
      (hl : ∀ s ∈ g.held, s.listening → s.bound = some here)
  | ready (hs : stageOf g.past = .ready) (freed : gotLists g.past = freedLists g.past) {fd : Fd}
      (held : g.held = [⟨fd, some here, true⟩])
  | returned (hs : stageOf g.past = .returned 1) (freed : gotLists g.past = freedLists g.past)
      (held : g.held = [])

/-- Only a task that is still setting up has a socket that does not listen. -/
theorem Placed.settingUp (h : Placed here g) {s : HostSocket} (hs : g.held = [s])
    (hl : s.listening = false) : stageOf g.past = .called := by
  cases h with
  | called hstage => exact hstage
  | ready _ _ held =>
      obtain rfl := List.singleton_inj.mp (hs.symm.trans held)
      cases hl
  | returned _ _ held =>
      rw [hs] at held
      cases held

/-- A task that owes a list is still setting up. -/
theorem Placed.owing (h : Placed here g) {ainfo : Nat}
    (hlists : gotLists g.past = freedLists g.past ++ [ainfo]) : stageOf g.past = .called := by
  have hne : gotLists g.past ≠ freedLists g.past := by simp [hlists]
  cases h with
  | called hstage => exact hstage
  | ready _ freed => exact absurd freed hne
  | returned _ freed => exact absurd freed hne

/-- What is left open, and says nothing. -/
theorem Placed.same (h : Placed here g) (o : StartupOp) (r : o.Ret) (ho : o.listless ∧ o.silent)
    (heq : Host.after g.held o r = g.held) : Placed here (g.next o r) := by
  have held : (g.next o r).held = g.held := heq
  have hstage : stageOf (g.next o r).past = stageOf g.past := by
    rw [stageOf_next, StartStage.after_silent _ ho.2]
  cases h with
  | called hs few hl => exact .called (hstage.trans hs) (by rwa [held]) (by rwa [held])
  | ready hs freed held' =>
      exact .ready (hstage.trans hs) (freed_next freed o r ho.1) (held.trans held')
  | returned hs freed held' =>
      exact .returned (hstage.trans hs) (freed_next freed o r ho.1) (held.trans held')

/-- A task that is still setting up goes on doing so. -/
theorem Placed.settingOn (hs : stageOf g.past = .called) (o : StartupOp) (r : o.Ret)
    (ho : o.silent) {l : List HostSocket} (heq : Host.after g.held o r = l) (few : l.length ≤ 1)
    (hl : ∀ s ∈ l, s.listening → s.bound = some here) : Placed here (g.next o r) := by
  obtain rfl := heq
  exact .called ((stageOf_next g o r).trans (by rw [hs, StartStage.after_silent _ ho])) few hl

/-- **What is asked of a task keeps it to what its stage allows.** -/
theorem Placed.next (h : Placed here g) (o : StartupOp) (r : o.Ret)
    (hg : (startSpec out here).guar g o) : Placed here (g.next o r) := by
  have hstage := stageOf_next g o r
  cases o with
  | getaddrinfo host port =>
      have hs : stageOf g.past = .called := hg
      cases h with
      | called _ few hl => exact .settingOn hs _ r trivial rfl few hl
      | ready hs' => cases hs.symm.trans hs'
      | returned hs' => cases hs.symm.trans hs'
  | freeaddrinfo ainfo =>
      have hs := h.owing hg
      cases h with
      | called _ few hl => exact .settingOn hs _ r trivial rfl few hl
      | ready hs' => cases hs.symm.trans hs'
      | returned hs' => cases hs.symm.trans hs'
  | socket family socktype protocol =>
      obtain ⟨hs, held⟩ := hg
      cases r with
      | none => exact h.same _ _ ⟨trivial, trivial⟩ rfl
      | some fd =>
          have heq : Host.after g.held (.socket family socktype protocol) (some fd) =
              [⟨fd, none, false⟩] := by rw [held]; rfl
          exact .settingOn hs _ _ trivial heq (by simp) (by simp)
  | bind fd addr =>
      obtain ⟨held, rfl⟩ := hg
      cases r with
      | false => exact h.same _ _ ⟨trivial, trivial⟩ rfl
      | true =>
          have heq : Host.after g.held (.bind fd addr) true = [⟨fd, some addr, false⟩] := by
            rw [held]
            simp [Host.after]
          exact .settingOn (h.settingUp held rfl) _ _ trivial heq (by simp) (by simp)
  | listen fd =>
      have held : g.held = [⟨fd, some here, false⟩] := hg
      cases r with
      | false => exact h.same _ _ ⟨trivial, trivial⟩ rfl
      | true =>
          have heq : Host.after g.held (.listen fd) true = [⟨fd, some here, true⟩] := by
            rw [held]
            simp [Host.after]
          exact .settingOn (h.settingUp held rfl) _ _ trivial heq (by simp) (by simp)
  | close fd =>
      obtain ⟨bound, held⟩ := hg
      have heq : Host.after g.held (.close fd) r = [] := by
        rw [held]
        simp [Host.after]
      exact .settingOn (h.settingUp held rfl) _ _ trivial heq (by simp) (by simp)
  | serverReady =>
      obtain ⟨_, freed, fd, held⟩ := hg
      exact .ready hstage (freed_next freed .serverReady r trivial) held
  | markServerFailed code =>
      obtain ⟨_, freed, held, rfl⟩ := hg
      exact .returned hstage (freed_next freed (.markServerFailed 1) r trivial) held
  | acceptLoop fd => cases r
  | _ => exact h.same _ _ ⟨trivial, trivial⟩ rfl

end Task

/-! ### All of them -/

/-- The socket an operation is done to. -/
def StartupOp.fd? : StartupOp → Option Fd
  | .bind fd _ | .listen fd | .close fd => some fd
  | _ => none

namespace Host

theorem after_perm {l l' : List HostSocket} (h : l.Perm l') (o : StartupOp) (r : o.Ret) :
    (after l o r).Perm (after l' o r) := by
  cases o with
  | socket family socktype protocol =>
      cases r with
      | none => exact h
      | some fd => exact h.cons _
  | bind fd addr =>
      cases r with
      | false => exact h
      | true => exact h.map _
  | listen fd =>
      cases r with
      | false => exact h
      | true => exact h.map _
  | close fd => exact h.filter _
  | _ => exact h

/-- What changes one socket leaves others as they are. -/
theorem after_append {l others : List HostSocket} {o : StartupOp} (r : o.Ret)
    (h : ∀ fd, o.fd? = some fd → ∀ s ∈ others, s.fd ≠ fd) :
    after (l ++ others) o r = after l o r ++ others := by
  have hmap : ∀ {fd} (f : HostSocket → HostSocket), o.fd? = some fd →
      (l ++ others).map (fun s => if s.fd = fd then f s else s) =
        l.map (fun s => if s.fd = fd then f s else s) ++ others := by
    intro fd f hfd
    rw [List.map_append]
    congr 1
    conv_rhs => rw [← List.map_id others]
    exact List.map_congr_left fun s hs => if_neg (h fd hfd s hs)
  cases o with
  | socket family socktype protocol =>
      cases r with
      | none => rfl
      | some fd => rfl
  | bind fd addr =>
      cases r with
      | false => rfl
      | true => exact hmap (fun s => { s with bound := some addr }) rfl
  | listen fd =>
      cases r with
      | false => rfl
      | true => exact hmap (fun s => { s with listening := true }) rfl
  | close fd =>
      have hothers : others.filter (fun s => s.fd ≠ fd) = others :=
        List.filter_eq_self.mpr fun s hs => by simpa using h fd rfl s hs
      show (l ++ others).filter _ = l.filter _ ++ others
      rw [List.filter_append, hothers]
  | _ => rfl

theorem after_fds {resolves : Resolves} {w : Host} (h : (w.sockets.map HostSocket.fd).Nodup)
    {o : StartupOp} {r : o.Ret} (hc : w.can resolves o r) :
    ((after w.sockets o r).map HostSocket.fd).Nodup := by
  have hmap : ∀ {fd : Fd} {f : HostSocket → HostSocket}, (∀ s, (f s).fd = s.fd) →
      ((w.sockets.map fun s => if s.fd = fd then f s else s).map HostSocket.fd).Nodup := by
    intro fd f hf
    have : (HostSocket.fd ∘ fun s => if s.fd = fd then f s else s) = HostSocket.fd := by
      funext s
      simp only [Function.comp_apply]
      split
      · exact hf s
      · rfl
    rwa [List.map_map, this]
  cases o with
  | socket family socktype protocol =>
      cases r with
      | none => exact h
      | some fd =>
          refine List.nodup_cons.mpr ⟨fun hmem => ?_, h⟩
          obtain ⟨s, hs, hfd⟩ := List.mem_map.mp hmem
          exact hc s hs hfd
  | bind fd addr =>
      cases r with
      | false => exact h
      | true => exact hmap fun _ => rfl
  | listen fd =>
      cases r with
      | false => exact h
      | true => exact hmap fun _ => rfl
  | close fd => exact h.sublist (List.filter_sublist.map _)
  | _ => exact h

end Host

/-- A task as an invariant sees it. -/
abbrev Starter := Pool.View Nat Unit StartState

/-- The sockets of the process are those that the tasks hold, and at most one listens. -/
structure Housed (here : SockaddrUnion) (w : Host) (vs : List Starter) : Prop where
  sockets : w.sockets.Perm (vs.flatMap fun v => v.2.2.held)
  fds : (w.sockets.map HostSocket.fd).Nodup
  single : w.sockets.countP (·.listening) ≤ 1
  placed : ∀ v ∈ vs, Placed here v.2.2

section Pool

variable {resolves : Host.Resolves} {out : Outcome} {here : SockaddrUnion} {w : Host}
  {g : StartState} {vs : List Starter}

theorem Placed.bound (h : Placed here g) {s : HostSocket} (hs : s ∈ g.held)
    (hl : s.listening = true) : s.bound = some here := by
  cases h with
  | called _ _ hall => exact hall s hs hl
  | ready _ _ held =>
      rw [held] at hs
      rw [List.mem_singleton.mp hs]
  | returned _ _ held =>
      rw [held] at hs
      cases hs

theorem Housed.perm {vs' : List Starter} (h : Housed here w vs) (hp : vs.Perm vs') :
    Housed here w vs' :=
  ⟨h.sockets.trans (hp.flatMap_right _), h.fds, h.single,
    fun v hv => h.placed v (hp.mem_iff.mpr hv)⟩

/-- Every socket that listens does so on the one address. -/
theorem Housed.bound (h : Housed here w vs) {s : HostSocket} (hs : s ∈ w.sockets)
    (hl : s.listening = true) : s.bound = some here := by
  obtain ⟨v, hv, hs⟩ := List.mem_flatMap.mp (h.sockets.mem_iff.mp hs)
  exact (h.placed v hv).bound hs hl

/-- While a task has a socket that listens, no other one does. -/
theorem Housed.only {v : Starter} (h : Housed here w (v :: vs)) {s : HostSocket}
    (hs : s ∈ v.2.2.held) (hl : s.listening = true) {v' : Starter} (hv' : v' ∈ vs)
    {s' : HostSocket} (hs' : s' ∈ v'.2.2.held) : s'.listening = false := by
  have hone := h.single
  rw [h.sockets.countP_eq, List.flatMap_cons, List.countP_append] at hone
  have hpos : 0 < v.2.2.held.countP (·.listening) := List.countP_pos_iff.mpr ⟨s, hs, hl⟩
  have hzero : (vs.flatMap fun v => v.2.2.held).countP (·.listening) = 0 := by omega
  have := List.countP_eq_zero.mp hzero s' (List.mem_flatMap.mpr ⟨v', hv', hs'⟩)
  simpa using this

/-- What a task asks for is done to a socket of its own. -/
theorem own_fd {o : StartupOp} (hg : (startSpec out here).guar g o) {fd : Fd}
    (hfd : o.fd? = some fd) : ∃ s ∈ g.held, s.fd = fd := by
  cases o with
  | bind fd addr =>
      cases hfd
      exact ⟨_, by rw [hg.1]; exact List.mem_singleton_self _, rfl⟩
  | listen fd =>
      cases hfd
      have held : g.held = [⟨fd, some here, false⟩] := hg
      exact ⟨_, by rw [held]; exact List.mem_singleton_self _, rfl⟩
  | close fd =>
      cases hfd
      obtain ⟨bound, held⟩ := hg
      exact ⟨_, by rw [held]; exact List.mem_singleton_self _, rfl⟩
  | _ => cases hfd

/-- Only `listen` makes a socket listen. -/
theorem after_listening {o : StartupOp} (r : o.Ret) (hg : (startSpec out here).guar g o)
    (ho : ∀ fd, o ≠ .listen fd) :
    (Host.after g.held o r).countP (·.listening) ≤ g.held.countP (·.listening) := by
  cases o with
  | socket family socktype protocol =>
      cases r with
      | none => exact le_rfl
      | some fd => exact (List.countP_cons_of_neg (by simp)).le
  | bind fd addr =>
      cases r with
      | false => exact le_rfl
      | true =>
          rw [hg.1]
          simp [Host.after]
  | listen fd => exact absurd rfl (ho fd)
  | close fd => exact List.filter_sublist.countP_le
  | _ => exact le_rfl

theorem Housed.next {i : Nat} {m m' : Unit} (h : Housed here w ((i, m, g) :: vs)) {o : StartupOp}
    {r : o.Ret} (hc : w.can resolves o r) (hg : (startSpec out here).guar g o) :
    Housed here ⟨Host.after w.sockets o r⟩ ((i, m', g.next o r) :: vs) := by
  have hperm : w.sockets.Perm (g.held ++ vs.flatMap fun v => v.2.2.held) := h.sockets
  have hfds := (hperm.map HostSocket.fd).nodup_iff.mp h.fds
  rw [List.map_append] at hfds
  have hother : ∀ fd, o.fd? = some fd → ∀ s ∈ vs.flatMap fun v => v.2.2.held, s.fd ≠ fd := by
    rintro fd hfd s' hs' rfl
    obtain ⟨s, hs, heq⟩ := own_fd hg hfd
    exact List.disjoint_of_nodup_append hfds (List.mem_map_of_mem hs)
      (heq ▸ List.mem_map_of_mem hs')
  have hperm' := Host.after_perm hperm o r
  rw [Host.after_append r hother] at hperm'
  have hplaced := (h.placed _ List.mem_cons_self).next o r hg
  refine ⟨hperm', Host.after_fds h.fds hc, ?_, fun v hv => ?_⟩
  · show (Host.after w.sockets o r).countP _ ≤ 1
    have hone := h.single
    rw [hperm.countP_eq, List.countP_append] at hone
    rw [hperm'.countP_eq, List.countP_append]
    by_cases ho : ∀ fd, o ≠ .listen fd
    · have := after_listening r hg ho
      omega
    push Not at ho
    obtain ⟨fd, rfl⟩ := ho
    cases r with
    | false => exact hone
    | true =>
        -- No other socket listens: it would listen on the same address.
        have held : g.held = [⟨fd, some here, false⟩] := hg
        have hnone : (vs.flatMap fun v => v.2.2.held).countP (·.listening) = 0 := by
          refine List.countP_eq_zero.mpr fun s' hs' hl => ?_
          have hs' := hperm.mem_iff.mpr (List.mem_append_right _ hs')
          have hs : ⟨fd, some here, false⟩ ∈ w.sockets :=
            hperm.mem_iff.mpr (List.mem_append_left _ (held ▸ List.mem_singleton_self _))
          exact hc _ hs rfl s' hs' hl (h.bound hs' hl)
        rw [hnone, held]
        simp [Host.after]
  · rcases List.mem_cons.mp hv with rfl | hv
    · exact hplaced
    · exact h.placed v (List.mem_cons_of_mem _ hv)

/-- All that is asked of `getaddrinfo`: for the configured host and port it knows one address. -/
def Host.Resolves.Single (resolves : Host.Resolves) (out : Outcome) (here : SockaddrUnion) : Prop :=
  ∀ entries, resolves out.listenip (toString out.port.toUInt16) entries → ∀ p ∈ entries,
    p.addr = here

theorem housed_keeps (hres : resolves.Single out here) :
    Pool.Keeps (Host.machine resolves) (starts out) (fun _ => startSpec out here)
      (fun _ => ⟨[], []⟩) (Housed here) where
  start w vs i h := by
    refine ⟨?_, h.fds, h.single, fun v hv => ?_⟩
    · rw [List.flatMap_append]
      exact h.sockets.trans (by simp)
    · rcases List.mem_append.mp hv with hv | hv
      · exact h.placed v hv
      · rw [List.mem_singleton.mp hv]
        exact .called rfl (by simp) (by simp)
  rely w pre post i m g o r _ _ hc := by
    cases o with
    | getaddrinfo host port =>
        cases r with
        | none => trivial
        | some list =>
            rintro rfl rfl
            exact hres _ hc
    | _ => trivial
  event w pre post i m g o r _ h hc hg :=
    (Housed.next (h.perm List.perm_middle) hc hg).perm List.perm_middle.symm

/-- The tasks as the invariant sees them. -/
abbrev starters (c : Pool startupSys Nat Host Unit) : List Starter :=
  c.threads.map fun t => (t.id, (), startState t.trace)

theorem Starting.housed (hres : resolves.Single out here) {c : Pool startupSys Nat Host Unit}
    (hc : Starting resolves out c) : Housed here c.world (starters c) ∧ ∀ t ∈ c.threads,
      Pool.Behaves (fun _ => startSpec out here) (fun _ => ⟨[], []⟩) (fun _ g => Gone g) t :=
  hc.invariant (housed_keeps hres) ⟨.nil, .nil, by simp, by simp⟩ nofun fun _ =>
    startTask_gone ⟨rfl, rfl, rfl⟩

theorem Starting.placed (hres : resolves.Single out here) {c : Pool startupSys Nat Host Unit}
    (hc : Starting resolves out c) {t : Thread startupSys Nat Unit} (ht : t ∈ c.threads) :
    Placed here (startState t.trace) :=
  (hc.housed hres).1.placed _ (List.mem_map_of_mem (f := fun t : Thread startupSys Nat Unit =>
    (t.id, (), startState t.trace)) ht)

/-- An operation that a task performs is one it may ask for. -/
theorem Starting.asks (hres : resolves.Single out here) {c : Pool startupSys Nat Host Unit}
    (hc : Starting resolves out c) {t : Thread startupSys Nat Unit} (ht : t ∈ c.threads)
    {whole : startupSys.Tag → Prop} {o : StartupOp} {r : o.Ret} {p : Startup Unit}
    (h : Prog.Step whole t.prog [⟨o, r⟩] p) :
    (startSpec out here).guar (startState t.trace) o :=
  (Prog.wlp_step h nofun ((hc.housed hres).2 t ht).wlp).1

/-- While a task has a socket that listens, no other one is ready. -/
theorem Starting.only (hres : resolves.Single out here) {w : Host}
    {pre post : List (Thread startupSys Nat Unit)} {t u : Thread startupSys Nat Unit}
    (hc : Starting resolves out ⟨w, pre ++ t :: post⟩) {s : HostSocket}
    (hs : s ∈ (startState t.trace).held) (hl : s.listening = true) (hu : u ∈ pre ++ post) :
    stageOf u.trace ≠ .ready := by
  intro hready
  have hhoused := (hc.housed hres).1
  unfold starters at hhoused
  rw [List.map_append, List.map_cons] at hhoused
  have hu' : (u.id, (), startState u.trace) ∈
      pre.map (fun t => (t.id, (), startState t.trace)) ++
        post.map fun t => (t.id, (), startState t.trace) := by
    rw [← List.map_append]
    exact List.mem_map.mpr ⟨u, hu, rfl⟩
  have hother : ∀ s' ∈ (startState u.trace).held, s'.listening = false := fun _ hs' =>
    (hhoused.perm List.perm_middle).only hs hl hu' hs'
  have hplaced := (hhoused.perm List.perm_middle).placed _ (List.mem_cons_of_mem _ hu')
  cases hplaced with
  | called hs' =>
      rw [startState_past, hready] at hs'
      cases hs'
  | ready _ _ held =>
      have := hother _ (by rw [held]; exact List.mem_singleton_self _)
      cases this
  | returned hs' =>
      rw [startState_past, hready] at hs'
      cases hs'

theorem Starting.ready_listens (hres : resolves.Single out here)
    {c : Pool startupSys Nat Host Unit} (hc : Starting resolves out c)
    {t : Thread startupSys Nat Unit} (ht : t ∈ c.threads) (hs : stageOf t.trace = .ready) :
    ∃ s ∈ c.world.sockets, s.listening = true := by
  rw [← startState_past t.trace] at hs
  cases hc.placed hres ht with
  | called hs' => cases hs'.symm.trans hs
  | returned hs' => cases hs'.symm.trans hs
  | @ready _ _ fd held =>
      refine ⟨⟨fd, some here, true⟩, (hc.housed hres).1.sockets.mem_iff.mpr ?_, rfl⟩
      refine List.mem_flatMap.mpr ⟨_, List.mem_map.mpr ⟨t, ht, rfl⟩, ?_⟩
      show _ ∈ (startState t.trace).held
      rw [held]
      exact List.mem_singleton_self _

theorem Starting.left_nothing (hres : resolves.Single out here)
    {c : Pool startupSys Nat Host Unit} (hc : Starting resolves out c)
    (hback : ∀ t ∈ c.threads, (stageOf t.trace).live = false) : c.world.sockets = [] := by
  have hnil : (starters c).flatMap (fun v => v.2.2.held) = [] := by
    refine List.flatMap_eq_nil_iff.mpr fun v hv => ?_
    obtain ⟨t, ht, rfl⟩ := List.mem_map.mp hv
    have hlive := hback t ht
    rw [← startState_past t.trace] at hlive
    cases hc.placed hres ht with
    | called hs =>
        rw [hs] at hlive
        cases hlive
    | ready hs =>
        rw [hs] at hlive
        cases hlive
    | returned _ _ held => exact held
  exact List.Perm.eq_nil (hnil ▸ (hc.housed hres).1.sockets)

theorem Starting.freed (hres : resolves.Single out here) {c : Pool startupSys Nat Host Unit}
    (hc : Starting resolves out c) {t : Thread startupSys Nat Unit} (ht : t ∈ c.threads)
    (hs : stageOf t.trace ≠ .called) : gotLists t.trace = freedLists t.trace := by
  rw [← startState_past t.trace] at hs ⊢
  cases hc.placed hres ht with
  | called hs' => exact absurd hs' hs
  | ready _ freed => exact freed
  | returned _ freed => exact freed

end Pool

end TwoSocks
