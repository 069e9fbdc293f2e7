/-
The server lifecycle of the app.

A view model starts the server by a detached task that calls `socks_main`, when it is created and
again some seconds after such a task reported a failure.  Whether it may start one it knows from
two flags of its own.  `socks_main` calls back once it listens, and does not return after that; the
message goes to the view model that was created last, if it still exists.  If `socks_main` returns,
the task sends its code to the view model that started it, if that still exists.

A `LifecycleApp` is one process: the view models, the tasks, and the messages under way.  Everything
that may happen at a time of its own is an event: a view model is created or goes away, a timer of
one fires, its retry button is tapped, a task is begun, its `server_setup` succeeds, it returns, or
a message arrives.  All sockets are for one port, so `server_setup` fails while a server listens.
-/
import TwoSocks.App.Transfer

namespace TwoSocks

/-- `ProxyServerState`. -/
inductive ProxyServerState
  | waitingForNetwork
  | starting
  | running
  | failed (code : Int32)
  deriving DecidableEq

def proxyPort : Nat := 4884

/-- `proxyRetryInterval`. -/
def proxyRetryInterval : ℚ := 2

/-- `AppDelegate.preferredProxyInterfaces`, on a device. -/
def preferredProxyInterfaces : List String := ["bridge100", "en0"]

def preferredProxyInterfaceDescription : String := "/".intercalate preferredProxyInterfaces

/-- What of `ContentViewVM` is about the server.  Nothing is before `.distantPast`, which is
`none`. -/
structure LifecycleVM where
  serverState : ProxyServerState
  endpointDisplay : String
  isProxyListening : Bool
  isProxyStartInFlight : Bool
  nextProxyStartAttemptAt : Option Date

namespace LifecycleVM

def initial : LifecycleVM := ⟨.starting, "Detecting local IP", false, false, none⟩

/-- `refreshEndpointAvailability`, with what `proxyListenIPAddress` says. -/
def refreshEndpointAvailability (vm : LifecycleVM) (ipAddress : Option String) : LifecycleVM :=
  match ipAddress with
  | none =>
      if vm.isProxyListening then
        { vm with
          serverState := .waitingForNetwork
          endpointDisplay := preferredProxyInterfaceDescription ++ " not available" }
      else vm
  | some ipAddress =>
      let vm := { vm with endpointDisplay := ipAddress ++ ":" ++ toString proxyPort }
      if vm.isProxyListening then { vm with serverState := .running } else vm

/-- `startProxy`, and whether it starts a task. -/
def startProxy (vm : LifecycleVM) (ipAddress : Option String) : LifecycleVM × Bool :=
  if !vm.isProxyListening && !vm.isProxyStartInFlight then
    let vm := { vm with
      isProxyStartInFlight := true
      serverState := .starting
      endpointDisplay := "Detecting local IP" }
    (vm.refreshEndpointAvailability ipAddress, true)
  else (vm, false)

def refreshProxyLifecycle (vm : LifecycleVM) (now : Date) (ipAddress : Option String) :
    LifecycleVM × Bool :=
  if vm.isProxyListening then (vm.refreshEndpointAvailability ipAddress, false)
  else if vm.isProxyStartInFlight then (vm, false)
  else
    match vm.nextProxyStartAttemptAt with
    | none => vm.startProxy ipAddress
    | some nextProxyStartAttemptAt =>
        if now ≥ nextProxyStartAttemptAt then vm.startProxy ipAddress else (vm, false)

def canRetryProxy (vm : LifecycleVM) : Bool :=
  match vm.serverState with
  | .failed _ => true
  | _ => false

def retryProxy (vm : LifecycleVM) (now : Date) (ipAddress : Option String) : LifecycleVM × Bool :=
  if vm.canRetryProxy then
    { vm with nextProxyStartAttemptAt := none }.refreshProxyLifecycle now ipAddress
  else (vm, false)

def handleServerReady (vm : LifecycleVM) (ipAddress : Option String) : LifecycleVM :=
  { vm with isProxyStartInFlight := false, isProxyListening := true }.refreshEndpointAvailability
    ipAddress

def markServerFailed (vm : LifecycleVM) (code : Int32) (now : Date) : LifecycleVM :=
  { vm with
    isProxyStartInFlight := false
    isProxyListening := false
    nextProxyStartAttemptAt := some (now + proxyRetryInterval)
    serverState := if vm.serverState ≠ .failed code then .failed code else vm.serverState }

end LifecycleVM

/-! ### The process -/

/-- How far a detached task has got. -/
inductive StartStage
  | queued
  /-- In `socks_main`, before `server_setup` has succeeded. -/
  | called
  /-- In the accept loop. -/
  | ready
  /-- `socks_main` has returned, and the code is on its way. -/
  | returned (code : Int32)
  | over
  deriving DecidableEq

structure StartTask where
  /-- The view model that started it. -/
  owner : Nat
  stage : StartStage

structure LifecycleApp where
  /-- The view models that were created, in order; `none` is one that is gone. -/
  views : List (Option LifecycleVM)
  /-- `ServerReadyBridge.receiver`. -/
  receiver : Option Nat
  tasks : List StartTask
  /-- The messages of `twosocks_server_ready_bridge` that are on their way. -/
  readyMessages : Nat

inductive LifecycleEvent
  | create (now : Date) (ipAddress : Option String)
  | destroy (view : Nat)
  | tick (view : Nat) (now : Date) (ipAddress : Option String)
  | tap (view : Nat) (now : Date) (ipAddress : Option String)
  | call (task : Nat)
  | setUp (task : Nat)
  | fail (task : Nat) (code : Int32)
  | deliverReady (ipAddress : Option String)
  | deliverFailed (task : Nat) (now : Date)

namespace LifecycleApp

def initial : LifecycleApp := ⟨[], none, [], 0⟩

def view? (a : LifecycleApp) (view : Nat) : Option LifecycleVM := a.views[view]?.join

/-- A view model does something, and maybe starts a task. -/
def act (a : LifecycleApp) (view : Nat) (done : LifecycleVM × Bool) : LifecycleApp :=
  { a with
    views := a.views.set view (some done.1)
    tasks := if done.2 then a.tasks ++ [⟨view, .queued⟩] else a.tasks }

/-- A new view model is there, and is the receiver. -/
def add (a : LifecycleApp) : LifecycleApp :=
  { a with views := a.views ++ [some .initial], receiver := some a.views.length }

def advance (a : LifecycleApp) (task : Nat) (stage : StartStage) : LifecycleApp :=
  { a with tasks := a.tasks.modify task fun t => { t with stage } }

/-- One event, if it can happen. -/
def step (a : LifecycleApp) : LifecycleEvent → Option LifecycleApp
  | .create now ipAddress =>
      some (a.add.act a.views.length (LifecycleVM.initial.refreshProxyLifecycle now ipAddress))
  | .destroy view => do
      let _ ← a.view? view
      return { a with
        views := a.views.set view none
        receiver := if a.receiver = some view then none else a.receiver }
  | .tick view now ipAddress => do
      let vm ← a.view? view
      return a.act view (vm.refreshProxyLifecycle now ipAddress)
  | .tap view now ipAddress => do
      let vm ← a.view? view
      return a.act view (vm.retryProxy now ipAddress)
  | .call task => do
      let t ← a.tasks[task]?
      if t.stage = .queued then some (a.advance task .called) else none
  | .setUp task => do
      let t ← a.tasks[task]?
      if t.stage = .called ∧ ∀ t' ∈ a.tasks, t'.stage ≠ .ready then
        some { a.advance task .ready with readyMessages := a.readyMessages + 1 }
      else none
  | .fail task code => do
      let t ← a.tasks[task]?
      if t.stage = .called then some (a.advance task (.returned code)) else none
  | .deliverReady ipAddress =>
      if a.readyMessages = 0 then none
      else
        let a := { a with readyMessages := a.readyMessages - 1 }
        match a.receiver.bind fun view => (a.view? view).map (view, ·) with
        | some (view, vm) => some (a.act view (vm.handleServerReady ipAddress, false))
        | none => some a
  | .deliverFailed task now => do
      let t ← a.tasks[task]?
      match t.stage with
      | .returned code =>
          let a := a.advance task .over
          match a.view? t.owner with
          | some vm => return a.act t.owner (vm.markServerFailed code now, false)
          | none => return a
      | _ => none

end LifecycleApp

end TwoSocks
