/-
The app with its server in it.

For the lifecycle of the app `socks_main` is a stage of a task, which goes on at an event.  Here
the task runs it.  A `Launch` is the app and the tasks that were begun, each as the program it is,
on the sockets of the process; the programs have the numbers of their tasks.

A `LaunchStep` is an event of the main actor, or a task is begun, or a task takes one step.  Of that
the app is only told what `told` says.
-/
import TwoSocks.App.Lifecycle
import TwoSocks.Server.Startup

namespace TwoSocks

/-- What happens on the main actor. -/
def LifecycleEvent.onMainActor : LifecycleEvent → Prop
  | .call _ | .setUp _ | .fail _ _ => False
  | _ => True

/-- What the app is told of an operation: `emit_server_ready_event` makes a message, and the code
that `socks_main` returned is sent as one. -/
def LifecycleApp.told (a : LifecycleApp) (task : Nat) : StartupOp → LifecycleApp
  | .serverReady => { a.advance task .ready with readyMessages := a.readyMessages + 1 }
  | .markServerFailed code => a.advance task (.returned code)
  | _ => a

structure Launch where
  app : LifecycleApp
  process : Pool startupSys Nat Host Unit

namespace Launch

/-- Before there is a view model. -/
def initial : Launch := ⟨.initial, ⟨⟨[]⟩, []⟩⟩

end Launch

inductive LaunchStep (resolves : Host.Resolves) (o : Outcome) : Launch → Launch → Prop
  | event {a a' : LifecycleApp} {c : Pool startupSys Nat Host Unit} {e : LifecycleEvent}
      (he : e.onMainActor) (h : a.step e = some a') : LaunchStep resolves o ⟨a, c⟩ ⟨a', c⟩
  | begin {a : LifecycleApp} {w : Host} {ts : List (Thread startupSys Nat Unit)} {task : Nat}
      {t : StartTask} (ht : a.tasks[task]? = some t) (hs : t.stage = .queued) :
      LaunchStep resolves o ⟨a, ⟨w, ts⟩⟩
        ⟨a.advance task .called, ⟨w, ts ++ [⟨task, startTask o, (), []⟩]⟩⟩
  | go {a : LifecycleApp} {w w' : Host} {pre post : List (Thread startupSys Nat Unit)} {task : Nat}
      {p p' : Startup Unit} {past tr : Trace startupSys}
      (h : Prog.Step (fun _ => True) p tr p')
      (hp : Pool.Performs (Host.machine resolves) w () tr w' ()) :
      LaunchStep resolves o ⟨a, ⟨w, pre ++ ⟨task, p, (), past⟩ :: post⟩⟩
        ⟨tr.foldl (fun a e => a.told task e.op) a,
          ⟨w', pre ++ ⟨task, p', (), past ++ tr⟩ :: post⟩⟩

/-- Whatever the app and its tasks come to, in any order. -/
abbrev Launched (resolves : Host.Resolves) (o : Outcome) : Launch → Prop :=
  Relation.ReflTransGen (LaunchStep resolves o) .initial

end TwoSocks
