/-
The accept loop of `socks_main`.

The loop has operations of its own: it asks for `struct thread`s and frees them, accepts, and
starts and joins threads.  A `struct thread` is known by its address, which may be handed out
again once it has been freed.  `threads` is the loop's alone, so it is a value that the loop
carries from one iteration to the next.

A `Daemon` is the loop together with every thread it has started.  Each thread runs its
`clientthread`; the loop and the threads take their steps in any order.  What they share is the
structs: a thread sets `done` in its own, and the loop reads it there.  `pthread_join` waits until
the thread has returned.

Messages that are only logged are left out.
-/
import TwoSocks.Server.Client

namespace TwoSocks

open Prog

/-- The address of a `struct thread`. -/
abbrev ThreadPtr := Nat

inductive LoopOp
  | mallocThread
  | free (thread : ThreadPtr)
  -- the fields of `struct thread`
  | clearDone (thread : ThreadPtr)
  | loadDone (thread : ThreadPtr)
  | storeClient (thread : ThreadPtr) (client : Client)
  -- system calls
  | waitclient
  | close (fd : Fd)
  | realloc (items : Nat)
  | usleep (usec : Nat)
  | pthreadAttrInit
  | pthreadAttrSetstacksize (size : Nat)
  | pthreadAttrDestroy
  | pthreadCreate (thread : ThreadPtr)
  | pthreadJoin (thread : ThreadPtr)
  deriving DecidableEq

/-- What an operation of the loop is answered with. -/
@[reducible] def LoopOp.Ret : LoopOp → Type
  | .mallocThread => Option ThreadPtr
  | .loadDone _ => Bool
  | .waitclient => Option Client
  | .realloc _ => Bool
  | .pthreadAttrInit => Bool
  | .pthreadCreate _ => Bool
  | _ => Unit

/-- The signature of the accept loop; it has no blocks. -/
abbrev loopSys : Sig := ⟨LoopOp, LoopOp.Ret, Empty⟩

/-- A program of the accept loop. -/
abbrev Loop := Prog loopSys

namespace Loop

def mallocThread : Loop (Option ThreadPtr) := perform (S := loopSys) .mallocThread
def free (thread : ThreadPtr) : Loop Unit := perform (S := loopSys) (.free thread)
def clearDone (thread : ThreadPtr) : Loop Unit := perform (S := loopSys) (.clearDone thread)
def loadDone (thread : ThreadPtr) : Loop Bool := perform (S := loopSys) (.loadDone thread)
def storeClient (thread : ThreadPtr) (client : Client) : Loop Unit :=
  perform (S := loopSys) (.storeClient thread client)
/-- `server_waitclient`. -/
def waitclient : Loop (Option Client) := perform (S := loopSys) .waitclient
def close (fd : Fd) : Loop Unit := perform (S := loopSys) (.close fd)
def realloc (items : Nat) : Loop Bool := perform (S := loopSys) (.realloc items)
def usleep (usec : Nat) : Loop Unit := perform (S := loopSys) (.usleep usec)
def pthreadAttrInit : Loop Bool := perform (S := loopSys) .pthreadAttrInit
def pthreadAttrSetstacksize (size : Nat) : Loop Unit :=
  perform (S := loopSys) (.pthreadAttrSetstacksize size)
def pthreadAttrDestroy : Loop Unit := perform (S := loopSys) .pthreadAttrDestroy
/-- `pthread_create(&curr->pt, a, clientthread, curr)`. -/
def pthreadCreate (thread : ThreadPtr) : Loop Bool := perform (S := loopSys) (.pthreadCreate thread)
/-- `pthread_join(thread->pt, 0)`. -/
def pthreadJoin (thread : ThreadPtr) : Loop Unit := perform (S := loopSys) (.pthreadJoin thread)

end Loop

open Loop

/-- `FAILURE_TIMEOUT`. -/
def FAILURE_TIMEOUT : Nat := 64

/-- `THREAD_STACK_SIZE` on Darwin. -/
def THREAD_STACK_SIZE : Nat := 64 * 1024

/-- `sblist_add` on `threads`, `none` being its `0`. -/
def addThread (threads : Sblist ThreadPtr) (curr : ThreadPtr) :
    Loop (Option (Sblist ThreadPtr)) := do
  if threads.getsize = threads.capa then
    if ← realloc (threads.capa + threads.blockitems) then
      return some ⟨threads.blockitems, threads.capa + threads.blockitems, threads.items ++ [curr]⟩
    else
      return none
  else
    return some { threads with items := threads.items ++ [curr] }

/-- One round of `collect`, at index `i`. -/
def collectBody : Sblist ThreadPtr × Nat → Loop ((Sblist ThreadPtr × Nat) ⊕ Sblist ThreadPtr)
  | (threads, i) => do
    if i < threads.getsize then
      let thread := threads.itemFromIndex i
      if ← loadDone thread then
        pthreadJoin thread
        let threads := threads.delete i
        free thread
        return .inl (threads, i)
      else
        return .inl (threads, i + 1)
    else
      return .inr threads

/-- `collect`. -/
def collect (threads : Sblist ThreadPtr) : Loop (Sblist ThreadPtr) :=
  iterate collectBody (threads, 0)

/-- `pthread_create` failed: the client goes, and so does the entry that was just added. -/
def createFailed (threads : Sblist ThreadPtr) (curr : ThreadPtr) (c : Client) :
    Loop (Sblist ThreadPtr) := do
  close c.fd
  let threads := threads.delete (threads.getsize - 1)
  free curr
  usleep FAILURE_TIMEOUT
  return threads

/-- The part of an iteration that starts a thread for the last entry. -/
def startThread (threads : Sblist ThreadPtr) (curr : ThreadPtr) (c : Client) :
    Loop (Sblist ThreadPtr) := do
  let a ← pthreadAttrInit
  if a then
    pthreadAttrSetstacksize THREAD_STACK_SIZE
  let created ← pthreadCreate curr
  let threads ← if created then pure threads else createFailed threads curr c
  if a then
    pthreadAttrDestroy
  return threads

/-- One iteration of the loop of `socks_main`: the list it starts the next one with. -/
def socksMainBody (threads : Sblist ThreadPtr) : Loop (Sblist ThreadPtr) := do
  let threads ← collect threads
  match ← mallocThread with
  | none =>
      -- `oom:`
      usleep FAILURE_TIMEOUT
      return threads
  | some curr =>
      clearDone curr
      match ← waitclient with
      | none =>
          free curr
          usleep FAILURE_TIMEOUT
          return threads
      | some c =>
          storeClient curr c
          match ← addThread threads curr with
          | none =>
              close c.fd
              free curr
              -- falls through to `oom:`
              usleep FAILURE_TIMEOUT
              return threads
          | some threads => startThread threads curr c

/-! ### The loop and its threads -/

/-- `struct thread`, with what has been written to it; `pt` says which thread was started with
it, counted from zero. -/
structure ThreadStruct where
  done : Option Bool
  client : Option Client
  pt : Option Nat

/-- A thread that was started: its struct, its client, what it has left to do and what it did,
and how often it was joined and the struct it was started with was freed. -/
structure Worker where
  self : ThreadPtr
  client : Client
  prog : Server Unit
  past : Trace sys
  joins : Nat
  frees : Nat

/-- The process: what is left of the loop's iteration, what the loop did, the structs that are
allocated, and every thread that was started, in order. -/
structure Daemon where
  main : Loop (Sblist ThreadPtr)
  past : Trace loopSys
  heap : ThreadPtr → Option ThreadStruct
  workers : List Worker

namespace Daemon

/-- `threads` as `sblist_new` leaves it, and the head of the first iteration. -/
def initial : Daemon := ⟨.ret (.new 8), [], fun _ => none, []⟩

/-- A write to a struct, which has to be allocated. -/
def modify (d : Daemon) (thread : ThreadPtr) (f : ThreadStruct → ThreadStruct) : Daemon :=
  { d with heap := Function.update d.heap thread ((d.heap thread).map f) }

/-- Which thread was started with a struct. -/
def worker? (d : Daemon) (thread : ThreadPtr) : Option Nat := (d.heap thread).bind (·.pt)

/-- The answers that are possible.  A flag that was never written, or is in no struct, reads as
anything. -/
def can (d : Daemon) : (o : LoopOp) → o.Ret → Prop
  | .mallocThread, some thread => d.heap thread = none
  | .loadDone thread, r => ∀ done, (d.heap thread).bind (·.done) = some done → r = done
  | .pthreadJoin thread, _ =>
      ∀ k w, d.worker? thread = some k → d.workers[k]? = some w → w.prog = .ret ()
  | _, _ => True

/-- What an operation of the loop leaves behind. -/
def after (inet : Inet) (cfg : Config) (d : Daemon) : (o : LoopOp) → o.Ret → Daemon
  | .mallocThread, some thread =>
      { d with heap := Function.update d.heap thread (some ⟨none, none, none⟩) }
  | .clearDone thread, _ => d.modify thread fun s => { s with done := some false }
  | .storeClient thread client, _ => d.modify thread fun s => { s with client := some client }
  | .free thread, _ =>
      { d with
        heap := Function.update d.heap thread none
        workers := match d.worker? thread with
          | some k => d.workers.modify k fun w => { w with frees := w.frees + 1 }
          | none => d.workers }
  | .pthreadCreate thread, true =>
      match (d.heap thread).bind (·.client) with
      | some client =>
          { d.modify thread fun s => { s with pt := some d.workers.length } with
            workers := d.workers ++ [⟨thread, client, clientthread inet cfg client, [], 0, 0⟩] }
      | none => d
  | .pthreadJoin thread, _ =>
      match d.worker? thread with
      | some k => { d with workers := d.workers.modify k fun w => { w with joins := w.joins + 1 } }
      | none => d
  | _, _ => d

/-- A thread's `t->done = 1`, if that is among what it did. -/
def finish (d : Daemon) (thread : ThreadPtr) (tr : Trace sys) : Daemon :=
  if tr.any fun e => e.op = .storeDone then d.modify thread fun s => { s with done := some true }
  else d

/-- One step: the loop begins an iteration, goes on in it, or a thread goes on.  `ok` is what is
assumed of the answers a thread is given. -/
inductive Step (inet : Inet) (cfg : Config) (whole : Block → Prop)
    (ok : Client → Trace sys → Prop) :
    Daemon → Daemon → Prop
  | iteration {d : Daemon} {threads : Sblist ThreadPtr} (h : d.main = .ret threads) :
      Step inet cfg whole ok d { d with main := socksMainBody threads }
  | unfold {d : Daemon} {p : Loop (Sblist ThreadPtr)}
      (h : Prog.Step (fun _ => True) d.main [] p) : Step inet cfg whole ok d { d with main := p }
  | loop {d : Daemon} {p : Loop (Sblist ThreadPtr)} (o : LoopOp) (r : o.Ret)
      (h : Prog.Step (fun _ => True) d.main [⟨o, r⟩] p) (hc : d.can o r) :
      Step inet cfg whole ok d { d.after inet cfg o r with main := p, past := d.past ++ [⟨o, r⟩] }
  | thread {d : Daemon} {k : Nat} {w : Worker} {p : Server Unit} {tr : Trace sys}
      (hw : d.workers[k]? = some w) (h : Prog.Step whole w.prog tr p)
      (hok : ok w.client (w.past ++ tr)) :
      Step inet cfg whole ok d
        { d.finish w.self tr with
          workers := d.workers.set k { w with prog := p, past := w.past ++ tr } }

/-- Every state some schedule leads to. -/
inductive Reachable (inet : Inet) (cfg : Config) (whole : Block → Prop)
    (ok : Client → Trace sys → Prop) : Daemon → Prop
  | initial : Reachable inet cfg whole ok .initial
  | step {d d' : Daemon} (h : Reachable inet cfg whole ok d)
      (hs : Step inet cfg whole ok d d') : Reachable inet cfg whole ok d'

end Daemon

end TwoSocks
