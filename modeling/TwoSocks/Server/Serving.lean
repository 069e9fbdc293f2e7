/-
The process with one table of descriptors.

`Server/Process.lean` says of each thread what it holds, and lets the system answer a thread
without regard to the others.  But descriptors are the process's.  Here `accept` and `socket` give
none that any thread has open; that is all that is said of them, and a descriptor may be given
again once it has been closed.
-/
import TwoSocks.Server.Process

namespace TwoSocks

/-- The descriptors a thread has open. -/
def ThreadMem.opened (m : ThreadMem) : List Fd := m.held.map Prod.fst

/-- A thread takes a step.  The step says which thread it was and what it did. -/
inductive ServeStep (contract : Contract) (whole : Block → Prop) :
    Pool sys Client Shared ThreadMem → Nat → Trace sys → Pool sys Client Shared ThreadMem → Prop
  | thread {w w' : Shared} {pre post : List (Thread sys Client ThreadMem)} {client : Client}
      {p p' : Server Unit} {m m' : ThreadMem} {past tr : Trace sys} (h : Prog.Step whole p tr p')
      (hp : Pool.Performs (machine contract) w m tr w' m')
      (hnew : ∀ af type fd, ⟨.socket af type, .ok fd⟩ ∈ tr →
        0 < fd ∧ ∀ t ∈ pre ++ post, fd ∉ t.mem.opened) :
      ServeStep contract whole ⟨w, pre ++ ⟨client, p, m, past⟩ :: post⟩ pre.length tr
        ⟨w', pre ++ ⟨client, p', m', past ++ tr⟩ :: post⟩

/-- The process: clients are accepted, and threads take their steps. -/
inductive Serving (contract : Contract) (inet : Inet) (cfg : Config) (whole : Block → Prop) :
    Pool sys Client Shared ThreadMem → Prop
  | init : Serving contract inet cfg whole ⟨.initial, []⟩
  | accept {c : Pool sys Client Shared ThreadMem} (client : Client)
      (h : Serving contract inet cfg whole c) (hpos : 0 < client.fd)
      (hnew : ∀ t ∈ c.threads, client.fd ∉ t.mem.opened) :
      Serving contract inet cfg whole ⟨c.world,
        c.threads ++ [⟨client, clientthread inet cfg client, .initial client, []⟩]⟩
  | step {c c' : Pool sys Client Shared ThreadMem} {k : Nat} {tr : Trace sys}
      (h : Serving contract inet cfg whole c) (hs : ServeStep contract whole c k tr c') :
      Serving contract inet cfg whole c'

end TwoSocks
