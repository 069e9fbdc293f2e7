/-
The process: all connections at once.

`Shared` is what the threads share, `ThreadMem` what belongs to one of them: its
`struct thread`, the counters of its `copyloop` call, and its part of the descriptor
table, the descriptors it was given and has not closed.  `machine` says what each
operation does to the two.  The answers of shared and own memory are determined; the
answers of the operating system are whatever a `contract` admits, and `anyAnswer`
admits everything.

Identifiers are counted in `Int`: the source's `int64_t` overflows after more than
`2 ^ 63` connections, and what C does then is undefined.
-/
import TwoSocks.Server.Client

namespace TwoSocks

/-- What the threads share. -/
structure Shared where
  nextConnectionIdentifierValue : Int
  total : Direction → Nat
  authIps : Sblist SockaddrUnion
  /-- The calls of the connection event handler, the first one first. -/
  events : List ConnectionEvent

/-- What one thread owns. -/
structure ThreadMem where
  state : Socksstate
  done : Bool
  pending : Direction → Nat
  /-- The descriptors it holds, and what kind of socket each is. -/
  held : List (Fd × SockType)

/-- The process before the first connection. -/
def Shared.initial : Shared := ⟨1, fun _ => 0, .new 8, []⟩

/-- A thread before `clientthread` runs: it holds the accepted socket.  `clientthread`
writes the state before anything reads it. -/
def ThreadMem.initial (client : Client) : ThreadMem :=
  ⟨.ss1Connected, false, fun _ => 0, [(client.fd, .stream)]⟩

/-- What the operating system may answer a thread. -/
abbrev Contract := ThreadMem → (o : Op) → o.Ret → Prop

/-- An operating system that may answer anything. -/
def anyAnswer : Contract := fun _ _ _ => True

/-- An operating system as documented, as far as this development relies on it:
`socket` does not return a descriptor that is open, `read` returns no more than was
asked for, and a datagram is written whole or not at all. -/
def documented : Contract
  | m, .socket _ _, .ok fd => ∀ t, (fd, t) ∉ m.held
  | _, .read _ len, .ok buf => buf.length ≤ len
  | m, .write fd buf, .ok n => n ≤ buf.length ∧ ((fd, SockType.dgram) ∈ m.held → n = buf.length)
  | _, .send _ buf, .ok n => n ≤ buf.length
  | _, _, _ => True

/-- The answers that are possible: memory answers what it holds. -/
def answers (contract : Contract) (w : Shared) (m : ThreadMem) (o : Op) (r : o.Ret) : Prop :=
  match o, r with
  | .nextConnectionIdentifier, r => r = w.nextConnectionIdentifierValue
  | .loadAuthIps, r => r = w.authIps
  | .loadState, r => r = m.state
  | .loadPending d, r => r = m.pending d
  | o, r => contract m o r

/-- What an operation leaves behind. -/
def update (w : Shared) (m : ThreadMem) (o : Op) (r : o.Ret) : Shared × ThreadMem :=
  match o, r with
  | .nextConnectionIdentifier, _ =>
      ({ w with nextConnectionIdentifierValue := w.nextConnectionIdentifierValue + 1 }, m)
  | .handler e, _ => ({ w with events := w.events ++ [e] }, m)
  | .fetchAdd d count, _ =>
      ({ w with total := Function.update w.total d ((w.total d + count) % 2 ^ 64) }, m)
  | .storeAuthIps l, _ => ({ w with authIps := l }, m)
  | .storeState s, _ => (w, { m with state := s })
  | .storeDone, _ => (w, { m with done := true })
  | .storePending d count, _ => (w, { m with pending := Function.update m.pending d count })
  | .socket _ type, .ok fd => (w, { m with held := (fd, type) :: m.held })
  | .close fd, _ => (w, { m with held := m.held.filter (fun h => h.1 ≠ fd) })
  | _, _ => (w, m)

/-- The machine the server runs on. -/
def machine (contract : Contract) : Machine sys Shared ThreadMem :=
  ⟨answers contract, update⟩

/-- Each accepted client gets a `clientthread`. -/
def accepted (inet : Inet) (cfg : Config) : Boot sys Client ThreadMem :=
  ⟨clientthread inet cfg, ThreadMem.initial⟩

/-- A schedule that takes each locked section as one step and opens the rest. -/
def lockedWhole : Block → Prop
  | .locked => True
  | .accounted => False

/-- A schedule that takes every block as one step. -/
def allWhole : Block → Prop := fun _ => True

/-- The process: every state some schedule leads to, under an OS contract. -/
abbrev Process (contract : Contract) (inet : Inet) (cfg : Config) (whole : Block → Prop) :
    Pool sys Client Shared ThreadMem → Prop :=
  Pool.Reachable (machine contract) (accepted inet cfg) whole Shared.initial

end TwoSocks
