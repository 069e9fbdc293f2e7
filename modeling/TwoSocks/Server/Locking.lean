/-
The process with its lock.

`Server/Process.lean` has a machine without a lock: a thread that asks for `auth_ips_lock` gets
it, and a schedule takes each section under it as one step.  Here the lock is there and
the sections are opened.  Threads take turns at every operation, those under the lock among
them, and what keeps them apart is that the lock is not granted.

A thread that has to wait takes no step.  A call may fail at any time, and then the lock is not
taken; the source looks at that.
-/
import TwoSocks.Server.Process
import TwoSocks.Program.RwLock

namespace TwoSocks

/-- Whether the lock can be answered for as it is. -/
def granted (lock : RwLock) (o : Op) (r : o.Ret) : Prop :=
  match o, r with
  | .rdlock, true => lock.writer = false
  | .wrlock, true => lock.writer = false ∧ lock.readers = 0
  | _, _ => True

/-- What an operation leaves of the lock. -/
def nextLock (lock : RwLock) (hold : Hold) (o : Op) (r : o.Ret) : RwLock :=
  match o, r with
  | .rdlock, true => { lock with readers := lock.readers + 1 }
  | .wrlock, true => { lock with writer := true }
  | .unlock, _ => lock.release hold
  | _, _ => lock

/-- How a thread holds the lock after an operation. -/
def nextHold (hold : Hold) (o : Op) (r : o.Ret) : Hold :=
  match o, r with
  | .rdlock, true => .shared
  | .wrlock, true => .exclusive
  | .unlock, _ => .none
  | _, _ => hold

/-- What the threads share, with `auth_ips_lock`. -/
structure LockedShared where
  shared : Shared
  authIpsLock : RwLock

/-- What a thread owns, and how it holds the lock. -/
structure LockedMem where
  mem : ThreadMem
  hold : Hold

/-- The machine the server runs on, with the lock. -/
def lockMachine (contract : Contract) : Machine sys LockedShared LockedMem where
  can w m o r := answers contract w.shared m.mem o r ∧ granted w.authIpsLock o r
  upd w m o r :=
    let (shared, mem) := update w.shared m.mem o r
    (⟨shared, nextLock w.authIpsLock m.hold o r⟩, ⟨mem, nextHold m.hold o r⟩)

/-- Each accepted client gets a `clientthread`, which does not hold the lock. -/
def acceptedUnlocked (inet : Inet) (cfg : Config) : Boot sys Client LockedMem :=
  ⟨clientthread inet cfg, fun client => ⟨.initial client, .none⟩⟩

/-- A schedule that opens every block. -/
def noneWhole : Block → Prop := fun _ => False

/-- A step of the process with its lock. -/
abbrev InterleavedStep (contract : Contract) (inet : Inet) (cfg : Config) :
    Pool sys Client LockedShared LockedMem → Pool sys Client LockedShared LockedMem → Prop :=
  Pool.Step (lockMachine contract) (acceptedUnlocked inet cfg) noneWhole

/-- The process with its lock: every state some schedule leads to that may change threads at
every operation. -/
abbrev Interleaved (contract : Contract) (inet : Inet) (cfg : Config) :
    Pool sys Client LockedShared LockedMem → Prop :=
  Pool.Reachable (lockMachine contract) (acceptedUnlocked inet cfg) noneWhole
    ⟨.initial, .free⟩

end TwoSocks
