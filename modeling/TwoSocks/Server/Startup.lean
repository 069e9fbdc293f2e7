/-
How the server starts.

A task of the app calls `socks_main`.  That asks for the addresses to listen on, takes the first
one on which it can open and bind a socket, listens there and says so, or returns.  `StartupOp` is
what it asks for on the way, with the address list it has to free and the sockets it has to close.
The accept loop is one operation here; it has no way out, which is the answer type `Empty`.

A `Host` is the sockets of the process.  Two sockets cannot listen on one address, which is all
that is said of `bind` and `listen`; either may fail for any reason.  The clients' sockets are not
among them, since none of them listens.  `resolves` is what `getaddrinfo` may answer.

Messages that are only logged are left out.
-/
import TwoSocks.Program.Pool
import TwoSocks.Server.Main

namespace TwoSocks

open Prog

/-- An entry of the list `getaddrinfo` makes. -/
structure Addrinfo where
  family : Af
  socktype : SockType
  protocol : Int
  addr : SockaddrUnion

/-- The list, by its address. -/
structure AddrinfoList where
  ainfo : Nat
  entries : List Addrinfo

inductive StartupOp
  | ignoreSigpipe
  | sblistNew (blockitems : Nat)
  | getaddrinfo (host : CString) (port : String)
  | freeaddrinfo (ainfo : Nat)
  | socket (family : Af) (socktype : SockType) (protocol : Int)
  | setsockopt (fd : Fd)
  | bind (fd : Fd) (addr : SockaddrUnion)
  | listen (fd : Fd)
  | close (fd : Fd)
  | perror
  | storeServer (fd : Fd)
  | serverReady
  | acceptLoop (fd : Fd)
  | markServerFailed (code : Int32)

/-- What an operation is answered with; a call that can fail says whether it did not. -/
@[reducible] def StartupOp.Ret : StartupOp → Type
  | .sblistNew _ => Bool
  | .getaddrinfo _ _ => Option AddrinfoList
  | .socket _ _ _ => Option Fd
  | .bind _ _ => Bool
  | .listen _ => Bool
  | .acceptLoop _ => Empty
  | _ => Unit

/-- The signature of a start; it has no blocks. -/
abbrev startupSys : Sig := ⟨StartupOp, StartupOp.Ret, Empty⟩

abbrev Startup := Prog startupSys

namespace Startup

def ignoreSigpipe : Startup Unit := perform (S := startupSys) .ignoreSigpipe
def sblistNew (blockitems : Nat) : Startup Bool := perform (S := startupSys) (.sblistNew blockitems)
/-- `getaddrinfo` with the hints of `resolve_tcp`. -/
def getaddrinfo (host : CString) (port : String) : Startup (Option AddrinfoList) :=
  perform (S := startupSys) (.getaddrinfo host port)
def freeaddrinfo (ainfo : Nat) : Startup Unit := perform (S := startupSys) (.freeaddrinfo ainfo)
def socket (family : Af) (socktype : SockType) (protocol : Int) : Startup (Option Fd) :=
  perform (S := startupSys) (.socket family socktype protocol)
/-- `SO_REUSEADDR`; the result is not looked at. -/
def setsockopt (fd : Fd) : Startup Unit := perform (S := startupSys) (.setsockopt fd)
def bind (fd : Fd) (addr : SockaddrUnion) : Startup Bool :=
  perform (S := startupSys) (.bind fd addr)
def listen (fd : Fd) : Startup Bool := perform (S := startupSys) (.listen fd)
def close (fd : Fd) : Startup Unit := perform (S := startupSys) (.close fd)
def perror : Startup Unit := perform (S := startupSys) .perror
/-- `server = &s`. -/
def storeServer (fd : Fd) : Startup Unit := perform (S := startupSys) (.storeServer fd)
/-- `emit_server_ready_event`, with the handler installed. -/
def serverReady : Startup Unit := perform (S := startupSys) .serverReady
def acceptLoop (fd : Fd) : Startup Int32 := .call (.acceptLoop fd) nofun
def markServerFailed (code : Int32) : Startup Unit :=
  perform (S := startupSys) (.markServerFailed code)

end Startup

open Startup

/-- `resolve_tcp`; the buffer for the port has room for every `unsigned short`. -/
def resolveTcp (host : CString) (port : UInt16) : Startup (Option AddrinfoList) :=
  getaddrinfo host (toString port)

/-- The loop of `server_setup`: the first socket that could be opened and bound. -/
def bindFirst : List Addrinfo → Startup (Option Fd)
  | [] => return none
  | p :: rest => do
    match ← Startup.socket p.family p.socktype p.protocol with
    | none => bindFirst rest
    | some listenfd =>
        setsockopt listenfd
        if ← Startup.bind listenfd p.addr then return some listenfd
        else
          Startup.close listenfd
          bindFirst rest

/-- `server_setup`: the descriptor, or what the source returns. -/
def serverSetup (listenip : CString) (port : UInt16) : Startup (Except Int32 Fd) := do
  match ← resolveTcp listenip port with
  | none => return .error (-1)
  | some list =>
      let listenfd ← bindFirst list.entries
      freeaddrinfo list.ainfo
      match listenfd with
      | none => return .error (-2)
      | some listenfd =>
          if ← listen listenfd then return .ok listenfd
          else
            Startup.close listenfd
            return .error (-3)

/-- `socks_main` from the end of its options on.  `port` is an `unsigned` that is passed on as an
`unsigned short`. -/
def serveFrom (o : Outcome) : Startup Int32 := do
  if o.rejected then return 1
  else
    ignoreSigpipe
    let _ ← sblistNew 8
    match ← serverSetup o.listenip o.port.toUInt16 with
    | .error _ =>
        Startup.perror
        return 1
    | .ok fd =>
        storeServer fd
        serverReady
        acceptLoop fd

/-- The detached task of `startProxy`. -/
def startTask (o : Outcome) : Startup Unit := do
  let status ← serveFrom o
  markServerFailed status

/-! ### The process -/

/-- A socket of the process. -/
structure HostSocket where
  fd : Fd
  bound : Option SockaddrUnion
  listening : Bool
  deriving DecidableEq

structure Host where
  sockets : List HostSocket

namespace Host

/-- What `getaddrinfo` may answer. -/
abbrev Resolves := CString → String → List Addrinfo → Prop

/-- The answers that are possible. -/
def can (resolves : Resolves) (w : Host) : (o : StartupOp) → o.Ret → Prop
  | .getaddrinfo host port, some list => resolves host port list.entries
  | .socket _ _ _, some fd => ∀ s ∈ w.sockets, s.fd ≠ fd
  | .bind _ addr, true => ∀ s ∈ w.sockets, s.listening → s.bound ≠ some addr
  | .listen fd, true => ∀ s ∈ w.sockets, s.fd = fd →
      ∀ s' ∈ w.sockets, s'.listening → s'.bound ≠ s.bound
  | _, _ => True

/-- What a list of sockets is after an operation. -/
def after (sockets : List HostSocket) : (o : StartupOp) → o.Ret → List HostSocket
  | .socket _ _ _, some fd => ⟨fd, none, false⟩ :: sockets
  | .bind fd addr, true =>
      sockets.map fun s => if s.fd = fd then { s with bound := some addr } else s
  | .listen fd, true => sockets.map fun s => if s.fd = fd then { s with listening := true } else s
  | .close fd, _ => sockets.filter fun s => s.fd ≠ fd
  | _, _ => sockets

/-- The machine the tasks run on. -/
def machine (resolves : Resolves) : Machine startupSys Host Unit where
  can w _ o r := w.can resolves o r
  upd w _ o r := (⟨after w.sockets o r⟩, ())

end Host

/-- The tasks, by their numbers in the app; all of them have one configuration. -/
abbrev starts (o : Outcome) : Boot startupSys Nat Unit := ⟨fun _ => startTask o, fun _ => ()⟩

/-- Any number of tasks, taking their steps in any order. -/
abbrev Starting (resolves : Host.Resolves) (o : Outcome) : Pool startupSys Nat Host Unit → Prop :=
  Pool.Reachable (Host.machine resolves) (starts o) (fun _ => True) ⟨[]⟩

end TwoSocks
