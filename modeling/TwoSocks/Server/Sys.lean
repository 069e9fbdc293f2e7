/-
What the server asks of the system, of the process and of its own memory.

An operation is one system call, one access to what all threads share, or one access
to memory that the source reaches through a pointer: the fields of `struct thread`
and the two pending counters `copyloop` lends to `relay_data`.  The answer is what
the call left behind, with the error number on the error side.

Each operation has a function under the name the source calls it by, so that the
programs built from them can be read next to the source.  `sblist_add` is here
because it may ask for memory; the rest of `sblist` works on its list alone.
-/
import TwoSocks.Server.Types

namespace TwoSocks

/-! ### Lists -/

/-- `sblist`: the items in use and the capacity they have room in.  The item size
is the type's. -/
structure Sblist (α : Type) where
  blockitems : Nat
  capa : Nat
  items : List α
  deriving DecidableEq

namespace Sblist

variable {α : Type}

/-- `sblist_init`, with a block size given. -/
def new (blockitems : Nat) : Sblist α := ⟨blockitems, 0, []⟩

/-- `sblist_getsize`. -/
def getsize (l : Sblist α) : Nat := l.items.length

/-- `sblist_item_from_index`.  Past the items there is nothing the source may read;
it only asks for an index that a search or an addition gave it. -/
def itemFromIndex [Inhabited α] (l : Sblist α) (idx : Nat) : α := l.items.getD idx default

/-- `sblist_delete`. -/
def delete (l : Sblist α) (item : Nat) : Sblist α := { l with items := l.items.eraseIdx item }

/-- `sblist_search`, `-1` being `none`. -/
def search (l : Sblist α) (cmp : α → Bool) : Option Nat := l.items.findIdx? cmp

end Sblist

/-! ### Operations -/

/-- The direction a byte counter counts. -/
inductive Direction
  | downloaded
  | uploaded
  deriving DecidableEq, Repr

inductive Op
  -- system calls
  | poll (fds : List (Fd × UInt16)) (timeout : Nat)
  | recv (fd : Fd) (len : Nat)
  | recvfrom (fd : Fd) (len : Nat)
  | read (fd : Fd) (len : Nat)
  | write (fd : Fd) (buf : Bytes)
  | send (fd : Fd) (buf : Bytes)
  | socket (af : Af) (type : SockType)
  | connect (fd : Fd) (addr : SockaddrUnion)
  | bind (fd : Fd) (addr : SockaddrUnion)
  | close (fd : Fd)
  | getsockname (fd : Fd)
  | getpeername (fd : Fd)
  | getaddrinfo (host : CString) (port : UInt16) (type : SockType)
  | getaddrinfoPassive (af : Af)
  | malloc (size : Nat)
  | realloc (items : Nat)
  | perror
  | abort
  -- what all threads share
  | nextConnectionIdentifier
  | handler (event : ConnectionEvent)
  | fetchAdd (d : Direction) (count : Nat)
  | rdlock
  | wrlock
  | unlock
  | loadAuthIps
  | storeAuthIps (l : Sblist SockaddrUnion)
  -- `struct thread`, and the counters `copyloop` lends by address
  | loadState
  | storeState (s : Socksstate)
  | storeDone
  | loadPending (d : Direction)
  | storePending (d : Direction) (count : Nat)
  deriving DecidableEq

/-- What an operation is answered with. -/
@[reducible] def Op.Ret : Op → Type
  | .poll _ _ => PollResult
  | .recv _ _ => Except Errno Bytes
  | .recvfrom _ _ => Except Errno (Bytes × SockaddrUnion)
  | .read _ _ => Except Errno Bytes
  | .write _ _ => Except Errno Nat
  | .send _ _ => Except Errno Nat
  | .socket _ _ => Except Errno Fd
  | .connect _ _ => Except Errno Unit
  | .bind _ _ => Except Errno Unit
  | .close _ => Unit
  | .getsockname _ => Except Errno SockaddrUnion
  | .getpeername _ => Except Errno SockaddrUnion
  | .getaddrinfo _ _ _ => Option SockaddrUnion
  | .getaddrinfoPassive _ => Option SockaddrUnion
  | .malloc _ => Bool
  | .realloc _ => Bool
  | .perror => Errno
  | .abort => Empty
  | .nextConnectionIdentifier => Int
  | .handler _ => Unit
  | .fetchAdd _ _ => Unit
  | .rdlock => Bool
  | .wrlock => Bool
  | .unlock => Unit
  | .loadAuthIps => Sblist SockaddrUnion
  | .storeAuthIps _ => Unit
  | .loadState => Socksstate
  | .storeState _ => Unit
  | .storeDone => Unit
  | .loadPending _ => Nat
  | .storePending _ _ => Unit

/-- The blocks a schedule can be told to run as one step: the sections under
`auth_ips_lock`, and the transfers together with their accounting. -/
inductive Block
  | locked
  | accounted
  deriving DecidableEq, Repr

/-- The signature of the server's programs. -/
abbrev sys : Sig := ⟨Op, Op.Ret, Block⟩

/-- A program of the server. -/
abbrev Server := Prog sys

namespace Server

def poll (fds : List (Fd × UInt16)) (timeout : Nat) : Server PollResult :=
  Prog.perform (S := sys) (.poll fds timeout)
def recv (fd : Fd) (len : Nat) : Server (Except Errno Bytes) :=
  Prog.perform (S := sys) (.recv fd len)
def recvfrom (fd : Fd) (len : Nat) : Server (Except Errno (Bytes × SockaddrUnion)) :=
  Prog.perform (S := sys) (.recvfrom fd len)
def read (fd : Fd) (len : Nat) : Server (Except Errno Bytes) :=
  Prog.perform (S := sys) (.read fd len)
def write (fd : Fd) (buf : Bytes) : Server (Except Errno Nat) :=
  Prog.perform (S := sys) (.write fd buf)
def send (fd : Fd) (buf : Bytes) : Server (Except Errno Nat) :=
  Prog.perform (S := sys) (.send fd buf)
def socket (af : Af) (type : SockType) : Server (Except Errno Fd) :=
  Prog.perform (S := sys) (.socket af type)
def connect (fd : Fd) (addr : SockaddrUnion) : Server (Except Errno Unit) :=
  Prog.perform (S := sys) (.connect fd addr)
def bind (fd : Fd) (addr : SockaddrUnion) : Server (Except Errno Unit) :=
  Prog.perform (S := sys) (.bind fd addr)
def close (fd : Fd) : Server Unit := Prog.perform (S := sys) (.close fd)
def getsockname (fd : Fd) : Server (Except Errno SockaddrUnion) :=
  Prog.perform (S := sys) (.getsockname fd)
def getpeername (fd : Fd) : Server (Except Errno SockaddrUnion) :=
  Prog.perform (S := sys) (.getpeername fd)
def getaddrinfo (host : CString) (port : UInt16) (type : SockType) :
    Server (Option SockaddrUnion) := Prog.perform (S := sys) (.getaddrinfo host port type)
def getaddrinfoPassive (af : Af) : Server (Option SockaddrUnion) :=
  Prog.perform (S := sys) (.getaddrinfoPassive af)
def malloc (size : Nat) : Server Bool := Prog.perform (S := sys) (.malloc size)
def realloc (items : Nat) : Server Bool := Prog.perform (S := sys) (.realloc items)
/-- `perror`, which may change `errno`: the answer is `errno` afterwards. -/
def perror : Server Errno := Prog.perform (S := sys) .perror
/-- `abort` does not come back. -/
def abort {α : Type} : Server α := .call (S := sys) .abort fun r => nomatch r
def nextConnectionIdentifier : Server Int := Prog.perform (S := sys) .nextConnectionIdentifier
/-- `emit_connection_event` with a handler installed. -/
def emitConnectionEvent (e : ConnectionEvent) : Server Unit :=
  Prog.perform (S := sys) (.handler e)
def rdlock : Server Bool := Prog.perform (S := sys) .rdlock
def wrlock : Server Bool := Prog.perform (S := sys) .wrlock
def unlock : Server Unit := Prog.perform (S := sys) .unlock
def loadAuthIps : Server (Sblist SockaddrUnion) := Prog.perform (S := sys) .loadAuthIps
def storeAuthIps (l : Sblist SockaddrUnion) : Server Unit :=
  Prog.perform (S := sys) (.storeAuthIps l)
def loadState : Server Socksstate := Prog.perform (S := sys) .loadState
def storeState (s : Socksstate) : Server Unit := Prog.perform (S := sys) (.storeState s)
def storeDone : Server Unit := Prog.perform (S := sys) .storeDone
def loadPending (d : Direction) : Server Nat := Prog.perform (S := sys) (.loadPending d)
def storePending (d : Direction) (count : Nat) : Server Unit :=
  Prog.perform (S := sys) (.storePending d count)

/-- `record_downloaded_bytes` and `record_uploaded_bytes`, which differ in the
counter alone. -/
def recordBytes (d : Direction) (count : Nat) : Server Unit :=
  if count = 0 then pure () else Prog.perform (S := sys) (.fetchAdd d count)

def recordDownloadedBytes : Nat → Server Unit := recordBytes .downloaded
def recordUploadedBytes : Nat → Server Unit := recordBytes .uploaded

/-- `emit_addrport_connection_event`. -/
def emitAddrportConnectionEvent (identifier : Int) (protocol : ConnectionProtocol)
    (state : ConnectionState) (addrport : Socks5Addrport) (errorCode : Errorcode) :
    Server Unit :=
  emitConnectionEvent ⟨identifier, protocol, state, addrport.addr, addrport.port, errorCode⟩

/-- `sblist_grow_if_needed`, `none` being the `0` of a failed `realloc`. -/
def sblistGrowIfNeeded {α : Type} (l : Sblist α) : Server (Option (Sblist α)) := do
  if l.getsize = l.capa then
    if ← realloc (l.capa + l.blockitems) then
      return some { l with capa := l.capa + l.blockitems }
    else
      return none
  else
    return some l

/-- `sblist_add`.  On failure the list is as it was. -/
def sblistAdd {α : Type} (l : Sblist α) (item : α) : Server (Option (Sblist α)) := do
  match ← sblistGrowIfNeeded l with
  | none => return none
  | some l => return some { l with items := l.items ++ [item] }

/-- Run a program for each element of a list, in order. -/
def forEach {α : Type} (f : α → Server Unit) : List α → Server Unit
  | [] => pure ()
  | a :: rest => do f a; forEach f rest

end Server

end TwoSocks
