/-
From the server's events to the rows of the app.

The server calls `twosocks_connection_event_bridge` on the thread of the connection.  That copies
the host's name into a `String` and makes a task, and the task calls `handleConnectionEvent` on the
main actor whenever it gets there.  Nothing orders the tasks of different threads.  Those of one
thread run in the order in which it made them, and an identifier belongs to one thread, so a
`BridgeStep` asks for no more than that the tasks of one identifier do.

`Bridge` is the process, the tasks that wait and the calls that were made, with their times.  The
view model is there from before the server starts, which is what its `init` sees to.

`String(cString:)` decodes UTF-8 and puts U+FFFD for what is not: for the longest beginning of a
character that the bytes do go on with, and for a byte that begins none.
-/
import TwoSocks.App.ViewModel
import TwoSocks.Server.Process

namespace TwoSocks

/-! ### `String(cString:)` -/

/-- A character whose first bytes have been read: how many are to come, what the next may be, and
the bits so far. -/
structure PartialChar where
  needed : Nat
  lower : UInt8
  upper : UInt8
  bits : Nat

def replacementCharacter : Char := '\uFFFD'

/-- A byte that begins a character. -/
def leadByte (b : UInt8) : List Char × Option PartialChar :=
  if b < 0x80 then ([Char.ofNat b.toNat], none)
  else if 0xC2 ≤ b ∧ b ≤ 0xDF then ([], some ⟨1, 0x80, 0xBF, b.toNat - 0xC0⟩)
  else if 0xE0 ≤ b ∧ b ≤ 0xEF then
    ([], some ⟨2, if b = 0xE0 then 0xA0 else 0x80, if b = 0xED then 0x9F else 0xBF,
      b.toNat - 0xE0⟩)
  else if 0xF0 ≤ b ∧ b ≤ 0xF4 then
    ([], some ⟨3, if b = 0xF0 then 0x90 else 0x80, if b = 0xF4 then 0x8F else 0xBF,
      b.toNat - 0xF0⟩)
  else ([replacementCharacter], none)

/-- A byte that goes on with a character, if it does. -/
def PartialChar.goOn (p : PartialChar) (b : UInt8) : List Char × Option PartialChar :=
  if p.lower ≤ b ∧ b ≤ p.upper then
    let bits := p.bits * 64 + (b.toNat - 0x80)
    if p.needed = 1 then ([Char.ofNat bits], none) else ([], some ⟨p.needed - 1, 0x80, 0xBF, bits⟩)
  else
    let (chars, next) := leadByte b
    (replacementCharacter :: chars, next)

/-- Decode from inside a character on, or from the beginning of one. -/
def decodeUtf8 : Option PartialChar → Bytes → List Char
  | none, [] => []
  | some _, [] => [replacementCharacter]
  | none, b :: bs => (leadByte b).1 ++ decodeUtf8 (leadByte b).2 bs
  | some p, b :: bs => (p.goOn b).1 ++ decodeUtf8 (p.goOn b).2 bs

/-- `String(cString:)`. -/
def CString.string (s : CString) : String := .ofList (decodeUtf8 none s.bytes)

/-- Two letters of two and three bytes, a byte that is none, and a character that breaks off. -/
example : decodeUtf8 none [0xC3, 0xA9, 0xE2, 0x82, 0xAC, 0xFF, 0xE2, 0x82, 0x41] =
    ['é', '€', '\uFFFD', '\uFFFD', 'A'] := by
  decide

/-! ### The bridge -/

/-- The values of `enum twosocks_connection_protocol`. -/
def ConnectionProtocol.rawValue : ConnectionProtocol → Int32
  | .tcp => 0
  | .udp => 1

/-- The values of `enum twosocks_connection_state`. -/
def ConnectionState.rawValue : ConnectionState → Int32
  | .opened => 0
  | .closed => 1
  | .error => 2

/-- What the task of `twosocks_connection_event_bridge` calls `handleConnectionEvent` with. -/
def ConnectionEvent.delivery {Date : Type} (e : ConnectionEvent) (now : Date) : Delivery Date where
  id := .ofInt e.identifier
  protocolRaw := e.protocol.rawValue
  stateRaw := e.state.rawValue
  host := e.host.string
  port := e.port
  errorCode := .ofNat e.errorCode.code.toNat
  now := now

/-- The process and its view model. -/
structure Bridge (Date : Type) where
  server : Pool sys Client Shared ThreadMem
  /-- The tasks that have not run, in the order in which they were made. -/
  tasks : List ConnectionEvent
  /-- Those that have, and when. -/
  calls : List (ConnectionEvent × Date)

namespace Bridge

variable {Date : Type}

/-- Before the server starts. -/
def initial : Bridge Date := ⟨⟨.initial, []⟩, [], []⟩

/-- The events whose tasks have run. -/
def heard (b : Bridge Date) : List ConnectionEvent := b.calls.map Prod.fst

def view (b : Bridge Date) : ContentViewVM Date :=
  .run (b.calls.map fun call => call.1.delivery call.2)

end Bridge

/-- The server goes on, which may make a task, or a task runs. -/
inductive BridgeStep {Date : Type} (inet : Inet) (cfg : Config) (whole : Block → Prop) :
    Bridge Date → Bridge Date → Prop
  | serve {b : Bridge Date} {c : Pool sys Client Shared ThreadMem}
      (h : Pool.Step (machine anyAnswer) (accepted inet cfg) whole b.server c) :
      BridgeStep inet cfg whole b
        { b with
          server := c
          tasks := b.tasks ++ c.world.events.drop b.server.world.events.length }
  | run {server : Pool sys Client Shared ThreadMem} {pre post : List ConnectionEvent}
      {e : ConnectionEvent} {calls : List (ConnectionEvent × Date)} (now : Date)
      (h : ∀ e' ∈ pre, e'.identifier ≠ e.identifier) :
      BridgeStep inet cfg whole ⟨server, pre ++ e :: post, calls⟩
        ⟨server, pre ++ post, calls ++ [(e, now)]⟩

end TwoSocks
