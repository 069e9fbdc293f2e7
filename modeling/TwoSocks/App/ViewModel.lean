/-
The connection list of the app.

`ContentViewVM` hears of connections through `handleConnectionEvent`.  It keeps one row per
identifier in `connectionsByID`, the identifiers in `connectionOrder` with the one heard of
last in front, and publishes the rows in that order with the open ones first.  At most
`maxRetainedEndedConnections` rows of ended connections are kept: after every event
`trimEndedConnections` counts them and drops the ones it counts past the limit.

A dictionary is a function to `Option`, a set of identifiers a list that `insert` keeps
free of repetitions.  The clock is an argument, and what a `Date` is is left open: the list
only stores it.
-/
import Mathlib.Logic.Function.Basic

namespace TwoSocks

/-- `ProxyConnectionProtocol`. -/
inductive ProxyConnectionProtocol
  | tcp | udp
  deriving DecidableEq, Repr

def ProxyConnectionProtocol.ofRawValue (rawValue : Int32) : Option ProxyConnectionProtocol :=
  if rawValue = 0 then some .tcp
  else if rawValue = 1 then some .udp
  else none

/-- `ProxyConnectionState`. -/
inductive ProxyConnectionState
  | opened | closed | error
  deriving DecidableEq, Repr

def ProxyConnectionState.ofRawValue (rawValue : Int32) : Option ProxyConnectionState :=
  if rawValue = 0 then some .opened
  else if rawValue = 1 then some .closed
  else if rawValue = 2 then some .error
  else none

structure TrackedConnection (Date : Type) where
  id : Int64
  title : String
  protocolType : ProxyConnectionProtocol
  state : ProxyConnectionState
  updatedAt : Date
  errorCode : Option Int32

def maxRetainedEndedConnections : Nat := 100

/-- What of `ContentViewVM` is about connections. -/
structure ContentViewVM (Date : Type) where
  connections : List (TrackedConnection Date)
  connectionsByID : Int64 → Option (TrackedConnection Date)
  connectionOrder : List Int64

def normalizedHostDisplay (host : String) : String :=
  if host.isEmpty then "unknown"
  else if !host.contains ':' then host
  else if host.startsWith "[" || host.endsWith "]" then host
  else "[" ++ host ++ "]"

def connectionTitle (host : String) (port : UInt16) : String :=
  normalizedHostDisplay host ++ ":" ++ toString port

namespace ContentViewVM

variable {Date : Type}

/-- A view model that has heard of nothing. -/
def initial : ContentViewVM Date := ⟨[], fun _ => none, []⟩

def liveConnections (vm : ContentViewVM Date) : List (TrackedConnection Date) :=
  vm.connections.filter fun c => c.state = .opened

def recentConnections (vm : ContentViewVM Date) : List (TrackedConnection Date) :=
  vm.connections.filter fun c => c.state ≠ .opened

def moveConnectionToFront (vm : ContentViewVM Date) (id : Int64) : ContentViewVM Date :=
  { vm with connectionOrder := id :: vm.connectionOrder.filter (· ≠ id) }

/-- One round of the scan of `trimEndedConnections`, which counts ended connections and
collects the identifiers of those past the limit. -/
def trimRound (connectionsByID : Int64 → Option (TrackedConnection Date))
    (scan : Nat × List Int64) (id : Int64) : Nat × List Int64 :=
  match connectionsByID id with
  | none => scan
  | some connection =>
      if connection.state = .opened then scan
      else
        let endedCount := scan.1 + 1
        (endedCount,
          if endedCount > maxRetainedEndedConnections then scan.2.insert id else scan.2)

/-- `connectionsByID.removeValue(forKey:)`. -/
def removeValue (connectionsByID : Int64 → Option (TrackedConnection Date)) (id : Int64) :
    Int64 → Option (TrackedConnection Date) :=
  Function.update connectionsByID id none

def trimEndedConnections (vm : ContentViewVM Date) : ContentViewVM Date :=
  let idsToRemove :=
    (vm.connectionOrder.reverse.foldl (trimRound vm.connectionsByID) (0, [])).2
  if idsToRemove.isEmpty then vm
  else
    { vm with
      connectionsByID := idsToRemove.foldl removeValue vm.connectionsByID
      connectionOrder := vm.connectionOrder.filter fun id => id ∉ idsToRemove }

def publishConnections (vm : ContentViewVM Date) : ContentViewVM Date :=
  let orderedConnections := vm.connectionOrder.filterMap vm.connectionsByID
  let liveConnections := orderedConnections.filter fun c => c.state = .opened
  let endedConnections := orderedConnections.filter fun c => c.state ≠ .opened
  { vm with connections := liveConnections ++ endedConnections }

/-- The middle of `handleConnectionEvent`: the row of a known identifier is written over
and moved to the front, a new one is put there. -/
def track (vm : ContentViewVM Date) (id : Int64) (title : String)
    (protocolType : ProxyConnectionProtocol) (state : ProxyConnectionState) (now : Date)
    (errorCode : Option Int32) : ContentViewVM Date :=
  match vm.connectionsByID id with
  | some existing =>
      let existing := { existing with title, protocolType, state, updatedAt := now, errorCode }
      moveConnectionToFront
        { vm with connectionsByID := Function.update vm.connectionsByID id (some existing) } id
  | none =>
      let connection := ⟨id, title, protocolType, state, now, errorCode⟩
      { vm with
        connectionsByID := Function.update vm.connectionsByID id (some connection)
        connectionOrder := id :: vm.connectionOrder }

def handleConnectionEvent (vm : ContentViewVM Date) (id : Int64) (protocolRaw stateRaw : Int32)
    (host : String) (port : UInt16) (errorCode : Int32) (now : Date) : ContentViewVM Date :=
  match ProxyConnectionProtocol.ofRawValue protocolRaw,
      ProxyConnectionState.ofRawValue stateRaw with
  | some protocolType, some state =>
      let title := connectionTitle host port
      let errorCode := if state = .error then some errorCode else none
      (vm.track id title protocolType state now errorCode).trimEndedConnections.publishConnections
  | _, _ => vm

end ContentViewVM

/-- One call of `handleConnectionEvent`, with the time it reads. -/
structure Delivery (Date : Type) where
  id : Int64
  protocolRaw : Int32
  stateRaw : Int32
  host : String
  port : UInt16
  errorCode : Int32
  now : Date

namespace ContentViewVM

variable {Date : Type}

def deliver (vm : ContentViewVM Date) (d : Delivery Date) : ContentViewVM Date :=
  vm.handleConnectionEvent d.id d.protocolRaw d.stateRaw d.host d.port d.errorCode d.now

/-- A view model after a sequence of calls. -/
def run (ds : List (Delivery Date)) : ContentViewVM Date := ds.foldl deliver initial

@[simp] theorem run_append (ds : List (Delivery Date)) (d : Delivery Date) :
    run (ds ++ [d]) = (run ds).deliver d := by
  simp [run]

end ContentViewVM

end TwoSocks
