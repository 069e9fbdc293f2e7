/-
The UDP relay.

`copy_loop_udp` keeps its destinations twice: as items of `sock_list`, and as poll
entries from index two on.  Entries zero and one of `fds` are the control and the
client socket.  `UdpLoop` is what the loop carries from one iteration to the next;
`fds` is the whole array, so that what an entry past `poll_fds` still holds is part of
the state.

One iteration polls and looks at the control socket (`udpPoll`), then takes a client
datagram if there is one (`udpClientDatagram`), then goes over the destinations
(`udpReplies`).  Each part ends in a `Flow`: go on, `continue` with the next
iteration, or `goto UDP_LOOP_END` with the final state of the association.
-/
import TwoSocks.Server.Relay

namespace TwoSocks

open Server Prog

/-- `struct fd_socks5addr`. -/
structure FdSocks5addr where
  fd : Fd
  connectionId : Int
  addrport : Socks5Addrport
  deriving DecidableEq

instance : Inhabited FdSocks5addr := ⟨⟨0, 0, ⟨.unknown, ⟨[], by simp⟩, 0, by simp⟩⟩⟩

/-- The variables of `copy_loop_udp` that live across iterations. -/
structure UdpLoop where
  pollFds : Nat
  fds : Nat → Pollfd
  udpIsBound : Bool
  sockList : Sblist FdSocks5addr

/-- What `UDP_LOOP_END` is reached with. -/
structure UdpEnd where
  finalState : ConnectionState
  errorCode : Errorcode
  loop : UdpLoop

/-- How a part of an iteration ends. -/
inductive Flow
  | next (s : UdpLoop)
  | again (s : UdpLoop)
  | leave (e : UdpEnd)

/-! ### The two tables -/

/-- `memmove` of the entries after `i` down by one.  The last entry in use stays
behind in its slot. -/
def shiftDown (fds : Nat → Pollfd) (pollFds i : Nat) : Nat → Pollfd :=
  fun j => if i ≤ j ∧ j + 1 < pollFds then fds (j + 1) else fds j

/-- `remove_udp_pollfd`. -/
def removeUdpPollfd (fds : Nat → Pollfd) (pollFds : Nat) (fd : Fd) : (Nat → Pollfd) × Nat :=
  match (List.range' 2 (pollFds - 2)).find? (fun i => (fds i).fd == fd) with
  | some i => (shiftDown fds pollFds i, pollFds - 1)
  | none => (fds, pollFds)

/-- `close_udp_destination`. -/
def closeUdpDestination (s : UdpLoop) (sockListIndex : Nat) (state : ConnectionState)
    (errorCode : Errorcode) : Server UdpLoop := do
  let trackedItem := s.sockList.itemFromIndex sockListIndex
  close trackedItem.fd
  let (fds, pollFds) := removeUdpPollfd s.fds s.pollFds trackedItem.fd
  let sockList := s.sockList.delete sockListIndex
  emitAddrportConnectionEvent trackedItem.connectionId .udp state trackedItem.addrport errorCode
  return { s with fds := fds, pollFds := pollFds, sockList := sockList }

/-! ### Polling -/

/-- The bits `poll` stores, in the entries it was given. -/
def storeRevents (fds : Nat → Pollfd) (pollFds : Nat) (revents : List UInt16) : Nat → Pollfd :=
  fun i => if i < pollFds then { fds i with revents := revents.getD i 0 } else fds i

/-- The entries `poll` is called with. -/
def UdpLoop.polled (s : UdpLoop) : List (Fd × UInt16) :=
  (List.range s.pollFds).map fun i => ((s.fds i).fd, (s.fds i).events)

/-- From `poll` to the control socket. -/
def udpPoll (s : UdpLoop) : Server Flow := do
  match ← poll s.polled IDLE_TIMEOUT with
  | .timeout => return .leave ⟨.closed, .success, s⟩
  | .failed e =>
      if e = .eintr ∨ e = .eagain then return .again s
      else return .leave ⟨.error, .generalFailure, s⟩
  | .ready revents =>
      let s := { s with fds := storeRevents s.fds s.pollFds revents }
      if pollReventsHaveError (s.fds 0).revents || pollReventsHaveError (s.fds 1).revents then
        return .leave ⟨.error, .generalFailure, s⟩
      else if pollReventsHaveHangup (s.fds 0).revents
          || pollReventsHaveHangup (s.fds 1).revents then
        return .leave ⟨.closed, .success, s⟩
      else if pollReventsHaveInput (s.fds 0).revents then
        match ← read (s.fds 0).fd (UDP_COPY_BUFFER_SIZE - 1) with
        | .error e =>
            if e = .eintr ∨ e = .eagain then return .again s
            else
              -- `errno` is only read after `perror`
              let e ← perror
              return .leave ⟨.error, socketErrorCodeFromErrno e, s⟩
        | .ok buf =>
            if buf = [] then return .leave ⟨.closed, .success, s⟩
            else return .leave ⟨.error, .generalFailure, s⟩
      else
        return .next s

/-! ### A datagram from the client -/

/-- `resolveSocks5Addrport`. -/
def resolveSocks5Addrport (addrport : Socks5Addrport) (stype : Socks5SocketType) :
    Server (Except Errorcode SockaddrUnion) := do
  let type := match stype with
    | .tcpSocket => SockType.stream
    | .udpSocket => SockType.dgram
  match ← getaddrinfo addrport.addr addrport.port type with
  | none => return .error .generalFailure
  | some addr => return .ok addr

/-- Report a destination that could not be opened before it had an identifier. -/
def failUdpDestination (addrport : Socks5Addrport) (errorCode : Errorcode) : Server Unit := do
  let failedConnectionId ← nextConnectionIdentifier
  emitAddrportConnectionEvent failedConnectionId .udp .error addrport errorCode

/-- Append a destination whose item is in `sockList` already.  Its entry gets a
descriptor and the events asked for, nothing else. -/
def UdpLoop.track (s : UdpLoop) (sockList : Sblist FdSocks5addr) (fd : Fd) : UdpLoop :=
  { s with
    sockList := sockList
    fds := Function.update s.fds s.pollFds { s.fds s.pollFds with fd := fd, events := POLLIN }
    pollFds := s.pollFds + 1 }

/-- The part of `copy_loop_udp` that opens a socket for a new destination: its
descriptor and its index, if that worked. -/
def openUdpDestination (s : UdpLoop) (addrport : Socks5Addrport) :
    Server (UdpLoop × Option (Fd × Nat)) := do
  match ← resolveSocks5Addrport addrport .udpSocket with
  | .error failedErrorCode =>
      failUdpDestination addrport failedErrorCode
      return (s, none)
  | .ok targetAddr =>
      match ← socket targetAddr.af .dgram with
      | .error e =>
          failUdpDestination addrport (socketErrorCodeFromErrno e)
          return (s, none)
      | .ok fd =>
          match ← connect fd targetAddr with
          | .error e =>
              close fd
              failUdpDestination addrport (socketErrorCodeFromErrno e)
              return (s, none)
          | .ok () =>
              let connectionId ← nextConnectionIdentifier
              if s.pollFds ≥ UDP_MAX_POLL_FDS then
                close fd
                emitAddrportConnectionEvent connectionId .udp .error addrport .generalFailure
                return (s, none)
              else
                match ← sblistAdd s.sockList ⟨fd, connectionId, addrport⟩ with
                | none =>
                    close fd
                    emitAddrportConnectionEvent connectionId .udp .error addrport .generalFailure
                    return (s, none)
                | some sockList =>
                    let s := s.track sockList fd
                    emitAddrportConnectionEvent connectionId .udp .opened addrport .success
                    return (s, some (fd, s.sockList.getsize - 1))

/-- Send a payload to a destination and count what was accepted. -/
def sendRecorded (fd : Fd) (payload : Bytes) : Server (Except Errno Nat) :=
  atomically (S := sys) .accounted do
    let ret ← send fd payload
    if let .ok n := ret then
      recordUploadedBytes n
    return ret

/-- The `send` of `copy_loop_udp`, and what follows when it fails. -/
def sendUdpPayload (s : UdpLoop) (sendFd : Fd) (sendIdx : Nat) (payload : Bytes) :
    Server Flow := do
  match ← sendRecorded sendFd payload with
  | .error e =>
      let s ← closeUdpDestination s sendIdx .error (socketErrorCodeFromErrno e)
      return .again s
  | .ok _ => return .next s

/-- A datagram to `addrport`: on the socket there is for it, or on a new one. -/
def forwardUdpPayload (s : UdpLoop) (addrport : Socks5Addrport) (payload : Bytes) :
    Server Flow := do
  match s.sockList.search (fun item => compareSocks5Addrport addrport item.addrport) with
  | some idx => sendUdpPayload s (s.sockList.itemFromIndex idx).fd idx payload
  | none =>
      match ← openUdpDestination s addrport with
      | (s, none) => return .again s
      | (s, some (sendFd, sendIdx)) => sendUdpPayload s sendFd sendIdx payload

/-- Everything after the datagram has arrived. -/
def deliverUdpDatagram (inet : Inet) (s : UdpLoop) (buf : Bytes) : Server Flow := do
  match extractUdpData inet buf buf.length with
  | .error ec => return .leave ⟨.error, ec, s⟩
  | .ok (offset, addrport) => forwardUdpPayload s addrport (buf.drop offset)

/-- The first datagram connects the client socket to whoever sent it. -/
def udpPinClient (s : UdpLoop) (udpFd : Fd) (clientAddr : SockaddrUnion) : Server Flow := do
  match ← connect udpFd clientAddr with
  | .error e => return .leave ⟨.error, socketErrorCodeFromErrno e, s⟩
  | .ok () => return .next { s with udpIsBound := true }

/-- Leave because `recv` or `recvfrom` failed on the client socket, or try again. -/
def udpReceiveFailed (s : UdpLoop) (e : Errno) : Flow :=
  if e = .eintr ∨ e = .eagain then .again s
  else .leave ⟨.error, socketErrorCodeFromErrno e, s⟩

/-- The part of an iteration that takes a datagram from the client. -/
def udpClientDatagram (inet : Inet) (udpFd : Fd) (s : UdpLoop) : Server Flow := do
  if s.udpIsBound then
    match ← recv udpFd UDP_COPY_BUFFER_SIZE with
    | .error e => return udpReceiveFailed s e
    | .ok buf => deliverUdpDatagram inet s buf
  else
    match ← recvfrom udpFd UDP_COPY_BUFFER_SIZE with
    | .error e => return udpReceiveFailed s e
    | .ok (buf, clientAddr) =>
        match ← udpPinClient s udpFd clientAddr with
        | .next s => deliverUdpDatagram inet s buf
        | flow => return flow

/-! ### Replies from the destinations -/

/-- Write a reply to the client and count its payload. -/
def writeRecorded (udpFd : Fd) (header payload : Bytes) : Server (Except Errno Nat) :=
  atomically (S := sys) .accounted do
    let ret ← write udpFd (header ++ payload)
    if let .ok _ := ret then
      recordDownloadedBytes payload.length
    return ret

/-- A readable destination: the entry at `i`, the item at `idx`. -/
def udpReply (inet : Inet) (udpFd : Fd) (s : UdpLoop) (i idx : Nat) :
    Server ((UdpLoop × Nat) ⊕ Flow) := do
  match udpReplyHeader inet (s.sockList.itemFromIndex idx).addrport with
  | .unknownType => abort
  | .invalidAddress =>
      let s ← closeUdpDestination s idx .error .generalFailure
      return .inl (s, i)
  | .built header =>
      match ← recv (s.fds i).fd (UDP_COPY_BUFFER_SIZE - header.length) with
      | .error e =>
          let s ← closeUdpDestination s idx .error (socketErrorCodeFromErrno e)
          return .inl (s, i)
      | .ok payload =>
          match ← writeRecorded udpFd header payload with
          | .error e => return .inr (.leave ⟨.error, socketErrorCodeFromErrno e, s⟩)
          | .ok _ => return .inl (s, i + 1)

/-- One round of the loop over the destinations.  After a removal `i` stays, which is
the `i--` before the loop's `i++`. -/
def udpRepliesBody (inet : Inet) (udpFd : Fd) :
    UdpLoop × Nat → Server ((UdpLoop × Nat) ⊕ Flow)
  | (s, i) => do
    if i < s.pollFds then
      match s.sockList.search (fun item => (s.fds i).fd == item.fd) with
      | none => return .inr (.leave ⟨.error, .generalFailure, s⟩)
      | some idx =>
          let revents := (s.fds i).revents
          if pollReventsHaveError revents || pollReventsHaveHangup revents then
            let s ← closeUdpDestination s idx .error .generalFailure
            return .inl (s, i)
          else if !pollReventsHaveInput revents then
            return .inl (s, i + 1)
          else
            udpReply inet udpFd s i idx
    else
      return .inr (.again s)

/-- The loop over the destinations. -/
def udpReplies (inet : Inet) (udpFd : Fd) (s : UdpLoop) : Server Flow :=
  iterate (udpRepliesBody inet udpFd) (s, 2)

/-! ### The loop -/

/-- The client part of an iteration, skipped if there is nothing to read. -/
def udpClient (inet : Inet) (udpFd : Fd) (s : UdpLoop) : Server Flow :=
  if pollReventsHaveInput (s.fds 1).revents then udpClientDatagram inet udpFd s
  else pure (.next s)

/-- Go on with the next part of an iteration unless this one has left it. -/
def Flow.andThen (f : UdpLoop → Server Flow) : Flow → Server Flow
  | .next s => f s
  | flow => pure flow

/-- What an iteration does before the loop over the destinations. -/
def udpBeforeReplies (inet : Inet) (udpFd : Fd) (s : UdpLoop) : Server Flow := do
  let flow ← udpPoll s
  flow.andThen (udpClient inet udpFd)

/-- One iteration of `copy_loop_udp`. -/
def copyLoopUdpBody (inet : Inet) (udpFd : Fd) (s : UdpLoop) :
    Server (UdpLoop ⊕ UdpEnd) := do
  let flow ← udpBeforeReplies inet udpFd s
  let flow ← flow.andThen (udpReplies inet udpFd)
  match flow with
  | .next s | .again s => return .inl s
  | .leave e => return .inr e

/-- `UDP_LOOP_END`, with a list: every destination still there gets the final state of
the association, and its socket is closed. -/
def udpLoopEnd (e : UdpEnd) : Server Unit := do
  forEach (fun item => emitAddrportConnectionEvent item.connectionId .udp e.finalState
    item.addrport e.errorCode) e.loop.sockList.items
  forEach (fun i => close (e.loop.fds i).fd) (List.range' 2 (e.loop.pollFds - 2))

/-- The array `copy_loop_udp` starts with: two entries in use, the rest zero. -/
def initialFds (tcpFd udpFd : Fd) : Nat → Pollfd
  | 0 => ⟨tcpFd, POLLIN, 0⟩
  | 1 => ⟨udpFd, POLLIN, 0⟩
  | _ => ⟨0, 0, 0⟩

/-- The state `copy_loop_udp` enters its loop with. -/
def initialUdpLoop (tcpFd udpFd : Fd) (udpIsBound : Bool) : UdpLoop :=
  ⟨2, initialFds tcpFd udpFd, udpIsBound, .new 1⟩

/-- Whether the client socket is connected already; any other failure of
`getpeername` aborts. -/
def udpIsBound (udpFd : Fd) : Server Bool := do
  match ← getpeername udpFd with
  | .ok _ => return true
  | .error e => if e = .enotconn then return false else abort

/-- `sizeof(sblist)`: four sizes and a pointer. -/
def SIZEOF_SBLIST : Nat := 5 * 8

/-- `copy_loop_udp`. -/
def copyLoopUdp (inet : Inet) (tcpFd udpFd : Fd) : Server Unit := do
  let bound ← udpIsBound udpFd
  let buf ← malloc UDP_COPY_BUFFER_SIZE
  let sockList ← malloc SIZEOF_SBLIST
  -- without either there are no destinations yet and `UDP_LOOP_END` has nothing to do
  if buf && sockList then
    let e ← iterate (copyLoopUdpBody inet udpFd) (initialUdpLoop tcpFd udpFd bound)
    udpLoopEnd e

end TwoSocks
