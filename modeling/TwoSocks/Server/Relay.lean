/-
The TCP relay.

`copyloop` polls both sockets and lets `relay_data` move one chunk at a time from
whichever is readable.  Transferred bytes are first counted in two counters of the
`copyloop` call, which `relay_data` reaches by address, and only reach the process
totals when a counter is big enough or the call ends.

`relay_data` and the flush are blocks: a schedule may take each as one step or open
it.  `copyloop` carries nothing from one iteration to the next, so its loop state is
`Unit`; the two counters live in the thread's memory.
-/
import TwoSocks.Server.Wire

namespace TwoSocks

open Server Prog

/-- One round of the write loop of `relay_data`, with `sent` bytes out already. -/
def writeRest (outfd : Fd) (buf : Bytes) (sent : Nat) : Server (Nat ⊕ Bool) := do
  if sent < buf.length then
    match ← write outfd (buf.drop sent) with
    | .error _ => return .inr false
    | .ok m => return .inl (sent + m)
  else
    return .inr true

/-- The write loop of `relay_data`: whether all of `buf` went out. -/
def writeAll (outfd : Fd) (buf : Bytes) : Server Bool := iterate (writeRest outfd buf) 0

/-- The end of `relay_data`: `n` more bytes in one direction, flushed once there are
enough of them. -/
def accountPending (d : Direction) (n : Nat) : Server Unit := do
  let pending ← loadPending d
  storePending d (pending + n)
  let pending ← loadPending d
  if pending ≥ TCP_COPY_ACCOUNTING_FLUSH_BYTES then
    recordBytes d pending
    storePending d 0

/-- The body of `relay_data`. -/
def relayChunk (infd outfd : Fd) (bufSize : Nat) (countsAsUpload : Bool) :
    Server ConnectionState := do
  match ← read infd bufSize with
  | .error _ => return .error
  | .ok buf =>
      if buf = [] then
        return .closed
      else if ← writeAll outfd buf then
        if countsAsUpload then
          accountPending .uploaded buf.length
        else
          accountPending .downloaded buf.length
        return .opened
      else
        return .error

/-- `relay_data`. -/
def relayData (infd outfd : Fd) (bufSize : Nat) (countsAsUpload : Bool) :
    Server ConnectionState :=
  atomically (S := sys) .accounted (relayChunk infd outfd bufSize countsAsUpload)

/-- One half of `flush_pending_transfer_totals`. -/
def flushPending (d : Direction) : Server Unit := do
  let pending ← loadPending d
  if pending ≠ 0 then
    recordBytes d pending
    storePending d 0

/-- `flush_pending_transfer_totals`. -/
def flushPendingTransferTotals : Server Unit :=
  atomically (S := sys) .accounted do
    flushPending .downloaded
    flushPending .uploaded

/-- Flush and return from `copyloop`. -/
def flushAndReturn (state : ConnectionState) : Server (Unit ⊕ ConnectionState) := do
  flushPendingTransferTotals
  return .inr state

/-- `60*15*1000`, the idle time after which a connection is reaped. -/
def IDLE_TIMEOUT : Nat := 60 * 15 * 1000

/-- Relay a chunk if the socket is readable. -/
def relayIfReadable (revents : UInt16) (infd outfd : Fd) (countsAsUpload : Bool) :
    Server ConnectionState :=
  if pollReventsHaveInput revents then relayData infd outfd TCP_COPY_BUFFER_SIZE countsAsUpload
  else pure .opened

/-- The part of a `copyloop` iteration after `poll` came back with the bits of the
two sockets. -/
def copyloopReady (fd1 fd2 : Fd) (revents1 revents2 : UInt16) :
    Server (Unit ⊕ ConnectionState) := do
  if pollReventsHaveError revents1 || pollReventsHaveError revents2 then
    flushAndReturn .error
  else
    let result ← relayIfReadable revents1 fd1 fd2 true
    if result ≠ .opened then
      flushAndReturn result
    else
      let result ← relayIfReadable revents2 fd2 fd1 false
      if result ≠ .opened then
        flushAndReturn result
      else
        let handledReadableFd := pollReventsHaveInput revents1 || pollReventsHaveInput revents2
        if !handledReadableFd &&
            (pollReventsHaveHangup revents1 || pollReventsHaveHangup revents2) then
          flushAndReturn .closed
        else
          return .inl ()

/-- One iteration of `copyloop`. -/
def copyloopBody (fd1 fd2 : Fd) (_ : Unit) : Server (Unit ⊕ ConnectionState) := do
  match ← poll [(fd1, POLLIN), (fd2, POLLIN)] IDLE_TIMEOUT with
  | .timeout => flushAndReturn .closed
  | .failed e =>
      if e = .eintr ∨ e = .eagain then return .inl ()
      else flushAndReturn .error
  | .ready revents => copyloopReady fd1 fd2 (revents.getD 0 0) (revents.getD 1 0)

/-- `copyloop`. -/
def copyloop (fd1 fd2 : Fd) : Server ConnectionState := do
  storePending .downloaded 0
  storePending .uploaded 0
  iterate (copyloopBody fd1 fd2) ()

end TwoSocks
