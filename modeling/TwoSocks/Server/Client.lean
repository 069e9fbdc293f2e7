/-
One client connection.

`clientthread` reads a message, looks at `t->state` and handles the message in that
state: method selection, credentials, request.  A request ends the loop in every
case.  Serving it has two parts, the setup that answers the client and the relay that
runs if the setup got that far; `serveRequest` puts them together.

`Config` is the authentication part of the process configuration, fixed before the
first connection is accepted.  `authOnce` is whether `auth_ips` is there; its
contents are shared memory.
-/
import TwoSocks.Server.Udp

namespace TwoSocks

open Server Prog

/-- `auth_user`, `auth_pass`, and whether there is an `auth_ips`. -/
structure Config where
  authUser : Option CString
  authPass : Option CString
  authOnce : Bool

/-- The check of `socks_main` on the configuration: user and password come together,
and auth-once mode needs them. -/
def Config.accepted (cfg : Config) : Bool :=
  !((cfg.authUser.isSome && cfg.authPass.isNone) || (cfg.authUser.isNone && cfg.authPass.isSome))
    && !(cfg.authOnce && cfg.authPass.isNone)

/-! ### Authentication -/

/-- `is_authed`. -/
def isAuthed (client authedip : SockaddrUnion) : Bool :=
  let af := authedip.af
  if af = client.af then
    let cmpbytes := if af = .inet then 4 else 16
    client.addressBytes.take cmpbytes == authedip.addressBytes.take cmpbytes
  else
    false

/-- `is_in_authed_list`. -/
def isInAuthedList (authIps : Sblist SockaddrUnion) (caddr : SockaddrUnion) : Bool :=
  authIps.items.any (isAuthed caddr)

/-- The section of `check_auth_method` under the read lock. -/
def lookupAuthIp (caddr : SockaddrUnion) : Server Bool :=
  atomically (S := sys) .locked do
    if ← rdlock then
      let authIps ← loadAuthIps
      let authed := isInAuthedList authIps caddr
      unlock
      return authed
    else
      return false

/-- `add_auth_ip`. -/
def addAuthIp (authIps : Sblist SockaddrUnion) (caddr : SockaddrUnion) : Server Unit := do
  match ← sblistAdd authIps caddr with
  | none => pure ()
  | some authIps => storeAuthIps authIps

/-- The section of `clientthread` under the write lock. -/
def rememberAuthIp (caddr : SockaddrUnion) : Server Unit :=
  atomically (S := sys) .locked do
    if ← wrlock then
      let authIps ← loadAuthIps
      if !isInAuthedList authIps caddr then
        addAuthIp authIps caddr
      unlock

/-- What `check_auth_method` makes of one offered method: the method, if it is taken. -/
def considerAuthMethod (cfg : Config) (method : UInt8) (client : Client) :
    Server (Option Authmethod) := do
  if method = Authmethod.noAuth.code then
    if cfg.authUser.isNone then return some .noAuth
    else if cfg.authOnce then
      if ← lookupAuthIp client.addr then return some .noAuth else return none
    else return none
  else if method = Authmethod.username.code then
    if cfg.authUser.isSome then return some .username else return none
  else return none

/-- The loop of `check_auth_method`, with `nMethods` methods to go from `idx` on. -/
def checkAuthMethods (cfg : Config) (buf : Bytes) (n : Nat) (client : Client) (idx : Nat) :
    Nat → Server Authmethod
  | 0 => return .invalid
  | nMethods + 1 => do
    if idx < n then
      match ← considerAuthMethod cfg (buf.getD idx 0) client with
      | some am => return am
      | none => checkAuthMethods cfg buf n client (idx + 1) nMethods
    else
      return .invalid

/-- `check_auth_method`. -/
def checkAuthMethod (cfg : Config) (buf : Bytes) (n : Nat) (client : Client) :
    Server Authmethod := do
  if buf.getD 0 0 ≠ 5 then return .invalid
  else if 1 ≥ n then return .invalid
  else checkAuthMethods cfg buf n client 2 (buf.getD 1 0).toNat

/-- `send_auth_response`; the result of the write is not looked at. -/
def sendAuthResponse (fd : Fd) (version meth : UInt8) : Server Unit := do
  let _ ← write fd [version, meth]

/-! ### Requests -/

/-- `parse_socks_request_header`. -/
def parseSocksRequestHeader (inet : Inet) (buf : Bytes) (n : Nat) :
    Server (Except Errorcode (Socks5Cmd × SockaddrUnion × Socks5Addrport)) := do
  match socksRequestFields inet buf n with
  | .error ec => return .error ec
  | .ok (cmd, addrport) =>
      let socktype := if cmd = .connect then Socks5SocketType.tcpSocket else .udpSocket
      match ← resolveSocks5Addrport addrport socktype with
      | .error ec => return .error ec
      | .ok svcAddr => return .ok (cmd, svcAddr, addrport)

/-- `connect_socks_target`: the descriptor, or the code the source negates. -/
def connectSocksTarget (remoteAddr : SockaddrUnion) : Server (Except Errorcode Fd) := do
  match ← socket remoteAddr.af .stream with
  | .error e => return .error (socketErrorCodeFromErrno e)
  | .ok fd =>
      match ← connect fd remoteAddr with
      | .error e =>
          close fd
          return .error (socketErrorCodeFromErrno e)
      | .ok () => return .ok fd

/-- `send_response`. -/
def sendResponse (fd : Fd) (ec : Errorcode) (addr : SockaddrUnion) :
    Server (Except Errno Nat) := write fd (responseBytes ec addr)

/-- `send_error`. -/
def sendError (fd : Fd) (ec : Errorcode) : Server Unit := do
  let _ ← write fd (errorBytes ec)

/-- `sockaddr_is_unspecified`. -/
def sockaddrIsUnspecified (addr : SockaddrUnion) : Bool := addr.addressBytes.all (· == 0)

/-- The assignment at the end of `populate_udp_response_addr`: the control
connection's local address, on the port of the UDP socket. -/
def takeLocalAddress (responseAddr tcpLocalAddr : SockaddrUnion) : SockaddrUnion :=
  match responseAddr, tcpLocalAddr with
  | .v4 _ port, .v4 address _ => .v4 address port
  | .v6 _ port _, .v6 address _ scopeId => .v6 address port scopeId
  | _, _ => responseAddr

/-- `populate_udp_response_addr`, `none` being its `-1`. -/
def populateUdpResponseAddr (udpFd tcpFd : Fd) : Server (Option SockaddrUnion) := do
  match ← getsockname udpFd with
  | .error _ => return none
  | .ok responseAddr =>
      if !sockaddrIsUnspecified responseAddr then return some responseAddr
      else
        match ← getsockname tcpFd with
        | .error _ => return none
        | .ok tcpLocalAddr => return some (takeLocalAddress responseAddr tcpLocalAddr)

/-- `udp_svc_setup`: the descriptor, or the code the source negates. -/
def udpSvcSetup (clientAddr : SockaddrUnion) : Server (Except Errorcode Fd) := do
  match ← socket clientAddr.af .dgram with
  | .error e => return .error (socketErrorCodeFromErrno e)
  | .ok fd =>
      if !sockaddrIsUnspecified clientAddr then
        match ← connect fd clientAddr with
        | .error e =>
            close fd
            return .error (socketErrorCodeFromErrno e)
        | .ok () => return .ok fd
      else
        match ← getaddrinfoPassive clientAddr.af with
        | none =>
            close fd
            return .error .generalFailure
        | some addr =>
            match ← bind fd addr with
            | .error _ =>
                close fd
                return .error .generalFailure
            | .ok () => return .ok fd

/-- Where the setup of a request has got to: the client is to be let go, or one of
the relays is to run. -/
inductive Relay
  | none
  | tcp (remotefd : Fd) (connectionId : Int) (requestedAddr : Socks5Addrport)
  | udp (fd : Fd)
  deriving DecidableEq

/-- The `CONNECT` arm of `clientthread` up to the success reply. -/
def setupConnect (client : Client) (address : SockaddrUnion) (requestedAddr : Socks5Addrport) :
    Server Relay := do
  let connectionId ← nextConnectionIdentifier
  match ← connectSocksTarget address with
  | .error ec =>
      emitAddrportConnectionEvent connectionId .tcp .error requestedAddr ec
      sendError client.fd ec
      return .none
  | .ok remotefd =>
      match ← getsockname remotefd with
      | .error _ =>
          emitAddrportConnectionEvent connectionId .tcp .error requestedAddr .generalFailure
          close remotefd
          return .none
      | .ok localAddr =>
          match ← sendResponse client.fd .success localAddr with
          | .error _ =>
              emitAddrportConnectionEvent connectionId .tcp .error requestedAddr .generalFailure
              close remotefd
              return .none
          | .ok _ => return .tcp remotefd connectionId requestedAddr

/-- The `UDP_ASSOCIATE` arm of `clientthread` up to the success reply.  The source
asks for a descriptor above zero. -/
def setupUdpAssociate (client : Client) (address : SockaddrUnion) : Server Relay := do
  match ← udpSvcSetup address with
  | .error ec =>
      sendError client.fd ec
      return .none
  | .ok 0 =>
      sendError client.fd .success
      return .none
  | .ok fd =>
      match ← populateUdpResponseAddr fd client.fd with
      | none =>
          close fd
          return .none
      | some localAddr =>
          match ← sendResponse client.fd .success localAddr with
          | .error _ =>
              close fd
              return .none
          | .ok _ => return .udp fd

/-- The `SS_3_AUTHED` case of `clientthread` up to the relay. -/
def setupRequest (inet : Inet) (client : Client) (buf : Bytes) : Server Relay := do
  match ← parseSocksRequestHeader inet buf buf.length with
  | .error _ => return .none
  | .ok (.connect, address, requestedAddr) => setupConnect client address requestedAddr
  | .ok (.udpAssociate, address, _) => setupUdpAssociate client address

/-- The relay a request was set up for, and what follows it. -/
def runRelay (inet : Inet) (client : Client) : Relay → Server Unit
  | .none => pure ()
  | .tcp remotefd connectionId requestedAddr => do
      emitAddrportConnectionEvent connectionId .tcp .opened requestedAddr .success
      let finalState ← copyloop client.fd remotefd
      emitAddrportConnectionEvent connectionId .tcp finalState requestedAddr
        (if finalState = .error then .generalFailure else .success)
      close remotefd
  | .udp fd => do
      copyLoopUdp inet client.fd fd
      close fd

/-- The `SS_3_AUTHED` case of `clientthread`. -/
def serveRequest (inet : Inet) (client : Client) (buf : Bytes) : Server Unit := do
  let relay ← setupRequest inet client buf
  runRelay inet client relay

/-! ### The thread -/

/-- The `SS_1_CONNECTED` case of `clientthread`. -/
def selectMethod (cfg : Config) (client : Client) (buf : Bytes) : Server (Unit ⊕ Unit) := do
  let am ← checkAuthMethod cfg buf buf.length client
  if am = .noAuth then
    storeState .ss3Authed
  else if am = .username then
    storeState .ss2NeedAuth
  sendAuthResponse client.fd 5 am.code
  if am = .invalid then return .inr () else return .inl ()

/-- The `SS_2_NEED_AUTH` case of `clientthread`. -/
def authenticate (cfg : Config) (client : Client) (buf : Bytes) : Server (Unit ⊕ Unit) := do
  match checkCredentials cfg.authUser cfg.authPass buf buf.length with
  | none => abort
  | some ec =>
      sendAuthResponse client.fd 1 ec.code
      if ec ≠ .success then
        return .inr ()
      else
        storeState .ss3Authed
        if cfg.authOnce then
          rememberAuthIp client.addr
        return .inl ()

/-- The buffer of `clientthread`. -/
def CLIENT_BUFFER_SIZE : Nat := 1024

/-- One iteration of the loop of `clientthread`. -/
def clientthreadBody (inet : Inet) (cfg : Config) (client : Client) (_ : Unit) :
    Server (Unit ⊕ Unit) := do
  match ← recv client.fd CLIENT_BUFFER_SIZE with
  | .error _ => return .inr ()
  | .ok buf =>
      if buf = [] then
        return .inr ()
      else
        match ← loadState with
        | .ss1Connected => selectMethod cfg client buf
        | .ss2NeedAuth => authenticate cfg client buf
        | .ss3Authed =>
            serveRequest inet client buf
            return .inr ()

/-- `clientthread`. -/
def clientthread (inet : Inet) (cfg : Config) (client : Client) : Server Unit := do
  storeState .ss1Connected
  iterate (clientthreadBody inet cfg client) ()
  close client.fd
  storeDone

end TwoSocks
