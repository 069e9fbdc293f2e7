/-
The data the server works on.

Enumerations are inductive types, with the number the C enum gives them where the
number travels on the wire.  A descriptor is a natural number: a negative `int` is
how C says that there is none, and here that is the error side of a result.

A `char *` is the bytes before its terminator, so a `CString` carries the proof
that there is no zero among them.  `Socks5Addrport` holds a `char[MAX_DNS_LEN + 1]`
and so carries the bound on its length too.

`errno` is kept to the values the source tells apart.  The poll bits have the values
they have on Darwin; `POLLRDHUP` does not exist there, and the source leaves it out
of `poll_revents_have_hangup` where it does not exist.
-/
import TwoSocks.Program.Pool

namespace TwoSocks

abbrev Bytes := List UInt8
abbrev Fd := Nat

/-! ### Enumerations -/

/-- `enum errorcode`. -/
inductive Errorcode
  | success
  | generalFailure
  | notAllowed
  | netUnreachable
  | hostUnreachable
  | connRefused
  | ttlExpired
  | commandNotSupported
  | addresstypeNotSupported
  | bindIpNotProvided
  deriving DecidableEq, Repr

/-- The value an error code has in a reply and in an event. -/
def Errorcode.code : Errorcode → UInt8
  | success => 0
  | generalFailure => 1
  | notAllowed => 2
  | netUnreachable => 3
  | hostUnreachable => 4
  | connRefused => 5
  | ttlExpired => 6
  | commandNotSupported => 7
  | addresstypeNotSupported => 8
  | bindIpNotProvided => 9

theorem Errorcode.code_eq_zero {ec : Errorcode} : ec.code = 0 ↔ ec = .success := by
  cases ec <;> decide

/-- `enum socksstate`. -/
inductive Socksstate
  | ss1Connected
  | ss2NeedAuth
  | ss3Authed
  deriving DecidableEq, Repr

/-- The order in which a connection goes through its states. -/
def Socksstate.rank : Socksstate → Nat
  | ss1Connected => 0
  | ss2NeedAuth => 1
  | ss3Authed => 2

/-- `enum authmethod`. -/
inductive Authmethod
  | noAuth
  | gssapi
  | username
  | invalid
  deriving DecidableEq, Repr

def Authmethod.code : Authmethod → UInt8
  | noAuth => 0
  | gssapi => 1
  | username => 2
  | invalid => 0xFF

/-- `enum socks5_cmd`. -/
inductive Socks5Cmd
  | connect
  | udpAssociate
  deriving DecidableEq, Repr

def Socks5Cmd.code : Socks5Cmd → UInt8
  | connect => 1
  | udpAssociate => 3

/-- `enum socks5_addr_type`. -/
inductive Socks5AddrType
  | unknown
  | ipv4
  | dns
  | ipv6
  deriving DecidableEq, Repr

def Socks5AddrType.code : Socks5AddrType → UInt8
  | unknown => 0
  | ipv4 => 1
  | dns => 3
  | ipv6 => 4

/-- `enum socks5_socket_type`. -/
inductive Socks5SocketType
  | tcpSocket
  | udpSocket
  deriving DecidableEq, Repr

/-- `enum twosocks_connection_state`. -/
inductive ConnectionState
  | opened
  | closed
  | error
  deriving DecidableEq, Repr

/-- `enum twosocks_connection_protocol`. -/
inductive ConnectionProtocol
  | tcp
  | udp
  deriving DecidableEq, Repr

/-- `AF_INET` and `AF_INET6`. -/
inductive Af
  | inet
  | inet6
  deriving DecidableEq, Repr

/-- `SOCK_STREAM` and `SOCK_DGRAM`. -/
inductive SockType
  | stream
  | dgram
  deriving DecidableEq, Repr

/-- The values of `errno` the source tells apart. -/
inductive Errno
  | etimedout
  | eprototype
  | eprotonosupport
  | eafnosupport
  | econnrefused
  | enetdown
  | enetunreach
  | ehostunreach
  | ebadf
  | eintr
  | eagain
  | enotconn
  | other (value : Nat)
  deriving DecidableEq, Repr

/-- `socket_error_code_from_errno`. -/
def socketErrorCodeFromErrno : Errno → Errorcode
  | .etimedout => .ttlExpired
  | .eprototype | .eprotonosupport | .eafnosupport => .addresstypeNotSupported
  | .econnrefused => .connRefused
  | .enetdown | .enetunreach => .netUnreachable
  | .ehostunreach => .hostUnreachable
  | _ => .generalFailure

theorem socketErrorCodeFromErrno_ne_success (e : Errno) :
    socketErrorCodeFromErrno e ≠ .success := by
  cases e <;> simp [socketErrorCodeFromErrno]

/-! ### Constants -/

def VERSION : UInt8 := 5
def RSV : UInt8 := 0
def MAX_DNS_LEN : Nat := 2 * 2 ^ 8 - 1
def MAX_SOCKS5_HEADER_LEN : Nat := 2 + 1 + 1 + 1 + MAX_DNS_LEN + 2
def TCP_COPY_BUFFER_SIZE : Nat := 32 * 1024
def TCP_COPY_ACCOUNTING_FLUSH_BYTES : Nat := 64 * 1024
def UDP_MAX_PAYLOAD_SIZE : Nat := 65535
def UDP_COPY_BUFFER_SIZE : Nat := MAX_SOCKS5_HEADER_LEN + UDP_MAX_PAYLOAD_SIZE
def UDP_MAX_POLL_FDS : Nat := 1024

/-! ### Strings -/

/-- A terminated string: the bytes before the terminator. -/
structure CString where
  bytes : Bytes
  noNul : 0 ∉ bytes
  deriving DecidableEq

/-- The string a buffer holds once a terminator has been written after it. -/
def CString.ofBuffer (b : Bytes) : CString :=
  ⟨b.takeWhile (· ≠ 0), fun h => by simpa using List.mem_takeWhile_imp h⟩

/-- `strncpy` into `n` bytes, the last of which stays zero. -/
def CString.strncpy (s : CString) (n : Nat) : CString :=
  ⟨s.bytes.take n, fun h => s.noNul (List.mem_of_mem_take h)⟩

theorem CString.ext' {s t : CString} (h : s.bytes = t.bytes) : s = t := by
  cases s; cases t; simpa using h

/-- A buffer without a zero is the string it holds. -/
theorem CString.ofBuffer_bytes {b : Bytes} (h : 0 ∉ b) : (CString.ofBuffer b).bytes = b := by
  refine List.takeWhile_eq_self_iff.mpr fun x hx => ?_
  have : x ≠ 0 := fun hc => h (hc ▸ hx)
  simpa using this

/-! ### Addresses -/

/-- `union sockaddr_union`: the family, the address bytes and the port, in host
order.  Every address the server handles comes from `accept`, `getaddrinfo` or
`getsockname` on an internet socket, so the union's two members are all there is and
the `abort` of `send_response` for a third family has no counterpart. -/
inductive SockaddrUnion
  | v4 (address : Vector UInt8 4) (port : UInt16)
  | v6 (address : Vector UInt8 16) (port : UInt16) (scopeId : UInt32)
  deriving DecidableEq, Repr

namespace SockaddrUnion

/-- `SOCKADDR_UNION_AF`. -/
def af : SockaddrUnion → Af
  | v4 _ _ => .inet
  | v6 _ _ _ => .inet6

/-- The bytes at `SOCKADDR_UNION_ADDRESS`. -/
def addressBytes : SockaddrUnion → Bytes
  | v4 a _ => a.toList
  | v6 a _ _ => a.toList

/-- `ntohs(SOCKADDR_UNION_PORT)`. -/
def port : SockaddrUnion → UInt16
  | v4 _ p => p
  | v6 _ p _ => p

end SockaddrUnion

/-- `struct socks5_addrport`. -/
structure Socks5Addrport where
  type : Socks5AddrType
  addr : CString
  port : UInt16
  fits : addr.bytes.length ≤ MAX_DNS_LEN
  deriving DecidableEq

/-- `struct client`. -/
structure Client where
  addr : SockaddrUnion
  fd : Fd
  deriving DecidableEq

/-! ### Poll bits -/

def POLLIN : UInt16 := 0x1
def POLLERR : UInt16 := 0x8
def POLLHUP : UInt16 := 0x10
def POLLNVAL : UInt16 := 0x20

/-- `struct pollfd`. -/
structure Pollfd where
  fd : Fd
  events : UInt16
  revents : UInt16
  deriving DecidableEq, Repr

/-- Whether `POLLIN` is among the bits. -/
def pollReventsHaveInput (revents : UInt16) : Bool := revents &&& POLLIN != 0

/-- `poll_revents_have_error`. -/
def pollReventsHaveError (revents : UInt16) : Bool := revents &&& (POLLERR ||| POLLNVAL) != 0

/-- `poll_revents_have_hangup`. -/
def pollReventsHaveHangup (revents : UInt16) : Bool := revents &&& POLLHUP != 0

/-- What `poll` came back with: nothing in time, an error, or the bits of each
descriptor in the order they were passed. -/
inductive PollResult
  | timeout
  | failed (errno : Errno)
  | ready (revents : List UInt16)
  deriving DecidableEq, Repr

/-! ### Events -/

/-- One call of the connection event handler. -/
structure ConnectionEvent where
  identifier : Int
  protocol : ConnectionProtocol
  state : ConnectionState
  host : CString
  port : UInt16
  errorCode : Errorcode
  deriving DecidableEq

end TwoSocks
