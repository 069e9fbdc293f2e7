/-
What is read from the wire and what is written to it.

The decoders take a buffer and a length, as the source does, and look at nothing
past the length.  `parse_addrport` is shared by the request parser and by the UDP
path; there are two encoders, the one of `send_response` and the header the reply
path of `copy_loop_udp` builds in place.

`inet_ntop` and `inet_pton` are the C library's.  They are parameters here, and
`Inet.Lawful` is what the library promises: an address is printed, the text fits the
buffer it was given, and reading it gives the address back.
-/
import TwoSocks.Server.Sys

namespace TwoSocks

/-- The C library's conversions between addresses and their text. -/
structure Inet where
  ntop : Af → Bytes → Option CString
  pton : Af → CString → Option Bytes

/-- How many bytes an address has. -/
def Af.addrLen : Af → Nat
  | inet => 4
  | inet6 => 16

/-- What the library promises of an address. -/
structure Inet.Lawful (inet : Inet) : Prop where
  pton_ntop : ∀ (af : Af) (a : Bytes), a.length = af.addrLen →
    ∃ s, inet.ntop af a = some s ∧ s.bytes.length ≤ MAX_DNS_LEN ∧ inet.pton af s = some a

/-! ### Ports -/

/-- `(buf[i] << 8) | buf[i + 1]`. -/
def portAt (buf : Bytes) (i : Nat) : UInt16 :=
  (buf.getD i 0).toUInt16 <<< 8 ||| (buf.getD (i + 1) 0).toUInt16

/-- The two bytes a port is written as. -/
def portBytes (port : UInt16) : Bytes := [(port >>> 8).toUInt8, (port &&& 0xFF).toUInt8]

/-! ### Decoders -/

/-- A `socks5_addrport` with a name copied into its `addr`. -/
def copyAddrport (type : Socks5AddrType) (namebuf : CString) (port : UInt16) :
    Socks5Addrport :=
  ⟨type, namebuf.strncpy MAX_DNS_LEN, port, List.length_take_le ..⟩

/-- The end of `parse_addrport`, where all address types come together: `minlen` is
the length of the field. -/
def storeAddrport (buf : Bytes) (type : Socks5AddrType) (namebuf : CString) (minlen : Nat) :
    Nat × Socks5Addrport :=
  (minlen, copyAddrport type namebuf (portAt buf (minlen - 2)))

/-- The arm of `parse_addrport` that the IPv6 case falls through into. -/
def parseAddrportIp (inet : Inet) (buf : Bytes) (n : Nat) (type : Socks5AddrType) (af : Af)
    (minlen : Nat) : Except Errorcode (Nat × Socks5Addrport) :=
  if n < minlen then .error .generalFailure
  else match inet.ntop af ((buf.drop 1).take af.addrLen) with
    | none => .error .generalFailure
    | some namebuf => .ok (storeAddrport buf type namebuf minlen)

/-- `parse_addrport`: the length of the field and what it holds. -/
def parseAddrport (inet : Inet) (buf : Bytes) (n : Nat) :
    Except Errorcode (Nat × Socks5Addrport) :=
  if n < 2 then .error .generalFailure
  else
    let type := buf.getD 0 0
    if type = Socks5AddrType.ipv6.code then
      parseAddrportIp inet buf n .ipv6 .inet6 (1 + 16 + 2)
    else if type = Socks5AddrType.ipv4.code then
      parseAddrportIp inet buf n .ipv4 .inet (1 + 4 + 2)
    else if type = Socks5AddrType.dns.code then
      let l := (buf.getD 1 0).toNat
      let minlen := 1 + (1 + l) + 2
      if n < minlen then .error .generalFailure
      else .ok (storeAddrport buf .dns (.ofBuffer ((buf.drop 2).take l)) minlen)
    else .error .addresstypeNotSupported

/-- `extract_udp_data`: where the payload starts and where it is to go. -/
def extractUdpData (inet : Inet) (buf : Bytes) (n : Nat) :
    Except Errorcode (Nat × Socks5Addrport) :=
  if n < 3 then .error .generalFailure
  else if buf.getD 0 0 ≠ RSV ∨ buf.getD 1 0 ≠ RSV then .error .generalFailure
  else if buf.getD 2 0 ≠ 0 then .error .generalFailure  -- fragmentation not supported
  else match parseAddrport inet (buf.drop 3) (n - 3) with
    | .error ec => .error ec
    | .ok (ret, addrport) => .ok (3 + ret, addrport)

/-- `parse_socks_request_header` up to the name lookup. -/
def socksRequestFields (inet : Inet) (buf : Bytes) (n : Nat) :
    Except Errorcode (Socks5Cmd × Socks5Addrport) :=
  if n < 3 then .error .generalFailure
  else if buf.getD 0 0 ≠ VERSION then .error .generalFailure
  else
    let cmd? : Option Socks5Cmd :=
      if buf.getD 1 0 = Socks5Cmd.connect.code then some .connect
      else if buf.getD 1 0 = Socks5Cmd.udpAssociate.code then some .udpAssociate
      else none
    match cmd? with
    | none => .error .commandNotSupported
    | some cmd =>
        if buf.getD 2 0 ≠ RSV then .error .generalFailure
        else match parseAddrport inet (buf.drop 3) (n - 3) with
          | .error ec => .error ec
          | .ok (_, addrport) => .ok (cmd, addrport)

/-- `check_credentials`.  `none` is a comparison with a null `auth_user` or
`auth_pass`, which the second `strcmp` only reaches after the first. -/
def checkCredentials (authUser authPass : Option CString) (buf : Bytes) (n : Nat) :
    Option Errorcode :=
  if n < 5 then some .generalFailure
  else if buf.getD 0 0 ≠ 1 then some .generalFailure
  else
    let ulen := (buf.getD 1 0).toNat
    if n < 2 + ulen + 2 then some .generalFailure
    else
      let plen := (buf.getD (2 + ulen) 0).toNat
      if n < 2 + ulen + 1 + plen then some .generalFailure
      else
        let user := CString.ofBuffer ((buf.drop 2).take ulen)
        let pass := CString.ofBuffer ((buf.drop (2 + ulen + 1)).take plen)
        authUser.bind fun authUser =>
          if user = authUser then
            authPass.bind fun authPass =>
              if pass = authPass then some .success else some .notAllowed
          else some .notAllowed

/-! ### Encoders -/

/-- What `send_response` writes. -/
def responseBytes (ec : Errorcode) (addr : SockaddrUnion) : Bytes :=
  [VERSION, ec.code, RSV] ++
    (match addr with
      | .v4 _ _ => Socks5AddrType.ipv4.code
      | .v6 _ _ _ => Socks5AddrType.ipv6.code) :: (addr.addressBytes ++ portBytes addr.port)

/-- What `send_error` writes: always an IPv4 address of zeros. -/
def errorBytes (ec : Errorcode) : Bytes := [5, ec.code, 0, 1, 0, 0, 0, 0, 0, 0]

/-- How the header of a UDP reply comes out. -/
inductive ReplyHeader
  | built (header : Bytes)
  | invalidAddress
  | unknownType

/-- The header `copy_loop_udp` puts before a datagram it read from a target. -/
def udpReplyHeader (inet : Inet) (addrport : Socks5Addrport) : ReplyHeader :=
  let start := [RSV, RSV, 0, addrport.type.code]
  match addrport.type with
  | .dns =>
      let len := addrport.addr.bytes.length
      .built (start ++ UInt8.ofNat len :: (addrport.addr.bytes ++ portBytes addrport.port))
  | .ipv4 =>
      match inet.pton .inet addrport.addr with
      | none => .invalidAddress
      | some addrIn4 => .built (start ++ (addrIn4 ++ portBytes addrport.port))
  | .ipv6 =>
      match inet.pton .inet6 addrport.addr with
      | none => .invalidAddress
      | some addrIn6 => .built (start ++ (addrIn6 ++ portBytes addrport.port))
  | .unknown => .unknownType

/-- `compareSocks5Addrport(a, b) == 0`. -/
def compareSocks5Addrport (a b : Socks5Addrport) : Bool :=
  a.type == b.type && a.addr == b.addr && a.port == b.port

theorem compareSocks5Addrport_iff {a b : Socks5Addrport} :
    compareSocks5Addrport a b = true ↔ a = b := by
  cases a; cases b
  simp [compareSocks5Addrport, and_assoc]

end TwoSocks
