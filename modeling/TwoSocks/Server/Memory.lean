/-
The parsers with their memory accesses.

`Server/Wire.lean` has the parsers as functions of the bytes received, and
`Server/Client.lean` the method selection, which looks into `auth_ips` on its way.  Here they
are once more with every access the source makes.  A read of `buf` is checked against the length
received, a write against the array that is written to, and a length that is subtracted
from another against the other; whichever fails is a `Fault`, and ends the call.

A `char[k]` is a `CArray k`.  What is in it when it is declared is not known, so `namebuf`
is an argument.  `addrport` is passed in and handed back, as the pointer in the source is.
-/
import TwoSocks.Server.Client

namespace TwoSocks

/-- An access the source must not make. -/
inductive Fault
  | read (index : Nat)
  | write (index : Nat)
  | underflow
  deriving DecidableEq, Repr

abbrev Mem := Except Fault

/-! ### Accesses -/

/-- `buf[i]`, where `n` bytes were received. -/
def readByte (buf : Bytes) (n i : Nat) : Mem UInt8 :=
  if i < n then .ok (buf.getD i 0) else .error (.read i)

/-- The `len` bytes at `buf + i`. -/
def readBytes (buf : Bytes) (n i len : Nat) : Mem Bytes :=
  if len = 0 ∨ i + len ≤ n then .ok ((buf.drop i).take len) else .error (.read (max i n))

/-- `n - k` of two sizes. -/
def sizeSub (n k : Nat) : Mem Nat := if k ≤ n then .ok (n - k) else .error .underflow

/-- `char[size]`. -/
abbrev CArray (size : Nat) := { bytes : Bytes // bytes.length = size }

/-- Write `src` at index `i`. -/
def CArray.write {size : Nat} (a : CArray size) (i : Nat) (src : Bytes) : Mem (CArray size) :=
  if h : i + src.length ≤ size then
    .ok ⟨a.1.take i ++ (src ++ a.1.drop (i + src.length)), by simp [a.2]; omega⟩
  else .error (.write (max i size))

/-- The bytes `strncpy` writes: the string in `src` as far as it fits, then zeros. -/
def padded (src : Bytes) (k : Nat) : Bytes :=
  let s := (src.takeWhile (· ≠ 0)).take k
  s ++ List.replicate (k - s.length) 0

/-- `strncpy(dst, src, k)`. It reads on to a zero or to the `k`-th byte. -/
def strncpy {size size' : Nat} (dst : CArray size) (src : CArray size') (k : Nat) :
    Mem (CArray size) :=
  if 0 ∈ src.1 ∨ k ≤ size' then dst.write 0 (padded src.1 k) else .error (.read size')

/-- `inet_ntop(af, src, dst, sizeof dst)`: `none` is the null pointer, which is also what comes
back when the text and its terminator do not fit. -/
def inetNtop (inet : Inet) (af : Af) (src : Bytes) {size : Nat} (dst : CArray size) :
    Mem (Option (CArray size)) :=
  match inet.ntop af src with
  | none => .ok none
  | some text =>
      if text.bytes.length + 1 ≤ size then do
        let dst ← dst.write 0 (text.bytes ++ [0])
        return some dst
      else .ok none

/-! ### The parsers -/

/-- `struct socks5_addrport`, byte for byte. -/
structure AddrportBuf where
  type : Socks5AddrType
  addr : CArray (MAX_DNS_LEN + 1)
  port : UInt16

/-- `-ec`. -/
def Errorcode.negated (ec : Errorcode) : Int := -(ec.code.toNat : Int)

/-- The end of `parse_addrport`. -/
def storeAddrportMem (buf : Bytes) (n : Nat) (type : Socks5AddrType)
    (namebuf : CArray (MAX_DNS_LEN + 1)) (minlen : Nat) (addrport : AddrportBuf) :
    Mem (Int × AddrportBuf) := do
  let addr ← addrport.addr.write MAX_DNS_LEN [0]
  let addr ← strncpy addr namebuf MAX_DNS_LEN
  let high ← readByte buf n (minlen - 2)
  let low ← readByte buf n (minlen - 1)
  return (minlen, ⟨type, addr, high.toUInt16 <<< 8 ||| low.toUInt16⟩)

/-- The arm of `parse_addrport` that the IPv6 case falls through into. -/
def parseAddrportIpMem (inet : Inet) (buf : Bytes) (n : Nat) (type : Socks5AddrType) (af : Af)
    (minlen : Nat) (namebuf : CArray (MAX_DNS_LEN + 1)) (addrport : AddrportBuf) :
    Mem (Int × AddrportBuf) := do
  if n < minlen then return (Errorcode.generalFailure.negated, addrport)
  else
    let address ← readBytes buf n 1 af.addrLen
    match ← inetNtop inet af address namebuf with
    | none => return (Errorcode.generalFailure.negated, addrport)
    | some namebuf => storeAddrportMem buf n type namebuf minlen addrport

/-- `parse_addrport`. -/
def parseAddrportMem (inet : Inet) (buf : Bytes) (n : Nat)
    (namebuf : CArray (MAX_DNS_LEN + 1)) (addrport : AddrportBuf) :
    Mem (Int × AddrportBuf) := do
  if n < 2 then return (Errorcode.generalFailure.negated, addrport)
  else
    let type ← readByte buf n 0
    if type = Socks5AddrType.ipv6.code then
      parseAddrportIpMem inet buf n .ipv6 .inet6 (1 + 16 + 2) namebuf addrport
    else if type = Socks5AddrType.ipv4.code then
      parseAddrportIpMem inet buf n .ipv4 .inet (1 + 4 + 2) namebuf addrport
    else if type = Socks5AddrType.dns.code then
      let l ← readByte buf n 1
      let minlen := 1 + (1 + l.toNat) + 2
      if n < minlen then return (Errorcode.generalFailure.negated, addrport)
      else
        let name ← readBytes buf n 2 l.toNat
        let namebuf ← namebuf.write 0 name
        let namebuf ← namebuf.write l.toNat [0]
        storeAddrportMem buf n .dns namebuf minlen addrport
    else return (Errorcode.addresstypeNotSupported.negated, addrport)

/-- `extract_udp_data`. -/
def extractUdpDataMem (inet : Inet) (buf : Bytes) (n : Nat)
    (namebuf : CArray (MAX_DNS_LEN + 1)) (addrport : AddrportBuf) :
    Mem (Int × AddrportBuf) := do
  if n < 3 then return (Errorcode.generalFailure.negated, addrport)
  else if (← readByte buf n 0) ≠ RSV then
    return (Errorcode.generalFailure.negated, addrport)
  else if (← readByte buf n 1) ≠ RSV then
    return (Errorcode.generalFailure.negated, addrport)
  else if (← readByte buf n 2) ≠ 0 then
    return (Errorcode.generalFailure.negated, addrport)
  else
    let rest ← sizeSub n 3
    let (ret, addrport) ← parseAddrportMem inet (buf.drop 3) rest namebuf addrport
    if ret < 0 then return (ret, addrport) else return (3 + ret, addrport)

/-- `parse_socks_request_header` up to the name lookup, with what it has put into `cmd`
and `addrport`. -/
def socksRequestFieldsMem (inet : Inet) (buf : Bytes) (n : Nat)
    (namebuf : CArray (MAX_DNS_LEN + 1)) (addrport : AddrportBuf) :
    Mem (Int × Option Socks5Cmd × AddrportBuf) := do
  if n < 3 then return (Errorcode.generalFailure.negated, none, addrport)
  else if (← readByte buf n 0) ≠ VERSION then
    return (Errorcode.generalFailure.negated, none, addrport)
  else
    let cmd ← readByte buf n 1
    let cmd? : Option Socks5Cmd :=
      if cmd = Socks5Cmd.connect.code then some .connect
      else if cmd = Socks5Cmd.udpAssociate.code then some .udpAssociate
      else none
    match cmd? with
    | none => return (Errorcode.commandNotSupported.negated, none, addrport)
    | some cmd =>
        if (← readByte buf n 2) ≠ RSV then
          return (Errorcode.generalFailure.negated, some cmd, addrport)
        else
          let rest ← sizeSub n 3
          let (ret, addrport) ← parseAddrportMem inet (buf.drop 3) rest namebuf addrport
          if ret < 0 then return (ret, some cmd, addrport)
          else return (Errorcode.success.negated, some cmd, addrport)

/-! ### The credentials -/

/-- `!strcmp(a, s)`. It reads `a` up to a difference, at most as far as `s` and its
terminator go. -/
def strcmpEq {size : Nat} (a : CArray size) (s : CString) : Mem Bool :=
  if 0 ∈ a.1 ∨ s.bytes.length < size then .ok (CString.ofBuffer a.1 == s)
  else .error (.read size)

/-- `check_credentials` with `auth_user` and `auth_pass` set; `user` and `pass` are its
arrays as they are declared. -/
def checkCredentialsMem (authUser authPass : CString) (buf : Bytes) (n : Nat)
    (user pass : CArray 256) : Mem Errorcode := do
  if n < 5 then return .generalFailure
  else if (← readByte buf n 0) ≠ 1 then return .generalFailure
  else
    let ulen := (← readByte buf n 1).toNat
    if n < 2 + ulen + 2 then return .generalFailure
    else
      let plen := (← readByte buf n (2 + ulen)).toNat
      if n < 2 + ulen + 1 + plen then return .generalFailure
      else
        let user ← user.write 0 (← readBytes buf n 2 ulen)
        let pass ← pass.write 0 (← readBytes buf n (2 + ulen + 1) plen)
        let user ← user.write ulen [0]
        let pass ← pass.write plen [0]
        if ← strcmpEq user authUser then
          if ← strcmpEq pass authPass then return .success else return .notAllowed
        else return .notAllowed

/-! ### The method selection -/

/-- The loop of `check_auth_method`, with `nMethods` methods to go from `idx` on. -/
def checkAuthMethodsMem (cfg : Config) (buf : Bytes) (n : Nat) (client : Client) (idx : Nat) :
    Nat → ExceptT Fault Server Authmethod
  | 0 => return .invalid
  | nMethods + 1 => do
    if idx < n then
      let method ← readByte buf n idx
      match ← considerAuthMethod cfg method client with
      | some am => return am
      | none => checkAuthMethodsMem cfg buf n client (idx + 1) nMethods
    else
      return .invalid

/-- `check_auth_method`. -/
def checkAuthMethodMem (cfg : Config) (buf : Bytes) (n : Nat) (client : Client) :
    ExceptT Fault Server Authmethod := do
  if (← readByte buf n 0) ≠ 5 then return .invalid
  else if 1 ≥ n then return .invalid
  else
    let nMethods ← readByte buf n 1
    checkAuthMethodsMem cfg buf n client 2 nMethods.toNat

end TwoSocks
