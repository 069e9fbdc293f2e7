/-
The encoders and the decoder agree.

`WireAddr` says what a SOCKS5 address field is: an address type, then an IPv4
address, an IPv6 address or a name with its length before it, then the port.  It is
the only thing the two encoders and `parse_addrport` have in common, and everything
here goes through it.  The decoder finds a field exactly at the front of what it is
given (`parseAddrport_sound`, `parseAddrport_complete`); the UDP reply path and
`send_response` each write one.

A name with a zero in it is the one place where decoding loses something: the stored
string ends there.  The reply path then writes the shorter name, which is still a field
for the same address.
-/
import TwoSocks.Server.Rules
import TwoSocks.Proofs.InetText

namespace TwoSocks

/-! ### Ports -/

theorem shiftOr_toNat (hi lo : UInt8) :
    (hi.toUInt16 <<< 8 ||| lo.toUInt16).toNat = 256 * hi.toNat + lo.toNat := by
  have hhi := hi.toNat_lt
  have hlo := lo.toNat_lt
  have hshift : hi.toNat <<< ((8 : UInt16).toNat % 16) % 2 ^ 16 = 2 ^ 8 * hi.toNat := by
    simp [Nat.shiftLeft_eq]
    omega
  rw [UInt16.toNat_or, UInt16.toNat_shiftLeft, UInt8.toNat_toUInt16, UInt8.toNat_toUInt16, hshift,
    ← Nat.two_pow_add_eq_or_of_lt (by omega)]

theorem portAt_toNat (buf : Bytes) (i : Nat) :
    (portAt buf i).toNat = 256 * (buf.getD i 0).toNat + (buf.getD (i + 1) 0).toNat :=
  shiftOr_toNat ..

theorem portHigh_toNat (port : UInt16) : (port >>> 8).toUInt8.toNat = port.toNat / 256 := by
  have := port.toNat_lt
  simp [Nat.shiftRight_eq_div_pow]
  omega

theorem portLow_toNat (port : UInt16) : (port &&& 0xFF).toUInt8.toNat = port.toNat % 256 := by
  have hand : port.toNat &&& 255 = port.toNat % 2 ^ 8 :=
    Nat.and_two_pow_sub_one_eq_mod port.toNat 8
  have hmask : (port &&& 0xFF).toUInt8.toNat = (port.toNat &&& 255) % 2 ^ 8 := by
    rw [UInt16.toNat_toUInt8, UInt16.toNat_and]
    rfl
  omega

/-- Reading back a port that was written. -/
theorem portAt_portBytes (pre post : Bytes) (port : UInt16) :
    portAt (pre ++ (portBytes port ++ post)) pre.length = port := by
  apply UInt16.toNat_inj.mp
  rw [portAt_toNat]
  have h₀ : (pre ++ (portBytes port ++ post)).getD pre.length 0 = (port >>> 8).toUInt8 := by
    simp [portBytes]
  have h₁ : (pre ++ (portBytes port ++ post)).getD (pre.length + 1) 0
      = (port &&& 0xFF).toUInt8 := by
    simp [portBytes]
  rw [h₀, h₁, portHigh_toNat, portLow_toNat]
  omega

/-- Writing a port that was read. -/
theorem portBytes_portAt {buf : Bytes} {i : Nat} (h : i + 2 ≤ buf.length) :
    portBytes (portAt buf i) = (buf.drop i).take 2 := by
  have hhi : (portAt buf i >>> 8).toUInt8 = buf.getD i 0 := by
    apply UInt8.toNat_inj.mp
    have := (buf.getD (i + 1) 0).toNat_lt
    rw [portHigh_toNat, portAt_toNat]
    omega
  have hlo : (portAt buf i &&& 0xFF).toUInt8 = buf.getD (i + 1) 0 := by
    apply UInt8.toNat_inj.mp
    have := (buf.getD (i + 1) 0).toNat_lt
    rw [portLow_toNat, portAt_toNat]
    omega
  rw [portBytes, hhi, hlo, List.drop_eq_getElem_cons (show i < buf.length by omega),
    List.drop_eq_getElem_cons (show i + 1 < buf.length by omega),
    List.getD_eq_getElem _ _ (show i < buf.length by omega),
    List.getD_eq_getElem _ _ (show i + 1 < buf.length by omega)]
  rfl

@[simp] theorem portBytes_length (port : UInt16) : (portBytes port).length = 2 := rfl

/-! ### Address fields -/

theorem SockaddrUnion.addressBytes_length (addr : SockaddrUnion) :
    addr.addressBytes.length = addr.af.addrLen := by
  cases addr <;> simp [SockaddrUnion.addressBytes, SockaddrUnion.af, Af.addrLen]

/-- The address type of a family. -/
def Af.addrType : Af → Socks5AddrType
  | inet => .ipv4
  | inet6 => .ipv6

/-- `field` is the wire form of an address, and `addrport` is what is stored for it. -/
inductive WireAddr (inet : Inet) : (field : Bytes) → (addrport : Socks5Addrport) → Prop
  | ip (af : Af) {address : Bytes} {text : CString} (port : UInt16)
      (hlen : address.length = af.addrLen) (htext : inet.ntop af address = some text) :
      WireAddr inet (af.addrType.code :: (address ++ portBytes port))
        (copyAddrport af.addrType text port)
  | dns {name : Bytes} (port : UInt16) (hlen : name.length ≤ 255) :
      WireAddr inet (Socks5AddrType.dns.code :: UInt8.ofNat name.length :: (name ++ portBytes port))
        (copyAddrport .dns (.ofBuffer name) port)

theorem CString.strncpy_self {s : CString} {n : Nat} (h : s.bytes.length ≤ n) :
    s.strncpy n = s := CString.ext' (List.take_of_length_le h)

theorem toNat_ofNat_length {name : Bytes} (h : name.length ≤ 255) :
    (UInt8.ofNat name.length).toNat = name.length := by
  simp
  omega

theorem parseAddrportIp_complete {inet : Inet} {af : Af} {address : Bytes} {text : CString}
    (t : UInt8) (port : UInt16) (rest : Bytes) {n : Nat} (hlen : address.length = af.addrLen)
    (htext : inet.ntop af address = some text) (hn : 1 + af.addrLen + 2 ≤ n) :
    parseAddrportIp inet (t :: (address ++ (portBytes port ++ rest))) n af.addrType af
        (1 + af.addrLen + 2)
      = .ok (1 + af.addrLen + 2, copyAddrport af.addrType text port) := by
  have htake : ((t :: (address ++ (portBytes port ++ rest))).drop 1).take af.addrLen
      = address := by
    rw [← hlen]
    simp
  have hport := portAt_portBytes (t :: address) rest port
  rw [List.length_cons, hlen, List.cons_append] at hport
  unfold parseAddrportIp
  rw [if_neg (by omega), htake, htext]
  simp only [storeAddrport, show 1 + af.addrLen + 2 - 2 = af.addrLen + 1 by omega, hport]

/-- **A field in front of anything is decoded, and no more than the field is used.** -/
theorem parseAddrport_complete {inet : Inet} {field : Bytes} {addrport : Socks5Addrport}
    (h : WireAddr inet field addrport) (rest : Bytes) {n : Nat} (hn : field.length ≤ n) :
    parseAddrport inet (field ++ rest) n = .ok (field.length, addrport) := by
  cases h with
  | @ip af address text port hlen htext =>
      simp only [List.length_cons, List.length_append, portBytes_length, hlen] at hn
      have hip := parseAddrportIp_complete af.addrType.code port rest
        hlen htext (show 1 + af.addrLen + 2 ≤ n by omega)
      have hfield : (af.addrType.code :: (address ++ portBytes port)) ++ rest
          = af.addrType.code :: (address ++ (portBytes port ++ rest)) := by simp
      have hflen : (af.addrType.code :: (address ++ portBytes port)).length
          = 1 + af.addrLen + 2 := by
        simp [hlen]
        omega
      rw [hfield, hflen, ← hip]
      unfold parseAddrport
      rw [if_neg (by omega)]
      cases af <;> rfl
  | @dns name port hlen =>
      simp only [List.length_cons, List.length_append, portBytes_length] at hn
      have hport := portAt_portBytes
        (Socks5AddrType.dns.code :: UInt8.ofNat name.length :: name) rest port
      simp only [List.length_cons, List.cons_append] at hport
      have htake : (((Socks5AddrType.dns.code :: UInt8.ofNat name.length ::
          (name ++ portBytes port)) ++ rest).drop 2).take name.length = name := by simp
      have hl : ((Socks5AddrType.dns.code :: UInt8.ofNat name.length ::
          (name ++ portBytes port)) ++ rest).getD 1 0 = UInt8.ofNat name.length := rfl
      have hty : ((Socks5AddrType.dns.code :: UInt8.ofNat name.length ::
          (name ++ portBytes port)) ++ rest).getD 0 0 = Socks5AddrType.dns.code := rfl
      unfold parseAddrport
      rw [if_neg (by omega)]
      simp only [hty, hl, toNat_ofNat_length hlen, htake]
      rw [if_neg (by decide), if_neg (by decide), if_pos trivial, if_neg (by omega)]
      simp only [storeAddrport, show 1 + (1 + name.length) + 2 - 2 = name.length + 1 + 1 by omega,
        List.cons_append, List.append_assoc, hport, List.length_cons, List.length_append,
        portBytes_length]
      congr 2
      omega

/-- The three pieces of a buffer that holds a field with a `k`-byte body. -/
theorem take_field {buf : Bytes} {k : Nat} (h : 1 + k + 2 ≤ buf.length) :
    buf.take (1 + k + 2)
      = buf.getD 0 0 :: ((buf.drop 1).take k ++ portBytes (portAt buf (1 + k))) := by
  rw [portBytes_portAt (by omega)]
  cases buf with
  | nil => simp at h
  | cons t rest =>
      rw [show 1 + k + 2 = (k + 2) + 1 by omega, List.take_succ_cons, List.take_add,
        show 1 + k = k + 1 by omega]
      rfl

/-- **What is decoded was a field at the front of the buffer.** -/
theorem parseAddrport_sound {inet : Inet} {buf : Bytes} {n len : Nat}
    {addrport : Socks5Addrport} (hn : n ≤ buf.length)
    (h : parseAddrport inet buf n = .ok (len, addrport)) :
    len ≤ n ∧ WireAddr inet (buf.take len) addrport := by
  have hip : ∀ af : Af, buf.getD 0 0 = af.addrType.code →
      parseAddrportIp inet buf n af.addrType af (1 + af.addrLen + 2) = .ok (len, addrport) →
      len ≤ n ∧ WireAddr inet (buf.take len) addrport := by
    intro af ht hp
    unfold parseAddrportIp at hp
    split at hp
    · simp at hp
    · rename_i hlen
      split at hp
      · simp at hp
      · rename_i text htext
        simp only [storeAddrport, Except.ok.injEq, Prod.mk.injEq] at hp
        obtain ⟨rfl, rfl⟩ := hp
        refine ⟨by omega, ?_⟩
        rw [take_field (by omega), ht]
        exact .ip af _ (by simp; omega) htext
  unfold parseAddrport at h
  split at h
  · simp at h
  · simp only at h
    split at h
    · rename_i ht
      exact hip .inet6 ht h
    · split at h
      · rename_i ht
        exact hip .inet ht h
      · split at h
        · rename_i ht
          split at h
          · simp at h
          · rename_i hlen
            simp only [storeAddrport, Except.ok.injEq, Prod.mk.injEq] at h
            obtain ⟨rfl, rfl⟩ := h
            refine ⟨by omega, ?_⟩
            have hname : ((buf.drop 2).take (buf.getD 1 0).toNat).length
                = (buf.getD 1 0).toNat := by
              rw [List.length_take, List.length_drop]
              omega
            have hbody : (buf.drop 1).take (1 + (buf.getD 1 0).toNat)
                = UInt8.ofNat ((buf.drop 2).take (buf.getD 1 0).toNat).length ::
                  (buf.drop 2).take (buf.getD 1 0).toNat := by
              rw [hname]
              rw [List.drop_eq_getElem_cons (show 1 < buf.length by omega),
                show 1 + (buf.getD 1 0).toNat = (buf.getD 1 0).toNat + 1 by omega,
                List.take_succ_cons]
              simp [List.getD_eq_getElem?_getD,
                List.getElem?_eq_getElem (show 1 < buf.length by omega)]
            rw [take_field (by omega), ht, hbody]
            have hdns : WireAddr inet _ _ := .dns
              (portAt buf (1 + (1 + (buf.getD 1 0).toNat)))
              (hname.trans_le (Nat.le_of_lt_succ (UInt8.toNat_lt _)))
            simpa using hdns
        · simp at h

/-! ### The header of a UDP reply -/

/-- If a field is a name, there is no zero in the name. -/
def NameHasNoNul (field : Bytes) : Prop :=
  field.getD 0 0 = Socks5AddrType.dns.code → 0 ∉ (field.drop 2).take (field.getD 1 0).toNat

/-- What follows a field does not matter to the name in it. -/
theorem NameHasNoNul.field {field rest : Bytes} (h : NameHasNoNul (field ++ rest))
    (hlen : 2 ≤ field.length) : NameHasNoNul field := by
  obtain ⟨t, l, body, rfl⟩ : ∃ t l body, field = t :: l :: body := by
    match field, hlen with
    | t :: l :: body, _ => exact ⟨t, l, body, rfl⟩
  intro ht hz
  refine h ht ?_
  have hz : 0 ∈ body.take l.toNat := hz
  show 0 ∈ (body ++ rest).take l.toNat
  rw [List.take_append]
  exact List.mem_append_left _ hz

theorem WireAddr.two_le_length {inet : Inet} {field : Bytes} {addrport : Socks5Addrport}
    (h : WireAddr inet field addrport) : 2 ≤ field.length := by
  cases h <;> simp

/-- No field is longer than one with a name of 255 bytes. -/
theorem WireAddr.length_le {inet : Inet} {field : Bytes} {addrport : Socks5Addrport}
    (h : WireAddr inet field addrport) : field.length ≤ 1 + 1 + 255 + 2 := by
  cases h with
  | ip af port hlen htext =>
      have : af.addrLen ≤ 16 := by cases af <;> simp [Af.addrLen]
      simp only [List.length_cons, List.length_append, portBytes_length]
      omega
  | dns port hlen =>
      simp only [List.length_cons, List.length_append, portBytes_length]
      omega

/-- Every address that can be stored has a field whose name is free of zeros: the name
as it was stored. -/
theorem WireAddr.noNul {inet : Inet} {field : Bytes} {addrport : Socks5Addrport}
    (h : WireAddr inet field addrport) :
    ∃ field', WireAddr inet field' addrport ∧ NameHasNoNul field' := by
  cases h with
  | @ip af address text port hlen htext =>
      refine ⟨_, .ip af port hlen htext, fun ht => ?_⟩
      cases af <;> exact absurd ht (by simp [Af.addrType, Socks5AddrType.code])
  | @dns name port hlen =>
      have hle : (CString.ofBuffer name).bytes.length ≤ 255 :=
        (List.takeWhile_prefix _).length_le.trans hlen
      have hsame : CString.ofBuffer (CString.ofBuffer name).bytes = CString.ofBuffer name :=
        CString.ext' (CString.ofBuffer_bytes (CString.ofBuffer name).noNul)
      have hdns : WireAddr inet _ _ := .dns port hle
      rw [hsame] at hdns
      refine ⟨_, hdns, fun _ => ?_⟩
      show (0 : UInt8) ∉ ((CString.ofBuffer name).bytes ++ portBytes port).take
        (UInt8.ofNat (CString.ofBuffer name).bytes.length).toNat
      rw [toNat_ofNat_length hle, List.take_left']
      · exact (CString.ofBuffer name).noNul
      · rfl

/-- **The reply path writes the field that was read**, after three zeros, if the name
in it has no zero. -/
theorem udpReplyHeader_of_wire {inet : Inet} (hinet : inet.Lawful) {field : Bytes}
    {addrport : Socks5Addrport} (h : WireAddr inet field addrport) (hnul : NameHasNoNul field) :
    udpReplyHeader inet addrport = .built (RSV :: RSV :: 0 :: field) := by
  cases h with
  | @ip af address text port hlen htext =>
      obtain ⟨s, hs, hfits, hpton⟩ := hinet.pton_ntop af address hlen
      obtain rfl : s = text := by rw [hs] at htext; exact Option.some.inj htext
      have haddr : (copyAddrport af.addrType s port).addr = s := CString.strncpy_self hfits
      cases af
      · simp only [udpReplyHeader, copyAddrport, Af.addrType] at haddr ⊢
        rw [haddr, hpton]
        rfl
      · simp only [udpReplyHeader, copyAddrport, Af.addrType] at haddr ⊢
        rw [haddr, hpton]
        rfl
  | @dns name port hlen =>
      have hname : 0 ∉ name := by
        have := hnul rfl
        change (0 : UInt8) ∉ (name ++ portBytes port).take
          (UInt8.ofNat name.length).toNat at this
        rwa [toNat_ofNat_length hlen, List.take_left' rfl] at this
      have hfits : (CString.ofBuffer name).bytes.length ≤ MAX_DNS_LEN := by
        rw [CString.ofBuffer_bytes hname]
        exact hlen.trans (by decide)
      have haddr : (CString.ofBuffer name).strncpy MAX_DNS_LEN = CString.ofBuffer name :=
        CString.strncpy_self hfits
      simp only [udpReplyHeader, copyAddrport, haddr, CString.ofBuffer_bytes hname]
      rfl

/-- A header of three zeros and a field, with a payload after it, is decoded to the
address and the header's length. -/
theorem extractUdpData_complete {inet : Inet} {field : Bytes} {addrport : Socks5Addrport}
    (h : WireAddr inet field addrport) (payload : Bytes) :
    extractUdpData inet ((RSV :: RSV :: 0 :: field) ++ payload)
        ((RSV :: RSV :: 0 :: field) ++ payload).length
      = .ok ((RSV :: RSV :: 0 :: field).length, addrport) := by
  have hlen : ((RSV :: RSV :: 0 :: field) ++ payload).length
      = 3 + (field ++ payload).length := by
    simp
    omega
  have hparse := parseAddrport_complete h payload (n := (field ++ payload).length) (by simp)
  rw [hlen]
  unfold extractUdpData
  rw [if_neg (by omega), if_neg (by simp), if_neg (by simp)]
  rw [show ((RSV :: RSV :: 0 :: field) ++ payload).drop 3 = field ++ payload from rfl,
    show 3 + (field ++ payload).length - 3 = (field ++ payload).length by omega, hparse]
  simp
  omega

/-- What is accepted from a client is three zeros and a field. -/
theorem extractUdpData_sound {inet : Inet} {buf : Bytes} {n offset : Nat}
    {addrport : Socks5Addrport} (hn : n ≤ buf.length)
    (h : extractUdpData inet buf n = .ok (offset, addrport)) :
    ∃ field, WireAddr inet field addrport ∧ buf.take offset = RSV :: RSV :: 0 :: field ∧
      field <+: buf.drop 3 := by
  unfold extractUdpData at h
  split at h
  · simp at h
  · rename_i hlen
    split at h
    · simp at h
    · rename_i hrsv
      split at h
      · simp at h
      · rename_i hfrag
        split at h
        · simp at h
        · rename_i ret ap hparse
          simp only [Except.ok.injEq, Prod.mk.injEq] at h
          obtain ⟨rfl, rfl⟩ := h
          obtain ⟨hle, hwire⟩ := parseAddrport_sound (by simp; omega) hparse
          obtain ⟨a, b, c, rest, rfl⟩ : ∃ a b c rest, buf = a :: b :: c :: rest := by
            match buf, hn, hlen with
            | a :: b :: c :: rest, _, _ => exact ⟨a, b, c, rest, rfl⟩
            | [_, _], hn, hlen => simp at hn; omega
            | [_], hn, hlen => simp at hn; omega
            | [], hn, hlen => simp at hn; omega
          simp only [List.getD_cons_zero, List.getD_cons_succ, not_or, not_not] at hrsv hfrag
          refine ⟨_, hwire, ?_, List.take_prefix ..⟩
          rw [hrsv.1, hrsv.2, hfrag, show 3 + ret = ret + 1 + 1 + 1 by omega]
          rfl

/-! ### The two encoders in the program -/

/-- Once `udpReply` has received a payload it writes header and payload in one piece. -/
theorem udpReply_run {inet : Inet} {udpFd fd : Fd} {s : UdpLoop} {i idx room : Nat}
    {header payload : Bytes} {tr : Trace sys} {r : (UdpLoop × Nat) ⊕ Flow}
    (hh : udpReplyHeader inet (s.sockList.itemFromIndex idx).addrport = .built header)
    (h : Prog.Eval (udpReply inet udpFd s i idx) (⟨.recv fd room, .ok payload⟩ :: tr) r) :
    room = UDP_COPY_BUFFER_SIZE - header.length ∧
      ∃ ret rest, tr = ⟨.write udpFd (header ++ payload), ret⟩ :: rest := by
  unfold udpReply at h
  rw [hh] at h
  cases h with
  | call h =>
      refine ⟨rfl, ?_⟩
      cases h with
      | block hw hk =>
          cases hw with
          | call hrest => exact ⟨_, _, rfl⟩

/-- How the reply path serves a destination it knows as `addrport`. -/
structure RepliesUnder (inet : Inet) (addrport : Socks5Addrport) (header : Bytes) : Prop where
  /-- The header is built. -/
  built : udpReplyHeader inet addrport = .built header
  /-- Any payload fits after it, and the decoder finds both again. -/
  decodes : ∀ payload : Bytes, payload.length ≤ UDP_MAX_PAYLOAD_SIZE →
    (header ++ payload).length ≤ UDP_COPY_BUFFER_SIZE ∧
      extractUdpData inet (header ++ payload) (header ++ payload).length
        = .ok (header.length, addrport) ∧
      (header ++ payload).drop header.length = payload
  /-- The program leaves room for any payload, and writes what it received after the
  header. -/
  writes : ∀ (udpFd fd : Fd) (s : UdpLoop) (i idx room : Nat) (payload : Bytes)
    (tr : Trace sys) (r : (UdpLoop × Nat) ⊕ Flow),
    (s.sockList.itemFromIndex idx).addrport = addrport →
    Prog.Eval (udpReply inet udpFd s i idx) (⟨.recv fd room, .ok payload⟩ :: tr) r →
    UDP_MAX_PAYLOAD_SIZE ≤ room ∧
      ∃ ret rest, tr = ⟨.write udpFd (header ++ payload), ret⟩ :: rest

theorem repliesUnder_of_wire {inet : Inet} (hinet : inet.Lawful) {field : Bytes}
    {addrport : Socks5Addrport} (h : WireAddr inet field addrport) (hnul : NameHasNoNul field) :
    RepliesUnder inet addrport (RSV :: RSV :: 0 :: field) := by
  have hbuilt := udpReplyHeader_of_wire hinet h hnul
  have hlen := h.length_le
  have hroom : (RSV :: RSV :: 0 :: field).length + UDP_MAX_PAYLOAD_SIZE
      ≤ UDP_COPY_BUFFER_SIZE := by
    simp only [List.length_cons, UDP_COPY_BUFFER_SIZE, MAX_SOCKS5_HEADER_LEN, MAX_DNS_LEN]
    omega
  refine ⟨hbuilt, fun payload hpay => ⟨?_, extractUdpData_complete h payload, ?_⟩, ?_⟩
  · rw [List.length_append]
    omega
  · exact List.drop_left' rfl
  · rintro udpFd fd s i idx room payload tr r rfl hev
    obtain ⟨rfl, hrest⟩ := udpReply_run hbuilt hev
    exact ⟨by omega, hrest⟩

/-- The address a reply of `send_response` carries. -/
theorem responseBytes_wire {inet : Inet} {addr : SockaddrUnion} {text : CString}
    (htext : inet.ntop addr.af addr.addressBytes = some text) (ec : Errorcode) :
    WireAddr inet ((responseBytes ec addr).drop 3)
      (copyAddrport addr.af.addrType text addr.port) := by
  cases addr with
  | v4 a port => exact .ip .inet port a.size_toArray htext
  | v6 a port scope => exact .ip .inet6 port a.size_toArray htext

/--
**The encoders and the decoder agree on every address.**

A reply is sent under any address the parser can produce, with room for any payload,
and decodes to that address and payload.  If the name in a client's datagram has no
zero, the reply to it carries the very header the client sent.  The address in a reply
of `send_response` is read back by the parser, which uses all of it.
-/
theorem address_codecs_agree (inet : Inet) (hinet : inet.Lawful) :
    (∀ (buf : Bytes) (n len : Nat) (addrport : Socks5Addrport), n ≤ buf.length →
      parseAddrport inet buf n = .ok (len, addrport) →
      ∃ header, RepliesUnder inet addrport header) ∧
    (∀ (buf : Bytes) (n offset : Nat) (addrport : Socks5Addrport), n ≤ buf.length →
      extractUdpData inet buf n = .ok (offset, addrport) → NameHasNoNul (buf.drop 3) →
      udpReplyHeader inet addrport = .built (buf.take offset)) ∧
    (∀ (ec : Errorcode) (addr : SockaddrUnion), ∃ text addrport,
      inet.ntop addr.af addr.addressBytes = some text ∧
      parseAddrport inet ((responseBytes ec addr).drop 3) ((responseBytes ec addr).length - 3)
        = .ok ((responseBytes ec addr).length - 3, addrport) ∧
      addrport.type = addr.af.addrType ∧ addrport.addr = text ∧ addrport.port = addr.port) := by
  refine ⟨fun buf n len addrport hn h => ?_, fun buf n offset addrport hn h hnul => ?_,
    fun ec addr => ?_⟩
  · obtain ⟨field, hwire, hnul⟩ := (parseAddrport_sound hn h).2.noNul
    exact ⟨_, repliesUnder_of_wire hinet hwire hnul⟩
  · obtain ⟨field, hwire, htake, rest, hrest⟩ := extractUdpData_sound hn h
    rw [← hrest] at hnul
    rw [htake]
    exact udpReplyHeader_of_wire hinet hwire (hnul.field hwire.two_le_length)
  · obtain ⟨text, htext, hfits, -⟩ := hinet.pton_ntop _ _ addr.addressBytes_length
    have hparse := parseAddrport_complete (responseBytes_wire htext ec) [] le_rfl
    rw [List.append_nil, List.length_drop] at hparse
    exact ⟨text, _, htext, hparse, rfl, CString.strncpy_self hfits, rfl⟩

/-- An IPv4 address and a name that were parsed, an IPv6 datagram from a client, and a
reply with an IPv4 address. -/
theorem address_codecs_agree_plain :
    (∃ addrport header, parseAddrport Inet.plain [1, 192, 0, 2, 1, 0, 53] 7 = .ok (7, addrport) ∧
      RepliesUnder Inet.plain addrport header) ∧
    (∃ addrport header, parseAddrport Inet.plain [3, 3, 100, 0, 115, 0, 53] 7 = .ok (7, addrport) ∧
      RepliesUnder Inet.plain addrport header) ∧
    (∃ addrport,
      extractUdpData Inet.plain
        [0, 0, 0, 4, 32, 1, 13, 184, 0, 1, 0, 2, 0, 3, 0, 4, 0, 5, 0, 6, 31, 144, 7] 23
          = .ok (22, addrport) ∧
      udpReplyHeader Inet.plain addrport = .built
        [0, 0, 0, 4, 32, 1, 13, 184, 0, 1, 0, 2, 0, 3, 0, 4, 0, 5, 0, 6, 31, 144]) ∧
    ∃ addrport, parseAddrport Inet.plain
      ((responseBytes .success (.v4 #v[127, 0, 0, 1] 1080)).drop 3) 7 = .ok (7, addrport) := by
  have hagree := address_codecs_agree Inet.plain Inet.plain_lawful
  refine ⟨?_, ?_, ⟨_, rfl, ?_⟩, ?_⟩
  · obtain ⟨header, h⟩ := hagree.1 [1, 192, 0, 2, 1, 0, 53] 7 7 _ (by decide) rfl
    exact ⟨_, header, rfl, h⟩
  · obtain ⟨header, h⟩ := hagree.1 [3, 3, 100, 0, 115, 0, 53] 7 7 _ (by decide) rfl
    exact ⟨_, header, rfl, h⟩
  · exact hagree.2.1 [0, 0, 0, 4, 32, 1, 13, 184, 0, 1, 0, 2, 0, 3, 0, 4, 0, 5, 0, 6, 31, 144, 7]
      23 22 _ (by decide) rfl (by unfold NameHasNoNul; decide)
  · obtain ⟨text, addrport, -, h, -⟩ := hagree.2.2 .success (.v4 #v[127, 0, 0, 1] 1080)
    exact ⟨addrport, h⟩

end TwoSocks
