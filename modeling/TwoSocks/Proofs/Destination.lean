/-
Which destination a datagram is sent to.

A client names a destination by octets: an address type, an address, a port.  What is kept
of it is a `socks5_addrport`, whose address is text, and that text is what the next
datagram's is compared with.  For an IP address nothing is lost on the way, because
`inet_ntop` prints different addresses differently.  A name is copied as a C string, so two
names that are the same up to a zero are one destination.

`addrport_eq_iff` says this of two headers, and `destination_identity` of the lookup in
`sock_list`.
-/
import TwoSocks.Proofs.UdpTable
import TwoSocks.Proofs.Codec

namespace TwoSocks

/-- `inet_ntop` prints different addresses differently, in the space it is given. -/
structure Inet.Injective (inet : Inet) : Prop where
  fits : ∀ {af : Af} {a : Bytes} {text : CString}, a.length = af.addrLen →
    inet.ntop af a = some text → text.bytes.length ≤ MAX_DNS_LEN
  inj : ∀ {af : Af} {a b : Bytes} {text : CString}, a.length = af.addrLen →
    b.length = af.addrLen → inet.ntop af a = some text → inet.ntop af b = some text → a = b

theorem Inet.Lawful.injective {inet : Inet} (h : inet.Lawful) : inet.Injective where
  fits := by
    intro af a text ha htext
    obtain ⟨s, hs, hfits, -⟩ := h.pton_ntop af a ha
    rw [hs, Option.some.injEq] at htext
    rwa [← htext]
  inj := by
    intro af a b text ha hb hta htb
    obtain ⟨s, hs, -, hpa⟩ := h.pton_ntop af a ha
    obtain ⟨t, ht, -, hpb⟩ := h.pton_ntop af b hb
    rw [hs, Option.some.injEq] at hta
    rw [ht, Option.some.injEq] at htb
    rw [hta] at hpa
    rw [htb, hpa, Option.some.injEq] at hpb
    exact hpb

/-! ### Destinations on the wire -/

/-- What a header names, octet for octet. -/
structure WireDestination where
  atyp : UInt8
  octets : Bytes
  port : Bytes
  deriving DecidableEq

/-- The destination in a header: the octets between the address type, or the length of a
name, and the two octets of the port. -/
def wireDestination (header : Bytes) : WireDestination where
  atyp := header.getD 3 0
  octets :=
    (header.take (header.length - 2)).drop
      (if header.getD 3 0 = Socks5AddrType.dns.code then 5 else 4)
  port := header.drop (header.length - 2)

/-- Two different names for one C string: they are the same up to the first zero. -/
def SameUpToZero (d e : WireDestination) : Prop :=
  d.atyp = Socks5AddrType.dns.code ∧ e.atyp = Socks5AddrType.dns.code ∧ d.port = e.port ∧
    d.octets ≠ e.octets ∧ d.octets.takeWhile (· ≠ 0) = e.octets.takeWhile (· ≠ 0)

theorem wireDestination_ip {af : Af} {address : Bytes} (port : UInt16) :
    wireDestination (RSV :: RSV :: 0 :: (af.addrType.code :: (address ++ portBytes port))) =
      ⟨af.addrType.code, address, portBytes port⟩ := by
  have hcode : af.addrType.code ≠ Socks5AddrType.dns.code := by cases af <;> decide
  have hlen : (RSV :: RSV :: 0 :: (af.addrType.code :: (address ++ portBytes port))).length - 2 =
      (RSV :: RSV :: 0 :: af.addrType.code :: address).length := by simp
  have hsplit : RSV :: RSV :: 0 :: (af.addrType.code :: (address ++ portBytes port)) =
      (RSV :: RSV :: 0 :: af.addrType.code :: address) ++ portBytes port := rfl
  unfold wireDestination
  rw [hlen, hsplit, List.take_left, List.drop_left]
  show WireDestination.mk af.addrType.code
    ((RSV :: RSV :: 0 :: af.addrType.code :: address).drop (if af.addrType.code = _ then _ else _))
    _ = _
  rw [if_neg hcode]
  rfl

theorem wireDestination_dns {name : Bytes} (port : UInt16) :
    wireDestination (RSV :: RSV :: 0 :: (Socks5AddrType.dns.code ::
      UInt8.ofNat name.length :: (name ++ portBytes port))) =
      ⟨Socks5AddrType.dns.code, name, portBytes port⟩ := by
  have hlen : (RSV :: RSV :: 0 :: (Socks5AddrType.dns.code ::
      UInt8.ofNat name.length :: (name ++ portBytes port))).length - 2 =
      (RSV :: RSV :: 0 :: Socks5AddrType.dns.code :: UInt8.ofNat name.length :: name).length := by
    simp
  have hsplit : RSV :: RSV :: 0 :: (Socks5AddrType.dns.code ::
      UInt8.ofNat name.length :: (name ++ portBytes port)) =
      (RSV :: RSV :: 0 :: Socks5AddrType.dns.code :: UInt8.ofNat name.length :: name) ++
        portBytes port := rfl
  unfold wireDestination
  rw [hlen, hsplit, List.take_left, List.drop_left]
  rfl

/-! ### What is kept of a destination -/

theorem portBytes_inj {p q : UInt16} (h : portBytes p = portBytes q) : p = q := by
  have hp := portAt_portBytes [] [] p
  have hq := portAt_portBytes [] [] q
  rw [h] at hp
  exact hp.symm.trans hq

/-- Two addrports are equal if their three parts are. -/
theorem copyAddrport_inj {type type' : Socks5AddrType} {text text' : CString} {port port' : UInt16}
    (hfits : text.bytes.length ≤ MAX_DNS_LEN) (hfits' : text'.bytes.length ≤ MAX_DNS_LEN) :
    copyAddrport type text port = copyAddrport type' text' port' ↔
      type = type' ∧ text = text' ∧ port = port' := by
  unfold copyAddrport
  simp only [CString.strncpy_self hfits, CString.strncpy_self hfits', Socks5Addrport.mk.injEq]

theorem ofBuffer_eq_iff {a b : Bytes} :
    CString.ofBuffer a = CString.ofBuffer b ↔ a.takeWhile (· ≠ 0) = b.takeWhile (· ≠ 0) :=
  ⟨fun h => congrArg CString.bytes h, fun h => CString.ext' h⟩

theorem ofBuffer_fits {name : Bytes} (h : name.length ≤ 255) :
    (CString.ofBuffer name).bytes.length ≤ MAX_DNS_LEN :=
  (List.takeWhile_prefix _).length_le.trans (h.trans (by decide))

/-- **Two fields are kept as one address if they are one, or two names that are the same
up to a zero.** -/
theorem addrport_eq_iff {inet : Inet} (hinet : inet.Injective) {field field' : Bytes}
    {a b : Socks5Addrport} (ha : WireAddr inet field a) (hb : WireAddr inet field' b) :
    a = b ↔ wireDestination (RSV :: RSV :: 0 :: field) =
        wireDestination (RSV :: RSV :: 0 :: field') ∨
      SameUpToZero (wireDestination (RSV :: RSV :: 0 :: field))
        (wireDestination (RSV :: RSV :: 0 :: field')) := by
  have hcode : ∀ af : Af, af.addrType.code ≠ Socks5AddrType.dns.code := by
    intro af
    cases af <;> decide
  cases ha with
  | @ip af address text port hlen htext =>
      have hfits := hinet.fits hlen htext
      cases hb with
      | @ip af' address' text' port' hlen' htext' =>
          have hno : ¬SameUpToZero ⟨af.addrType.code, address, portBytes port⟩
              ⟨af'.addrType.code, address', portBytes port'⟩ := fun h => hcode af h.1
          rw [copyAddrport_inj hfits (hinet.fits hlen' htext'), wireDestination_ip,
            wireDestination_ip, or_iff_left hno, WireDestination.mk.injEq]
          constructor
          · rintro ⟨htype, rfl, rfl⟩
            obtain rfl : af = af' := by cases af <;> cases af' <;> simp_all [Af.addrType]
            exact ⟨rfl, hinet.inj hlen hlen' htext htext', rfl⟩
          · rintro ⟨htype, rfl, hport⟩
            obtain rfl : af = af' := by
              cases af <;> cases af' <;> simp_all [Af.addrType, Socks5AddrType.code]
            rw [htext, Option.some.injEq] at htext'
            exact ⟨rfl, htext', portBytes_inj hport⟩
      | @dns name port' hlen' =>
          rw [copyAddrport_inj hfits (ofBuffer_fits hlen'), wireDestination_ip,
            wireDestination_dns]
          refine ⟨fun h => absurd h.1 (by cases af <;> decide), ?_⟩
          rintro (h | h)
          · rw [WireDestination.mk.injEq] at h
            exact absurd h.1 (hcode af)
          · exact absurd h.1 (hcode af)
  | @dns name port hlen =>
      cases hb with
      | @ip af' address' text' port' hlen' htext' =>
          rw [copyAddrport_inj (ofBuffer_fits hlen) (hinet.fits hlen' htext'),
            wireDestination_ip, wireDestination_dns]
          refine ⟨fun h => absurd h.1.symm (by cases af' <;> decide), ?_⟩
          rintro (h | h)
          · rw [WireDestination.mk.injEq] at h
            exact absurd h.1.symm (hcode af')
          · exact absurd h.2.1 (hcode af')
      | @dns name' port' hlen' =>
          rw [copyAddrport_inj (ofBuffer_fits hlen) (ofBuffer_fits hlen'), wireDestination_dns,
            wireDestination_dns, ofBuffer_eq_iff, WireDestination.mk.injEq]
          constructor
          · rintro ⟨-, hname, rfl⟩
            by_cases hsame : name = name'
            · exact .inl ⟨rfl, hsame, rfl⟩
            · exact .inr ⟨rfl, rfl, rfl, hsame, hname⟩
          · rintro (⟨-, rfl, hport⟩ | ⟨-, -, hport, -, hname⟩)
            · exact ⟨rfl, rfl, portBytes_inj hport⟩
            · exact ⟨rfl, hname, portBytes_inj hport⟩

/-! ### The lookup -/

/-- Looking for an address finds the entry that has it: no other entry does. -/
theorem search_addrport {list : Sblist FdSocks5addr} (hlist : list.items.Pairwise OtherAddrport)
    {i : Nat} {item : FdSocks5addr} (hitem : list.items[i]? = some item)
    (addrport : Socks5Addrport) :
    list.search (fun other => compareSocks5Addrport addrport other.addrport) = some i ↔
      item.addrport = addrport := by
  obtain ⟨hi, rfl⟩ := List.getElem?_eq_some_iff.mp hitem
  constructor
  · intro h
    obtain ⟨_, hcmp, -⟩ := List.findIdx?_eq_some_iff_getElem.mp h
    exact (compareSocks5Addrport_iff.mp hcmp).symm
  · intro h
    refine List.findIdx?_eq_some_iff_getElem.mpr ⟨hi, compareSocks5Addrport_iff.mpr h.symm, ?_⟩
    intro j hj hcmp
    have hother := otherAddrport_iff.mp
      (List.pairwise_iff_getElem.mp hlist j i (by omega) hi hj)
    exact hother ((compareSocks5Addrport_iff.mp hcmp).symm.trans h.symm)

/-- **The lookup tells destinations apart exactly when their names are not the same up to a
zero.** -/
theorem destination_identity {inet : Inet} (hinet : inet.Injective) {first second : Bytes}
    {offset offset' : Nat} {addrport : Socks5Addrport} {item : FdSocks5addr}
    {list : Sblist FdSocks5addr} {i : Nat}
    (hfirst : extractUdpData inet first first.length = .ok (offset, item.addrport))
    (hsecond : extractUdpData inet second second.length = .ok (offset', addrport))
    (hlist : list.items.Pairwise OtherAddrport) (hitem : list.items[i]? = some item) :
    (list.search (fun other => compareSocks5Addrport addrport other.addrport) = some i ↔
        wireDestination (first.take offset) = wireDestination (second.take offset')) ↔
      ¬SameUpToZero (wireDestination (first.take offset))
        (wireDestination (second.take offset')) := by
  obtain ⟨field, hwire, hheader, -⟩ := extractUdpData_sound (Nat.le_refl _) hfirst
  obtain ⟨field', hwire', hheader', -⟩ := extractUdpData_sound (Nat.le_refl _) hsecond
  rw [search_addrport hlist hitem, hheader, hheader', addrport_eq_iff hinet hwire hwire']
  constructor
  · intro h hzero
    have hne := hzero.2.2.2.1
    exact hne (congrArg WireDestination.octets (h.mp (.inr hzero)))
  · intro h
    rw [or_iff_left h]

/-- The same name twice: the second datagram goes to the first one's socket. -/
theorem destination_identity_plain :
    ((Sblist.mk 1 1 [(⟨7, 1, copyAddrport .dns (.ofBuffer [97]) 53⟩ : FdSocks5addr)]).search
        (fun other => compareSocks5Addrport (copyAddrport .dns (.ofBuffer [97]) 53)
          other.addrport) = some 0 ↔
      wireDestination ([0, 0, 0, 3, 1, 97, 0, 53, 9].take 8) =
        wireDestination ([0, 0, 0, 3, 1, 97, 0, 53].take 8)) ↔
      ¬SameUpToZero (wireDestination ([0, 0, 0, 3, 1, 97, 0, 53, 9].take 8))
        (wireDestination ([0, 0, 0, 3, 1, 97, 0, 53].take 8)) :=
  destination_identity Inet.plain_lawful.injective rfl rfl
    (List.pairwise_singleton _ (⟨7, 1, _⟩ : FdSocks5addr)) rfl

/-- `a` and `a`, a zero, `b`: two names on the wire, and one destination socket. -/
theorem destinations_collapse :
    extractUdpData .plain [0, 0, 0, 3, 1, 97, 0, 53] 8 =
        .ok (8, copyAddrport .dns (.ofBuffer [97]) 53) ∧
      extractUdpData .plain [0, 0, 0, 3, 3, 97, 0, 98, 0, 53] 10 =
        .ok (10, copyAddrport .dns (.ofBuffer [97, 0, 98]) 53) ∧
      (Sblist.mk 1 1 [(⟨7, 1, copyAddrport .dns (.ofBuffer [97]) 53⟩ : FdSocks5addr)]).search
        (fun other => compareSocks5Addrport (copyAddrport .dns (.ofBuffer [97, 0, 98]) 53)
          other.addrport) = some 0 ∧
      wireDestination [0, 0, 0, 3, 1, 97, 0, 53] ≠
        wireDestination [0, 0, 0, 3, 3, 97, 0, 98, 0, 53] := by
  refine ⟨rfl, rfl, by decide, by decide⟩

end TwoSocks
