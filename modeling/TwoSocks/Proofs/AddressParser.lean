/-
The address parser takes exactly the fields there are, and touches nothing else.

`parseAddrportMem_eq` is the refinement: on memory that is checked at every access the
parser comes back, with the result `parseAddrport` has on the bytes received.  No access
faults, because every length is compared with `n` before a byte past it is asked for.

`AddrField` is the field as RFC 1928 has it, from the bytes alone.  A field in front of the
bytes received is what makes the parser succeed, and nothing else does.
-/
import TwoSocks.Server.Memory
import TwoSocks.Proofs.Codec

namespace TwoSocks

/-! ### Arrays -/

@[simp] theorem readByte_of_lt {buf : Bytes} {n i : Nat} (h : i < n) :
    readByte buf n i = .ok (buf.getD i 0) := if_pos h

theorem readBytes_of_le {buf : Bytes} {n i len : Nat} (h : i + len ≤ n) :
    readBytes buf n i len = .ok ((buf.drop i).take len) := if_pos (.inr h)

theorem sizeSub_of_le {n k : Nat} (h : k ≤ n) : sizeSub n k = .ok (n - k) := if_pos h

/-- What a write leaves in an array. -/
theorem CArray.write_of_le {size : Nat} (a : CArray size) {i : Nat} {src : Bytes}
    (h : i + src.length ≤ size) :
    ∃ b : CArray size, a.write i src = .ok b ∧
      b.1 = a.1.take i ++ (src ++ a.1.drop (i + src.length)) := by
  unfold CArray.write
  rw [dif_pos h]
  exact ⟨_, rfl, rfl⟩

theorem padded_length (src : Bytes) (k : Nat) : (padded src k).length = k := by
  unfold padded
  have := List.length_take_le k (src.takeWhile (· ≠ 0))
  simp only [List.length_append, List.length_replicate]
  omega

/-- The string in an array ends at its first zero. -/
theorem CString.ofBuffer_append_zero (name rest : Bytes) :
    CString.ofBuffer (name ++ 0 :: rest) = CString.ofBuffer name := by
  refine CString.ext' ?_
  show (name ++ 0 :: rest).takeWhile (· ≠ 0) = name.takeWhile (· ≠ 0)
  rw [List.takeWhile_append]
  split
  · rename_i h
    rw [List.takeWhile_cons_of_neg (by simp), List.append_nil]
    exact (List.takeWhile_prefix _).eq_of_length h |>.symm
  · rfl

/-- Bytes copied into an array and ended with a zero are the string they hold. -/
theorem CArray.write_ended {size : Nat} (a : CArray size) {src : Bytes} (h : src.length < size) :
    ∃ copied ended : CArray size, a.write 0 src = .ok copied ∧
      copied.write src.length [0] = .ok ended ∧ 0 ∈ ended.1 ∧
      CString.ofBuffer ended.1 = .ofBuffer src := by
  obtain ⟨copied, hcopied, hbytes⟩ := a.write_of_le (show 0 + src.length ≤ size by omega)
  obtain ⟨ended, hended, hbytes'⟩ := copied.write_of_le
    (show src.length + [(0 : UInt8)].length ≤ size by rw [List.length_singleton]; omega)
  rw [hbytes, List.take_zero, List.nil_append, List.take_left' rfl] at hbytes'
  refine ⟨copied, ended, hcopied, hended, ?_, ?_⟩
  · rw [hbytes']
    exact List.mem_append_right _ (List.mem_append_left _ (List.mem_singleton_self 0))
  · rw [hbytes']
    exact CString.ofBuffer_append_zero src _

/-- `strncpy` copies the string and nothing after it. -/
theorem padded_string (s : CString) (k : Nat) : padded s.bytes k = padded (s.bytes.take k) k := by
  have hall : ∀ t : CString, t.bytes.takeWhile (· ≠ 0) = t.bytes :=
    fun t => CString.ofBuffer_bytes t.noNul
  have htake : ((s.strncpy k).bytes.takeWhile (· ≠ 0)) = s.bytes.take k := hall (s.strncpy k)
  change (s.bytes.take k).takeWhile (· ≠ 0) = s.bytes.take k at htake
  unfold padded
  rw [hall s, htake, List.take_take, min_self]

theorem padded_ofBuffer (src : Bytes) (k : Nat) :
    padded src k = padded (CString.ofBuffer src).bytes k := by
  have hall : (CString.ofBuffer src).bytes.takeWhile (· ≠ 0) = src.takeWhile (· ≠ 0) :=
    CString.ofBuffer_bytes (CString.ofBuffer src).noNul
  unfold padded
  rw [hall]

/-- A stored address: the name, zeros after it, and a zero at the very end. -/
def AddrportBuf.of (addrport : Socks5Addrport) : AddrportBuf :=
  ⟨addrport.type, ⟨padded addrport.addr.bytes MAX_DNS_LEN ++ [0], by simp [padded_length]⟩,
    addrport.port⟩

/-! ### The parser -/

theorem storeAddrportMem_eq {buf : Bytes} {n minlen : Nat} (hlow : 2 ≤ minlen)
    (hlen : minlen ≤ n) (type : Socks5AddrType) (namebuf : CArray (MAX_DNS_LEN + 1))
    (addrport : AddrportBuf) :
    storeAddrportMem buf n type namebuf minlen addrport = .ok (minlen,
      .of (copyAddrport type (.ofBuffer namebuf.1) (portAt buf (minlen - 2)))) := by
  obtain ⟨cleared, hcleared, hbytes⟩ := addrport.addr.write_of_le
    (show MAX_DNS_LEN + [(0 : UInt8)].length ≤ MAX_DNS_LEN + 1 from Nat.le_refl _)
  obtain ⟨copied, hcopied, hbytes'⟩ := cleared.write_of_le
    (show 0 + (padded namebuf.1 MAX_DNS_LEN).length ≤ MAX_DNS_LEN + 1 by
      rw [padded_length]
      omega)
  have hcopy : strncpy cleared namebuf MAX_DNS_LEN = .ok copied := by
    unfold strncpy
    rw [if_pos (.inr (Nat.le_succ _)), hcopied]
  have hlast : cleared.1.drop MAX_DNS_LEN = [0] := by
    have hsize : (addrport.addr.1.take MAX_DNS_LEN).length = MAX_DNS_LEN := by
      rw [List.length_take, addrport.addr.2]
      omega
    rw [hbytes, List.drop_left' hsize, List.drop_eq_nil_of_le (by rw [addrport.addr.2]; rfl)]
    rfl
  have haddr : copied = (AddrportBuf.of (copyAddrport type (.ofBuffer namebuf.1)
      (portAt buf (minlen - 2)))).addr := by
    refine Subtype.ext ?_
    rw [hbytes', padded_length, Nat.zero_add, hlast]
    show [] ++ (padded namebuf.1 MAX_DNS_LEN ++ [0]) =
      padded ((CString.ofBuffer namebuf.1).bytes.take MAX_DNS_LEN) MAX_DNS_LEN ++ [0]
    rw [← padded_string, ← padded_ofBuffer, List.nil_append]
  unfold storeAddrportMem
  rw [hcleared]
  show (strncpy cleared namebuf MAX_DNS_LEN >>= _) = _
  rw [hcopy, readByte_of_lt (show minlen - 2 < n by omega),
    readByte_of_lt (show minlen - 1 < n by omega), haddr]
  show Except.ok _ = Except.ok _
  unfold portAt
  rw [show minlen - 2 + 1 = minlen - 1 by omega]
  rfl

/-- What `inet_ntop` is asked to do: it prints every address, and the text fits. -/
structure Inet.Prints (inet : Inet) : Prop where
  ntop : ∀ (af : Af) (a : Bytes), a.length = af.addrLen →
    ∃ text, inet.ntop af a = some text ∧ text.bytes.length ≤ MAX_DNS_LEN

/-- The result of the parser as the source hands it back. -/
def returned (addrport : AddrportBuf) :
    Except Errorcode (Nat × Socks5Addrport) → Int × AddrportBuf
  | .error ec => (ec.negated, addrport)
  | .ok (len, parsed) => (len, .of parsed)

theorem parseAddrportIpMem_eq {inet : Inet} (hinet : inet.Prints) {buf : Bytes} {n : Nat}
    (hn : n ≤ buf.length) (type : Socks5AddrType) (af : Af)
    (namebuf : CArray (MAX_DNS_LEN + 1)) (addrport : AddrportBuf) :
    parseAddrportIpMem inet buf n type af (1 + af.addrLen + 2) namebuf addrport =
      .ok (returned addrport (parseAddrportIp inet buf n type af (1 + af.addrLen + 2))) := by
  unfold parseAddrportIpMem parseAddrportIp
  split
  · rfl
  · rename_i hlen
    have haddress : ((buf.drop 1).take af.addrLen).length = af.addrLen := by
      rw [List.length_take, List.length_drop]
      omega
    obtain ⟨text, htext, hfits⟩ := hinet.ntop af _ haddress
    obtain ⟨printed, hprinted, hbytes⟩ := namebuf.write_of_le
      (show 0 + (text.bytes ++ [0]).length ≤ MAX_DNS_LEN + 1 by
        rw [List.length_append, List.length_singleton]
        omega)
    have hntop : inetNtop inet af ((buf.drop 1).take af.addrLen) namebuf = .ok (some printed) := by
      unfold inetNtop
      rw [htext]
      show (if text.bytes.length + 1 ≤ MAX_DNS_LEN + 1 then _ else _) = _
      rw [if_pos (by omega), hprinted]
      rfl
    have hstring : CString.ofBuffer printed.1 = text := by
      rw [hbytes, List.take_zero, List.nil_append, List.append_assoc]
      show CString.ofBuffer (text.bytes ++ 0 :: _) = text
      rw [CString.ofBuffer_append_zero]
      exact CString.ext' (CString.ofBuffer_bytes text.noNul)
    rw [readBytes_of_le (show 1 + af.addrLen ≤ n by omega)]
    show (inetNtop inet af _ namebuf >>= _) = _
    rw [hntop, htext]
    show storeAddrportMem buf n type printed (1 + af.addrLen + 2) addrport = _
    rw [storeAddrportMem_eq (by omega) (by omega), hstring]
    rfl

/-- **On checked memory the parser comes back, with what the bytes received say.** -/
theorem parseAddrportMem_eq {inet : Inet} (hinet : inet.Prints) {buf : Bytes} {n : Nat}
    (hn : n ≤ buf.length) (namebuf : CArray (MAX_DNS_LEN + 1)) (addrport : AddrportBuf) :
    parseAddrportMem inet buf n namebuf addrport =
      .ok (returned addrport (parseAddrport inet buf n)) := by
  unfold parseAddrportMem parseAddrport
  split
  · rfl
  · rename_i htwo
    rw [readByte_of_lt (show 0 < n by omega)]
    simp only [bind, Except.bind]
    split
    · exact parseAddrportIpMem_eq hinet hn .ipv6 .inet6 namebuf addrport
    split
    · exact parseAddrportIpMem_eq hinet hn .ipv4 .inet namebuf addrport
    split
    · rw [readByte_of_lt (show 1 < n by omega)]
      simp only
      split
      · rfl
      · rename_i hlen
        have hl := (buf.getD 1 0).toNat_lt
        have hname : ((buf.drop 2).take (buf.getD 1 0).toNat).length = (buf.getD 1 0).toNat := by
          rw [List.length_take, List.length_drop]
          omega
        obtain ⟨named, ended, hnamed, hended, -, hstring⟩ := namebuf.write_ended
          (show ((buf.drop 2).take (buf.getD 1 0).toNat).length < MAX_DNS_LEN + 1 by
            rw [hname, MAX_DNS_LEN]
            omega)
        rw [hname] at hended
        rw [readBytes_of_le (show 2 + (buf.getD 1 0).toNat ≤ n by omega)]
        simp only
        rw [hnamed]
        simp only
        rw [hended]
        simp only
        rw [storeAddrportMem_eq (by omega) (by omega), hstring]
        rfl
    · rfl

/-! ### The fields there are -/

/-- An ATYP/ADDR/PORT field of RFC 1928, from its bytes alone. -/
inductive AddrField :
    Socks5AddrType → (octets : Bytes) → (high low : UInt8) → (field : Bytes) → Prop
  | ipv4 {octets : Bytes} (high low : UInt8) (hlen : octets.length = 4) :
      AddrField .ipv4 octets high low (1 :: (octets ++ [high, low]))
  | ipv6 {octets : Bytes} (high low : UInt8) (hlen : octets.length = 16) :
      AddrField .ipv6 octets high low (4 :: (octets ++ [high, low]))
  | dns {octets : Bytes} (l high low : UInt8) (hlen : octets.length = l.toNat) :
      AddrField .dns octets high low (3 :: l :: (octets ++ [high, low]))

/-- The text that stands for a field's octets: an address as `inet_ntop` prints it, a name up to
its first zero. -/
def fieldText (inet : Inet) (type : Socks5AddrType) (octets : Bytes) : Option CString :=
  match type with
  | .unknown => none
  | .ipv4 => inet.ntop .inet octets
  | .ipv6 => inet.ntop .inet6 octets
  | .dns => some (.ofBuffer octets)

/-- Nothing but the start of a field was received. -/
def Truncated (received : Bytes) : Prop :=
  ∃ type octets high low field, AddrField type octets high low field ∧
    received <+: field ∧ received.length < field.length

/-- How long a field is that starts with these two bytes. -/
def fieldLength (atyp l : UInt8) : Option Nat :=
  if atyp = 1 then some 7
  else if atyp = 4 then some 19
  else if atyp = 3 then some (4 + l.toNat)
  else none

section Fields

variable {type : Socks5AddrType} {octets field : Bytes} {high low : UInt8}

theorem AddrField.fieldLength (h : AddrField type octets high low field) :
    TwoSocks.fieldLength (field.getD 0 0) (field.getD 1 0) = some field.length := by
  cases h with
  | ipv4 high low hlen => simp [TwoSocks.fieldLength, hlen]
  | ipv6 high low hlen => simp [TwoSocks.fieldLength, hlen]
  | dns l high low hlen =>
      simp [TwoSocks.fieldLength, hlen]
      omega

theorem AddrField.four_le (h : AddrField type octets high low field) : 4 ≤ field.length := by
  cases h <;> simp [*]

/-- A field is stored as the wire field it is. -/
theorem AddrField.wire {inet : Inet} (hinet : inet.Prints)
    (h : AddrField type octets high low field) :
    ∃ addrport, WireAddr inet field addrport ∧ addrport.type = type ∧
      addrport.port.toNat = 256 * high.toNat + low.toNat ∧
      fieldText inet type octets = some addrport.addr := by
  have hport : portBytes (portAt [high, low] 0) = [high, low] :=
    portBytes_portAt (Nat.le_refl 2)
  have hnum : (portAt [high, low] 0).toNat = 256 * high.toNat + low.toNat := portAt_toNat ..
  have hip : ∀ af : Af, octets.length = af.addrLen →
      ∃ addrport, WireAddr inet (af.addrType.code :: (octets ++ [high, low])) addrport ∧
        addrport.type = af.addrType ∧ addrport.port.toNat = 256 * high.toNat + low.toNat ∧
        fieldText inet af.addrType octets = some addrport.addr := by
    intro af hlen
    obtain ⟨text, htext, hfits⟩ := hinet.ntop af octets hlen
    have hwire : WireAddr inet _ _ := .ip af (portAt [high, low] 0) hlen htext
    rw [hport] at hwire
    have hstored : some text = some (text.strncpy MAX_DNS_LEN) := by
      rw [CString.strncpy_self hfits]
    cases af with
    | inet => exact ⟨_, hwire, rfl, hnum, htext.trans hstored⟩
    | inet6 => exact ⟨_, hwire, rfl, hnum, htext.trans hstored⟩
  cases h with
  | ipv4 high low hlen => exact hip .inet hlen
  | ipv6 high low hlen => exact hip .inet6 hlen
  | dns l high low hlen =>
      have hle : octets.length ≤ 255 := by
        have := l.toNat_lt
        omega
      have hwire : WireAddr inet _ _ := .dns (portAt [high, low] 0) hle
      rw [hport, hlen, UInt8.ofNat_toNat] at hwire
      have hname : (CString.ofBuffer octets).bytes.length ≤ MAX_DNS_LEN := by
        have hprefix : (CString.ofBuffer octets).bytes.length ≤ octets.length :=
          (List.takeWhile_prefix _).length_le
        rw [MAX_DNS_LEN]
        omega
      exact ⟨_, hwire, rfl, hnum, congrArg some (CString.strncpy_self hname).symm⟩

end Fields

/-- What the decoder knows as a field is one. -/
theorem WireAddr.field {inet : Inet} {field : Bytes} {addrport : Socks5Addrport}
    (h : WireAddr inet field addrport) :
    ∃ octets high low, AddrField addrport.type octets high low field := by
  cases h with
  | @ip af address text port hlen htext =>
      cases af with
      | inet => exact ⟨address, _, _, .ipv4 _ _ hlen⟩
      | inet6 => exact ⟨address, _, _, .ipv6 _ _ hlen⟩
  | @dns name port hlen => exact ⟨name, _, _, .dns _ _ _ (toNat_ofNat_length hlen).symm⟩

/-- Bytes that start like a field and are too short for it are the start of one. -/
theorem truncated_of_fieldLength {bytes : Bytes} {len : Nat} (htwo : 2 ≤ bytes.length)
    (h : fieldLength (bytes.getD 0 0) (bytes.getD 1 0) = some len) (hlen : bytes.length < len) :
    Truncated bytes := by
  obtain ⟨t, l, body, rfl⟩ : ∃ t l body, bytes = t :: l :: body := by
    match bytes, htwo with
    | t :: l :: body, _ => exact ⟨t, l, body, rfl⟩
  -- zeros make up for what is missing
  have hfill : ∀ (body : Bytes) (k : Nat), body.length < k + 2 →
      ∃ octets high low, octets.length = k ∧ body <+: octets ++ [high, low] := by
    intro body k hk
    let full := body ++ List.replicate (k + 2 - body.length) 0
    have hfull : full.length = k + 2 := by
      simp only [full, List.length_append, List.length_replicate]
      omega
    have hlast : (full.drop k).length = 2 := by
      rw [List.length_drop]
      omega
    obtain ⟨high, low, hport⟩ := List.length_eq_two.mp hlast
    refine ⟨full.take k, high, low, by rw [List.length_take]; omega, ?_⟩
    rw [← hport, List.take_append_drop]
    exact List.prefix_append ..
  change fieldLength t l = some len at h
  have hl := hlen
  simp only [List.length_cons] at hl
  unfold fieldLength at h
  split at h
  · rename_i ht
    obtain ⟨octets, high, low, hoctets, hpre⟩ :=
      hfill (l :: body) 4 (by simp at h ⊢; omega)
    refine ⟨_, octets, high, low, _, .ipv4 high low hoctets, ?_, ?_⟩
    · rw [ht]
      exact List.cons_prefix_cons.mpr ⟨rfl, hpre⟩
    · simp [hoctets] at h ⊢
      omega
  split at h
  · rename_i ht
    obtain ⟨octets, high, low, hoctets, hpre⟩ :=
      hfill (l :: body) 16 (by simp at h ⊢; omega)
    refine ⟨_, octets, high, low, _, .ipv6 high low hoctets, ?_, ?_⟩
    · rw [ht]
      exact List.cons_prefix_cons.mpr ⟨rfl, hpre⟩
    · simp [hoctets] at h ⊢
      omega
  split at h
  · rename_i ht
    obtain ⟨octets, high, low, hoctets, hpre⟩ :=
      hfill body l.toNat (by simp at h ⊢; omega)
    refine ⟨_, octets, high, low, _, .dns l high low hoctets, ?_, ?_⟩
    · rw [ht]
      exact List.cons_prefix_cons.mpr ⟨rfl, List.cons_prefix_cons.mpr ⟨rfl, hpre⟩⟩
    · simp [hoctets] at h ⊢
      omega
  · simp at h

/-! ### What the parser says -/

theorem Inet.Lawful.prints {inet : Inet} (hinet : inet.Lawful) : inet.Prints :=
  ⟨fun af a ha => (hinet.pton_ntop af a ha).imp fun _ h => ⟨h.1, h.2.1⟩⟩

theorem parseAddrportIp_outcome {inet : Inet} (hinet : inet.Prints) {buf : Bytes} {n : Nat}
    (hn : n ≤ buf.length) (type : Socks5AddrType) (af : Af) :
    if n < 1 + af.addrLen + 2 then
      parseAddrportIp inet buf n type af (1 + af.addrLen + 2) = .error .generalFailure
    else ∃ addrport, parseAddrportIp inet buf n type af (1 + af.addrLen + 2) =
      .ok (1 + af.addrLen + 2, addrport) := by
  unfold parseAddrportIp
  by_cases hlen : n < 1 + af.addrLen + 2
  · rw [if_pos hlen, if_pos hlen]
  · rw [if_neg hlen, if_neg hlen]
    have haddress : ((buf.drop 1).take af.addrLen).length = af.addrLen := by
      rw [List.length_take, List.length_drop]
      omega
    obtain ⟨text, htext, -⟩ := hinet.ntop af _ haddress
    rw [htext]
    exact ⟨_, rfl⟩

/-- The parser looks at the first two bytes to know how many there have to be. -/
theorem parseAddrport_outcome {inet : Inet} (hinet : inet.Prints) {buf : Bytes} {n : Nat}
    (hn : n ≤ buf.length) (htwo : 2 ≤ n) :
    match fieldLength (buf.getD 0 0) (buf.getD 1 0) with
    | none => parseAddrport inet buf n = .error .addresstypeNotSupported
    | some len =>
        if n < len then parseAddrport inet buf n = .error .generalFailure
        else ∃ addrport, parseAddrport inet buf n = .ok (len, addrport) := by
  by_cases h4 : buf.getD 0 0 = 1
  · have hparse : parseAddrport inet buf n =
        parseAddrportIp inet buf n .ipv4 .inet (1 + Af.inet.addrLen + 2) := by
      unfold parseAddrport
      rw [if_neg (show ¬n < 2 by omega), h4]
      rfl
    rw [hparse, h4]
    exact parseAddrportIp_outcome hinet hn .ipv4 .inet
  by_cases h6 : buf.getD 0 0 = 4
  · have hparse : parseAddrport inet buf n =
        parseAddrportIp inet buf n .ipv6 .inet6 (1 + Af.inet6.addrLen + 2) := by
      unfold parseAddrport
      rw [if_neg (show ¬n < 2 by omega), h6]
      rfl
    rw [hparse, h6]
    exact parseAddrportIp_outcome hinet hn .ipv6 .inet6
  by_cases hdns : buf.getD 0 0 = 3
  · have hparse : parseAddrport inet buf n = if n < 4 + (buf.getD 1 0).toNat then
          .error .generalFailure
        else .ok (storeAddrport buf .dns
          (.ofBuffer ((buf.drop 2).take (buf.getD 1 0).toNat)) (4 + (buf.getD 1 0).toNat)) := by
      unfold parseAddrport
      rw [if_neg (show ¬n < 2 by omega), hdns,
        show 4 + (buf.getD 1 0).toNat = 1 + (1 + (buf.getD 1 0).toNat) + 2 by omega]
      rfl
    rw [hparse, hdns]
    show if n < 4 + (buf.getD 1 0).toNat then _ else _
    by_cases hlen : n < 4 + (buf.getD 1 0).toNat
    · rw [if_pos hlen, if_pos hlen]
    · rw [if_neg hlen, if_neg hlen]
      exact ⟨_, rfl⟩
  · unfold parseAddrport fieldLength
    rw [if_neg h4, if_neg h6, if_neg hdns, if_neg (show ¬n < 2 by omega)]
    simp only
    rw [if_neg (show buf.getD 0 0 ≠ Socks5AddrType.ipv6.code from h6),
      if_neg (show buf.getD 0 0 ≠ Socks5AddrType.ipv4.code from h4),
      if_neg (show buf.getD 0 0 ≠ Socks5AddrType.dns.code from hdns)]

theorem getD_take {bytes : Bytes} {n i : Nat} (h : i < n) :
    (bytes.take n).getD i 0 = bytes.getD i 0 := by
  simp [List.getD_eq_getElem?_getD, h]

theorem getD_initial {bytes whole : Bytes} {i : Nat} (h : bytes <+: whole)
    (hi : i < bytes.length) : whole.getD i 0 = bytes.getD i 0 := by
  obtain ⟨rest, rfl⟩ := h
  simp [List.getD_eq_getElem?_getD, List.getElem?_append_left hi]

/-- What two bytes make of a length holds of every field that starts with them. -/
theorem AddrField.fieldLength_of_prefix {type : Socks5AddrType} {octets bytes field : Bytes}
    {high low : UInt8} (h : AddrField type octets high low field)
    (hpre : field <+: bytes ∨ bytes <+: field) (htwo : 2 ≤ bytes.length) :
    TwoSocks.fieldLength (bytes.getD 0 0) (bytes.getD 1 0) = some field.length := by
  have hfour := h.four_le
  rw [← h.fieldLength]
  rcases hpre with hpre | hpre
  · rw [getD_initial hpre (by omega), getD_initial hpre (by omega)]
  · rw [getD_initial hpre (by omega), getD_initial hpre (by omega)]

theorem fieldLength_eq_none {atyp l : UInt8} :
    fieldLength atyp l = none ↔ atyp ∉ [1, 3, 4] := by
  unfold fieldLength
  split
  · simp [*]
  split
  · simp [*]
  split <;> simp [*]

/-- The address parser on the first `n` bytes of `buf`, from any contents of the arrays it
writes to. -/
structure ParsesFields (inet : Inet) (buf : Bytes) (n : Nat) (namebuf : CArray (MAX_DNS_LEN + 1))
    (addrport : AddrportBuf) (ret : Int) (stored : AddrportBuf) : Prop where
  /-- No access outside the bytes received, `namebuf` or `addr`. -/
  returns : parseAddrportMem inet buf n namebuf addrport = .ok (ret, stored)
  success : 0 ≤ ret ↔ ∃ type octets high low field,
    AddrField type octets high low field ∧ field <+: buf.take n
  /-- What is stored is the field's, address and all, whatever follows it and whatever was there
  before. -/
  stores : ∀ {type octets high low field}, AddrField type octets high low field →
    field <+: buf.take n →
      ret = field.length ∧ 4 ≤ field.length ∧ field.length ≤ n ∧ stored.type = type ∧
      stored.port.toNat = 256 * high.toNat + low.toNat ∧
      stored.addr.1.getLast? = some 0 ∧
      fieldText inet type octets = some (.ofBuffer stored.addr.1) ∧
      ∀ {buf' n'} (namebuf' addrport'), n' ≤ buf'.length → field <+: buf'.take n' →
        parseAddrportMem inet buf' n' namebuf' addrport' = .ok (ret, stored)
  unsupported : ret = Errorcode.addresstypeNotSupported.negated ↔
    2 ≤ n ∧ buf.getD 0 0 ∉ [1, 3, 4]
  truncated : ret = Errorcode.generalFailure.negated ↔ n < 2 ∨ Truncated (buf.take n)
  untouched : ret < 0 → stored = addrport

section Received

variable {buf : Bytes} {n : Nat}

/-- A field among the bytes received has the length its first two bytes give it. -/
theorem fieldLength_of_field (hn : n ≤ buf.length) {type : Socks5AddrType}
    {octets field : Bytes} {high low : UInt8} (h : AddrField type octets high low field)
    (hpre : field <+: buf.take n) :
    fieldLength (buf.getD 0 0) (buf.getD 1 0) = some field.length ∧ field.length ≤ n := by
  have hfour := h.four_le
  have hle := hpre.length_le
  rw [List.length_take] at hle
  have hlen := h.fieldLength_of_prefix (.inl hpre) (by rw [List.length_take]; omega)
  rw [getD_take (by omega), getD_take (by omega)] at hlen
  exact ⟨hlen, by omega⟩

theorem fieldLength_of_truncated (hn : n ≤ buf.length) (htwo : 2 ≤ n)
    (h : Truncated (buf.take n)) :
    ∃ len, fieldLength (buf.getD 0 0) (buf.getD 1 0) = some len ∧ n < len := by
  obtain ⟨type, octets, high, low, field, hfield, hpre, hlt⟩ := h
  have hlen := hfield.fieldLength_of_prefix (.inr hpre) (by rw [List.length_take]; omega)
  rw [getD_take (by omega), getD_take (by omega)] at hlen
  rw [List.length_take] at hlt
  exact ⟨_, hlen, by omega⟩

theorem truncated_take (hn : n ≤ buf.length) (htwo : 2 ≤ n) {len : Nat}
    (h : fieldLength (buf.getD 0 0) (buf.getD 1 0) = some len) (hlen : n < len) :
    Truncated (buf.take n) := by
  have hsize : (buf.take n).length = n := by
    rw [List.length_take]
    omega
  have hfield : fieldLength ((buf.take n).getD 0 0) ((buf.take n).getD 1 0) = some len := by
    rw [getD_take (by omega), getD_take (by omega)]
    exact h
  exact truncated_of_fieldLength (by omega) hfield (by omega)

end Received

/-- What is written to `addr` ends with a zero. -/
theorem AddrportBuf.of_terminated (addrport : Socks5Addrport) :
    (AddrportBuf.of addrport).addr.1.getLast? = some 0 := by
  simp [AddrportBuf.of]

/-- The string in `addr` is the name that was stored there. -/
theorem AddrportBuf.of_string (addrport : Socks5Addrport) :
    CString.ofBuffer (AddrportBuf.of addrport).addr.1 = addrport.addr := by
  have hall : addrport.addr.bytes.takeWhile (· ≠ 0) = addrport.addr.bytes :=
    CString.ofBuffer_bytes addrport.addr.noNul
  have hfits : addrport.addr.bytes.take MAX_DNS_LEN = addrport.addr.bytes :=
    List.take_of_length_le addrport.fits
  have hzeros : ∀ k : Nat, ∃ rest, List.replicate k (0 : UInt8) ++ [0] = 0 :: rest := by
    intro k
    cases k with
    | zero => exact ⟨[], rfl⟩
    | succ k => exact ⟨List.replicate k 0 ++ [0], rfl⟩
  obtain ⟨rest, hrest⟩ := hzeros (MAX_DNS_LEN - addrport.addr.bytes.length)
  show CString.ofBuffer (padded addrport.addr.bytes MAX_DNS_LEN ++ [0]) = addrport.addr
  unfold padded
  rw [hall, hfits, List.append_assoc, hrest, CString.ofBuffer_append_zero]
  exact CString.ext' hall

/-- With the field there, the result is the field's. -/
theorem parseAddrportMem_of_field {inet : Inet} (hinet : inet.Prints) {type : Socks5AddrType}
    {octets field : Bytes} {high low : UInt8} (h : AddrField type octets high low field) :
    ∃ addrport, addrport.type = type ∧ addrport.port.toNat = 256 * high.toNat + low.toNat ∧
      fieldText inet type octets = some addrport.addr ∧
      ∀ {buf n} (namebuf into), n ≤ buf.length → field <+: buf.take n →
        parseAddrportMem inet buf n namebuf into = .ok (field.length, .of addrport) := by
  obtain ⟨addrport, hwire, htype, hport, htext⟩ := h.wire hinet
  refine ⟨addrport, htype, hport, htext, ?_⟩
  intro buf n namebuf into hn hpre
  obtain ⟨rest, hrest⟩ := hpre.trans (List.take_prefix n buf)
  have hle := (fieldLength_of_field hn h hpre).2
  rw [parseAddrportMem_eq hinet hn, ← hrest, parseAddrport_complete hwire rest hle]
  rfl

/-- On any memory, the parser is a parser of the field. -/
theorem parsesFields {inet : Inet} (hinet : inet.Prints) {buf : Bytes} {n : Nat}
    (hn : n ≤ buf.length) (namebuf : CArray (MAX_DNS_LEN + 1)) (addrport : AddrportBuf) :
    ∃ ret stored, ParsesFields inet buf n namebuf addrport ret stored := by
  have hreturns := parseAddrportMem_eq hinet hn namebuf addrport
  have hstores : ∀ {ret stored},
      parseAddrportMem inet buf n namebuf addrport = .ok (ret, stored) →
      ∀ {type octets high low field}, AddrField type octets high low field →
      field <+: buf.take n →
      ret = field.length ∧ 4 ≤ field.length ∧ field.length ≤ n ∧ stored.type = type ∧
      stored.port.toNat = 256 * high.toNat + low.toNat ∧
      stored.addr.1.getLast? = some 0 ∧
      fieldText inet type octets = some (.ofBuffer stored.addr.1) ∧
      ∀ {buf' n'} (namebuf' addrport'), n' ≤ buf'.length → field <+: buf'.take n' →
        parseAddrportMem inet buf' n' namebuf' addrport' = .ok (ret, stored) := by
    intro ret stored hret type octets high low field h hpre
    obtain ⟨parsed, htype, hport, htext, hsame⟩ := parseAddrportMem_of_field hinet h
    obtain ⟨rfl, rfl⟩ : (field.length : Int) = ret ∧ AddrportBuf.of parsed = stored := by
      simpa using (hsame namebuf addrport hn hpre).symm.trans hret
    have hstring : fieldText inet type octets = some (.ofBuffer (AddrportBuf.of parsed).addr.1) :=
      htext.trans (congrArg some (AddrportBuf.of_string parsed).symm)
    exact ⟨rfl, h.four_le, (fieldLength_of_field hn h hpre).2, htype, hport,
      AddrportBuf.of_terminated parsed, hstring, fun namebuf' into' => hsame namebuf' into'⟩
  by_cases htwo : n < 2
  · -- too short to tell what field it is
    have herror : parseAddrport inet buf n = .error .generalFailure := if_pos htwo
    rw [herror] at hreturns
    refine ⟨_, _, hreturns, ⟨fun h => absurd h (by decide), ?_⟩, hstores hreturns,
      ⟨fun h => absurd h (by decide), fun h => by omega⟩,
      ⟨fun _ => .inl htwo, fun _ => rfl⟩, fun _ => rfl⟩
    rintro ⟨type, octets, high, low, field, h, hpre⟩
    have := (fieldLength_of_field hn h hpre).2
    have := h.four_le
    omega
  have houtcome := parseAddrport_outcome hinet hn (by omega)
  cases hlen : fieldLength (buf.getD 0 0) (buf.getD 1 0) with
  | none =>
      rw [hlen] at houtcome
      rw [show parseAddrport inet buf n = _ from houtcome] at hreturns
      refine ⟨_, _, hreturns, ⟨fun h => absurd h (by decide), ?_⟩, hstores hreturns,
        ⟨fun _ => ⟨by omega, fieldLength_eq_none.mp hlen⟩, fun _ => rfl⟩,
        ⟨fun h => absurd h (by decide), ?_⟩, fun _ => rfl⟩
      · rintro ⟨type, octets, high, low, field, h, hpre⟩
        rw [(fieldLength_of_field hn h hpre).1] at hlen
        cases hlen
      · rintro (h | h)
        · exact absurd h htwo
        · obtain ⟨len, hsome, -⟩ := fieldLength_of_truncated hn (by omega) h
          rw [hsome] at hlen
          cases hlen
  | some len =>
      have hknown : ¬(2 ≤ n ∧ buf.getD 0 0 ∉ [1, 3, 4]) := by
        intro h
        rw [fieldLength_eq_none.mpr h.2] at hlen
        cases hlen
      simp only [hlen] at houtcome
      by_cases hshort : n < len
      · rw [if_pos hshort] at houtcome
        rw [houtcome] at hreturns
        refine ⟨_, _, hreturns, ⟨fun h => absurd h (by decide), ?_⟩, hstores hreturns,
          ⟨fun h => absurd h (by decide), fun h => absurd h hknown⟩,
          ⟨fun _ => .inr (truncated_take hn (by omega) hlen hshort), fun _ => rfl⟩,
          fun _ => rfl⟩
        rintro ⟨type, octets, high, low, field, h, hpre⟩
        obtain ⟨hsome, hle⟩ := fieldLength_of_field hn h hpre
        rw [hlen, Option.some.injEq] at hsome
        omega
      · rw [if_neg hshort] at houtcome
        obtain ⟨parsed, hok⟩ := houtcome
        obtain ⟨-, hwire⟩ := parseAddrport_sound hn hok
        obtain ⟨octets, high, low, hfield⟩ := hwire.field
        rw [hok] at hreturns
        refine ⟨_, _, hreturns, ⟨fun _ => ?_, fun _ => Int.natCast_nonneg len⟩,
          hstores hreturns, ⟨fun h => ?_, fun h => absurd h hknown⟩, ⟨fun h => ?_, ?_⟩,
          fun h => absurd h (by omega)⟩
        · exact ⟨_, _, _, _, _, hfield, List.take_prefix_take_left (by omega)⟩
        · simp [Errorcode.negated, Errorcode.code] at h
        · simp [Errorcode.negated, Errorcode.code] at h
        · rintro (h | h)
          · exact absurd h htwo
          · obtain ⟨len', hsome, hlt⟩ := fieldLength_of_truncated hn (by omega) h
            rw [hlen, Option.some.injEq] at hsome
            omega

/-! ### The callers -/

theorem parseAddrport_error {inet : Inet} (hinet : inet.Prints) {buf : Bytes} {n : Nat}
    (hn : n ≤ buf.length) {ec : Errorcode} (h : parseAddrport inet buf n = .error ec) :
    ec.negated < 0 := by
  by_cases htwo : n < 2
  · rw [show parseAddrport inet buf n = .error .generalFailure from if_pos htwo] at h
    cases h
    decide
  · have houtcome := parseAddrport_outcome hinet hn (by omega)
    cases hlen : fieldLength (buf.getD 0 0) (buf.getD 1 0) with
    | none =>
        simp only [hlen, h, Except.error.injEq] at houtcome
        rw [houtcome]
        decide
    | some len =>
        simp only [hlen, h, Except.error.injEq, reduceCtorEq, exists_false] at houtcome
        by_cases hshort : n < len
        · rw [if_pos hshort] at houtcome
          rw [houtcome]
          decide
        · rw [if_neg hshort] at houtcome
          exact houtcome.elim

section Callers

variable {inet : Inet} {buf : Bytes} {n : Nat} (hinet : inet.Prints) (hn : n ≤ buf.length)
  (namebuf : CArray (MAX_DNS_LEN + 1)) (addrport : AddrportBuf)

include hinet hn

theorem extractUdpDataMem_eq :
    extractUdpDataMem inet buf n namebuf addrport =
      .ok (returned addrport (extractUdpData inet buf n)) := by
  unfold extractUdpDataMem extractUdpData
  by_cases hthree : n < 3
  · rw [if_pos hthree, if_pos hthree]
    rfl
  rw [if_neg hthree, if_neg hthree, readByte_of_lt (by omega), readByte_of_lt (by omega),
    readByte_of_lt (by omega), sizeSub_of_le (by omega)]
  simp only [bind, Except.bind]
  by_cases h0 : buf.getD 0 0 ≠ RSV
  · rw [if_pos h0, if_pos (.inl h0)]
    rfl
  by_cases h1 : buf.getD 1 0 ≠ RSV
  · rw [if_neg h0, if_pos h1, if_pos (.inr h1)]
    rfl
  rw [if_neg h0, if_neg h1, if_neg (not_or.mpr ⟨h0, h1⟩)]
  by_cases h2 : buf.getD 2 0 ≠ 0
  · rw [if_pos h2, if_pos h2]
    rfl
  have hrest : n - 3 ≤ (buf.drop 3).length := by
    rw [List.length_drop]
    omega
  rw [if_neg h2, if_neg h2, parseAddrportMem_eq hinet hrest]
  cases hparse : parseAddrport inet (buf.drop 3) (n - 3) with
  | error ec =>
      show (if ec.negated < 0 then _ else _) = _
      rw [if_pos (parseAddrport_error hinet hrest hparse)]
      rfl
  | ok result =>
      show (if ((result.1 : Nat) : Int) < 0 then _ else _) = _
      rw [if_neg (by omega)]
      show Except.ok _ = Except.ok _
      simp [returned]

omit hinet in
theorem extractUdpData_le {offset : Nat} {parsed : Socks5Addrport}
    (h : extractUdpData inet buf n = .ok (offset, parsed)) : 7 ≤ offset ∧ offset ≤ n := by
  unfold extractUdpData at h
  split at h
  · cases h
  split at h
  · cases h
  split at h
  · cases h
  split at h
  · cases h
  · rename_i ret result hparse
    have hrest : n - 3 ≤ (buf.drop 3).length := by
      rw [List.length_drop]
      omega
    obtain ⟨hle, hwire⟩ := parseAddrport_sound hrest hparse
    obtain ⟨octets, high, low, hfield⟩ := hwire.field
    have hfour := hfield.four_le
    rw [List.length_take] at hfour
    simp only [Except.ok.injEq, Prod.mk.injEq] at h
    omega

theorem extractUdpData_error {ec : Errorcode}
    (h : extractUdpData inet buf n = .error ec) : ec.negated < 0 := by
  have hgeneral : Errorcode.generalFailure.negated < 0 := by decide
  unfold extractUdpData at h
  split at h
  · cases h
    exact hgeneral
  split at h
  · cases h
    exact hgeneral
  split at h
  · cases h
    exact hgeneral
  split at h
  · rename_i ec' hparse
    cases h
    exact parseAddrport_error hinet (by rw [List.length_drop]; omega) hparse
  · cases h

theorem socksRequestFieldsMem_eq :
    ∃ cmd, socksRequestFieldsMem inet buf n namebuf addrport =
      match socksRequestFields inet buf n with
      | .error ec => .ok (ec.negated, cmd, addrport)
      | .ok (cmd, parsed) => .ok (0, some cmd, .of parsed) := by
  unfold socksRequestFieldsMem socksRequestFields
  by_cases hthree : n < 3
  · rw [if_pos hthree, if_pos hthree]
    exact ⟨none, rfl⟩
  rw [if_neg hthree, if_neg hthree, readByte_of_lt (by omega), readByte_of_lt (by omega),
    readByte_of_lt (by omega), sizeSub_of_le (by omega)]
  simp only [bind, Except.bind]
  by_cases h0 : buf.getD 0 0 ≠ VERSION
  · rw [if_pos h0, if_pos h0]
    exact ⟨none, rfl⟩
  rw [if_neg h0, if_neg h0]
  generalize (if buf.getD 1 0 = Socks5Cmd.connect.code then some Socks5Cmd.connect
    else if buf.getD 1 0 = Socks5Cmd.udpAssociate.code then some Socks5Cmd.udpAssociate
    else none) = cmd?
  cases cmd? with
  | none => exact ⟨none, rfl⟩
  | some cmd =>
      refine ⟨some cmd, ?_⟩
      simp only
      by_cases h2 : buf.getD 2 0 ≠ RSV
      · rw [if_pos h2, if_pos h2]
        rfl
      have hrest : n - 3 ≤ (buf.drop 3).length := by
        rw [List.length_drop]
        omega
      rw [if_neg h2, if_neg h2, parseAddrportMem_eq hinet hrest]
      cases hparse : parseAddrport inet (buf.drop 3) (n - 3) with
      | error ec =>
          show (if ec.negated < 0 then _ else _) = _
          rw [if_pos (parseAddrport_error hinet hrest hparse)]
          rfl
      | ok result =>
          show (if ((result.1 : Nat) : Int) < 0 then _ else _) = _
          rw [if_neg (by omega)]
          rfl

end Callers

/-- The parser and its two callers on the first `n` bytes of `buf`. -/
structure ParserInBounds (inet : Inet) (buf : Bytes) (n : Nat)
    (namebuf : CArray (MAX_DNS_LEN + 1)) (addrport : AddrportBuf) : Prop where
  parser : ∃ ret stored, ParsesFields inet buf n namebuf addrport ret stored
  datagram : ∃ (ret : Int) (stored : AddrportBuf),
    extractUdpDataMem inet buf n namebuf addrport = .ok (ret, stored) ∧
      (0 ≤ ret → 7 ≤ ret ∧ ret ≤ n) ∧ (ret < 0 → stored = addrport)
  request : ∃ (ret : Int) (cmd : Option Socks5Cmd) (stored : AddrportBuf),
    socksRequestFieldsMem inet buf n namebuf addrport = .ok (ret, cmd, stored) ∧
      (ret < 0 → stored = addrport)

/-- **The address parser takes exactly the fields there are, and touches nothing else.** -/
theorem addressParser_exact (inet : Inet) (hinet : inet.Prints) (buf : Bytes) (n : Nat)
    (hn : n ≤ buf.length) (namebuf : CArray (MAX_DNS_LEN + 1)) (addrport : AddrportBuf) :
    ParserInBounds inet buf n namebuf addrport := by
  refine ⟨parsesFields hinet hn namebuf addrport, ?_, ?_⟩
  · have hreturns := extractUdpDataMem_eq hinet hn namebuf addrport
    cases hextract : extractUdpData inet buf n with
    | error ec =>
        rw [hextract] at hreturns
        have hneg := extractUdpData_error hinet hn hextract
        exact ⟨_, _, hreturns, fun h => absurd h (by omega), fun _ => rfl⟩
    | ok result =>
        have hle := extractUdpData_le hn hextract
        rw [hextract] at hreturns
        exact ⟨_, _, hreturns, fun _ => by omega, fun h => absurd h (by omega)⟩
  · obtain ⟨cmd, hreturns⟩ := socksRequestFieldsMem_eq hinet hn namebuf addrport
    cases hfields : socksRequestFields inet buf n with
    | error ec =>
        rw [hfields] at hreturns
        exact ⟨_, _, _, hreturns, fun _ => rfl⟩
    | ok result =>
        rw [hfields] at hreturns
        exact ⟨_, _, _, hreturns, fun h => absurd h (by omega)⟩

/-- An IPv4 field, and the payload it came in front of. -/
theorem addressParser_exact_plain :
    ParserInBounds .plain [1, 192, 0, 2, 7, 0, 80, 9] 8
      ⟨List.replicate (MAX_DNS_LEN + 1) 0, List.length_replicate⟩
      (.of (copyAddrport .dns (.ofBuffer []) 0)) :=
  addressParser_exact .plain Inet.plain_lawful.prints _ 8 (by decide) _ _

end TwoSocks
