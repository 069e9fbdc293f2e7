/-
The text of an address.

`Inet` is a parameter of the server, so there ought to be one.  `Inet.plain` prints an
IPv4 address as four decimal numbers between dots and an IPv6 address as eight
hexadecimal ones between colons, and reads back what it prints.  That is what
`inet_ntop` prints too, except that it abbreviates a run of zero groups to `::` and
shows the last two groups of a mapped address as an IPv4 address; on every other address
the two agree.
-/
import TwoSocks.Server.Wire

namespace TwoSocks

/-! ### Numbers -/

/-- The character of a digit: `0` to `9`, then `a` on. -/
def digitChar (d : Nat) : UInt8 := UInt8.ofNat (if d < 10 then 48 + d else 87 + d)

def digitValue (c : UInt8) : Nat := if c.toNat < 97 then c.toNat - 48 else c.toNat - 87

/-- A number in some base, without leading zeros. -/
def numberText (base n : Nat) : Bytes :=
  if n = 0 then [digitChar 0] else (Nat.digits base n).reverse.map digitChar

def readNumber (base : Nat) (text : Bytes) : Nat :=
  Nat.ofDigits base (text.reverse.map digitValue)

theorem digitValue_digitChar {d : Nat} (h : d < 16) : digitValue (digitChar d) = d := by
  revert d
  decide

theorem readNumber_numberText {base : Nat} (h₁ : 1 < base) (h₂ : base ≤ 16) (n : Nat) :
    readNumber base (numberText base n) = n := by
  unfold readNumber numberText
  split
  · rename_i hn
    subst hn
    rfl
  · have hdigits : ((Nat.digits base n).map digitChar).map digitValue = Nat.digits base n := by
      rw [List.map_map]
      refine (List.map_congr_left fun d hd => ?_).trans (List.map_id _)
      have := Nat.digits_lt_base h₁ hd
      exact digitValue_digitChar (by omega)
    rw [← List.map_reverse, List.reverse_reverse, hdigits, Nat.ofDigits_digits]

/-- The characters a number is printed with. -/
theorem mem_numberText {base n : Nat} {c : UInt8} (h₁ : 1 < base) (h₂ : base ≤ 16)
    (hc : c ∈ numberText base n) : ∃ d < 16, c = digitChar d := by
  unfold numberText at hc
  split at hc
  · exact ⟨0, by omega, List.mem_singleton.mp hc⟩
  · obtain ⟨d, hd, rfl⟩ := List.mem_map.mp hc
    have := Nat.digits_lt_base h₁ (List.mem_reverse.mp hd)
    exact ⟨d, by omega, rfl⟩

theorem numberText_length_le {base n k : Nat} (h₁ : 1 < base) (hn : n < base ^ k) (hk : 0 < k) :
    (numberText base n).length ≤ k := by
  unfold numberText
  split
  · exact hk
  · rw [List.length_map, List.length_reverse]
    exact (Nat.digits_length_le_iff h₁ n).mpr hn

/-! ### Addresses -/

/-- The base an address is printed in. -/
def Af.base : Af → Nat
  | inet => 10
  | inet6 => 16

/-- `.` or `:`. -/
def Af.separator : Af → UInt8
  | inet => 46
  | inet6 => 58

/-- Pairs of bytes as numbers. -/
def groups : Bytes → List Nat
  | hi :: lo :: rest => (256 * hi.toNat + lo.toNat) :: groups rest
  | _ => []

/-- The numbers an address is printed as. -/
def Af.numbers : Af → Bytes → List Nat
  | inet, a => a.map UInt8.toNat
  | inet6, a => groups a

/-- The address with these numbers. -/
def Af.ofNumbers : Af → List Nat → Bytes
  | inet, ns => ns.map UInt8.ofNat
  | inet6, ns => ns.flatMap fun n => [UInt8.ofNat (n / 256), UInt8.ofNat (n % 256)]

/-- The text of an address. -/
def addressText (af : Af) (a : Bytes) : Bytes :=
  [af.separator].intercalate ((af.numbers a).map (numberText af.base))

def readAddress (af : Af) (text : Bytes) : Bytes :=
  af.ofNumbers ((text.splitOn af.separator).map (readNumber af.base))

theorem groups_roundtrip : ∀ a : Bytes, a.length % 2 = 0 →
    Af.inet6.ofNumbers (groups a) = a
  | [], _ => rfl
  | [_], h => by simp at h
  | hi :: lo :: rest, h => by
      have hhi := hi.toNat_lt
      have hlo := lo.toNat_lt
      have hrest := groups_roundtrip rest (by simp at h; omega)
      simp only [Af.ofNumbers, groups, List.flatMap_cons] at hrest ⊢
      rw [hrest, show (256 * hi.toNat + lo.toNat) / 256 = hi.toNat by omega,
        show (256 * hi.toNat + lo.toNat) % 256 = lo.toNat by omega]
      simp

theorem numbers_roundtrip {af : Af} {a : Bytes} (h : a.length = af.addrLen) :
    af.ofNumbers (af.numbers a) = a := by
  cases af with
  | inet =>
      have hid : UInt8.ofNat ∘ UInt8.toNat = id := funext fun b => UInt8.ofNat_toNat
      rw [Af.numbers, Af.ofNumbers, List.map_map, hid, List.map_id]
  | inet6 => exact groups_roundtrip a (by rw [h]; rfl)

theorem groups_length : ∀ a : Bytes, (groups a).length = a.length / 2
  | [] => rfl
  | [_] => by simp [groups]
  | _ :: _ :: rest => by
      simp only [groups, List.length_cons, groups_length rest]
      omega

theorem groups_lt : ∀ {a : Bytes} {n : Nat}, n ∈ groups a → n < 2 ^ 16
  | hi :: lo :: rest, n, h => by
      have hhi := hi.toNat_lt
      have hlo := lo.toNat_lt
      rcases List.mem_cons.mp h with rfl | h
      · omega
      · exact groups_lt h

theorem numbers_length_le {af : Af} {a : Bytes} (h : a.length = af.addrLen) :
    0 < (af.numbers a).length ∧ (af.numbers a).length ≤ 8 := by
  cases af <;> simp [Af.numbers, groups_length, h, Af.addrLen]

theorem numbers_lt {af : Af} {a : Bytes} {n : Nat} (h : n ∈ af.numbers a) : n < 2 ^ 16 := by
  cases af with
  | inet =>
      obtain ⟨b, -, rfl⟩ := List.mem_map.mp h
      have := b.toNat_lt
      omega
  | inet6 => exact groups_lt h

theorem one_lt_base (af : Af) : 1 < af.base ∧ af.base ≤ 16 := by
  cases af <;> simp [Af.base]

theorem separator_notMem_numberText (af : Af) (n : Nat) :
    af.separator ∉ numberText af.base n := by
  intro hs
  obtain ⟨d, hd, he⟩ := mem_numberText (one_lt_base af).1 (one_lt_base af).2 hs
  revert d
  cases af <;> decide

theorem mem_intercalate {s c : UInt8} : ∀ {ls : List Bytes}, c ∈ [s].intercalate ls →
    c = s ∨ ∃ l ∈ ls, c ∈ l
  | [], h => by simp at h
  | [l], h => .inr ⟨l, by simp, by simpa using h⟩
  | l :: l' :: ls, h => by
      rw [List.intercalate_cons_cons, List.mem_append, List.mem_append, List.mem_singleton] at h
      rcases h with (h | h) | h
      · exact .inr ⟨l, by simp, h⟩
      · exact .inl h
      · rcases mem_intercalate h with h | ⟨m, hm, h⟩
        · exact .inl h
        · exact .inr ⟨m, List.mem_cons_of_mem _ hm, h⟩

theorem intercalate_length_le (s : UInt8) {k : Nat} : ∀ {ls : List Bytes},
    (∀ l ∈ ls, l.length ≤ k) → ([s].intercalate ls).length ≤ ls.length * (k + 1)
  | [], _ => by simp
  | [l], h => by
      have := h l (by simp)
      simp
      omega
  | l :: l' :: ls, h => by
      have hl := h l (by simp)
      have hls := intercalate_length_le s fun m (hm : m ∈ l' :: ls) =>
        h m (List.mem_cons_of_mem _ hm)
      rw [List.intercalate_cons_cons, List.length_append, List.length_append, List.length_singleton,
        List.length_cons, Nat.succ_mul]
      omega

theorem zero_notMem_addressText (af : Af) (a : Bytes) : 0 ∉ addressText af a := by
  intro hz
  rcases mem_intercalate hz with hs | ⟨l, hl, hc⟩
  · cases af <;> simp [Af.separator] at hs
  · obtain ⟨n, -, rfl⟩ := List.mem_map.mp hl
    obtain ⟨d, hd, he⟩ := mem_numberText (one_lt_base af).1 (one_lt_base af).2 hc
    revert d
    decide

/-- No address is longer than eight numbers of at most sixteen digits. -/
theorem addressText_length_le {af : Af} {a : Bytes} (h : a.length = af.addrLen) :
    (addressText af a).length ≤ MAX_DNS_LEN := by
  have hnumber : ∀ l ∈ (af.numbers a).map (numberText af.base), l.length ≤ 16 := by
    intro l hl
    obtain ⟨n, hn, rfl⟩ := List.mem_map.mp hl
    refine numberText_length_le (one_lt_base af).1 ((numbers_lt hn).trans_le ?_) (by omega)
    exact Nat.pow_le_pow_left (one_lt_base af).1 16
  have hlen := intercalate_length_le af.separator hnumber
  have hcount := (numbers_length_le h).2
  rw [List.length_map] at hlen
  calc (addressText af a).length ≤ (af.numbers a).length * (16 + 1) := hlen
    _ ≤ 8 * (16 + 1) := Nat.mul_le_mul_right _ hcount
    _ ≤ MAX_DNS_LEN := by decide

theorem readAddress_addressText {af : Af} {a : Bytes} (h : a.length = af.addrLen) :
    readAddress af (addressText af a) = a := by
  have hsplit : (addressText af a).splitOn af.separator
      = (af.numbers a).map (numberText af.base) := by
    refine List.splitOn_intercalate _ (fun l hl => ?_) ?_
    · obtain ⟨n, -, rfl⟩ := List.mem_map.mp hl
      exact separator_notMem_numberText af n
    · rw [← List.length_pos_iff, List.length_map]
      exact (numbers_length_le h).1
  have hread : (readNumber af.base) ∘ (numberText af.base) = id :=
    funext fun n => readNumber_numberText (one_lt_base af).1 (one_lt_base af).2 n
  rw [readAddress, hsplit, List.map_map, hread, List.map_id, numbers_roundtrip h]

/-- Printing and reading addresses without abbreviations. -/
def Inet.plain : Inet where
  ntop af a := some ⟨addressText af a, zero_notMem_addressText af a⟩
  pton af s :=
    let a := readAddress af s.bytes
    if a.length = af.addrLen ∧ addressText af a = s.bytes then some a else none

theorem Inet.plain_lawful : Inet.plain.Lawful := by
  refine ⟨fun af a h => ⟨_, rfl, addressText_length_le h, ?_⟩⟩
  have hread := readAddress_addressText h
  simp only [Inet.plain, hread]
  simp [h]

/-! ### A host to connect to, and who connects -/

/-- `192.0.2.n`. -/
def hostAddress (n : UInt8) : Vector UInt8 4 := #v[192, 0, 2, n]

/-- `127.0.0.1`. -/
def localAddress : Vector UInt8 4 := #v[127, 0, 0, 1]

/-- The text of `192.0.2.n`. -/
def hostText (n : UInt8) : CString :=
  ⟨addressText .inet [192, 0, 2, n], zero_notMem_addressText _ _⟩

/-- `192.0.2.1`, port 80. -/
def webTarget : Socks5Addrport := copyAddrport .ipv4 (hostText 1) 80

/-- A client on `192.0.2.9`, on descriptor 4. -/
def webClient : Client := ⟨.v4 (hostAddress 9) 40000, 4⟩

/-- The user `u`. -/
def userName : CString := ⟨[117], by decide⟩

/-- The password `p`. -/
def userPassword : CString := ⟨[112], by decide⟩

end TwoSocks
