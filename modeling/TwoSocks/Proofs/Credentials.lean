/-
When `check_credentials` lets a client in.

A message is counted: the user name is `ULEN` octets and the password `PLEN` octets, any
octets.  `check_credentials` looks for the lengths it needs before it reads, so a message
that is cut anywhere is turned down, and `checkCredentialsMem_eq` says that no byte past the
ones received is read and none is written outside `user` and `pass`.

What it compares is not the octets.  Each field is copied into an array, ended with a zero
and given to `strcmp`, and a field with a zero among its octets ends there.  The password
that is configured, a zero and anything after it is a password too.
`credentials_exact_iff` says that this is the only way in that should not be one.
-/
import TwoSocks.Proofs.AddressParser

namespace TwoSocks

/-- A complete message in front of the first `n` bytes: `VER` 1, `ULEN`, `UNAME`, `PLEN` and
`PASSWD`. -/
def CredentialsMessage (buf : Bytes) (n : Nat) (uname passwd : Bytes) : Prop :=
  ∃ ulen plen rest, buf.take n = 1 :: ulen :: (uname ++ plen :: (passwd ++ rest)) ∧
    ulen.toNat = uname.length ∧ plen.toNat = passwd.length

/-! ### The message -/

/-- There is one way to read the bytes as a message. -/
theorem CredentialsMessage.unique {buf uname passwd uname' passwd' : Bytes} {n : Nat}
    (h : CredentialsMessage buf n uname passwd) (h' : CredentialsMessage buf n uname' passwd') :
    uname = uname' ∧ passwd = passwd' := by
  obtain ⟨ulen, plen, rest, hbytes, hulen, hplen⟩ := h
  obtain ⟨ulen', plen', rest', hbytes', hulen', hplen'⟩ := h'
  rw [hbytes, List.cons.injEq, List.cons.injEq] at hbytes'
  obtain ⟨-, rfl, htail⟩ := hbytes'
  obtain ⟨huname, htail⟩ := List.append_inj htail (hulen.symm.trans hulen')
  obtain ⟨hcount, htail⟩ := List.cons.inj htail
  exact ⟨huname, (List.append_inj htail (hplen.symm.trans (hcount ▸ hplen'))).1⟩

/-- The fields of a message are where `check_credentials` looks for them. -/
theorem CredentialsMessage.fields {buf uname passwd : Bytes} {n : Nat} (hbuf : n ≤ buf.length)
    (h : CredentialsMessage buf n uname passwd) :
    buf.getD 0 0 = 1 ∧ (buf.getD 1 0).toNat = uname.length ∧
      (buf.getD (2 + uname.length) 0).toNat = passwd.length ∧
      (buf.drop 2).take uname.length = uname ∧
      (buf.drop (2 + uname.length + 1)).take passwd.length = passwd ∧
      2 + uname.length + 1 + passwd.length ≤ n := by
  obtain ⟨ulen, plen, rest, hbytes, hulen, hplen⟩ := h
  have hlength := congrArg List.length hbytes
  rw [List.length_take_of_le hbuf] at hlength
  simp only [List.length_cons, List.length_append] at hlength
  have hwhole : buf = 1 :: ulen :: (uname ++ plen :: (passwd ++ (rest ++ buf.drop n))) := by
    conv => lhs; rw [← List.take_append_drop n buf, hbytes]
    simp only [List.cons_append, List.append_assoc]
  generalize rest ++ buf.drop n = tail at hwhole
  subst hwhole
  refine ⟨rfl, hulen, ?_, ?_, ?_, by omega⟩
  · rw [Nat.add_comm, List.getD_cons_succ, List.getD_cons_succ,
      List.getD_append_right _ _ _ _ (Nat.le_refl _), Nat.sub_self]
    exact hplen
  · exact List.take_left' rfl
  · rw [show 2 + uname.length + 1 = uname.length + 1 + 2 by omega]
    show ((uname ++ plen :: (passwd ++ tail)).drop (uname.length + 1)).take _ = _
    rw [← List.drop_drop, List.drop_left' rfl]
    exact List.take_left' rfl

/-- Bytes with room for both fields are a message. -/
theorem CredentialsMessage.of_fields {buf : Bytes} {n ulen plen : Nat} (hbuf : n ≤ buf.length)
    (hversion : buf.getD 0 0 = 1) (hulen : (buf.getD 1 0).toNat = ulen)
    (hplen : (buf.getD (2 + ulen) 0).toNat = plen) (hfits : 2 + ulen + 1 + plen ≤ n) :
    CredentialsMessage buf n ((buf.drop 2).take ulen)
      ((buf.drop (2 + ulen + 1)).take plen) := by
  have hat : ∀ i, i < n → (buf.take n).drop i = buf.getD i 0 :: (buf.take n).drop (i + 1) := by
    intro i hi
    have hlt : i < (buf.take n).length := by
      rw [List.length_take_of_le hbuf]
      exact hi
    rw [List.drop_eq_getElem_cons hlt, List.getElem_take, List.getD_eq_getElem _ _ (by omega)]
  have hcut : ∀ i len, i + len ≤ n → (buf.take n).drop i =
      (buf.drop i).take len ++ (buf.take n).drop (i + len) := by
    intro i len hi
    rw [← List.drop_drop]
    conv => lhs; rw [← List.take_append_drop len ((buf.take n).drop i)]
    rw [List.drop_take, List.take_take, min_eq_left (by omega)]
  refine ⟨buf.getD 1 0, buf.getD (2 + ulen) 0, (buf.take n).drop (2 + ulen + 1 + plen), ?_, ?_, ?_⟩
  · calc buf.take n = (buf.take n).drop 0 := rfl
      _ = 1 :: buf.getD 1 0 :: (buf.take n).drop 2 := by
        rw [hat 0 (by omega), hat 1 (by omega), hversion]
      _ = _ := by rw [hcut 2 ulen (by omega), hat (2 + ulen) (by omega), hcut _ plen hfits]
  · rw [hulen, List.length_take_of_le (by rw [List.length_drop]; omega)]
  · rw [hplen, List.length_take_of_le (by rw [List.length_drop]; omega)]

/-! ### The check -/

/-- **No access of `check_credentials` faults**: it comes back with what the bytes received
say. -/
theorem checkCredentialsMem_eq (authUser authPass : CString) {buf : Bytes} {n : Nat}
    (hbuf : n ≤ buf.length) (user pass : CArray 256) :
    ∃ ec, checkCredentialsMem authUser authPass buf n user pass = .ok ec ∧
      checkCredentials (some authUser) (some authPass) buf n = some ec := by
  unfold checkCredentialsMem checkCredentials
  by_cases hshort : n < 5
  · exact ⟨_, if_pos hshort, if_pos hshort⟩
  rw [if_neg hshort, if_neg hshort, readByte_of_lt (show 0 < n by omega)]
  by_cases hversion : buf.getD 0 0 ≠ 1
  · exact ⟨_, if_pos hversion, if_pos hversion⟩
  rw [if_neg hversion]
  simp only [bind, Except.bind]
  rw [if_neg hversion, readByte_of_lt (show 1 < n by omega)]
  simp only
  generalize hulen : (buf.getD 1 0).toNat = ulen
  by_cases hroom : n < 2 + ulen + 2
  · exact ⟨_, if_pos hroom, if_pos hroom⟩
  rw [if_neg hroom, if_neg hroom, readByte_of_lt (show 2 + ulen < n by omega)]
  simp only
  generalize hplen : (buf.getD (2 + ulen) 0).toNat = plen
  by_cases hfits : n < 2 + ulen + 1 + plen
  · exact ⟨_, if_pos hfits, if_pos hfits⟩
  rw [if_neg hfits, if_neg hfits]
  have hulen256 : ulen < 256 := hulen ▸ UInt8.toNat_lt _
  have hplen256 : plen < 256 := hplen ▸ UInt8.toNat_lt _
  have hname : ((buf.drop 2).take ulen).length = ulen := by
    rw [List.length_take, List.length_drop]
    omega
  have hword : ((buf.drop (2 + ulen + 1)).take plen).length = plen := by
    rw [List.length_take, List.length_drop]
    omega
  obtain ⟨copied, ended, hcopied, hended, hzero, hstring⟩ := user.write_ended
    (show ((buf.drop 2).take ulen).length < 256 by omega)
  obtain ⟨copied', ended', hcopied', hended', hzero', hstring'⟩ := pass.write_ended
    (show ((buf.drop (2 + ulen + 1)).take plen).length < 256 by omega)
  rw [hname] at hended
  rw [hword] at hended'
  rw [readBytes_of_le (show 2 + ulen ≤ n by omega),
    readBytes_of_le (show 2 + ulen + 1 + plen ≤ n by omega)]
  simp only [hcopied, hcopied', hended, hended', strcmpEq, if_pos (Or.inl hzero),
    if_pos (Or.inl hzero'), hstring, hstring', Option.bind_some, beq_iff_eq]
  by_cases huser : CString.ofBuffer ((buf.drop 2).take ulen) = authUser
  · rw [if_pos huser, if_pos huser]
    split <;> exact ⟨_, rfl, rfl⟩
  · rw [if_neg huser, if_neg huser]
    exact ⟨_, rfl, rfl⟩

/-- What becomes of a message. -/
theorem checkCredentials_message {authUser authPass : CString} {buf uname passwd : Bytes}
    {n : Nat} (hbuf : n ≤ buf.length) (h : CredentialsMessage buf n uname passwd) :
    checkCredentials (some authUser) (some authPass) buf n = some
      (if n < 5 ∨ n < 2 + uname.length + 2 then .generalFailure
       else if CString.ofBuffer uname = authUser ∧ CString.ofBuffer passwd = authPass then .success
       else .notAllowed) := by
  obtain ⟨hversion, hulen, hplen, huname, hpasswd, hfits⟩ := h.fields hbuf
  unfold checkCredentials
  by_cases hshort : n < 5
  · rw [if_pos hshort, if_pos (.inl hshort)]
  rw [if_neg hshort, if_neg (not_not_intro hversion), hulen]
  by_cases hroom : n < 2 + uname.length + 2
  · rw [if_pos (Or.inr hroom)]
    exact if_pos hroom
  rw [if_neg (not_or.mpr ⟨hshort, hroom⟩)]
  simp only [if_neg hroom, hplen, if_neg (Nat.not_lt.mpr hfits), huname, hpasswd,
    Option.bind_some]
  by_cases huser : CString.ofBuffer uname = authUser
  · by_cases hpass : CString.ofBuffer passwd = authPass
    · rw [if_pos huser, if_pos hpass, if_pos ⟨huser, hpass⟩]
    · rw [if_pos huser, if_neg hpass, if_neg (fun hc => hpass hc.2)]
  · rw [if_neg huser, if_neg (fun hc => huser hc.1)]

/-- Anything else fails. -/
theorem checkCredentials_incomplete {authUser authPass : Option CString} {buf : Bytes} {n : Nat}
    (hbuf : n ≤ buf.length) (h : ∀ uname passwd, ¬ CredentialsMessage buf n uname passwd) :
    checkCredentials authUser authPass buf n = some .generalFailure := by
  unfold checkCredentials
  by_cases hshort : n < 5
  · exact if_pos hshort
  rw [if_neg hshort]
  by_cases hversion : buf.getD 0 0 = 1
  · rw [if_neg (not_not_intro hversion)]
    by_cases hroom : n < 2 + (buf.getD 1 0).toNat + 2
    · exact if_pos hroom
    · rw [if_neg hroom]
      refine if_pos (Nat.lt_of_not_le fun hfits => ?_)
      exact h _ _ (.of_fields hbuf hversion rfl rfl hfits)
  · exact if_pos hversion

/-! ### Exactness -/

/-- What `check_credentials` is to do with the first `n` bytes: let in exactly the message
with the configured name and password, and turn down what is another message or none, without
an access that faults. -/
structure CredentialsExact (authUser authPass : CString) (buf : Bytes) (n : Nat)
    (user pass : CArray 256) : Prop where
  total : ∃ ec, checkCredentialsMem authUser authPass buf n user pass = .ok ec
  accepted : checkCredentialsMem authUser authPass buf n user pass = .ok .success ↔
    CredentialsMessage buf n authUser.bytes authPass.bytes
  refused : ∀ uname passwd, CredentialsMessage buf n uname passwd →
    ¬ (uname = authUser.bytes ∧ passwd = authPass.bytes) → 5 ≤ n → 1 ≤ passwd.length →
    checkCredentialsMem authUser authPass buf n user pass = .ok .notAllowed
  failed : (∀ uname passwd, ¬ CredentialsMessage buf n uname passwd) →
    checkCredentialsMem authUser authPass buf n user pass = .ok .generalFailure

/-- Octets without a zero are those of the string they hold. -/
theorem octets_eq_iff {octets : Bytes} {s : CString} :
    octets = s.bytes ↔ CString.ofBuffer octets = s ∧ 0 ∉ octets := by
  constructor
  · rintro rfl
    exact ⟨CString.ext' (CString.ofBuffer_bytes s.noNul), s.noNul⟩
  · rintro ⟨rfl, hzero⟩
    exact (CString.ofBuffer_bytes hzero).symm

section Exact

variable {authUser authPass : CString} {buf uname passwd : Bytes} {n : Nat}

/-- A field whose string is not empty has an octet. -/
theorem length_pos_of_string {octets : Bytes} {s : CString} (hs : s.bytes ≠ [])
    (h : CString.ofBuffer octets = s) : 1 ≤ octets.length := by
  refine List.length_pos_iff.mpr fun hnil => hs ?_
  rw [← h, hnil]
  rfl

/-- A message whose fields hold the configured strings is let in. -/
theorem checkCredentials_success (huser : authUser.bytes ≠ []) (hpass : authPass.bytes ≠ [])
    (hbuf : n ≤ buf.length) (h : CredentialsMessage buf n uname passwd)
    (huname : CString.ofBuffer uname = authUser) (hpasswd : CString.ofBuffer passwd = authPass) :
    checkCredentials (some authUser) (some authPass) buf n = some .success := by
  have hulen := length_pos_of_string huser huname
  have hplen := length_pos_of_string hpass hpasswd
  obtain ⟨-, -, -, -, -, hfits⟩ := h.fields hbuf
  rw [checkCredentials_message hbuf h, if_neg (by omega), if_pos ⟨huname, hpasswd⟩]

/-- **`check_credentials` is exact for the bytes it was given, if and only if they are not a
message in which the configured name or password is followed by a zero octet.** -/
theorem credentials_exact_iff (huser : authUser.bytes ≠ []) (hpass : authPass.bytes ≠ [])
    (hbuf : n ≤ buf.length) (user pass : CArray 256) :
    CredentialsExact authUser authPass buf n user pass ↔
      ∀ uname passwd, CredentialsMessage buf n uname passwd →
        CString.ofBuffer uname = authUser → CString.ofBuffer passwd = authPass →
        0 ∉ uname ∧ 0 ∉ passwd := by
  obtain ⟨ec, hmem, hcheck⟩ := checkCredentialsMem_eq authUser authPass hbuf user pass
  constructor
  · intro hexact uname passwd hmessage huname hpasswd
    have hsuccess := checkCredentials_success huser hpass hbuf hmessage huname hpasswd
    obtain rfl := Option.some.inj (hcheck.symm.trans hsuccess)
    obtain ⟨rfl, rfl⟩ := hmessage.unique (hexact.accepted.mp hmem)
    exact ⟨authUser.noNul, authPass.noNul⟩
  · intro hzero
    refine ⟨⟨ec, hmem⟩, ⟨fun hsuccess => ?_, fun hmessage => ?_⟩, ?_, ?_⟩
    · obtain rfl := Except.ok.inj (hmem.symm.trans hsuccess)
      by_cases hmessage : ∃ uname passwd, CredentialsMessage buf n uname passwd
      swap
      · rw [checkCredentials_incomplete hbuf fun uname passwd h => hmessage ⟨uname, passwd, h⟩]
          at hcheck
        cases hcheck
      obtain ⟨uname, passwd, hmessage⟩ := hmessage
      rw [checkCredentials_message hbuf hmessage] at hcheck
      split at hcheck
      · cases hcheck
      split at hcheck
      · rename_i hstrings
        obtain ⟨huname, hpasswd⟩ := hstrings
        obtain ⟨hzeroUser, hzeroPass⟩ := hzero uname passwd hmessage huname hpasswd
        rw [octets_eq_iff.mpr ⟨huname, hzeroUser⟩, octets_eq_iff.mpr ⟨hpasswd, hzeroPass⟩]
          at hmessage
        exact hmessage
      · cases hcheck
    · have hsuccess := checkCredentials_success huser hpass hbuf hmessage
        (octets_eq_iff.mp rfl).1 (octets_eq_iff.mp rfl).1
      rw [hmem, Option.some.inj (hcheck.symm.trans hsuccess)]
    · intro uname passwd hmessage hother hfive hplen
      obtain ⟨-, -, -, -, -, hfits⟩ := hmessage.fields hbuf
      rw [checkCredentials_message hbuf hmessage, if_neg (by omega), if_neg ?_] at hcheck
      · rw [hmem, Option.some.inj hcheck]
      · rintro ⟨huname, hpasswd⟩
        obtain ⟨hzeroUser, hzeroPass⟩ := hzero uname passwd hmessage huname hpasswd
        exact hother ⟨octets_eq_iff.mpr ⟨huname, hzeroUser⟩,
          octets_eq_iff.mpr ⟨hpasswd, hzeroPass⟩⟩
    · intro hnone
      rw [checkCredentials_incomplete hbuf hnone] at hcheck
      rw [hmem, Option.some.inj hcheck]

/-- The message of the name `a` and the password `b`, where these are configured. -/
theorem credentials_exact_plain :
    CredentialsExact ⟨[97], by decide⟩ ⟨[98], by decide⟩ [1, 1, 97, 1, 98] 5
      ⟨.replicate 256 0, List.length_replicate⟩ ⟨.replicate 256 0, List.length_replicate⟩ := by
  refine (credentials_exact_iff (by decide) (by decide) (by decide) _ _).mpr ?_
  intro uname passwd hmessage _ _
  obtain ⟨rfl, rfl⟩ := hmessage.unique
    (show CredentialsMessage [1, 1, 97, 1, 98] 5 [97] [98] from ⟨1, 1, [], rfl, rfl, rfl⟩)
  decide

/-- The name `a`, a zero and an `x` is let in where the name `a` is configured. -/
theorem credentials_zero_octet :
    ¬ CredentialsExact ⟨[97], by decide⟩ ⟨[98], by decide⟩ [1, 3, 97, 0, 120, 1, 98] 7
      ⟨.replicate 256 0, List.length_replicate⟩ ⟨.replicate 256 0, List.length_replicate⟩ := by
  intro hexact
  have hmessage : CredentialsMessage [1, 3, 97, 0, 120, 1, 98] 7 [97, 0, 120] [98] :=
    ⟨3, 1, [], rfl, rfl, rfl⟩
  have hsuccess : checkCredentialsMem ⟨[97], by decide⟩ ⟨[98], by decide⟩
      [1, 3, 97, 0, 120, 1, 98] 7 ⟨.replicate 256 0, List.length_replicate⟩
      ⟨.replicate 256 0, List.length_replicate⟩ = .ok .success := by decide +kernel
  have hname := (hmessage.unique (hexact.accepted.mp hsuccess)).1
  exact absurd hname (by decide)

end Exact

end TwoSocks
