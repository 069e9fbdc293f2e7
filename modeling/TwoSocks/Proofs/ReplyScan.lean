/-
The loop over the destinations, which takes out of its tables while it goes over them.

`Scan` says what one execution does to the destinations that were there when it began, as a
list: it visits them from the front, each once, and `Visit` says what a visit does and
whether the destination stays.  A visit that takes a destination out moves all later ones
down by one, in both tables, and the index stays; a visit that does not moves the index.
So wherever the loop is, the tables are those that stayed, followed by those still to come,
and the index is just past the ones that stayed.  That is the invariant, `Scanning`, and the
induction is on the ones still to come, which a visit always makes one fewer.

The only way out before the end is a write to the client that fails.
-/
import TwoSocks.Program.Termination
import TwoSocks.Proofs.UdpAssociation

namespace TwoSocks

open Server Prog

/-! ### Headers -/

/-- `inet_pton` accepts the text `inet_ntop` wrote, and the text fits the buffer it was
written to. -/
structure Inet.ReadsBack (inet : Inet) : Prop where
  pton_ntop : ∀ (af : Af) (a : Bytes) (text : CString), a.length = af.addrLen →
    inet.ntop af a = some text → text.bytes.length ≤ MAX_DNS_LEN ∧ inet.pton af text ≠ none

theorem Inet.Lawful.readsBack {inet : Inet} (h : inet.Lawful) : inet.ReadsBack where
  pton_ntop af a text hlen htext := by
    obtain ⟨s, hs, hfits, hpton⟩ := h.pton_ntop af a hlen
    obtain rfl : s = text := Option.some.inj (hs.symm.trans htext)
    exact ⟨hfits, by simp [hpton]⟩

/-- `parse_addrport` stored this address. -/
def Parsed (inet : Inet) (addrport : Socks5Addrport) : Prop :=
  ∃ buf n len, n ≤ buf.length ∧ parseAddrport inet buf n = .ok (len, addrport)

/-- Replies from this address have a header. -/
def HasHeader (inet : Inet) (addrport : Socks5Addrport) : Prop :=
  ∃ header, udpReplyHeader inet addrport = .built header

/-- Replies from a parsed address have one. -/
theorem Parsed.hasHeader {inet : Inet} (hinet : inet.ReadsBack) {addrport : Socks5Addrport}
    (h : Parsed inet addrport) : HasHeader inet addrport := by
  obtain ⟨buf, n, len, hn, hparse⟩ := h
  obtain ⟨-, hwire⟩ := parseAddrport_sound hn hparse
  generalize buf.take len = field at hwire
  cases hwire with
  | @ip af address text port hlen htext =>
      obtain ⟨hfits, hpton⟩ := hinet.pton_ntop af address text hlen htext
      obtain ⟨address', hpton⟩ := Option.ne_none_iff_exists'.mp hpton
      have haddr : text.strncpy MAX_DNS_LEN = text := CString.strncpy_self hfits
      cases af
      · simp only [HasHeader, udpReplyHeader, copyAddrport, Af.addrType, haddr, hpton]
        exact ⟨_, rfl⟩
      · simp only [HasHeader, udpReplyHeader, copyAddrport, Af.addrType, haddr, hpton]
        exact ⟨_, rfl⟩
  | dns port hlen => exact ⟨_, rfl⟩

/-! ### One destination -/

/-- `poll` reported an error or a hangup. -/
def Broken (revents : UInt16) : Prop :=
  (pollReventsHaveError revents || pollReventsHaveHangup revents) = true

instance (revents : UInt16) : Decidable (Broken revents) := inferInstanceAs (Decidable (_ = true))

/-- What counting a reply does. -/
def counted (payload : Bytes) : Trace sys :=
  if payload.length = 0 then [] else [⟨.fetchAdd .downloaded payload.length, ()⟩]

/-- Reading a datagram into what the header leaves of the buffer. -/
def received (entry : Pollfd) (header : Bytes) (reply : Except Errno Bytes) : Event sys :=
  ⟨.recv entry.fd (UDP_COPY_BUFFER_SIZE - header.length), reply⟩

/-- What a visit to a destination does, and whether the destination stays. -/
inductive Visit (inet : Inet) (udpFd : Fd) (item : FdSocks5addr) (entry : Pollfd) :
    Trace sys → Bool → Prop
  | broken (h : Broken entry.revents) :
      Visit inet udpFd item entry (closing item .error .generalFailure) false
  | quiet (h : ¬ Broken entry.revents) (hin : pollReventsHaveInput entry.revents = false) :
      Visit inet udpFd item entry [] true
  | recvFails {header : Bytes} {e : Errno} (h : ¬ Broken entry.revents)
      (hin : pollReventsHaveInput entry.revents = true)
      (hheader : udpReplyHeader inet item.addrport = .built header) :
      Visit inet udpFd item entry
        (received entry header (.error e) :: closing item .error (socketErrorCodeFromErrno e)) false
  | forwards {header payload : Bytes} {n : Nat} (h : ¬ Broken entry.revents)
      (hin : pollReventsHaveInput entry.revents = true)
      (hheader : udpReplyHeader inet item.addrport = .built header) :
      Visit inet udpFd item entry
        (received entry header (.ok payload) ::
          ⟨.write udpFd (header ++ payload), .ok n⟩ :: counted payload) true

/-- A visit that ends in a write to the client that fails. -/
inductive WriteFails (inet : Inet) (udpFd : Fd) (item : FdSocks5addr) (entry : Pollfd) :
    Trace sys → Errno → Prop
  | intro {header payload : Bytes} {e : Errno} (h : ¬ Broken entry.revents)
      (hin : pollReventsHaveInput entry.revents = true)
      (hheader : udpReplyHeader inet item.addrport = .built header) :
      WriteFails inet udpFd item entry
        [received entry header (.ok payload), ⟨.write udpFd (header ++ payload), .error e⟩] e

section Visits

variable {inet : Inet} {udpFd : Fd} {item : FdSocks5addr} {entry : Pollfd} {tr : Trace sys}
  {stays : Bool} {e : Errno}

theorem visit_broken (h : Broken entry.revents) : Visit inet udpFd item entry tr stays ↔
    tr = closing item .error .generalFailure ∧ stays = false := by
  constructor
  · intro hvisit
    cases hvisit with
    | broken _ => exact ⟨rfl, rfl⟩
    | quiet h' _ | recvFails h' _ _ | forwards h' _ _ => exact absurd h h'
  · rintro ⟨rfl, rfl⟩
    exact .broken h

theorem visit_quiet (h : ¬ Broken entry.revents)
    (hin : pollReventsHaveInput entry.revents = false) :
    Visit inet udpFd item entry tr stays ↔ tr = [] ∧ stays = true := by
  constructor
  · intro hvisit
    cases hvisit with
    | broken h' => exact absurd h' h
    | quiet _ _ => exact ⟨rfl, rfl⟩
    | recvFails _ hin' _ | forwards _ hin' _ => exact absurd (hin.symm.trans hin') (by simp)
  · rintro ⟨rfl, rfl⟩
    exact .quiet h hin

theorem visit_readable (h : ¬ Broken entry.revents)
    (hin : pollReventsHaveInput entry.revents = true) {header : Bytes}
    (hheader : udpReplyHeader inet item.addrport = .built header) :
    Visit inet udpFd item entry tr stays ↔
      (∃ e, tr = received entry header (.error e) ::
        closing item .error (socketErrorCodeFromErrno e) ∧ stays = false) ∨
      (∃ payload n, tr = received entry header (.ok payload) ::
        ⟨.write udpFd (header ++ payload), .ok n⟩ :: counted payload ∧ stays = true) := by
  constructor
  · intro hvisit
    cases hvisit with
    | broken h' => exact absurd h' h
    | quiet _ hin' => exact absurd (hin'.symm.trans hin) (by simp)
    | recvFails _ _ hheader' =>
        obtain rfl := ReplyHeader.built.inj (hheader'.symm.trans hheader)
        exact .inl ⟨_, rfl, rfl⟩
    | forwards _ _ hheader' =>
        obtain rfl := ReplyHeader.built.inj (hheader'.symm.trans hheader)
        exact .inr ⟨_, _, rfl, rfl⟩
  · rintro (⟨e, rfl, rfl⟩ | ⟨payload, n, rfl, rfl⟩)
    · exact .recvFails h hin hheader
    · exact .forwards h hin hheader

theorem writeFails_iff {header : Bytes}
    (hheader : udpReplyHeader inet item.addrport = .built header) :
    WriteFails inet udpFd item entry tr e ↔
      (¬ Broken entry.revents ∧ pollReventsHaveInput entry.revents = true) ∧
      ∃ payload, tr = [received entry header (.ok payload),
        ⟨.write udpFd (header ++ payload), .error e⟩] := by
  constructor
  · intro hfails
    cases hfails with
    | intro h hin hheader' =>
        obtain rfl := ReplyHeader.built.inj (hheader'.symm.trans hheader)
        exact ⟨⟨h, hin⟩, _, rfl⟩
  · rintro ⟨⟨h, hin⟩, payload, rfl⟩
    exact .intro h hin hheader

end Visits

/-- What an execution does to the destinations it begins with: the trace, what is left,
and the error number if a write to the client failed. -/
inductive Scan (inet : Inet) (udpFd : Fd) : List (FdSocks5addr × Pollfd) → Trace sys →
    List (FdSocks5addr × Pollfd) → Option Errno → Prop
  | noneLeft : Scan inet udpFd [] [] [] none
  | stays {d : FdSocks5addr × Pollfd} {later left : List (FdSocks5addr × Pollfd)}
      {tr tr' : Trace sys} {failure : Option Errno} (h : Visit inet udpFd d.1 d.2 tr true)
      (hlater : Scan inet udpFd later tr' left failure) :
      Scan inet udpFd (d :: later) (tr ++ tr') (d :: left) failure
  | goes {d : FdSocks5addr × Pollfd} {later left : List (FdSocks5addr × Pollfd)}
      {tr tr' : Trace sys} {failure : Option Errno} (h : Visit inet udpFd d.1 d.2 tr false)
      (hlater : Scan inet udpFd later tr' left failure) :
      Scan inet udpFd (d :: later) (tr ++ tr') left failure
  | writeFails {d : FdSocks5addr × Pollfd} {later : List (FdSocks5addr × Pollfd)}
      {tr : Trace sys} {e : Errno} (h : WriteFails inet udpFd d.1 d.2 tr e) :
      Scan inet udpFd (d :: later) tr (d :: later) (some e)

/-- Those that are left are in the order they were in. -/
theorem Scan.sublist {inet : Inet} {udpFd : Fd} {ds left : List (FdSocks5addr × Pollfd)}
    {tr : Trace sys} {failure : Option Errno} (h : Scan inet udpFd ds tr left failure) :
    left.Sublist ds := by
  induction h with
  | noneLeft => exact .slnil
  | stays _ _ ih => exact ih.cons_cons _
  | goes _ _ ih => exact ih.cons _
  | writeFails _ => exact .refl _

/-- How the loop ends with tables `s`. -/
def UdpLoop.scanEnd (s : UdpLoop) : Option Errno → Flow
  | none => .again s
  | some e => .leave ⟨.error, socketErrorCodeFromErrno e, s⟩

/-! ### One round -/

section Round

variable {inet : Inet} {udpFd : Fd} {s : UdpLoop} {item : FdSocks5addr} {i idx : Nat}
  {tr : Trace sys} {r : (UdpLoop × Nat) ⊕ Flow}

theorem closing_eval (hp : Paired s) (hidx : idx < s.sockList.items.length)
    (hitem : s.sockList.items[idx] = item) (state : ConnectionState) (errorCode : Errorcode) :
    Eval (do
      let s ← closeUdpDestination s idx state errorCode
      return .inl (s, i)) tr r ↔
    tr = closing item state errorCode ∧ r = .inl (s.remove idx, i) := by
  rw [hp.closeUdpDestination hidx, hitem]
  constructor
  · intro h
    obtain ⟨_, _, rfl, hevent⟩ := eval_call.mp h
    obtain ⟨_, _, rfl, hret⟩ := eval_call.mp hevent
    obtain ⟨rfl, rfl⟩ := eval_ret.mp hret
    exact ⟨rfl, rfl⟩
  · rintro ⟨rfl, rfl⟩
    exact .call (.call (.ret _))

theorem recordDownloadedBytes_eval {payload : Bytes} {u : Unit} :
    Eval (recordDownloadedBytes payload.length) tr u ↔ tr = counted payload := by
  unfold recordDownloadedBytes recordBytes counted
  by_cases hempty : payload.length = 0
  · rw [if_pos hempty, if_pos hempty]
    exact eval_ret.trans (and_iff_left rfl)
  · rw [if_neg hempty, if_neg hempty]
    constructor
    · exact eval_perform
    · rintro rfl
      exact .call (.ret _)

/-- What `writeRecorded` goes on with once the write has been answered. -/
def afterWrite (payload : Bytes) : Except Errno Nat → Server (Except Errno Nat)
  | .error e => .ret (.error e)
  | .ok n => Prog.bind (S := sys) (recordDownloadedBytes payload.length) fun _ => .ret (.ok n)

theorem writeRecorded_eq (header payload : Bytes) : writeRecorded udpFd header payload =
    .block (S := sys) .accounted (.call (.write udpFd (header ++ payload)) (afterWrite payload))
      .ret := by
  refine congrArg (fun p => Prog.block (S := sys) .accounted p .ret)
    (congrArg (Prog.call (S := sys) _) (funext fun ret => ?_))
  cases ret <;> rfl

theorem writeRecorded_eval {header payload : Bytes} {ret : Except Errno Nat} :
    Eval (writeRecorded udpFd header payload) tr ret ↔
      (∃ n, ret = .ok n ∧ tr = ⟨.write udpFd (header ++ payload), .ok n⟩ :: counted payload) ∨
      (∃ e, ret = .error e ∧ tr = [⟨.write udpFd (header ++ payload), .error e⟩]) := by
  rw [writeRecorded_eq]
  constructor
  · intro h
    obtain ⟨_, _, _, rfl, hblock, hout⟩ := eval_block.mp h
    obtain ⟨rfl, rfl⟩ := eval_ret.mp hout
    obtain ⟨answer, _, rfl, hrest⟩ := eval_call.mp hblock
    rw [List.append_nil]
    cases answer with
    | error e =>
        obtain ⟨rfl, rfl⟩ := eval_ret.mp hrest
        exact .inr ⟨e, rfl, rfl⟩
    | ok n =>
        obtain ⟨_, _, _, rfl, hcount, hret⟩ := eval_bind _ hrest
        obtain ⟨rfl, rfl⟩ := eval_ret.mp hret
        rw [List.append_nil, recordDownloadedBytes_eval.mp hcount]
        exact .inl ⟨n, rfl, rfl⟩
  · rintro (⟨n, rfl, rfl⟩ | ⟨e, rfl, rfl⟩)
    · have hcount : Eval (recordDownloadedBytes payload.length) (counted payload) () :=
        recordDownloadedBytes_eval.mpr rfl
      have hrest : Eval (afterWrite payload (.ok n)) (counted payload ++ []) (.ok n) :=
        hcount.bind (.ret _)
      refine eval_block.mpr ⟨_, _, [], (List.append_nil _).symm, ?_, .ret _⟩
      refine eval_call.mpr ⟨.ok n, counted payload, rfl, ?_⟩
      rwa [List.append_nil] at hrest
    · refine eval_block.mpr ⟨_, _, [], (List.append_nil _).symm, ?_, .ret _⟩
      exact eval_call.mpr ⟨.error e, [], rfl, .ret _⟩

/-- A readable destination whose header can be built. -/
theorem udpReply_eval (hp : Paired s) (hidx : idx < s.sockList.items.length)
    (hitem : s.sockList.items[idx] = item) {header : Bytes}
    (hheader : udpReplyHeader inet item.addrport = .built header) :
    Eval (udpReply inet udpFd s i idx) tr r ↔
      (∃ e, tr = received (s.fds i) header (.error e) ::
          closing item .error (socketErrorCodeFromErrno e) ∧ r = .inl (s.remove idx, i)) ∨
      (∃ payload n, tr = received (s.fds i) header (.ok payload) ::
          ⟨.write udpFd (header ++ payload), .ok n⟩ :: counted payload ∧ r = .inl (s, i + 1)) ∨
      (∃ payload e, tr = [received (s.fds i) header (.ok payload),
          ⟨.write udpFd (header ++ payload), .error e⟩] ∧ r = .inr (s.scanEnd (some e))) := by
  have hfrom : s.sockList.itemFromIndex idx = item :=
    (List.getD_eq_getElem _ _ hidx).trans hitem
  unfold udpReply
  simp only [hfrom, hheader]
  constructor
  · intro h
    obtain ⟨reply, tr', rfl, hrest⟩ := eval_call.mp h
    cases reply with
    | error e =>
        obtain ⟨rfl, rfl⟩ := (closing_eval hp hidx hitem _ _).mp hrest
        exact .inl ⟨e, rfl, rfl⟩
    | ok payload =>
        simp only [bind_eq, ret_bind] at hrest
        obtain ⟨tr₁, ret, tr₂, rfl, hwrite, hout⟩ := eval_bind _ hrest
        rcases writeRecorded_eval.mp hwrite with ⟨n, rfl, rfl⟩ | ⟨e, rfl, rfl⟩
        · obtain ⟨rfl, rfl⟩ := eval_ret.mp hout
          rw [List.append_nil]
          exact .inr (.inl ⟨payload, n, rfl, rfl⟩)
        · obtain ⟨rfl, rfl⟩ := eval_ret.mp hout
          exact .inr (.inr ⟨payload, e, rfl, rfl⟩)
  · rintro (⟨e, rfl, rfl⟩ | ⟨payload, n, rfl, rfl⟩ | ⟨payload, e, rfl, rfl⟩)
    · exact eval_call.mpr ⟨.error e, _, rfl, (closing_eval hp hidx hitem _ _).mpr ⟨rfl, rfl⟩⟩
    · refine eval_call.mpr ⟨.ok payload, _, rfl, ?_⟩
      have hwrite : Eval (writeRecorded udpFd header payload)
          (⟨.write udpFd (header ++ payload), .ok n⟩ :: counted payload) (.ok n) :=
        writeRecorded_eval.mpr (.inl ⟨n, rfl, rfl⟩)
      rw [← List.append_nil (_ :: counted payload)]
      exact hwrite.bind (.ret _)
    · refine eval_call.mpr ⟨.ok payload, _, rfl, ?_⟩
      have hwrite : Eval (writeRecorded udpFd header payload)
          [⟨.write udpFd (header ++ payload), .error e⟩] (.error e) :=
        writeRecorded_eval.mpr (.inr ⟨e, rfl, rfl⟩)
      exact hwrite.bind (.ret _)

end Round

/-! ### The invariant -/

/-- The loop is at its head, with the destinations `kept` behind it and `later` to come. -/
structure Scanning (kept later : List (FdSocks5addr × Pollfd)) (x : UdpLoop × Nat) : Prop where
  paired : Paired x.1
  destinations : x.1.destinations = kept ++ later
  index : x.2 = kept.length + 2

/-- Where the loop goes on after a visit. -/
def afterVisit (x : UdpLoop × Nat) (stays : Bool) : UdpLoop × Nat :=
  if stays then (x.1, x.2 + 1) else (x.1.remove (x.2 - 2), x.2)

namespace Scanning

variable {inet : Inet} {udpFd : Fd} {kept later : List (FdSocks5addr × Pollfd)}
  {d : FdSocks5addr × Pollfd} {x : UdpLoop × Nat} {tr : Trace sys}
  {r : (UdpLoop × Nat) ⊕ Flow}

/-- Where both tables hold the next destination. -/
theorem next (h : Scanning kept (d :: later) x) : x.2 < x.1.pollFds ∧
    ∃ hk : x.2 - 2 < x.1.sockList.items.length,
      x.1.sockList.items[x.2 - 2] = d.1 ∧ x.1.fds x.2 = d.2 := by
  have hsize := h.paired.size
  unfold Sblist.getsize at hsize
  have hindex := h.index
  have hlen : kept.length < x.1.destinations.length := by
    rw [h.destinations, List.length_append, List.length_cons]
    omega
  have hk : kept.length < x.1.sockList.items.length := by
    rw [← h.paired.destinations_length]
    exact hlen
  have hd : x.1.destinations[kept.length] = d := by
    simp only [h.destinations, List.getElem_append_right (le_refl _), Nat.sub_self,
      List.getElem_cons_zero]
  rw [UdpLoop.destinations_getElem hlen hk] at hd
  simp only [h.index]
  exact ⟨by omega, hk, congrArg Prod.fst hd, congrArg Prod.snd hd⟩

/-- A visit leaves one destination fewer to come, and the ones that stay behind it. -/
theorem step (h : Scanning kept (d :: later) x) (stays : Bool) :
    Scanning (if stays then kept ++ [d] else kept) later (afterVisit x stays) := by
  obtain ⟨-, hk, -⟩ := h.next
  have hindex := h.index
  cases stays with
  | true =>
      refine ⟨h.paired, ?_, ?_⟩
      · show x.1.destinations = (kept ++ [d]) ++ later
        rw [h.destinations, List.append_assoc, List.singleton_append]
      · show x.2 + 1 = (kept ++ [d]).length + 2
        rw [List.length_append, List.length_singleton]
        omega
  | false =>
      refine ⟨h.paired.remove hk, ?_, h.index⟩
      show (x.1.remove (x.2 - 2)).destinations = kept ++ later
      rw [h.paired.destinations_remove hk, h.destinations,
        List.eraseIdx_append_of_length_le (by omega),
        show x.2 - 2 - kept.length = 0 by omega, List.eraseIdx_cons_zero]

/-- **One round is one visit**, to the destination after those that were kept. -/
theorem round (h : Scanning kept (d :: later) x)
    (hheader : HasHeader inet d.1.addrport) :
    Eval (udpRepliesBody inet udpFd x) tr r ↔
      (∃ stays, Visit inet udpFd d.1 d.2 tr stays ∧ r = .inl (afterVisit x stays)) ∨
      (∃ e, WriteFails inet udpFd d.1 d.2 tr e ∧ r = .inr (x.1.scanEnd (some e))) := by
  obtain ⟨hlt, hk, hitem, hentry⟩ := h.next
  obtain ⟨header, hheader⟩ := hheader
  have hindex := h.index
  have hsearch := h.paired.search_fd (show 2 ≤ x.2 by omega) hlt
  obtain ⟨s, i⟩ := x
  simp only at hlt hk hitem hentry hsearch
  simp only [udpRepliesBody, if_pos hlt, hsearch, writeFails_iff hheader]
  by_cases hbroken : Broken d.2.revents
  · rw [if_pos (hentry ▸ hbroken), closing_eval h.paired hk hitem]
    simp only [visit_broken hbroken, hbroken, not_true_eq_false, false_and, exists_false,
      or_false]
    constructor
    · rintro ⟨rfl, rfl⟩
      exact ⟨false, ⟨rfl, rfl⟩, rfl⟩
    · rintro ⟨stays, ⟨rfl, rfl⟩, rfl⟩
      exact ⟨rfl, rfl⟩
  rw [if_neg (hentry ▸ hbroken)]
  by_cases hin : pollReventsHaveInput d.2.revents = true
  · rw [if_neg (by simp [hentry, hin]), udpReply_eval h.paired hk hitem hheader, hentry]
    simp only [visit_readable hbroken hin hheader, hbroken, hin, not_false_eq_true, true_and]
    constructor
    · rintro (⟨e, rfl, rfl⟩ | ⟨payload, n, rfl, rfl⟩ | ⟨payload, e, rfl, rfl⟩)
      · exact .inl ⟨false, .inl ⟨e, rfl, rfl⟩, rfl⟩
      · exact .inl ⟨true, .inr ⟨payload, n, rfl, rfl⟩, rfl⟩
      · exact .inr ⟨e, ⟨payload, rfl⟩, rfl⟩
    · rintro (⟨_, ⟨e, rfl, rfl⟩ | ⟨payload, n, rfl, rfl⟩, rfl⟩ | ⟨e, ⟨payload, rfl⟩, rfl⟩)
      · exact .inl ⟨e, rfl, rfl⟩
      · exact .inr (.inl ⟨payload, n, rfl, rfl⟩)
      · exact .inr (.inr ⟨payload, e, rfl, rfl⟩)
  · have hquiet : pollReventsHaveInput d.2.revents = false := by simpa using hin
    rw [if_pos (by simp [hentry, hquiet])]
    simp only [visit_quiet hbroken hquiet, hquiet, Bool.false_eq_true, and_false, false_and,
      exists_false, or_false]
    refine eval_ret.trans ⟨?_, ?_⟩
    · rintro ⟨rfl, rfl⟩
      exact ⟨true, ⟨rfl, rfl⟩, rfl⟩
    · rintro ⟨stays, ⟨rfl, rfl⟩, rfl⟩
      exact ⟨rfl, rfl⟩

/-- With nothing left to visit, the round ends the loop. -/
theorem last (h : Scanning kept [] x) :
    Eval (udpRepliesBody inet udpFd x) tr r ↔ tr = [] ∧ r = .inr (x.1.scanEnd none) := by
  have hsize := h.paired.size
  unfold Sblist.getsize at hsize
  have hindex := h.index
  have hlen : kept.length = x.1.sockList.items.length := by
    rw [← h.paired.destinations_length, h.destinations, List.append_nil]
  obtain ⟨s, i⟩ := x
  simp only at hsize hindex hlen
  simp only [udpRepliesBody, if_neg (show ¬ i < s.pollFds by omega)]
  exact eval_ret

end Scanning

/-! ### The whole loop -/

section Loop

variable {inet : Inet} {udpFd : Fd}

theorem closeUdpDestination_straight (s : UdpLoop) (idx : Nat) (state : ConnectionState)
    (errorCode : Errorcode) : Straight (closeUdpDestination s idx state errorCode) :=
  fun _ _ => trivial

theorem writeRecorded_straight (header payload : Bytes) :
    Straight (writeRecorded udpFd header payload) := by
  rw [writeRecorded_eq]
  refine ⟨fun ret => ?_, fun _ => trivial⟩
  cases ret with
  | error e => trivial
  | ok n =>
      refine Straight.bind ?_ fun _ => trivial
      unfold recordDownloadedBytes recordBytes
      split
      · trivial
      · exact fun _ => trivial

theorem udpReply_straight (s : UdpLoop) (i idx : Nat) :
    Straight (udpReply inet udpFd s i idx) := by
  have hclosing : ∀ (state : ConnectionState) (errorCode : Errorcode), Straight (do
      let s ← closeUdpDestination s idx state errorCode
      return (.inl (s, i) : (UdpLoop × Nat) ⊕ Flow)) := fun state errorCode =>
    (closeUdpDestination_straight s idx state errorCode).bind fun _ => trivial
  unfold udpReply
  cases udpReplyHeader inet (s.sockList.itemFromIndex idx).addrport with
  | unknownType => exact fun r => nomatch r
  | invalidAddress => exact hclosing ..
  | built header =>
      intro reply
      cases reply with
      | error e => exact hclosing ..
      | ok payload =>
          refine Straight.bind (p := writeRecorded udpFd header payload) ?_ fun ret => ?_
          · exact writeRecorded_straight header payload
          · cases ret <;> trivial

theorem udpRepliesBody_straight (x : UdpLoop × Nat) :
    Straight (udpRepliesBody inet udpFd x) := by
  obtain ⟨s, i⟩ := x
  simp only [udpRepliesBody]
  split
  · split
    · trivial
    · split
      · exact (closeUdpDestination_straight ..).bind fun _ => trivial
      · split
        · trivial
        · exact udpReply_straight ..
  · trivial

/-- The loop does a scan over the destinations to come. -/
theorem scan_of_eval {later : List (FdSocks5addr × Pollfd)} :
    ∀ {kept : List (FdSocks5addr × Pollfd)} {x : UdpLoop × Nat} {tr : Trace sys} {flow : Flow},
      Scanning kept later x → (∀ d ∈ later, HasHeader inet d.1.addrport) →
      Eval (.loop (udpRepliesBody inet udpFd) x .ret) tr flow →
      ∃ left failure s', Scan inet udpFd later tr left failure ∧ Paired s' ∧
        s'.destinations = kept ++ left ∧ flow = s'.scanEnd failure := by
  induction later with
  | nil =>
      intro kept x tr flow hx _ h
      cases h with
      | again hround _ => exact absurd (hx.last.mp hround).2 (by simp)
      | leave hround hout =>
          obtain ⟨rfl, hflow⟩ := hx.last.mp hround
          obtain ⟨rfl, rfl⟩ := eval_ret.mp hout
          exact ⟨[], none, x.1, .noneLeft, hx.paired, hx.destinations, Sum.inr.inj hflow⟩
  | cons d later ih =>
      intro kept x tr flow hx hheaders h
      have hlater : ∀ d' ∈ later, HasHeader inet d'.1.addrport := fun d' hd =>
        hheaders d' (List.mem_cons_of_mem _ hd)
      cases h with
      | again hround hloop =>
          rcases (hx.round (hheaders d (by simp))).mp hround with ⟨stays, hvisit, hr⟩ | ⟨e, -, hr⟩
          · obtain rfl := Sum.inl.inj hr
            obtain ⟨left, failure, s', hscan, hp', hleft, hflow⟩ := ih (hx.step stays) hlater hloop
            cases stays with
            | true =>
                refine ⟨d :: left, failure, s', .stays hvisit hscan, hp', ?_, hflow⟩
                simpa using hleft
            | false => exact ⟨left, failure, s', .goes hvisit hscan, hp', hleft, hflow⟩
          · exact absurd hr (by simp)
      | leave hround hout =>
          obtain ⟨rfl, rfl⟩ := eval_ret.mp hout
          rcases (hx.round (hheaders d (by simp))).mp hround with ⟨stays, -, hr⟩ | ⟨e, hfails, hr⟩
          · exact absurd hr (by simp)
          · rw [List.append_nil]
            exact ⟨d :: later, some e, x.1, .writeFails hfails, hx.paired, hx.destinations,
              Sum.inr.inj hr⟩

/-- Whatever a scan may do, the loop can do. -/
theorem Scan.eval {later left : List (FdSocks5addr × Pollfd)} {tr : Trace sys}
    {failure : Option Errno} (h : Scan inet udpFd later tr left failure) :
    ∀ {kept : List (FdSocks5addr × Pollfd)} {x : UdpLoop × Nat}, Scanning kept later x →
      (∀ d ∈ later, HasHeader inet d.1.addrport) →
        ∃ s', Paired s' ∧ s'.destinations = kept ++ left ∧
          Eval (.loop (udpRepliesBody inet udpFd) x .ret) tr (s'.scanEnd failure) := by
  induction h with
  | noneLeft =>
      intro kept x hx _
      exact ⟨x.1, hx.paired, hx.destinations, .leave (hx.last.mpr ⟨rfl, rfl⟩) (.ret _)⟩
  | @stays d later left tr tr' failure hvisit _ ih =>
      intro kept x hx hheaders
      obtain ⟨s', hp', hleft, hloop⟩ := ih (hx.step true) fun d' hd =>
        hheaders d' (List.mem_cons_of_mem _ hd)
      have hround := (hx.round (hheaders d (by simp))).mpr (.inl ⟨true, hvisit, rfl⟩)
      refine ⟨s', hp', ?_, .again hround hloop⟩
      simpa using hleft
  | @goes d later left tr tr' failure hvisit _ ih =>
      intro kept x hx hheaders
      obtain ⟨s', hp', hleft, hloop⟩ := ih (hx.step false) fun d' hd =>
        hheaders d' (List.mem_cons_of_mem _ hd)
      have hround := (hx.round (hheaders d (by simp))).mpr (.inl ⟨false, hvisit, rfl⟩)
      exact ⟨s', hp', hleft, .again hround hloop⟩
  | @writeFails d later tr e hfails =>
      intro kept x hx hheaders
      have hround := (hx.round (hheaders d (by simp))).mpr (.inr ⟨e, hfails, rfl⟩)
      refine ⟨x.1, hx.paired, hx.destinations, ?_⟩
      rw [← List.append_nil tr]
      exact .leave hround (.ret _)

/-- Every visit leaves one destination fewer to come. -/
theorem replies_terminate {later : List (FdSocks5addr × Pollfd)} :
    ∀ {kept : List (FdSocks5addr × Pollfd)} {x : UdpLoop × Nat}, Scanning kept later x →
      (∀ d ∈ later, HasHeader inet d.1.addrport) →
      Terminates (fun _ => True) (.loop (udpRepliesBody inet udpFd) x .ret : Server Flow) := by
  induction later with
  | nil =>
      intro kept x hx _
      refine Terminates.loop (udpRepliesBody_straight x).terminates (fun tr x' hround _ => ?_)
        fun _ flow _ _ => terminates_ret flow
      exact absurd (hx.last.mp hround).2 (by simp)
  | cons d later ih =>
      intro kept x hx hheaders
      refine Terminates.loop (udpRepliesBody_straight x).terminates (fun tr x' hround _ => ?_)
        fun _ flow _ _ => terminates_ret flow
      rcases (hx.round (hheaders d (by simp))).mp hround with ⟨stays, -, hr⟩ | ⟨e, -, hr⟩
      · obtain rfl := Sum.inl.inj hr
        exact ih (hx.step stays) fun d' hd => hheaders d' (List.mem_cons_of_mem _ hd)
      · exact absurd hr (by simp)

/--
**The loop over the destinations visits each of them once, in order.**

It ends, whatever it is answered.  An execution is a scan over the destinations that were
there when it began: those with an error or a hangup and those `recv` failed for are closed,
reported once and gone from both tables, the other readable ones get one datagram through to
the client, and those that are left are in both tables in the order they were in.  A write
to the client that fails is the only way not to reach the end.  And every such scan is one
the loop can perform.
-/
theorem udpReplies_scan (inet : Inet) (hinet : inet.ReadsBack) (udpFd : Fd) (s : UdpLoop)
    (hp : Paired s) (hparsed : ∀ item ∈ s.sockList.items, Parsed inet item.addrport) :
    Terminates (fun _ => True) (udpReplies inet udpFd s) ∧
    (∀ tr flow, Eval (udpReplies inet udpFd s) tr flow →
      ∃ left failure s', Scan inet udpFd s.destinations tr left failure ∧
        flow = s'.scanEnd failure ∧ Paired s' ∧ s'.destinations = left ∧
        left.Sublist s.destinations) ∧
    (∀ tr left failure, Scan inet udpFd s.destinations tr left failure →
      ∃ s', Paired s' ∧ s'.destinations = left ∧
        Eval (udpReplies inet udpFd s) tr (s'.scanEnd failure)) := by
  have hheaders : ∀ d ∈ s.destinations, HasHeader inet d.1.addrport := by
    intro d hd
    have hitem : d.1 ∈ s.sockList.items := by
      rw [← hp.destinations_items]
      exact List.mem_map_of_mem hd
    exact (hparsed d.1 hitem).hasHeader hinet
  have hstart : Scanning [] s.destinations (s, 2) := ⟨hp, rfl, rfl⟩
  refine ⟨?_, fun tr flow h => ?_, fun tr left failure hscan => ?_⟩
  · exact replies_terminate hstart hheaders
  · obtain ⟨left, failure, s', hscan, hp', hleft, hflow⟩ := scan_of_eval hstart hheaders h
    exact ⟨left, failure, s', hscan, hflow, hp', hleft, hscan.sublist⟩
  · exact hscan.eval hstart hheaders

/-! ### Three destinations, of which two go -/

/-- `192.0.2.1` at a port. -/
def portTarget (port : UInt16) : Socks5Addrport := copyAddrport .ipv4 (hostText 1) port

/-- The first destination hung up, and the two after it are readable. -/
def busyTable : UdpLoop where
  pollFds := 5
  fds i := [⟨4, POLLIN, 0⟩, ⟨5, POLLIN, 0⟩, ⟨7, POLLIN, POLLHUP⟩, ⟨8, POLLIN, POLLIN⟩,
    ⟨9, POLLIN, POLLIN⟩].getD i ⟨0, 0, 0⟩
  udpIsBound := true
  sockList := ⟨1, 3, [⟨7, 1, portTarget 53⟩, ⟨8, 2, portTarget 54⟩, ⟨9, 3, portTarget 55⟩]⟩

/-- The second one's `recv` fails, and the third one sends a byte. -/
def busyReplies : Trace sys :=
  [⟨.close 7, ()⟩,
    ⟨.handler ⟨1, .udp, .error, (portTarget 53).addr, 53, .generalFailure⟩, ()⟩,
    ⟨.recv 8 (UDP_COPY_BUFFER_SIZE - 10), .error .econnrefused⟩,
    ⟨.close 8, ()⟩,
    ⟨.handler ⟨2, .udp, .error, (portTarget 54).addr, 54, .connRefused⟩, ()⟩,
    ⟨.recv 9 (UDP_COPY_BUFFER_SIZE - 10), .ok [7]⟩,
    ⟨.write 5 [0, 0, 0, 1, 192, 0, 2, 1, 0, 55, 7], .ok 11⟩,
    ⟨.fetchAdd .downloaded 1, ()⟩]

theorem udpReplies_scan_busy : ∃ s', Paired s' ∧
    s'.destinations = [(⟨9, 3, portTarget 55⟩, ⟨9, POLLIN, POLLIN⟩)] ∧
    Eval (udpReplies Inet.plain 5 busyTable) busyReplies (.again s') := by
  have hp : Paired busyTable := by
    refine ⟨rfl, fun k hk => ?_, by decide⟩
    have hk : k < 3 := hk
    interval_cases k <;> rfl
  have hparsed : ∀ item ∈ busyTable.sockList.items, Parsed Inet.plain item.addrport := by
    intro item hitem
    rcases List.mem_cons.mp hitem with rfl | hitem
    · exact ⟨[1, 192, 0, 2, 1, 0, 53], 7, 7, le_refl _, rfl⟩
    rcases List.mem_cons.mp hitem with rfl | hitem
    · exact ⟨[1, 192, 0, 2, 1, 0, 54], 7, 7, le_refl _, rfl⟩
    rw [List.mem_singleton.mp hitem]
    exact ⟨[1, 192, 0, 2, 1, 0, 55], 7, 7, le_refl _, rfl⟩
  have hfirst : Visit Inet.plain 5 ⟨7, 1, portTarget 53⟩ ⟨7, POLLIN, POLLHUP⟩ _ false :=
    .broken (by decide)
  have hheader₂ : udpReplyHeader Inet.plain (portTarget 54)
      = .built [0, 0, 0, 1, 192, 0, 2, 1, 0, 54] := rfl
  have hheader₃ : udpReplyHeader Inet.plain (portTarget 55)
      = .built [0, 0, 0, 1, 192, 0, 2, 1, 0, 55] := rfl
  have hsecond : Visit Inet.plain 5 ⟨8, 2, portTarget 54⟩ ⟨8, POLLIN, POLLIN⟩
      (received ⟨8, POLLIN, POLLIN⟩ [0, 0, 0, 1, 192, 0, 2, 1, 0, 54] (.error .econnrefused) ::
        closing ⟨8, 2, portTarget 54⟩ .error .connRefused) false :=
    .recvFails (by decide) (by decide) hheader₂
  have hthird : Visit Inet.plain 5 ⟨9, 3, portTarget 55⟩ ⟨9, POLLIN, POLLIN⟩
      (received ⟨9, POLLIN, POLLIN⟩ [0, 0, 0, 1, 192, 0, 2, 1, 0, 55] (.ok [7]) ::
        ⟨.write 5 ([0, 0, 0, 1, 192, 0, 2, 1, 0, 55] ++ [7]), .ok 11⟩ :: counted [7]) true :=
    .forwards (by decide) (by decide) hheader₃
  have hscan := Scan.goes (d := (_, _)) hfirst
    (.goes (d := (_, _)) hsecond (.stays (d := (_, _)) hthird .noneLeft))
  exact (udpReplies_scan Inet.plain Inet.plain_lawful.readsBack 5 busyTable hp hparsed).2.2
    busyReplies _ none hscan

end Loop

end TwoSocks
