/-
A UDP association keeps its tables aligned.

The ghost state is what an observer of the system calls knows: which descriptors are
open, for which address each destination's socket was opened, where the last datagram
of the client was to go, and what was last read from a destination.  `Assoc.spec` relies on one
thing, that `socket` does not return an open descriptor, and asks that a payload is sent
only on the one socket opened for its address and a reply is written only under the
address its socket was opened for.

That says nothing of a reply that is never written.  `forwarding` is a second spec, about
the order of operations alone: what was read from a destination is written next.

`Linked` ties the ghost state to the tables.  There is one lemma for each function of the
loop, from the bottom up; each says what the function leaves of the tables and what it
did meanwhile, which is what `Proofs/UdpFreshness.lean` and `Proofs/UdpIsolation.lean`
need as well.
-/
import TwoSocks.Proofs.Codec
import TwoSocks.Proofs.Operations
import TwoSocks.Proofs.UdpRules

namespace TwoSocks

open Server Prog

/-! ### What an observer knows -/

structure Assoc where
  /-- The descriptors that are open. -/
  held : List Fd
  /-- The address a destination's socket was opened for. -/
  owner : Fd → Option Socks5Addrport
  /-- Where the last datagram of the client was to go, and its payload. -/
  dest : Option (Socks5Addrport × Bytes)
  /-- The socket that was last read from, and what was read. -/
  reply : Option (Fd × Bytes)

/-- What is known when the loop starts. -/
def Assoc.initial (tcpFd udpFd : Fd) : Assoc := ⟨[tcpFd, udpFd], fun _ => none, none, none⟩

/-- The destination and the payload of a datagram. -/
def addressed (inet : Inet) (buf : Bytes) : Option (Socks5Addrport × Bytes) :=
  match extractUdpData inet buf buf.length with
  | .error _ => none
  | .ok (offset, addrport) => some (addrport, buf.drop offset)

/-- `socket` returns a descriptor that is not open. -/
def Assoc.rely (g : Assoc) : (o : Op) → o.Ret → Prop
  | .socket _ _, .ok fd => fd ∉ g.held
  | _, _ => True

/-- What may be asked for.  A payload goes out on the one socket opened for its address; what is
written to the client is a header for the address of the socket that was read, and what
was read; and nothing aborts. -/
def Assoc.guar (inet : Inet) (udpFd : Fd) (g : Assoc) : Op → Prop
  | .send fd payload =>
      ∃ addrport, g.dest = some (addrport, payload) ∧ ∀ fd', g.owner fd' = some addrport ↔ fd' = fd
  | .write fd buf => fd = udpFd → ∃ source payload addrport header,
      g.reply = some (source, payload) ∧ g.owner source = some addrport ∧
        udpReplyHeader inet addrport = .built header ∧ buf = header ++ payload
  | .abort => False
  | _ => True

def Assoc.next (inet : Inet) (udpFd : Fd) (g : Assoc) : (o : Op) → o.Ret → Assoc
  | .socket _ _, .ok fd =>
      { g with
        held := fd :: g.held
        owner := Function.update g.owner fd (g.dest.map Prod.fst) }
  | .close fd, _ =>
      { g with
        held := g.held.filter (· ≠ fd)
        owner := Function.update g.owner fd none }
  | .recv fd _, .ok buf =>
      if fd = udpFd then { g with dest := addressed inet buf }
      else { g with reply := some (fd, buf) }
  | .recvfrom _ _, .ok (buf, _) => { g with dest := addressed inet buf }
  | _, _ => g

def Assoc.spec (inet : Inet) (udpFd : Fd) : Spec sys Assoc where
  rely := Assoc.rely
  guar := Assoc.guar inet udpFd
  next := Assoc.next inet udpFd

/-- The spec with the history kept along. -/
abbrev recorded (inet : Inet) (udpFd : Fd) : Spec sys (Assoc × Trace sys) :=
  (Assoc.spec inet udpFd).recording

/-- What is known and what is in the tables. -/
structure Linked (tcpFd udpFd : Fd) (s : UdpLoop) (g : Assoc) : Prop where
  held : ∀ fd, fd ∈ g.held ↔ fd ∈ tcpFd :: udpFd :: s.sockList.items.map FdSocks5addr.fd
  owner : ∀ fd addrport, g.owner fd = some addrport ↔
    ∃ item ∈ s.sockList.items, item.fd = fd ∧ item.addrport = addrport

/-- Aligned tables that the observer knows. -/
def Kept (tcpFd udpFd : Fd) (s : UdpLoop) (g : Assoc × Trace sys) : Prop :=
  Table tcpFd udpFd s ∧ Linked tcpFd udpFd s g.1

/-! ### What a part of an iteration did -/

/-- The error event of an event, if it is one. -/
def errorBy : Event sys → List ConnectionEvent
  | ⟨.handler e, _⟩ => if e.state = .error then [e] else []
  | _ => []

/-- A payload was accepted. -/
def Delivers : Event sys → Prop
  | ⟨.send _ _, .ok _⟩ => True
  | _ => False

/-! ### Closing a destination -/

section Association

variable {inet : Inet} {tcpFd udpFd : Fd} {s : UdpLoop} {g : Assoc × Trace sys}

theorem Linked.remove (inet : Inet) {a : Assoc} (ht : Table tcpFd udpFd s)
    (hl : Linked tcpFd udpFd s a)
    {idx : Nat} (hidx : idx < s.sockList.items.length) :
    Linked tcpFd udpFd (s.remove idx)
      (a.next inet udpFd (.close s.sockList.items[idx].fd) ()) := by
  have hmem (item : FdSocks5addr) := ht.mem_remove hidx item
  have hothers := ht.wired.fd_ne_control (List.getElem_mem hidx)
  refine ⟨fun fd => ?_, fun fd addrport => ?_⟩
  · show fd ∈ a.held.filter (· ≠ s.sockList.items[idx].fd) ↔ _
    simp only [List.mem_filter, hl.held, List.mem_cons, List.mem_map, hmem, decide_eq_true_eq]
    constructor
    · rintro ⟨rfl | rfl | ⟨item, hi, rfl⟩, hne⟩
      · exact .inl rfl
      · exact .inr (.inl rfl)
      · exact .inr (.inr ⟨item, ⟨hi, hne⟩, rfl⟩)
    · rintro (rfl | rfl | ⟨item, ⟨hi, hne⟩, rfl⟩)
      · exact ⟨.inl rfl, hothers.1.symm⟩
      · exact ⟨.inr (.inl rfl), hothers.2.symm⟩
      · exact ⟨.inr (.inr ⟨item, hi, rfl⟩), hne⟩
  · show Function.update a.owner _ none fd = some addrport ↔ _
    by_cases hfd : fd = s.sockList.items[idx].fd
    · subst hfd
      rw [Function.update_self]
      refine iff_of_false (by simp) ?_
      rintro ⟨item, hi, he, -⟩
      exact ((hmem item).mp hi).2 he
    · rw [Function.update_of_ne hfd, hl.owner]
      constructor
      · rintro ⟨item, hi, rfl, ha⟩
        exact ⟨item, (hmem item).mpr ⟨hi, hfd⟩, rfl, ha⟩
      · rintro ⟨item, hi, rfl, ha⟩
        exact ⟨item, ((hmem item).mp hi).1, rfl, ha⟩

/-- The events of a destination being closed. -/
def closing (item : FdSocks5addr) (state : ConnectionState) (errorCode : Errorcode) : Trace sys :=
  [⟨.close item.fd, ()⟩,
    ⟨.handler ⟨item.connectionId, .udp, state, item.addrport.addr, item.addrport.port,
      errorCode⟩, ()⟩]

theorem closeUdpDestination_spec (hk : Kept tcpFd udpFd s g) {idx : Nat}
    (hidx : idx < s.sockList.items.length) (state : ConnectionState) (errorCode : Errorcode) :
    wlp (recorded inet udpFd) (closeUdpDestination s idx state errorCode) (fun s' g' =>
      s' = s.remove idx ∧ Kept tcpFd udpFd s' g' ∧
        g'.2 = g.2 ++ closing s.sockList.items[idx] state errorCode) g := by
  rw [hk.1.paired.closeUdpDestination hidx]
  refine ⟨trivial, trivial, fun _ _ => ⟨trivial, trivial, fun _ _ => ⟨trivial, rfl, ?_, ?_⟩⟩⟩
  · exact ⟨hk.1.remove hidx, hk.2.remove inet hk.1 hidx⟩
  · show g.2 ++ [_] ++ [_] = _
    simp [closing]

/-! ### Opening a destination -/

/-- No item has a descriptor that is not open. -/
theorem Linked.not_owned {a : Assoc} (hl : Linked tcpFd udpFd s a) {fd : Fd}
    (hfd : fd ∉ a.held) {item : FdSocks5addr} (hi : item ∈ s.sockList.items) : item.fd ≠ fd := by
  rintro rfl
  exact hfd ((hl.held _).mpr (List.mem_cons_of_mem _ (List.mem_cons_of_mem _
    (List.mem_map.mpr ⟨item, hi, rfl⟩))))

/-- A socket that is opened and closed again leaves nothing behind. -/
theorem Linked.openClose (inet : Inet) {a : Assoc} (hl : Linked tcpFd udpFd s a) {fd : Fd}
    (hfd : fd ∉ a.held) (af : Af) (type : SockType) :
    Linked tcpFd udpFd s
      ((a.next inet udpFd (.socket af type) (.ok fd)).next inet udpFd (.close fd) ()) := by
  refine ⟨fun fd' => ?_, fun fd' addrport => ?_⟩
  · rw [← hl.held]
    show fd' ∈ (fd :: a.held).filter (· ≠ fd) ↔ _
    by_cases he : fd' = fd
    · simp [he, hfd]
    · simp [he]
  · show Function.update (Function.update a.owner fd _) fd none fd' = some addrport ↔ _
    rw [Function.update_idem]
    by_cases he : fd' = fd
    · subst he
      rw [Function.update_self]
      refine iff_of_false (by simp) ?_
      rintro ⟨item, hi, hfd', -⟩
      exact hl.not_owned hfd hi hfd'
    · rw [Function.update_of_ne he, hl.owner]

theorem Linked.track (inet : Inet) {a : Assoc} (hl : Linked tcpFd udpFd s a)
    {item : FdSocks5addr} {payload : Bytes} {sockList : Sblist FdSocks5addr}
    (hfd : item.fd ∉ a.held) (hdest : a.dest = some (item.addrport, payload))
    (hlist : sockList.items = s.sockList.items ++ [item]) (af : Af) (type : SockType) :
    Linked tcpFd udpFd (s.track sockList item.fd)
      (a.next inet udpFd (.socket af type) (.ok item.fd)) := by
  refine ⟨fun fd => ?_, fun fd addrport => ?_⟩
  · show fd ∈ item.fd :: a.held ↔ fd ∈ tcpFd :: udpFd :: sockList.items.map FdSocks5addr.fd
    rw [hlist, List.mem_cons, hl.held]
    simp only [List.map_append, List.map_cons, List.map_nil, List.mem_cons, List.mem_append,
      List.not_mem_nil, or_false]
    tauto
  · show Function.update a.owner item.fd (a.dest.map Prod.fst) fd = some addrport ↔
      ∃ other ∈ sockList.items, _
    rw [hlist, hdest]
    by_cases he : fd = item.fd
    · subst he
      rw [Function.update_self]
      constructor
      · intro ha
        exact ⟨item, by simp, rfl, by simpa using ha⟩
      · rintro ⟨other, ho, hofd, rfl⟩
        rcases List.mem_append.mp ho with ho | ho
        · exact absurd hofd (hl.not_owned hfd ho)
        · rw [List.mem_singleton.mp ho]
          rfl
    · rw [Function.update_of_ne he, hl.owner]
      constructor
      · rintro ⟨other, ho, hrest⟩
        exact ⟨other, List.mem_append_left _ ho, hrest⟩
      · rintro ⟨other, ho, hofd, ha⟩
        rcases List.mem_append.mp ho with ho | ho
        · exact ⟨other, ho, hofd, ha⟩
        · rw [List.mem_singleton.mp ho] at hofd
          exact absurd hofd.symm he

/-- An attempt to reach `addrport` that came to nothing, with one error event. -/
structure FailedAttempt (addrport : Socks5Addrport) (tail : Trace sys) : Prop where
  undelivered : ∀ e ∈ tail, ¬ Delivers e
  error : ∃ e, tail.flatMap errorBy = [e] ∧ e.host = addrport.addr ∧ e.port = addrport.port

/-- What happens while a socket is opened and nothing fails. -/
structure QuietAttempt (tail : Trace sys) : Prop where
  undelivered : ∀ e ∈ tail, ¬ Delivers e
  noError : tail.flatMap errorBy = []

/-- What `openUdpDestination` comes back with. -/
def Opened (tcpFd udpFd : Fd) (s : UdpLoop) (g : Assoc × Trace sys) (addrport : Socks5Addrport) :
    UdpLoop × Option (Fd × Nat) → Assoc × Trace sys → Prop
  | (s', none), g' => s' = s ∧ Kept tcpFd udpFd s g' ∧
      ∃ tail, g'.2 = g.2 ++ tail ∧ FailedAttempt addrport tail
  | (s', some (fd, idx)), g' => Kept tcpFd udpFd s' g' ∧ g'.1.dest = g.1.dest ∧
      (∃ tail, g'.2 = g.2 ++ tail ∧ QuietAttempt tail) ∧
      ∃ sockList connectionId, s' = s.track sockList fd ∧
        sockList.items = s.sockList.items ++ [⟨fd, connectionId, addrport⟩] ∧
        idx = s.sockList.items.length ∧
        fd ∉ tcpFd :: udpFd :: s.sockList.items.map FdSocks5addr.fd

/-- A destination that was opened, and whose first datagram could not be sent. -/
theorem QuietAttempt.thenFails {addrport : Socks5Addrport} {tail tail' : Trace sys}
    (hq : QuietAttempt tail) (hfail : FailedAttempt addrport tail') :
    FailedAttempt addrport (tail ++ tail') := by
  refine ⟨fun e he => ?_, ?_⟩
  · rcases List.mem_append.mp he with he | he
    · exact hq.undelivered e he
    · exact hfail.undelivered e he
  · rw [List.flatMap_append, hq.noError, List.nil_append]
    exact hfail.error

/-- A new destination whose item is in the list. -/
theorem Opened.tracked (inet : Inet) (hk : Kept tcpFd udpFd s g) {addrport : Socks5Addrport}
    {payload : Bytes} (hdest : g.1.dest = some (addrport, payload))
    (hnew : ∀ other ∈ s.sockList.items, other.addrport ≠ addrport)
    (hknown : addrport.type ≠ .unknown) (hroom : s.pollFds < UDP_MAX_POLL_FDS) {fd : Fd}
    (hfd : fd ∉ g.1.held) (af : Af) {connectionId : Int} {sockList : Sblist FdSocks5addr}
    (hlist : sockList.items = s.sockList.items ++ [⟨fd, connectionId, addrport⟩])
    {g' : Assoc × Trace sys} (hg : g'.1 = g.1.next inet udpFd (.socket af .dgram) (.ok fd))
    (hh : ∃ tail, g'.2 = g.2 ++ tail ∧ QuietAttempt tail) :
    Opened tcpFd udpFd s g addrport
      (s.track sockList fd, some (fd, (s.track sockList fd).sockList.getsize - 1)) g' := by
  have hfresh : fd ∉ tcpFd :: udpFd :: s.sockList.items.map FdSocks5addr.fd :=
    fun hm => hfd ((hk.2.held fd).mpr hm)
  have ht := hk.1.track hlist hroom hfresh hnew hknown
  have hl := hk.2.track inet hfd hdest hlist af .dgram
  refine ⟨⟨ht, hg ▸ hl⟩, by rw [hg]; rfl, hh, sockList, connectionId, rfl, hlist, ?_, hfresh⟩
  simp [UdpLoop.track, Sblist.getsize, hlist]

/-- The events of a destination being reported as failed. -/
def failing (connectionId : Int) (addrport : Socks5Addrport) (errorCode : Errorcode) :
    Trace sys :=
  [⟨.nextConnectionIdentifier, connectionId⟩,
    ⟨.handler ⟨connectionId, .udp, .error, addrport.addr, addrport.port, errorCode⟩, ()⟩]

theorem failUdpDestination_spec (addrport : Socks5Addrport) (errorCode : Errorcode) :
    wlp (recorded inet udpFd) (failUdpDestination addrport errorCode) (fun _ g' =>
      g'.1 = g.1 ∧ ∃ id, g'.2 = g.2 ++ failing id addrport errorCode) g := by
  refine ⟨trivial, trivial, fun id _ => ⟨trivial, trivial, fun _ _ => ⟨trivial, rfl, id, ?_⟩⟩⟩
  simp only [Spec.recording_next_snd, List.append_assoc]
  rfl

theorem openUdpDestination_spec (hk : Kept tcpFd udpFd s g) {addrport : Socks5Addrport}
    {payload : Bytes} (hdest : g.1.dest = some (addrport, payload))
    (hnew : ∀ other ∈ s.sockList.items, other.addrport ≠ addrport)
    (hknown : addrport.type ≠ .unknown) :
    wlp (recorded inet udpFd) (openUdpDestination s addrport)
      (Opened tcpFd udpFd s g addrport) g := by
  unfold openUdpDestination resolveSocks5Addrport
  simp only [bind_eq, pure_eq, wlp_bind]
  refine ⟨trivial, trivial, fun addr _ => ⟨trivial, ?_⟩⟩
  rcases addr with _ | targetAddr
  · simp only [wlp_ret, wlp_bind]
    refine ⟨trivial, wlp_mono _ ?_ (failUdpDestination_spec addrport .generalFailure)⟩
    rintro _ g' ⟨hg, id, hh⟩
    simp only [Spec.recording_next_snd, List.append_assoc] at hh
    refine ⟨trivial, rfl, ⟨hk.1, hg ▸ hk.2⟩, _, hh, ?_⟩
    exact ⟨by simp [failing, Delivers], _, rfl, rfl, rfl⟩
  · simp only [wlp_ret, wlp_bind]
    refine ⟨trivial, trivial, trivial, fun fd hfd => ⟨trivial, ?_⟩⟩
    rcases fd with e | fd
    · simp only [wlp_bind]
      refine wlp_mono _ ?_ (failUdpDestination_spec addrport (socketErrorCodeFromErrno e))
      rintro _ g' ⟨hg, id, hh⟩
      simp only [Spec.recording_next_snd, List.append_assoc] at hh
      refine ⟨trivial, rfl, ⟨hk.1, hg ▸ hk.2⟩, _, hh, ?_⟩
      exact ⟨by simp [failing, Delivers], _, rfl, rfl, rfl⟩
    · simp only [wlp_bind]
      have hclosed := hk.2.openClose inet hfd targetAddr.af .dgram
      refine ⟨trivial, trivial, fun connected _ => ⟨trivial, ?_⟩⟩
      rcases connected with e | _
      · simp only [wlp_bind]
        refine ⟨trivial, trivial, fun _ _ => ⟨trivial, ?_⟩⟩
        refine wlp_mono _ ?_ (failUdpDestination_spec addrport (socketErrorCodeFromErrno e))
        rintro _ g' ⟨hg, id, hh⟩
        simp only [Spec.recording_next_snd, List.append_assoc] at hh
        refine ⟨trivial, rfl, ⟨hk.1, hg ▸ hclosed⟩, _, hh, ?_⟩
        exact ⟨by simp [failing, Delivers], _, rfl, rfl, rfl⟩
      · simp only [wlp_bind]
        refine ⟨trivial, trivial, fun id _ => ⟨trivial, ?_⟩⟩
        split
        · simp only [wlp_bind]
          refine ⟨trivial, trivial, fun _ _ => ⟨trivial, trivial, trivial, fun _ _ =>
            ⟨trivial, ?_⟩⟩⟩
          refine ⟨trivial, rfl, ⟨hk.1, hclosed⟩, ?tail1, ?history, ?failed⟩
          case history =>
            simp only [Spec.recording_next_snd, List.append_assoc]
            rfl
          case failed =>
            exact ⟨by simp [Delivers], _, rfl, rfl, rfl⟩
        · rename_i hroom
          simp only [wlp_bind]
          refine wlp_sblistAdd _ _ trivial (fun _ => trivial) (fun _ _ => trivial) ?_ ?_ ?_
          · intro sockList hlist
            simp only [wlp_bind]
            refine ⟨trivial, trivial, fun _ _ => ⟨trivial, trivial, ?_⟩⟩
            refine .tracked inet hk hdest hnew hknown (by omega) hfd targetAddr.af hlist rfl
              ⟨?tail2, ?history, ?quiet⟩
            case history =>
              simp only [Spec.recording_next_snd, List.append_assoc]
              rfl
            case quiet => exact ⟨by simp [Delivers], by simp [errorBy]⟩
          · intro n
            simp only [wlp_bind]
            refine ⟨trivial, trivial, fun _ _ =>
              ⟨trivial, trivial, trivial, fun _ _ => ⟨trivial, ?_⟩⟩⟩
            refine ⟨trivial, rfl, ⟨hk.1, hclosed⟩, ?tail3, ?history, ?failed⟩
            case history =>
              simp only [Spec.recording_next_snd, List.append_assoc]
              rfl
            case failed =>
              exact ⟨by simp [Delivers], _, rfl, rfl, rfl⟩
          · intro n sockList hlist
            simp only [wlp_bind]
            refine ⟨trivial, trivial, fun _ _ => ⟨trivial, trivial, ?_⟩⟩
            refine .tracked inet hk hdest hnew hknown (by omega) hfd targetAddr.af hlist rfl
              ⟨?tail4, ?history, ?quiet⟩
            case history =>
              simp only [Spec.recording_next_snd, List.append_assoc]
              rfl
            case quiet => exact ⟨by simp [Delivers], by simp [errorBy]⟩

/-! ### Sending a datagram -/

/-- The one socket opened for the address of item `idx`. -/
theorem Kept.owner_iff (hk : Kept tcpFd udpFd s g) {idx : Nat}
    (hidx : idx < s.sockList.items.length) (fd : Fd) :
    g.1.owner fd = some s.sockList.items[idx].addrport ↔ fd = s.sockList.items[idx].fd := by
  rw [hk.2.owner]
  constructor
  · rintro ⟨item, hi, rfl, ha⟩
    obtain ⟨k, hkl, rfl⟩ := List.getElem_of_mem hi
    by_cases hki : k = idx
    · simp only [hki]
    · rcases Nat.lt_or_gt_of_ne hki with hlt | hgt
      · exact absurd ha (otherAddrport_iff.mp
          (List.pairwise_iff_getElem.mp hk.1.addrports k idx hkl hidx hlt))
      · exact absurd ha.symm (otherAddrport_iff.mp
          (List.pairwise_iff_getElem.mp hk.1.addrports idx k hidx hkl hgt))
  · rintro rfl
    exact ⟨_, List.getElem_mem hidx, rfl, rfl⟩

theorem recordBytes_spec (d : Direction) (n : Nat) :
    wlp (recorded inet udpFd) (recordBytes d n) (fun _ g' => g'.1 = g.1 ∧
      ∃ tail, g'.2 = g.2 ++ tail) g :=
  wlp_recordBytes d n trivial (fun _ => ⟨rfl, [], by simp⟩) trivial ⟨trivial, rfl, [_], rfl⟩

/-- What `sendUdpPayload` comes back with. -/
def Sent (tcpFd udpFd : Fd) (s : UdpLoop) (g : Assoc × Trace sys) (idx : Nat)
    (item : FdSocks5addr) : Flow → Assoc × Trace sys → Prop
  | .next s', g' => s' = s ∧ Kept tcpFd udpFd s g' ∧
      ∃ tail, g'.2 = g.2 ++ tail ∧ ∃ e ∈ tail, Delivers e
  | .again s', g' => s' = s.remove idx ∧ Kept tcpFd udpFd s' g' ∧
      ∃ tail, g'.2 = g.2 ++ tail ∧ FailedAttempt item.addrport tail
  | .leave _, _ => False

theorem sendUdpPayload_spec (inet : Inet) (hk : Kept tcpFd udpFd s g) {idx : Nat}
    (hidx : idx < s.sockList.items.length) {payload : Bytes}
    (hdest : g.1.dest = some (s.sockList.items[idx].addrport, payload)) :
    wlp (recorded inet udpFd) (sendUdpPayload s s.sockList.items[idx].fd idx payload)
      (Sent tcpFd udpFd s g idx s.sockList.items[idx]) g := by
  unfold sendUdpPayload sendRecorded recordUploadedBytes
  simp only [bind_eq, pure_eq, wlp_bind]
  refine wlp_opened (fun _ _ => trivial) ?_
  simp only [wlp_bind]
  refine ⟨trivial, ⟨_, hdest, hk.owner_iff hidx⟩, fun ret _ => ⟨trivial, ?_⟩⟩
  rcases ret with e | n
  · simp only [wlp_ret, wlp_bind]
    refine ⟨trivial, ?_⟩
    have hk' : Kept tcpFd udpFd s ((recorded inet udpFd).next g
      (.send s.sockList.items[idx].fd payload) (.error e)) := hk
    refine wlp_mono _ ?_ (closeUdpDestination_spec hk' hidx .error (socketErrorCodeFromErrno e))
    rintro s' g' ⟨rfl, hkept, hh⟩
    simp only [Spec.recording_next_snd, List.append_assoc] at hh
    exact ⟨trivial, rfl, hkept, _, hh, by simp [closing, Delivers], _, rfl, rfl, rfl⟩
  · refine (wlp_bind _).mpr (wlp_mono _ ?_ (recordBytes_spec .uploaded n))
    rintro _ g' ⟨hg, tail, hh⟩
    simp only [Spec.recording_next_snd, List.append_assoc] at hh
    refine ⟨trivial, trivial, rfl, ⟨hk.1, ?_⟩, _, hh, _, List.mem_cons_self, trivial⟩
    rw [hg]
    exact hk.2

/-- What `forwardUdpPayload` comes back with. -/
def Forwarded (tcpFd udpFd : Fd) (s : UdpLoop) (g : Assoc × Trace sys)
    (addrport : Socks5Addrport) : Flow → Assoc × Trace sys → Prop
  | .next s', g' => Kept tcpFd udpFd s' g' ∧ (∃ tail, g'.2 = g.2 ++ tail ∧ ∃ e ∈ tail, Delivers e) ∧
      (s' = s ∨ ∃ sockList fd, s' = s.track sockList fd ∧
        fd ∉ tcpFd :: udpFd :: s.sockList.items.map FdSocks5addr.fd)
  | .again s', g' => Kept tcpFd udpFd s' g' ∧
      (s'.destinations = s.destinations ∨
        s'.destinations = s.destinations.filter (fun d => d.1.addrport ≠ addrport)) ∧
      ∃ tail, g'.2 = g.2 ++ tail ∧ FailedAttempt addrport tail
  | .leave _, _ => False

theorem forwardUdpPayload_spec (hk : Kept tcpFd udpFd s g) {addrport : Socks5Addrport}
    {payload : Bytes} (hdest : g.1.dest = some (addrport, payload))
    (hknown : addrport.type ≠ .unknown) :
    wlp (recorded inet udpFd) (forwardUdpPayload s addrport payload)
      (Forwarded tcpFd udpFd s g addrport) g := by
  unfold forwardUdpPayload
  cases hsearch : s.sockList.search
      (fun item => compareSocks5Addrport addrport item.addrport) with
  | some idx =>
      obtain ⟨hidx, hcmp, -⟩ := List.findIdx?_eq_some_iff_getElem.mp hsearch
      obtain rfl := compareSocks5Addrport_iff.mp hcmp
      have hitem : s.sockList.itemFromIndex idx = s.sockList.items[idx] :=
        List.getD_eq_getElem _ _ hidx
      simp only [hitem]
      refine wlp_mono _ ?_ (sendUdpPayload_spec inet hk hidx hdest)
      rintro (s' | s' | e) g' hsent
      · obtain ⟨rfl, hkept, hdel⟩ := hsent
        exact ⟨hkept, hdel, .inl rfl⟩
      · obtain ⟨rfl, hkept, tail, hh, hfail⟩ := hsent
        exact ⟨hkept, .inr (hk.1.destinations_remove hidx), tail, hh, hfail⟩
      · exact hsent
  | none =>
      have hnew : ∀ other ∈ s.sockList.items, other.addrport ≠ addrport := by
        intro other ho he
        have := List.findIdx?_eq_none_iff.mp hsearch other ho
        rw [compareSocks5Addrport_iff.mpr he.symm] at this
        cases this
      simp only [bind_eq, pure_eq, wlp_bind]
      refine wlp_mono _ ?_ (openUdpDestination_spec hk hdest hnew hknown)
      rintro ⟨s', _ | ⟨fd, idx⟩⟩ g' hopened
      · obtain ⟨rfl, hkept, hfail⟩ := hopened
        exact ⟨trivial, hkept, .inl rfl, hfail⟩
      · obtain ⟨hkept, hdest', ⟨tail, hh, hq⟩, sockList, id, rfl, hlist, rfl, hfresh⟩ := hopened
        have hlen : s.sockList.items.length < (s.track sockList fd).sockList.items.length := by
          simp [UdpLoop.track, hlist]
        have hget : (s.track sockList fd).sockList.items[s.sockList.items.length]
            = ⟨fd, id, addrport⟩ := by
          simp [UdpLoop.track, hlist]
        have hsend := sendUdpPayload_spec inet hkept hlen
          (show _ = some (_, payload) by rw [hget, hdest', hdest])
        rw [hget] at hsend
        refine wlp_mono _ ?_ hsend
        rintro (s' | s' | e) g'' hsent
        · obtain ⟨rfl, hkept', tail', hh', e, he, hdel⟩ := hsent
          refine ⟨hkept', ⟨tail ++ tail', ?_, e, by simp [he], hdel⟩,
            .inr ⟨sockList, fd, rfl, hfresh⟩⟩
          rw [hh', hh, List.append_assoc]
        · obtain ⟨rfl, hkept', tail', hh', hfail⟩ := hsent
          refine ⟨hkept', .inl (hk.1.destinations_track_remove hlist), tail ++ tail', ?_, ?_⟩
          · rw [hh', hh, List.append_assoc]
          · exact hq.thenFails hfail
        · exact hsent

/-! ### The client's part of an iteration -/

theorem addressed_known {buf payload : Bytes} {addrport : Socks5Addrport}
    (h : addressed inet buf = some (addrport, payload)) : addrport.type ≠ .unknown := by
  unfold addressed at h
  split at h
  · cases h
  · rename_i offset addrport' he
    obtain ⟨field, hwire, -⟩ := extractUdpData_sound le_rfl he
    obtain rfl : addrport' = addrport := congrArg Prod.fst (Option.some.inj h)
    cases hwire with
    | ip af port hlen htext => cases af <;> simp [copyAddrport, Af.addrType]
    | dns port hlen => simp [copyAddrport]

/-- Whether the client socket is connected does not matter to the tables. -/
theorem Kept.bound (hk : Kept tcpFd udpFd s g) (b : Bool) :
    Kept tcpFd udpFd { s with udpIsBound := b } g :=
  ⟨⟨hk.1.control, hk.1.client, hk.1.size, hk.1.bounded, hk.1.aligned, hk.1.distinct,
    hk.1.addrports, hk.1.known⟩, ⟨hk.2.held, hk.2.owner⟩⟩

/-- Nor does what was last received. -/
theorem Kept.seen (hk : Kept tcpFd udpFd s g) {g' : Assoc × Trace sys}
    (hheld : g'.1.held = g.1.held) (howner : g'.1.owner = g.1.owner) : Kept tcpFd udpFd s g' :=
  ⟨hk.1, by rw [hheld]; exact hk.2.held, by rw [howner]; exact hk.2.owner⟩

/-- The poll entries are as they were, or a new descriptor was put after them. -/
def Grew (s s' : UdpLoop) : Prop :=
  (s'.fds = s.fds ∧ s'.pollFds = s.pollFds) ∨
    ∃ fd, (∀ i < s.pollFds, (s.fds i).fd ≠ fd) ∧ s'.pollFds = s.pollFds + 1 ∧
      s'.fds = Function.update s.fds s.pollFds
        { s.fds s.pollFds with fd := fd, events := POLLIN }

/-- How a part of an iteration leaves the tables. -/
def Progressed (tcpFd udpFd : Fd) (s : UdpLoop) : Flow → Assoc × Trace sys → Prop
  | .next s', g' => Kept tcpFd udpFd s' g' ∧ Grew s s'
  | .again s', g' => Kept tcpFd udpFd s' g'
  | .leave _, _ => True

/-- A descriptor that no table knows is in no entry. -/
theorem Table.fresh_entry (h : Table tcpFd udpFd s) {fd : Fd}
    (hfd : fd ∉ tcpFd :: udpFd :: s.sockList.items.map FdSocks5addr.fd) {i : Nat}
    (hi : i < s.pollFds) : (s.fds i).fd ≠ fd := by
  rintro rfl
  by_cases h₂ : 2 ≤ i
  · obtain ⟨hk, he⟩ := h.paired.item_of_entry h₂ hi
    refine hfd (List.mem_cons_of_mem _ (List.mem_cons_of_mem _ ?_))
    exact List.mem_map.mpr ⟨_, List.getElem_mem hk, he⟩
  · rcases (show i = 0 ∨ i = 1 by omega) with rfl | rfl
    · exact hfd (by simp [h.control])
    · exact hfd (by simp [h.client])

theorem deliverUdpDatagram_spec (hk : Kept tcpFd udpFd s g) {buf : Bytes}
    (hdest : g.1.dest = addressed inet buf) :
    wlp (recorded inet udpFd) (deliverUdpDatagram inet s buf) (Progressed tcpFd udpFd s) g := by
  unfold deliverUdpDatagram
  unfold addressed at hdest
  cases hx : extractUdpData inet buf buf.length with
  | error ec => exact ⟨trivial, trivial⟩
  | ok r =>
      obtain ⟨offset, addrport⟩ := r
      rw [hx] at hdest
      have hknown : addrport.type ≠ .unknown :=
        addressed_known (show addressed inet buf = some (addrport, buf.drop offset) by
          unfold addressed
          rw [hx])
      refine wlp_mono _ ?_ (forwardUdpPayload_spec hk hdest hknown)
      rintro (s' | s' | e) g' h
      · obtain ⟨hkept, -, rfl | ⟨sockList, fd, rfl, hfresh⟩⟩ := h
        · exact ⟨hkept, .inl ⟨rfl, rfl⟩⟩
        · exact ⟨hkept, .inr ⟨fd, fun i hi => hk.1.fresh_entry hfresh hi, rfl, rfl⟩⟩
      · exact h.1
      · trivial

theorem udpReceiveFailed_kept (hk : Kept tcpFd udpFd s g) (e : Errno) :
    Progressed tcpFd udpFd s (udpReceiveFailed s e) g := by
  unfold udpReceiveFailed
  split
  · exact hk
  · trivial

theorem udpClientDatagram_spec (hk : Kept tcpFd udpFd s g) :
    wlp (recorded inet udpFd) (udpClientDatagram inet udpFd s) (Progressed tcpFd udpFd s) g := by
  unfold udpClientDatagram
  split
  · simp only [bind_eq, pure_eq, wlp_bind]
    refine ⟨trivial, trivial, fun r _ => ⟨trivial, ?_⟩⟩
    rcases r with e | buf
    · exact ⟨trivial, udpReceiveFailed_kept (g := (recorded inet udpFd).next g _ _) hk e⟩
    · have hdest : ((recorded inet udpFd).next g (.recv udpFd UDP_COPY_BUFFER_SIZE) (.ok buf)).1
          = { g.1 with dest := addressed inet buf } := if_pos rfl
      exact deliverUdpDatagram_spec (hk.seen (by rw [hdest]) (by rw [hdest])) (by rw [hdest])
  · simp only [bind_eq, pure_eq, wlp_bind]
    refine ⟨trivial, trivial, fun r _ => ⟨trivial, ?_⟩⟩
    rcases r with e | ⟨buf, clientAddr⟩
    · exact ⟨trivial, udpReceiveFailed_kept (g := (recorded inet udpFd).next g _ _) hk e⟩
    · unfold udpPinClient
      simp only [bind_eq, pure_eq, wlp_bind]
      refine ⟨trivial, trivial, fun r _ => ⟨trivial, ?_⟩⟩
      rcases r with e | _
      · exact ⟨trivial, trivial, trivial⟩
      · refine ⟨trivial, ?_⟩
        refine deliverUdpDatagram_spec (Kept.bound (hk.seen ?_ ?_) true) ?_ <;> rfl

theorem udpClient_spec (hk : Kept tcpFd udpFd s g) :
    wlp (recorded inet udpFd) (udpClient inet udpFd s) (Progressed tcpFd udpFd s) g := by
  unfold udpClient
  split
  · exact udpClientDatagram_spec hk
  · exact ⟨trivial, hk, .inl ⟨rfl, rfl⟩⟩

/-! ### Polling -/

theorem udpPoll_spec (hk : Kept tcpFd udpFd s g) :
    wlp (recorded inet udpFd) (udpPoll s) (fun flow g' =>
      match flow with
      | .next s' | .again s' => Kept tcpFd udpFd s' g'
      | .leave _ => True) g := by
  unfold udpPoll
  simp only [bind_eq, pure_eq, wlp_bind]
  refine ⟨trivial, trivial, fun r _ => ⟨trivial, ?_⟩⟩
  rcases r with _ | e | revents
  · exact ⟨trivial, trivial⟩
  · simp only
    split
    · exact ⟨trivial, hk⟩
    · exact ⟨trivial, trivial⟩
  · have hpolled : Kept tcpFd udpFd (s.polledWith revents) g :=
      ⟨hk.1.polledWith revents, ⟨hk.2.held, hk.2.owner⟩⟩
    simp only
    split
    · exact ⟨trivial, trivial⟩
    · split
      · exact ⟨trivial, trivial⟩
      · split
        · simp only [wlp_bind]
          refine ⟨trivial, trivial, fun r _ => ⟨trivial, ?_⟩⟩
          rcases r with e | buf
          · simp only
            split
            · exact ⟨trivial, hpolled⟩
            · exact ⟨trivial, trivial, fun _ _ => ⟨trivial, trivial⟩⟩
          · simp only
            split
            · exact ⟨trivial, trivial⟩
            · exact ⟨trivial, trivial⟩
        · exact ⟨trivial, hpolled⟩

theorem udpBeforeReplies_spec (hk : Kept tcpFd udpFd s g) :
    wlp (recorded inet udpFd) (udpBeforeReplies inet udpFd s) (fun flow g' =>
      match flow with
      | .next s' | .again s' => Kept tcpFd udpFd s' g'
      | .leave _ => True) g := by
  unfold udpBeforeReplies
  simp only [bind_eq, wlp_bind]
  refine wlp_mono _ ?_ (udpPoll_spec hk)
  rintro (s' | s' | e) g' h
  · refine wlp_mono _ ?_ (udpClient_spec h)
    rintro (s'' | s'' | e) g'' h'
    · exact h'.1
    · exact h'
    · trivial
  · exact ⟨trivial, h⟩
  · exact ⟨trivial, trivial⟩

/-! ### The loop over the destinations -/

/-- What one round over a destination leaves. -/
def Round (tcpFd udpFd : Fd) (s : UdpLoop) :
    (UdpLoop × Nat) ⊕ Flow → Assoc × Trace sys → Prop
  | .inl (s', i), g' => Kept tcpFd udpFd s' g' ∧ 2 ≤ i ∧
      (s' = s ∨ ∃ idx < s.sockList.items.length, s' = s.remove idx)
  | .inr (.next _), _ => False
  | .inr (.again s'), g' => Kept tcpFd udpFd s' g'
  | .inr (.leave _), _ => True

theorem closing_round (hk : Kept tcpFd udpFd s g) {i idx : Nat} (hi : 2 ≤ i)
    (hidx : idx < s.sockList.items.length) (state : ConnectionState) (errorCode : Errorcode) :
    wlp (recorded inet udpFd) (do
      let s ← closeUdpDestination s idx state errorCode
      return .inl (s, i)) (Round tcpFd udpFd s) g := by
  simp only [bind_eq, pure_eq, wlp_bind]
  refine wlp_mono _ ?_ (closeUdpDestination_spec hk hidx state errorCode)
  rintro s' g' ⟨rfl, hkept, -⟩
  exact ⟨trivial, hkept, hi, .inr ⟨idx, hidx, rfl⟩⟩

theorem udpReplyHeader_unknownType {addrport : Socks5Addrport}
    (h : udpReplyHeader inet addrport = .unknownType) : addrport.type = .unknown := by
  unfold udpReplyHeader at h
  split at h
  · cases h
  · split at h <;> cases h
  · split at h <;> cases h
  · assumption

theorem udpReply_spec (hk : Kept tcpFd udpFd s g) {i idx : Nat} (hi : 2 ≤ i)
    (hidx : idx < s.sockList.items.length) (hfd : s.sockList.items[idx].fd = (s.fds i).fd) :
    wlp (recorded inet udpFd) (udpReply inet udpFd s i idx) (Round tcpFd udpFd s) g := by
  have hitem : s.sockList.itemFromIndex idx = s.sockList.items[idx] :=
    List.getD_eq_getElem _ _ hidx
  have hmem := List.getElem_mem hidx
  have hne : ¬ (s.fds i).fd = udpFd := hfd ▸ (hk.1.wired.fd_ne_control hmem).2
  unfold udpReply
  rw [hitem]
  cases hheader : udpReplyHeader inet s.sockList.items[idx].addrport with
  | unknownType => exact absurd (udpReplyHeader_unknownType hheader) (hk.1.known _ hmem)
  | invalidAddress => exact closing_round hk hi hidx _ _
  | built header =>
      simp only [bind_eq, pure_eq, wlp_bind]
      refine ⟨trivial, trivial, fun r _ => ⟨trivial, ?_⟩⟩
      rcases r with e | payload
      · refine closing_round (hk.seen ?_ ?_) hi hidx _ _ <;> rfl
      · have hnext : ((recorded inet udpFd).next g (.recv (s.fds i).fd
            (UDP_COPY_BUFFER_SIZE - header.length)) (.ok payload)).1
              = { g.1 with reply := some ((s.fds i).fd, payload) } := if_neg hne
        have hk' : Kept tcpFd udpFd s ((recorded inet udpFd).next g (.recv (s.fds i).fd
            (UDP_COPY_BUFFER_SIZE - header.length)) (.ok payload)) :=
          hk.seen (by rw [hnext]) (by rw [hnext])
        have howner := (hk'.owner_iff hidx (s.fds i).fd).mpr hfd.symm
        refine (wlp_bind _).mpr (wlp_opened (fun _ _ => trivial) ?_)
        unfold recordDownloadedBytes
        simp only [bind_eq, pure_eq, wlp_bind]
        refine ⟨trivial, fun _ => ⟨(s.fds i).fd, payload, _, header, ?_, howner, hheader, rfl⟩,
          fun r _ => ⟨trivial, ?_⟩⟩
        · show ((recorded inet udpFd).next g _ _).1.reply = _
          rw [hnext]
        · rcases r with e | n
          · exact ⟨trivial, trivial, trivial⟩
          · refine (wlp_bind _).mpr (wlp_mono _ ?_ (recordBytes_spec .downloaded payload.length))
            rintro _ g' ⟨hg, -⟩
            have hkept : Kept tcpFd udpFd s g' := hk'.seen (by rw [hg]; rfl) (by rw [hg]; rfl)
            exact ⟨trivial, trivial, hkept, by omega, .inl rfl⟩

theorem udpRepliesBody_spec (hk : Kept tcpFd udpFd s g) {i : Nat} (hi : 2 ≤ i) :
    wlp (recorded inet udpFd) (udpRepliesBody inet udpFd (s, i)) (Round tcpFd udpFd s) g := by
  simp only [udpRepliesBody]
  split
  · rename_i hlt
    obtain ⟨hidx, hfd⟩ := hk.1.paired.item_of_entry hi hlt
    rw [hk.1.paired.search_fd hi hlt]
    simp only
    split
    · exact closing_round hk hi hidx _ _
    · split
      · exact ⟨trivial, hk, by omega, .inl rfl⟩
      · exact udpReply_spec hk hi hidx hfd
  · exact ⟨trivial, hk⟩

theorem udpReplies_spec (hk : Kept tcpFd udpFd s g) :
    wlp (recorded inet udpFd) (udpReplies inet udpFd s) (fun flow g' =>
      match flow with
      | .next s' | .again s' => Kept tcpFd udpFd s' g'
      | .leave _ => True) g := by
  refine wlp_iterate (fun x g => Kept tcpFd udpFd x.1 g ∧ 2 ≤ x.2) ⟨hk, le_rfl⟩ ?_
  rintro ⟨s, i⟩ g ⟨hk, hi⟩
  refine wlp_mono _ ?_ (udpRepliesBody_spec hk hi)
  rintro (⟨s', i'⟩ | (s' | s' | e)) g' h
  · exact ⟨h.1, h.2.1⟩
  · exact absurd h id
  · exact h
  · trivial

theorem copyLoopUdpBody_spec (hk : Kept tcpFd udpFd s g) :
    wlp (recorded inet udpFd) (copyLoopUdpBody inet udpFd s)
      (Sum.elim (Kept tcpFd udpFd) fun _ _ => True) g := by
  unfold copyLoopUdpBody
  simp only [bind_eq, pure_eq, wlp_bind]
  refine wlp_mono _ ?_ (udpBeforeReplies_spec hk)
  rintro (s' | s' | e) g' h
  · refine wlp_mono _ ?_ (udpReplies_spec h)
    rintro (s'' | s'' | e) g'' h'
    · exact ⟨trivial, h'⟩
    · exact ⟨trivial, h'⟩
    · exact ⟨trivial, trivial⟩
  · exact ⟨trivial, trivial, h⟩
  · exact ⟨trivial, trivial, trivial⟩

end Association

/-! ### A reply that was read -/

section Forwarding

variable {udpFd : Fd}

/-- What was just read from a destination, and on which socket. -/
def readReply (udpFd : Fd) : (o : Op) → o.Ret → Option (Fd × Bytes)
  | .recv fd _, .ok payload => if fd = udpFd then none else some (fd, payload)
  | _, _ => none

/-- A reply is written to the client before anything else is done. -/
def forwarding (udpFd : Fd) : Spec sys (Option (Fd × Bytes)) where
  rely _ _ _ := True
  guar waiting o := ∀ reply, waiting = some reply → ∃ header, o = .write udpFd (header ++ reply.2)
  next _ o r := readReply udpFd o r

/-- Whatever does not read from a socket. -/
def Op.unread : Op → Prop
  | .recv _ _ => False
  | _ => True

theorem readReply_unread {o : Op} (ho : o.unread) (r : o.Ret) : readReply udpFd o r = none := by
  cases o with
  | recv fd n => cases ho
  | _ => rfl

theorem forwarding_guar {waiting : Option (Fd × Bytes)} (h : waiting = none) (o : Op) :
    (forwarding udpFd).guar waiting o := by
  intro reply hreply
  rw [h] at hreply
  cases hreply

theorem wlp_unread {α : Type} {p : Server α} (hp : Uses Op.unread p)
    {waiting : Option (Fd × Bytes)} (h : waiting = none) :
    wlp (forwarding udpFd) p (fun _ waiting' => waiting' = none) waiting :=
  wlp_of_uses (fun _ _ => trivial) (fun _ o h _ => forwarding_guar h o)
    (fun _ _ r _ ho _ => readReply_unread ho r) hp h

theorem asks_unread {o : Op} (ho : o.unread) : Asks (forwarding udpFd) (· = none) o :=
  fun _ h => ⟨forwarding_guar h o, fun r _ => readReply_unread ho r⟩

theorem Op.reaching.unread : ∀ o : Op, o.reaching → o.unread := by
  intro o h
  cases o <;> trivial

/-- A reply that is there is written, and then nothing waits. -/
theorem writeRecorded_forwards (header : Bytes) (fd : Fd) (payload : Bytes) :
    wlp (forwarding udpFd) (writeRecorded udpFd header payload)
      (fun _ waiting => waiting = none) (if fd = udpFd then none else some (fd, payload)) := by
  refine wlp_opened (fun _ _ => trivial) ?_
  simp only [bind_eq, pure_eq, wlp_bind, wlp_write]
  refine ⟨trivial, ?_, fun r _ => ⟨trivial, ?_⟩⟩
  · rintro ⟨fd', payload'⟩ hreply
    split at hreply
    · cases hreply
    · cases hreply
      exact ⟨header, rfl⟩
  · rcases r with e | n
    · exact ⟨trivial, rfl⟩
    · exact (wlp_bind _).mpr (wlp_mono _ (fun _ _ h => ⟨trivial, h⟩)
        (wlp_unread (uses_recordBytes (fun _ _ => trivial) _ _) rfl))

theorem forwarding_rules (inet : Inet) (udpFd : Fd) :
    UdpRules (forwarding udpFd) inet udpFd (fun _ waiting => waiting = none) where
  inv _ _ _ := trivial
  abort _ _ h := forwarding_guar h _
  polled _ _ _ h := h
  pinned _ _ h := h
  poll _ := asks_unread trivial
  control _ := asks_unread trivial
  perror _ := asks_unread trivial
  receive _ := fun _ h => ⟨forwarding_guar h _, fun r _ => by
    rcases r with e | payload
    · rfl
    · exact if_pos rfl⟩
  receiveFrom _ := asks_unread trivial
  pin _ _ := asks_unread trivial
  closed s _ idx ec h _ _ := wlp_unread
    ((closeUdpDestination_reaching s idx .error ec).mono Op.reaching.unread) h
  opened s _ addrport h := wlp_mono _ (fun _ _ hr => ⟨hr.2, hr.1⟩) (wlp_returns
    (openUdpDestination_returns s addrport)
    (wlp_unread ((openUdpDestination_reaching s addrport).mono Op.reaching.unread) h))
  sent _ _ _ _ h _ := wlp_unread (sendRecorded_uses (fun _ => trivial) (fun _ _ => trivial) _) h
  replied s _ i _ header h _ _ _ := ⟨trivial, forwarding_guar h _, fun r _ => by
    rcases r with e | payload
    · exact ⟨trivial, rfl⟩
    · exact ⟨trivial, writeRecorded_forwards header (s.fds i).fd payload⟩⟩

end Forwarding

/-! ### Runs -/

section Runs

variable {inet : Inet} {tcpFd udpFd : Fd} {bound : Bool}

/-- A trace in which `socket` never returned a descriptor that was open. -/
def FreshSockets (inet : Inet) (tcpFd udpFd : Fd) (tr : Trace sys) : Prop :=
  (Assoc.spec inet udpFd).Legal (Assoc.initial tcpFd udpFd) tr

theorem Kept.initial (htu : tcpFd ≠ udpFd) :
    Kept tcpFd udpFd (initialUdpLoop tcpFd udpFd bound) (Assoc.initial tcpFd udpFd, []) := by
  refine ⟨⟨rfl, rfl, rfl, ?_, ?_, ?_, .nil, ?_⟩, ?_, ?_⟩
  · show 2 ≤ UDP_MAX_POLL_FDS
    decide
  · intro k hk
    simp [initialUdpLoop, Sblist.new] at hk
  · simp [initialUdpLoop, Sblist.new, htu]
  · intro item hi
    simp [initialUdpLoop, Sblist.new] at hi
  · intro fd
    simp [initialUdpLoop, Sblist.new, Assoc.initial]
  · intro fd addrport
    simp [initialUdpLoop, Sblist.new, Assoc.initial]

/-- Whole iterations keep the tables. -/
theorem iterations_follow (htu : tcpFd ≠ udpFd) {tr : Trace sys} {s : UdpLoop}
    (h : Iters (copyLoopUdpBody inet udpFd) (initialUdpLoop tcpFd udpFd bound) tr s) :
    (recorded inet udpFd).Follows (Assoc.initial tcpFd udpFd, []) tr (Kept tcpFd udpFd s) :=
  wlp_iters h (Kept tcpFd udpFd) (fun _ _ => True) (.initial htu) fun _ _ => copyLoopUdpBody_spec

/-- A run up to where the loop over the destinations looks at entry `i` of `s`: whole
iterations to `start`, then a poll to `polled`, the client's part to `served`, and some
rounds. -/
structure Inspects (inet : Inet) (tcpFd udpFd : Fd) (bound : Bool)
    (start polled served s : UdpLoop) (i : Nat) (before poll client rounds : Trace sys) : Prop where
  reached : Iters (copyLoopUdpBody inet udpFd) (initialUdpLoop tcpFd udpFd bound) before start
  polls : Eval (udpPoll start) poll (.next polled)
  serves : Eval (udpClient inet udpFd polled) client (.next served)
  looks : Iters (udpRepliesBody inet udpFd) (served, 2) rounds (s, i)
  entry : i < s.pollFds

/-- Every entry of `s` was an entry of `served`. -/
def Thinned (served s : UdpLoop) : Prop :=
  ∀ i, 2 ≤ i → i < s.pollFds → ∃ j, 2 ≤ j ∧ j < served.pollFds ∧ s.fds i = served.fds j

theorem Thinned.remove {served s : UdpLoop} (h : Thinned served s) {idx : Nat} :
    Thinned served (s.remove idx) := by
  intro i h₂ hi
  have hi : i < s.pollFds - 1 := hi
  show ∃ j, _ ∧ _ ∧ shiftDown s.fds s.pollFds (idx + 2) i = _
  unfold shiftDown
  split
  · exact h (i + 1) (by omega) (by omega)
  · exact h i h₂ (by omega)

/-- Rounds over the destinations keep the tables and add no entry. -/
theorem rounds_follow {served s : UdpLoop} {i : Nat} {tr : Trace sys} {g : Assoc × Trace sys}
    (h : Iters (udpRepliesBody inet udpFd) (served, 2) tr (s, i))
    (hk : Kept tcpFd udpFd served g) : (recorded inet udpFd).Follows g tr
      (fun g' => Kept tcpFd udpFd s g' ∧ 2 ≤ i ∧ Thinned served s) := by
  refine wlp_iters h
    (fun x g => Kept tcpFd udpFd x.1 g ∧ 2 ≤ x.2 ∧ Thinned served x.1) (fun _ _ => True)
    ⟨hk, le_rfl, fun i h₂ hi => ⟨i, h₂, hi, rfl⟩⟩ ?_
  rintro ⟨s, i⟩ g ⟨hk, hi, hthin⟩
  refine wlp_mono _ ?_ (udpRepliesBody_spec hk hi)
  rintro (⟨s', i'⟩ | r) g' hround
  · obtain ⟨hk', hi', rfl | ⟨idx, -, rfl⟩⟩ := hround
    · exact ⟨hk', hi', hthin⟩
    · exact ⟨hk', hi', hthin.remove⟩
  · trivial

/-- The tables wherever an entry is looked at, and on the way there. -/
theorem Inspects.kept {start polled served s : UdpLoop} {i : Nat}
    {before poll client rounds : Trace sys}
    (h : Inspects inet tcpFd udpFd bound start polled served s i before poll client rounds)
    (htu : tcpFd ≠ udpFd)
    (hl : FreshSockets inet tcpFd udpFd (before ++ (poll ++ (client ++ rounds)))) :
    Table tcpFd udpFd start ∧ Grew polled served ∧ Thinned served s ∧
      Table tcpFd udpFd s ∧ 2 ≤ i := by
  have hf : (recorded inet udpFd).Follows (Assoc.initial tcpFd udpFd, [])
      (before ++ (poll ++ (client ++ rounds))) (fun _ => Table tcpFd udpFd start ∧
        Grew polled served ∧ Thinned served s ∧ Table tcpFd udpFd s ∧ 2 ≤ i) := by
    refine (Spec.Follows.mono (fun g hstart => ?_) (iterations_follow htu h.reached)).append
    refine (Spec.Follows.mono (fun g hpolled => ?_) (wlp_eval h.polls (udpPoll_spec hstart))).append
    refine (Spec.Follows.mono (fun g hserved => ?_)
      (wlp_eval h.serves (udpClient_spec hpolled))).append
    refine Spec.Follows.mono (fun g hs => ?_) (rounds_follow h.looks hserved.1)
    exact ⟨hstart.1, hserved.2, hs.2.2, hs.1.1, hs.2.1⟩
  exact (hf.elim (Spec.recording_legal.mpr hl)).2

/-- Whatever was read from a destination was written to the client next, under the address its
socket was opened for, and the run does not end before that. -/
def RepliesForwarded (inet : Inet) (tcpFd udpFd : Fd) (tr : Trace sys) (rest : Server UdpEnd) :
    Prop :=
  ∀ pre fd n payload post, tr = pre ++ ⟨.recv fd n, .ok payload⟩ :: post → fd ≠ udpFd →
    (∀ e post', post = e :: post' → ∃ addrport header,
      ((Assoc.spec inet udpFd).run (.initial tcpFd udpFd) pre).owner fd = some addrport ∧
        udpReplyHeader inet addrport = .built header ∧ e.op = .write udpFd (header ++ payload)) ∧
    (post = [] → ∀ e, rest ≠ .ret e)

/-- What each spec says of the write after a reply fits together. -/
theorem repliesForwarded {tr : Trace sys} {rest : Server UdpEnd}
    (hg : (Assoc.spec inet udpFd).Guaranteed (.initial tcpFd udpFd) tr)
    (hf : (forwarding udpFd).Guaranteed none tr)
    (hend : ∀ e, rest = .ret e → (forwarding udpFd).run none tr = none) :
    RepliesForwarded inet tcpFd udpFd tr rest := by
  rintro pre fd n payload post rfl hfd
  have hreply : ∀ waiting, (forwarding udpFd).next waiting (.recv fd n) (.ok payload)
      = some (fd, payload) := fun _ => if_neg hfd
  refine ⟨?_, ?_⟩
  · rintro e post' rfl
    rw [List.append_cons] at hg hf
    obtain ⟨header, hwrite⟩ := hf.at (fd, payload) (by rw [Spec.run_append]; exact hreply _)
    have hguar := hg.at
    rw [hwrite] at hguar
    obtain ⟨source, payload', addrport, header', hread, howner, hbuilt, hbuf⟩ := hguar rfl
    rw [Spec.run_append] at hread howner
    have hnext : ∀ a : Assoc, (Assoc.spec inet udpFd).next a (.recv fd n) (.ok payload)
        = { a with reply := some (fd, payload) } := fun _ => if_neg hfd
    simp only [Spec.run_cons, Spec.run_nil, hnext] at hread howner
    cases hread
    exact ⟨addrport, header', howner, hbuilt, by rw [hwrite, hbuf]⟩
  · rintro rfl e rfl
    have hnone := hend e rfl
    rw [Spec.run_append] at hnone
    exact absurd ((hreply _).symm.trans hnone) (by simp)

/--
**The tables of a UDP association stay aligned.**

They do at the head of the poll loop.  Wherever the loop over the destinations looks at
an entry, it finds the entry's item, and can tell the address's type.  In any run, as
far as it has come, every payload was sent on the one socket opened for its address, every
reply that was read was written next and under the address its socket was opened for, nothing
else was written to the client, and the next thing is not an abort.
-/
theorem udpTables_aligned (inet : Inet) (tcpFd udpFd : Fd) (bound : Bool) (htu : tcpFd ≠ udpFd) :
    (∀ tr s, Iters (copyLoopUdpBody inet udpFd) (initialUdpLoop tcpFd udpFd bound) tr s →
      FreshSockets inet tcpFd udpFd tr → Table tcpFd udpFd s) ∧
    (∀ start polled served s i before poll client rounds,
      Inspects inet tcpFd udpFd bound start polled served s i before poll client rounds →
      FreshSockets inet tcpFd udpFd (before ++ (poll ++ (client ++ rounds))) →
      ∃ idx, s.sockList.search (fun item => (s.fds i).fd == item.fd) = some idx ∧
        udpReplyHeader inet (s.sockList.itemFromIndex idx).addrport ≠ .unknownType) ∧
    (∀ whole tr rest, Steps whole
        (iterate (copyLoopUdpBody inet udpFd) (initialUdpLoop tcpFd udpFd bound)) tr rest →
      FreshSockets inet tcpFd udpFd tr →
      (Assoc.spec inet udpFd).Guaranteed (Assoc.initial tcpFd udpFd) tr ∧
        RepliesForwarded inet tcpFd udpFd tr rest ∧ ∀ k, rest ≠ .call .abort k) := by
  refine ⟨fun tr s h hl => ?_, fun start polled served s i before poll client rounds h hl => ?_,
    fun whole tr rest h hl => ?_⟩
  · exact ((iterations_follow htu h).elim (Spec.recording_legal.mpr hl)).2.1
  · obtain ⟨-, -, -, ht, hi⟩ := h.kept htu hl
    obtain ⟨hidx, -⟩ := ht.paired.item_of_entry hi h.entry
    refine ⟨i - 2, ht.paired.search_fd hi h.entry, fun hu => ?_⟩
    have hitem : s.sockList.itemFromIndex (i - 2) = s.sockList.items[i - 2] :=
      List.getD_eq_getElem _ _ hidx
    rw [hitem] at hu
    exact ht.known _ (List.getElem_mem hidx) (udpReplyHeader_unknownType hu)
  · have hw : wlp (recorded inet udpFd)
        (iterate (copyLoopUdpBody inet udpFd) (initialUdpLoop tcpFd udpFd bound))
        (fun _ _ => True) (Assoc.initial tcpFd udpFd, []) :=
      wlp_iterate (Kept tcpFd udpFd) (.initial htu) fun _ _ => copyLoopUdpBody_spec
    obtain ⟨hg, hrest⟩ := (wlp_steps h (fun _ _ _ _ => trivial) hw).elim
      (Spec.recording_legal.mpr hl)
    have hguar := Spec.recording_guaranteed.mp hg
    have hfollows := wlp_steps h (fun _ _ _ _ => trivial)
      ((forwarding_rules inet udpFd).loop (s := initialUdpLoop tcpFd udpFd bound) rfl)
    obtain ⟨hf, hrest'⟩ := hfollows.elim (Spec.legal_iff.mpr fun _ _ _ _ => trivial)
    refine ⟨hguar, repliesForwarded hguar hf ?_, ?_⟩
    · rintro e rfl
      exact hrest'.2.1
    · rintro k rfl
      exact hrest.2.1

/-! ### A first datagram -/

/-- `192.0.2.1`, port 53. -/
def firstTarget : Socks5Addrport := copyAddrport .ipv4 (hostText 1) 53

/-- One byte to `firstTarget`. -/
def firstDatagram : Bytes := [0, 0, 0, 1, 192, 0, 2, 1, 0, 53, 7]

/-- The client is pinned, a socket is opened for its target, and the payload is sent. -/
def firstClient : Trace sys :=
  [⟨.recvfrom 5 UDP_COPY_BUFFER_SIZE, .ok (firstDatagram, .v4 localAddress 40000)⟩,
    ⟨.connect 5 (.v4 localAddress 40000), .ok ()⟩,
    ⟨.getaddrinfo firstTarget.addr 53 .dgram, some (.v4 (hostAddress 1) 53)⟩,
    ⟨.socket .inet .dgram, .ok 7⟩,
    ⟨.connect 7 (.v4 (hostAddress 1) 53), .ok ()⟩,
    ⟨.nextConnectionIdentifier, (1 : Int)⟩,
    ⟨.realloc 1, true⟩,
    ⟨.handler ⟨1, .udp, .opened, firstTarget.addr, 53, .success⟩, ()⟩,
    ⟨.send 7 [7], .ok 1⟩,
    ⟨.fetchAdd .uploaded 1, ()⟩]

def firstPoll : Trace sys :=
  [⟨.poll [(4, POLLIN), (5, POLLIN)] IDLE_TIMEOUT, .ready [0, POLLIN]⟩]

/-- The first target answers with one byte, which goes to the client. -/
def answered : Trace sys :=
  [⟨.poll [(4, POLLIN), (5, POLLIN), (7, POLLIN)] IDLE_TIMEOUT, .ready [0, 0, POLLIN]⟩,
    ⟨.recv 7 (UDP_COPY_BUFFER_SIZE - 10), .ok [9]⟩,
    ⟨.write 5 [0, 0, 0, 1, 192, 0, 2, 1, 0, 53, 9], .ok 11⟩,
    ⟨.fetchAdd .downloaded 1, ()⟩]

/-- A datagram out, its answer back, and then nothing for too long. -/
def exchange : Trace sys :=
  (firstPoll ++ firstClient) ++ answered ++
    [⟨.poll [(4, POLLIN), (5, POLLIN), (7, POLLIN)] IDLE_TIMEOUT, .timeout⟩]

theorem exchange_fresh : FreshSockets Inet.plain 4 5 exchange := by
  simp [FreshSockets, Spec.Legal, exchange, firstPoll, firstClient, answered, Assoc.spec,
    Assoc.rely, Assoc.next, Assoc.initial]

/-- There is one destination when the datagram is out, and its answer goes to the client. -/
theorem udpTables_aligned_first :
    (∃ s, s.pollFds = 3 ∧
      Iters (copyLoopUdpBody Inet.plain 5) (initialUdpLoop 4 5 false) (firstPoll ++ firstClient) s ∧
      Table 4 5 s) ∧
    ∃ rest, Steps (fun _ => False) (iterate (copyLoopUdpBody Inet.plain 5)
        (initialUdpLoop 4 5 false)) exchange rest ∧
      RepliesForwarded Inet.plain 4 5 exchange rest := by
  have hrun : Iters (copyLoopUdpBody Inet.plain 5) (initialUdpLoop 4 5 false)
      (firstPoll ++ firstClient) _ := .single (eval_of_replay 60 _ rfl)
  have hsteps : Steps (fun _ => False) (iterate (copyLoopUdpBody Inet.plain 5)
      (initialUdpLoop 4 5 false)) exchange _ := (eval_of_replay 60 exchange rfl).steps
  obtain ⟨htables, -, hruns⟩ := udpTables_aligned Inet.plain 4 5 false (by decide)
  refine ⟨⟨_, rfl, hrun, htables _ _ hrun ?_⟩, _, hsteps, (hruns _ _ _ hsteps exchange_fresh).2.1⟩
  simp [FreshSockets, Spec.Legal, firstPoll, firstClient, Assoc.spec, Assoc.rely, Assoc.next,
    Assoc.initial]

end Runs

end TwoSocks
