/-
A session does not spin.

An association has destinations, and each still has to be reported and closed.  `UdpLoop.due` puts
aside the operations for that when the destination is opened.  It is more than enough, and what is
left over pays for the next iteration when a destination is closed because it failed.

A reported destination need not be the one that the loop looks at next.  Until the loop comes to it,
one operation is owed (`Awaited`).

`session_work_linear` puts the parts together: the operations of a session are linear in what the
session was sent, however far it has come.
-/
import TwoSocks.Proofs.Costs
import TwoSocks.Proofs.Metering
import TwoSocks.Proofs.UdpSource

namespace TwoSocks

open Server Prog

/-! ### The destinations -/

/-- What is put aside for the destinations: four operations for an item, one for a poll entry. -/
def UdpLoop.due (s : UdpLoop) : Nat := 4 * s.sockList.getsize + (s.pollFds - 2)

section Destinations

variable {k c : Nat} {s : UdpLoop}

theorem removeUdpPollfd_le (fds : Nat → Pollfd) (pollFds : Nat) (fd : Fd) :
    (removeUdpPollfd fds pollFds fd).2 ≤ pollFds := by
  unfold removeUdpPollfd
  split
  · exact Nat.sub_le _ _
  · exact le_rfl

/-- Closing a destination leaves two operations over. -/
theorem closeUdpDestination_costs {idx : Nat} (hidx : idx < s.sockList.getsize)
    (state : ConnectionState) (ec : Errorcode) (h : k + s.due ≤ c) :
    wlp costSpec (closeUdpDestination s idx state ec) (fun s' c' => k + 2 + s'.due ≤ c') c := by
  have hsize : (s.sockList.delete idx).getsize = s.sockList.getsize - 1 :=
    List.length_eraseIdx_of_lt hidx
  have hle := removeUdpPollfd_le s.fds s.pollFds (s.sockList.itemFromIndex idx).fd
  have hwithin : Within 2 (closeUdpDestination s idx state ec) :=
    (Within.perform _).bind fun _ => (Within.perform _).bind fun _ => trivial
  have hdue : Returns (fun s' => s'.due + 4 ≤ s.due) (closeUdpDestination s idx state ec) := by
    refine .bind (.any _) fun _ _ => .bind (.any _) fun _ _ => ?_
    show 4 * (s.sockList.delete idx).getsize
      + ((removeUdpPollfd s.fds s.pollFds (s.sockList.itemFromIndex idx).fd).2 - 2) + 4
        ≤ 4 * s.sockList.getsize + (s.pollFds - 2)
    omega
  have hpaid : k + s.due - 2 + 2 ≤ c := by
    unfold UdpLoop.due at h ⊢
    omega
  refine wlp_mono _ ?_ (wlp_returns hdue (hwithin.leaves hpaid))
  rintro s' c' ⟨hs', hc'⟩
  omega

theorem within_failUdpDestination (addrport : Socks5Addrport) (ec : Errorcode) :
    Within 2 (failUdpDestination addrport ec) :=
  (Within.perform _).bind fun _ => .perform _

theorem within_openUdpDestination (s : UdpLoop) (addrport : Socks5Addrport) :
    Within 7 (openUdpDestination s addrport) := by
  have hfailed : ∀ ec, Within 2 (do failUdpDestination addrport ec; return (s, none) :
      Server (UdpLoop × Option (Fd × Nat))) := fun ec =>
    (within_failUdpDestination _ _).bind (n := 0) fun _ => trivial
  have hgiveUp : ∀ fd id, Within 2 (do
      close fd
      emitAddrportConnectionEvent id .udp .error addrport .generalFailure
      return (s, none) : Server (UdpLoop × Option (Fd × Nat))) := fun _ _ =>
    (Within.perform _).bind fun _ => (Within.perform _).bind fun _ => trivial
  refine (within_resolveSocks5Addrport _ _).bind fun r => ?_
  rcases r with ec | targetAddr
  · exact (hfailed _).mono (by omega)
  refine (Within.perform _).bind fun r => ?_
  rcases r with e | fd
  · exact (hfailed _).mono (by omega)
  refine (Within.perform _).bind fun r => ?_
  rcases r with e | ⟨⟩
  · exact ((Within.perform _).bind fun _ => hfailed _).mono (by omega)
  refine (Within.perform _).bind fun id => ?_
  dsimp only
  split
  · exact (hgiveUp _ _).mono (by omega)
  refine (within_sblistAdd _ _).bind fun r => ?_
  rcases r with _ | sockList
  · exact hgiveUp _ _
  · exact (Within.perform _).bind fun _ => trivial

/-- A destination that is opened adds to what is due. -/
theorem openUdpDestination_due (s : UdpLoop) (addrport : Socks5Addrport) :
    Returns (fun r => r.1.due ≤ s.due + 5) (openUdpDestination s addrport) := by
  have hsame : ∀ p : Server Unit, Returns (fun r : UdpLoop × Option (Fd × Nat) =>
      r.1.due ≤ s.due + 5) (do p; return (s, none)) :=
    fun p => .bind (.any p) fun _ _ => Nat.le_add_right _ _
  refine .bind (.any _) fun r _ => ?_
  rcases r with ec | targetAddr
  · exact hsame _
  refine .bind (.any _) fun r _ => ?_
  rcases r with e | fd
  · exact hsame _
  refine .bind (.any _) fun r _ => ?_
  rcases r with e | ⟨⟩
  · exact .bind (.any _) fun _ _ => hsame _
  refine .bind (.any _) fun id _ => ?_
  dsimp only
  split
  · exact .bind (.any _) fun _ _ => hsame _
  refine .bind (sblistAdd_returns _ _) fun r hr => ?_
  rcases r with _ | sockList
  · exact .bind (.any _) fun _ _ => hsame _
  have hsize : sockList.getsize = s.sockList.getsize + 1 := by
    unfold Sblist.getsize
    rw [hr sockList rfl, List.length_append, List.length_singleton]
  refine .bind (.any _) fun _ _ => ?_
  show 4 * sockList.getsize + (s.pollFds + 1 - 2) ≤ 4 * s.sockList.getsize + (s.pollFds - 2) + 5
  omega

theorem openUdpDestination_costs (addrport : Socks5Addrport) (h : k + 12 + s.due ≤ c) :
    wlp costSpec (openUdpDestination s addrport) (fun r c' => k + r.1.due ≤ c' ∧
      ∀ fd idx, r.2 = some (fd, idx) → idx < r.1.sockList.getsize) c := by
  have hpaid : k + 5 + s.due + 7 ≤ c := by omega
  refine wlp_mono _ ?_ (wlp_returns (openUdpDestination_returns s addrport)
    (wlp_returns (openUdpDestination_due s addrport)
      ((within_openUdpDestination s addrport).leaves hpaid)))
  rintro ⟨s', r⟩ c' ⟨hidx, hdue, hc'⟩
  have hdue : s'.due ≤ s.due + 5 := hdue
  refine ⟨show k + s'.due ≤ c' by omega, fun fd idx hr => ?_⟩
  obtain ⟨hlt, -⟩ := hidx fd idx hr
  exact hlt

end Destinations

/-! ### The parts of an iteration -/

/-- What the end of a part leaves: enough for the next iteration or for the end of the loop, and `Φ`
if the iteration goes on. -/
def Flow.Leaves (Φ : UdpLoop → Nat → Prop) (k : Nat) : Flow → Nat → Prop
  | .next s, c => Φ s c
  | .again s, c => k + 3 + s.due ≤ c
  | .leave e, c => k + e.loop.due ≤ c

/-- A descriptor is still to come that `poll` said something about, or the iteration is paid for. -/
def Awaited (k : Nat) (s : UdpLoop) (i : Nat) (c : Nat) : Prop :=
  k + 2 + s.due ≤ c ∧
    (k + 3 + s.due ≤ c ∨ ∃ j, i ≤ j ∧ j < s.pollFds ∧ PollReports (s.fds j).revents)

section Iteration

variable {k c : Nat} {s : UdpLoop}

theorem Awaited.paid {i : Nat} (h : k + 3 + s.due ≤ c) : Awaited k s i c :=
  ⟨by omega, .inl h⟩

/-- The client socket is readable or a destination is awaited.  The control socket was looked at
already. -/
def Woken (k : Nat) (s : UdpLoop) (c : Nat) : Prop :=
  k + 2 + s.due ≤ c ∧ (pollReventsHaveInput (s.fds 1).revents = true ∨ Awaited k s 2 c)

/-- What was reported is not about the first two sockets, so a destination is still to come. -/
theorem Woken.of_reports (hc : k + 2 + s.due ≤ c)
    (hreports : ∃ j < s.pollFds, PollReports (s.fds j).revents)
    (herror : ∀ j < 2, pollReventsHaveError (s.fds j).revents = false)
    (hhangup : ∀ j < 2, pollReventsHaveHangup (s.fds j).revents = false)
    (hcontrol : pollReventsHaveInput (s.fds 0).revents = false) : Woken k s c := by
  refine ⟨hc, ?_⟩
  by_cases hclient : pollReventsHaveInput (s.fds 1).revents = true
  · exact .inl hclient
  rw [Bool.not_eq_true] at hclient
  obtain ⟨j, hj, hrep⟩ := hreports
  refine .inr ⟨hc, .inr ⟨j, ?_, hj, hrep⟩⟩
  by_contra hlt
  have hlt : j < 2 := not_le.mp hlt
  have hinput : pollReventsHaveInput (s.fds j).revents = true := by
    simpa [PollReports, herror j hlt, hhangup j hlt] using hrep
  interval_cases j
  · simp [hcontrol] at hinput
  · simp [hclient] at hinput

theorem udpPoll_costs (h : k + 3 + s.due ≤ c) :
    wlp costSpec (udpPoll s) (Flow.Leaves (Woken k) k) c := by
  unfold udpPoll
  simp only [bind_eq, pure_eq, wlp_bind, TwoSocks.wlp_poll, Spec.paying_inv, Spec.paying_guar,
    Spec.paying_rely, Spec.paying_next, true_and]
  refine ⟨by omega, fun r hr => ?_⟩
  rcases r with _ | e | revents
  · exact ⟨trivial, show k + s.due ≤ _ by omega⟩
  · dsimp only
    split
    · rename_i he
      rw [worth_poll_failed he]
      exact ⟨trivial, show k + 3 + s.due ≤ _ by omega⟩
    · exact ⟨trivial, show k + s.due ≤ _ by omega⟩
  set s' : UdpLoop := { s with fds := storeRevents s.fds s.pollFds revents } with hs'
  have hdue : s'.due = s.due := rfl
  have hc : k + 2 + s'.due ≤ c - 1 + worth ⟨.poll s.polled IDLE_TIMEOUT, .ready revents⟩ := by
    rw [hdue]
    omega
  have hreports : ∃ j < s'.pollFds, PollReports (s'.fds j).revents := by
    obtain ⟨j, hj, hrep⟩ := hr
    have hj : j < s.pollFds := by simpa [UdpLoop.polled] using hj
    refine ⟨j, hj, ?_⟩
    have hstored : (s'.fds j).revents = revents.getD j 0 := by
      simp [hs', storeRevents, hj]
    rwa [hstored]
  generalize c - 1 + worth ⟨.poll s.polled IDLE_TIMEOUT, .ready revents⟩ = c' at hc
  dsimp only
  split
  · exact ⟨trivial, show k + s'.due ≤ c' by omega⟩
  rename_i herror
  split
  · exact ⟨trivial, show k + s'.due ≤ c' by omega⟩
  rename_i hhangup
  split
  · simp only [wlp_bind, wlp_read, Spec.paying_inv, Spec.paying_guar,
      Spec.paying_rely, Spec.paying_next, true_and]
    refine ⟨by omega, fun r _ => ?_⟩
    rcases r with e | buf
    · dsimp only
      split
      · rename_i he
        rw [worth_read_error he]
        exact ⟨trivial, show k + 3 + s'.due ≤ _ by omega⟩
      · simp only [wlp_bind]
        refine ⟨trivial, show 0 < _ by omega, fun _ _ => ⟨trivial, trivial, ?_⟩⟩
        show k + s'.due ≤ _ - 1 + _
        omega
    · dsimp only
      split <;> exact ⟨trivial, show k + s'.due ≤ _ by omega⟩
  · rename_i hcontrol
    simp only [Bool.or_eq_true, not_or, Bool.not_eq_true] at herror hhangup hcontrol
    refine ⟨trivial, Woken.of_reports hc hreports ?_ ?_ hcontrol⟩ <;> intro j hj <;>
      interval_cases j
    · exact herror.1
    · exact herror.2
    · exact hhangup.1
    · exact hhangup.2

/-! ### A datagram from the client -/

theorem sendRecorded_costs (fd : Fd) (payload : Bytes) (h : k + 2 ≤ c) :
    wlp costSpec (sendRecorded fd payload) (fun _ c' => k ≤ c') c := by
  have hsend : Within 2 (sendRecorded fd payload) := by
    refine .atomically ((Within.perform _).bind fun r => ?_)
    rcases r with e | n
    · trivial
    · exact (within_recordBytes _ _).bind fun _ => trivial
  exact hsend.leaves h

theorem writeRecorded_costs (udpFd : Fd) (header payload : Bytes) (h : k + 2 ≤ c) :
    wlp costSpec (writeRecorded udpFd header payload) (fun _ c' => k ≤ c') c := by
  have hwrite : Within 2 (writeRecorded udpFd header payload) := by
    refine .atomically ((Within.perform _).bind fun r => ?_)
    rcases r with e | n
    · trivial
    · exact (within_recordBytes _ _).bind fun _ => trivial
  exact hwrite.leaves h

/-- An iteration that goes on is paid for. -/
def Paid (k : Nat) (s : UdpLoop) (c : Nat) : Prop := k + 3 + s.due ≤ c

theorem sendUdpPayload_costs {idx : Nat} (hidx : idx < s.sockList.getsize) (fd : Fd)
    (payload : Bytes) (h : k + 5 + s.due ≤ c) :
    wlp costSpec (sendUdpPayload s fd idx payload) (Flow.Leaves (Paid k) k) c := by
  unfold sendUdpPayload
  simp only [bind_eq, wlp_bind]
  refine wlp_mono _ (fun r c' h' => ?_)
    (sendRecorded_costs (k := k + 3 + s.due) fd payload (by omega))
  rcases r with e | n
  · simp only [wlp_bind]
    refine wlp_mono _ (fun s' c'' h'' => ⟨trivial, show k + 3 + s'.due ≤ c'' by omega⟩)
      (closeUdpDestination_costs (k := k + 3) hidx _ _ h')
  · exact ⟨trivial, h'⟩

theorem forwardUdpPayload_costs (addrport : Socks5Addrport) (payload : Bytes)
    (h : k + 17 + s.due ≤ c) :
    wlp costSpec (forwardUdpPayload s addrport payload) (Flow.Leaves (Paid k) k) c := by
  unfold forwardUdpPayload
  split
  · rename_i idx hsearch
    obtain ⟨hidx, -, -⟩ := List.findIdx?_eq_some_iff_getElem.mp hsearch
    exact sendUdpPayload_costs hidx _ _ (by omega)
  simp only [bind_eq, wlp_bind]
  refine wlp_mono _ ?_ (openUdpDestination_costs (k := k + 5) addrport (by omega))
  rintro ⟨s', r⟩ c' ⟨hc', hidx⟩
  have hc' : k + 5 + s'.due ≤ c' := hc'
  rcases r with _ | ⟨fd, idx⟩
  · exact ⟨trivial, show k + 3 + s'.due ≤ c' by omega⟩
  · exact sendUdpPayload_costs (hidx fd idx rfl) _ _ hc'

theorem deliverUdpDatagram_costs (inet : Inet) (buf : Bytes) (h : k + 17 + s.due ≤ c) :
    wlp costSpec (deliverUdpDatagram inet s buf) (Flow.Leaves (Paid k) k) c := by
  unfold deliverUdpDatagram
  split
  · exact ⟨trivial, show k + s.due ≤ c by omega⟩
  · exact forwardUdpPayload_costs _ _ h

theorem udpReceiveFailed_costs (e : Errno) (h : k + s.due ≤ c)
    (hagain : e = .eintr ∨ e = .eagain → k + 3 + s.due ≤ c) :
    (udpReceiveFailed s e).Leaves (Paid k) k c := by
  unfold udpReceiveFailed
  split
  · exact hagain ‹_›
  · exact h

theorem udpClientDatagram_costs (inet : Inet) (udpFd : Fd) (h : k + 2 + s.due ≤ c) :
    wlp costSpec (udpClientDatagram inet udpFd s) (Flow.Leaves (Paid k) k) c := by
  unfold udpClientDatagram
  split
  · simp only [bind_eq, pure_eq, wlp_bind, wlp_recv, Spec.paying_inv, Spec.paying_guar,
      Spec.paying_rely, Spec.paying_next, true_and]
    refine ⟨by omega, fun r _ => ?_⟩
    rcases r with e | buf
    · refine ⟨trivial, udpReceiveFailed_costs e (by omega) fun he => ?_⟩
      rw [worth_recv_error he]
      omega
    · rw [worth_recv]
      exact deliverUdpDatagram_costs inet buf (by omega)
  · simp only [bind_eq, pure_eq, wlp_bind, wlp_recvfrom, Spec.paying_inv, Spec.paying_guar,
      Spec.paying_rely, Spec.paying_next, true_and]
    refine ⟨by omega, fun r _ => ?_⟩
    rcases r with e | ⟨buf, clientAddr⟩
    · refine ⟨trivial, udpReceiveFailed_costs e (by omega) fun he => ?_⟩
      rw [worth_recvfrom_error he]
      omega
    · rw [worth_recvfrom]
      unfold udpPinClient
      simp only [bind_eq, pure_eq, wlp_bind, wlp_connect, Spec.paying_inv, Spec.paying_guar,
        Spec.paying_rely, Spec.paying_next, true_and]
      refine ⟨by omega, fun r _ => ?_⟩
      rcases r with e | ⟨⟩
      · exact ⟨trivial, trivial, show k + s.due ≤ _ by omega⟩
      · refine ⟨trivial, ?_⟩
        have hdue : ({ s with udpIsBound := true } : UdpLoop).due = s.due := rfl
        exact deliverUdpDatagram_costs inet buf (by omega)

/-! ### Replies from the destinations -/

/-- What a round of the loop over the destinations leaves. -/
def Replied (k : Nat) : (UdpLoop × Nat) ⊕ Flow → Nat → Prop :=
  Sum.elim (fun p c => Awaited k p.1 p.2 c) (Flow.Leaves (fun _ _ => False) k)

theorem udpReply_costs (inet : Inet) (udpFd : Fd) {idx : Nat} (hidx : idx < s.sockList.getsize)
    (i : Nat) (h : k + 2 + s.due ≤ c) :
    wlp costSpec (udpReply inet udpFd s i idx) (Replied k) c := by
  have hclosed : ∀ {c : Nat} (ec : Errorcode), k + 1 + s.due ≤ c →
      wlp costSpec (do
        let s ← closeUdpDestination s idx .error ec
        return .inl (s, i)) (Replied k) c := fun ec h =>
    (wlp_bind _).mpr (wlp_mono _ (fun s' _ h' => ⟨trivial, Awaited.paid (by omega)⟩)
      (closeUdpDestination_costs (k := k + 1) hidx .error ec h))
  unfold udpReply
  split
  · exact wlp_abort.mpr ⟨trivial, show 0 < c by omega⟩
  · exact hclosed _ (by omega)
  rename_i header hheader
  simp only [bind_eq, pure_eq, wlp_bind, wlp_recv, Spec.paying_inv, Spec.paying_guar,
    Spec.paying_rely, Spec.paying_next, true_and]
  refine ⟨by omega, fun r _ => ?_⟩
  rcases r with e | payload
  · exact hclosed _ (by omega)
  rw [worth_recv]
  simp only [wlp_bind]
  refine wlp_mono _ (fun r c' h' => ?_)
    (writeRecorded_costs (k := k + 3 + s.due) udpFd header payload (by omega))
  rcases r with e | n
  · exact ⟨trivial, show k + s.due ≤ c' by omega⟩
  · exact ⟨trivial, Awaited.paid h'⟩

theorem udpRepliesBody_costs (inet : Inet) (udpFd : Fd) {i : Nat} (h : Awaited k s i c) :
    wlp costSpec (udpRepliesBody inet udpFd (s, i)) (Replied k) c := by
  obtain ⟨hc, hawaited⟩ := h
  unfold udpRepliesBody
  dsimp only
  split
  · split
    · exact ⟨trivial, show k + s.due ≤ c by omega⟩
    rename_i idx hsearch
    obtain ⟨hidx, -, -⟩ := List.findIdx?_eq_some_iff_getElem.mp hsearch
    split
    · simp only [bind_eq, pure_eq, wlp_bind]
      refine wlp_mono _ (fun s' c' h' => ?_) (closeUdpDestination_costs (k := k + 2) hidx _ _ hc)
      have hpaid : k + 3 + s'.due ≤ c' := by omega
      exact ⟨trivial, Awaited.paid hpaid⟩
    rename_i hbroken
    split
    · -- Nothing was reported for this one, so the one that is awaited is another.
      rename_i hidle
      refine ⟨trivial, hc, hawaited.imp_right ?_⟩
      rintro ⟨j, hij, hj, hrep⟩
      refine ⟨j, Nat.lt_of_le_of_ne hij ?_, hj, hrep⟩
      rintro rfl
      simp only [Bool.or_eq_true, not_or, Bool.not_eq_true] at hbroken
      simp [PollReports, hbroken] at hrep
      simp [hrep] at hidle
    · exact udpReply_costs inet udpFd hidx i hc
  · rename_i hend
    refine ⟨trivial, show k + 3 + s.due ≤ c from ?_⟩
    rcases hawaited with hpaid | ⟨j, hij, hj, -⟩
    · exact hpaid
    · omega

theorem udpReplies_costs (inet : Inet) (udpFd : Fd) (h : Awaited k s 2 c) :
    wlp costSpec (udpReplies inet udpFd s) (Flow.Leaves (fun _ _ => False) k) c :=
  wlp_iterate (fun p c' => Awaited k p.1 p.2 c') h fun _ _ h' => udpRepliesBody_costs inet udpFd h'

/-! ### The association -/

theorem andThen_costs {Φ Ψ : UdpLoop → Nat → Prop} {f : UdpLoop → Server Flow}
    (hf : ∀ s c, Φ s c → wlp costSpec (f s) (Flow.Leaves Ψ k) c) {flow : Flow}
    (h : flow.Leaves Φ k c) : wlp costSpec (flow.andThen f) (Flow.Leaves Ψ k) c := by
  cases flow with
  | next s => exact hf s c h
  | again s => exact ⟨trivial, h⟩
  | leave e => exact ⟨trivial, h⟩

theorem udpClient_costs (inet : Inet) (udpFd : Fd) (h : Woken k s c) :
    wlp costSpec (udpClient inet udpFd s) (Flow.Leaves (fun s' c' => Awaited k s' 2 c') k) c := by
  unfold udpClient
  split
  · refine wlp_mono _ (fun flow c' h' => ?_) (udpClientDatagram_costs inet udpFd h.1)
    cases flow with
    | next s' => exact Awaited.paid h'
    | again s' => exact h'
    | leave e => exact h'
  · rename_i hidle
    exact ⟨trivial, h.2.resolve_left hidle⟩

theorem udpBeforeReplies_costs (inet : Inet) (udpFd : Fd) (h : k + 3 + s.due ≤ c) :
    wlp costSpec (udpBeforeReplies inet udpFd s)
      (Flow.Leaves (fun s' c' => Awaited k s' 2 c') k) c := by
  have hclient : ∀ s' c', Woken k s' c' → wlp costSpec (udpClient inet udpFd s')
      (Flow.Leaves (fun s' c' => Awaited k s' 2 c') k) c' :=
    fun _ _ h' => udpClient_costs inet udpFd h'
  exact (wlp_bind _).mpr (wlp_mono _ (fun _ _ h' => andThen_costs hclient h') (udpPoll_costs h))

theorem copyLoopUdpBody_costs (inet : Inet) (udpFd : Fd) (h : k + 3 + s.due ≤ c) :
    wlp costSpec (copyLoopUdpBody inet udpFd s) (Sum.elim (fun s' c' => k + 3 + s'.due ≤ c')
      (fun e c' => k + e.loop.due ≤ c')) c := by
  have hreplies : ∀ s' c', Awaited k s' 2 c' → wlp costSpec (udpReplies inet udpFd s')
      (Flow.Leaves (fun _ _ => False) k) c' := fun _ _ h' => udpReplies_costs inet udpFd h'
  refine (wlp_bind _).mpr (wlp_mono _ (fun flow c₁ h₁ => ?_) (udpBeforeReplies_costs inet udpFd h))
  refine (wlp_bind _).mpr (wlp_mono _ (fun flow' c₂ h₂ => ?_) (andThen_costs hreplies h₁))
  cases flow' with
  | next s' => exact h₂.elim
  | again s' => exact ⟨trivial, h₂⟩
  | leave e => exact ⟨trivial, h₂⟩

theorem udpLoopEnd_costs (e : UdpEnd) (h : k + e.loop.due ≤ c) :
    wlp costSpec (udpLoopEnd e) (fun _ c' => k ≤ c') c := by
  have hreport : ∀ item : FdSocks5addr, Within 1 (emitAddrportConnectionEvent item.connectionId
      .udp e.finalState item.addrport e.errorCode) := fun _ => .perform _
  have hclose : ∀ i, Within 1 (Server.close (e.loop.fds i).fd) := fun _ => .perform _
  refine ((within_forEach hreport _).bind fun _ => within_forEach hclose _).leaves ?_
  have hdue : e.loop.due = 4 * e.loop.sockList.items.length + (e.loop.pollFds - 2) := rfl
  rw [List.length_range']
  omega

theorem copyLoopUdp_costs (inet : Inet) (tcpFd udpFd : Fd) (h : k + 7 ≤ c) :
    wlp costSpec (copyLoopUdp inet tcpFd udpFd) (fun _ c' => k ≤ c') c := by
  have hbound : Within 2 (udpIsBound udpFd) := by
    refine (Within.perform _).bind fun r => ?_
    rcases r with e | addr
    · dsimp only
      split
      · trivial
      · exact ⟨Nat.one_pos, fun r => Empty.elim r⟩
    · trivial
  unfold copyLoopUdp
  simp only [bind_eq, wlp_bind]
  refine wlp_mono _ (fun bound c₁ h₁ => ?_) (hbound.leaves (k := k + 5) (by omega))
  refine wlp_mono _ (fun buf c₂ h₂ => ?_) ((Within.perform _).leaves (k := k + 4) (by omega))
  refine wlp_mono _ (fun sockList c₃ h₃ => ?_) ((Within.perform _).leaves (k := k + 3) (by omega))
  split
  · simp only [wlp_bind]
    have hnone : (initialUdpLoop tcpFd udpFd bound).due = 0 := rfl
    refine wlp_mono _ (fun e c' h' => udpLoopEnd_costs e h')
      (wlp_iterate (fun s c' => k + 3 + s.due ≤ c') (by omega) fun s c' h' => ?_)
    exact copyLoopUdpBody_costs inet udpFd h'
  · exact ⟨trivial, by omega⟩

end Iteration

/-! ### The session -/

section Session

variable {k c : Nat} (inet : Inet) (cfg : Config) (client : Client)

theorem runRelay_costs (relay : Relay) (h : k + 13 ≤ c) :
    wlp costSpec (runRelay inet client relay) (fun _ c' => k ≤ c') c := by
  cases relay with
  | none => exact ⟨trivial, show k ≤ c by omega⟩
  | tcp remotefd connectionId requestedAddr =>
      unfold runRelay
      simp only [bind_eq, wlp_bind]
      refine wlp_mono _ (fun _ c₁ h₁ => ?_) ((Within.perform _).leaves (k := k + 12) (by omega))
      refine wlp_mono _ (fun state c₂ h₂ => ?_) (copyloop_costs (k := k + 2) _ _ (by omega))
      refine wlp_mono _ (fun _ c₃ h₃ => ?_) ((Within.perform _).leaves (k := k + 1) (by omega))
      exact (Within.perform _).leaves h₃
  | udp fd =>
      unfold runRelay
      simp only [bind_eq, wlp_bind]
      refine wlp_mono _ (fun _ c₁ h₁ => ?_) (copyLoopUdp_costs (k := k + 1) inet _ _ (by omega))
      exact (Within.perform _).leaves h₁

theorem serveRequest_costs (buf : Bytes) (h : k + 22 ≤ c) :
    wlp costSpec (serveRequest inet client buf) (fun _ c' => k ≤ c') c := by
  unfold serveRequest
  simp only [bind_eq, wlp_bind]
  exact wlp_mono _ (fun relay _ h' => runRelay_costs inet client relay h')
    ((within_setupRequest inet client buf).leaves (k := k + 13) (by omega))

/-- A message pays for what it brings about, and for waiting for the next one. -/
theorem clientthreadBody_costs (h : k + 1 ≤ c) :
    wlp costSpec (clientthreadBody inet cfg client ())
      (Sum.elim (fun _ c' => k + 1 ≤ c') (fun _ c' => k ≤ c')) c := by
  unfold clientthreadBody
  simp only [bind_eq, pure_eq, wlp_bind, wlp_recv, Spec.paying_inv, Spec.paying_guar,
    Spec.paying_rely, Spec.paying_next, true_and]
  refine ⟨by omega, fun r _ => ?_⟩
  rcases r with e | buf
  · exact ⟨trivial, show k ≤ _ by omega⟩
  rw [worth_recv]
  dsimp only
  split
  · exact ⟨trivial, show k ≤ _ by omega⟩
  have hstay : ∀ (r : Unit ⊕ Unit) (c' : Nat), k + 1 ≤ c' →
      Sum.elim (fun _ c' => k + 1 ≤ c') (fun _ c' => k ≤ c') r c' := by
    intro r c' h'
    rcases r with ⟨⟩ | ⟨⟩
    · exact h'
    · exact Nat.le_of_succ_le h'
  simp only [wlp_bind]
  refine wlp_mono _ (fun state c₁ h₁ => ?_)
    ((Within.perform _).leaves (k := k + 30 + 3 * buf.length) (by omega))
  cases state with
  | ss1Connected =>
      exact wlp_mono _ hstay ((within_selectMethod cfg client buf).leaves (by omega))
  | ss2NeedAuth => exact wlp_mono _ hstay ((within_authenticate cfg client buf).leaves (by omega))
  | ss3Authed =>
      refine (wlp_bind _).mpr (wlp_mono _ (fun _ c' h' => ⟨trivial, h'⟩)
        (serveRequest_costs inet client buf (by omega)))

theorem clientthread_costs :
    wlp costSpec (clientthread inet cfg client) (fun _ _ => True) 4 := by
  unfold clientthread
  simp only [bind_eq, wlp_bind]
  refine wlp_mono _ (fun _ c₁ h₁ => ?_) ((Within.perform _).leaves (k := 3) (by omega))
  refine wlp_mono _ (fun _ c₂ h₂ => ?_)
    (wlp_iterate (fun _ c' => 2 + 1 ≤ c') h₁ fun _ _ h' =>
      clientthreadBody_costs inet cfg client h')
  refine wlp_mono _ (fun _ c₃ h₃ => ?_) ((Within.perform _).leaves (k := 1) h₂)
  exact wlp_mono _ (fun _ _ _ => trivial) ((Within.perform _).leaves (k := 0) h₃)

end Session

/-! ### Every session -/

/-- How often something was received, which may have been the end of a connection. -/
def receipts (tr : Trace sys) : Nat := (tr.map receipt).sum

/-- How often waiting was interrupted. -/
def interruptions (tr : Trace sys) : Nat := (tr.map interruption).sum

/-- How many octets were received in all. -/
def octetsReceived (tr : Trace sys) : Nat := (tr.map octets).sum

theorem worth_sum (tr : Trace sys) :
    (tr.map worth).sum = 32 * (receipts tr + interruptions tr) + 3 * octetsReceived tr := by
  induction tr with
  | nil => rfl
  | cons e tr ih =>
      simp only [receipts, interruptions, octetsReceived, List.map_cons, List.sum_cons] at ih ⊢
      rw [ih, worth_eq]
      omega

/-- **The work of a session is linear in what it is sent**, however far it has come.  A message, an
end or an interruption is worth 32 operations, an octet three more. -/
theorem session_work_linear (inet : Inet) (cfg : Config) (client : Client) {whole : Block → Prop}
    {tr : Trace sys} {p : Server Unit} (h : Steps whole (clientthread inet cfg client) tr p)
    (hprompt : ∀ e ∈ tr, Prompt e) :
    tr.length ≤ 4 + 32 * (receipts tr + interruptions tr) + 3 * octetsReceived tr := by
  have hfollows := wlp_steps h (fun _ _ _ _ => trivial) (clientthread_costs inet cfg client)
  have hpaid := Spec.paying_length (hfollows.elim (Spec.paying_legal hprompt)).1
  rw [worth_sum] at hpaid
  omega

/-- The system was prompt while the stranger's datagram was forwarded. -/
theorem stranger_prompt : ∀ e ∈ associated ++ strangerFirst ++ forwarded, Prompt e := by
  have hready : PollReports ([0, POLLIN].getD 1 0) := .inr (.inr (by decide))
  have hpoll : Prompt ⟨.poll [(4, POLLIN), (5, POLLIN)] IDLE_TIMEOUT, .ready [0, POLLIN]⟩ :=
    ⟨1, by decide, hready⟩
  simp only [associated, strangerFirst, forwarded, List.cons_append, List.nil_append,
    List.forall_mem_cons, hpoll]
  simp [Prompt, AcceptsSome, responseBytes, SockaddrUnion.addressBytes]

/-- An association that forwards one datagram and is then left idle. -/
theorem session_work_linear_stranger :
    (associated ++ strangerFirst ++ forwarded).length
      ≤ 4 + 32 * (receipts (associated ++ strangerFirst ++ forwarded)
        + interruptions (associated ++ strangerFirst ++ forwarded))
        + 3 * octetsReceived (associated ++ strangerFirst ++ forwarded) :=
  session_work_linear .plain passwordConfig webClient strangerSession stranger_prompt

end TwoSocks
