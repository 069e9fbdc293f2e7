/-
Which bits the loop over the destinations acts on.

A destination that was polled is looked at with the bits that poll stored for it: taking
destinations out moves their entries whole.  A destination that was appended after the
poll is looked at with whatever its slot held before, because appending writes the
descriptor and the events and nothing else.  The slot is clean if it was never used, and
then everything is as it should be (`revents_current`).  It is not clean if a destination
with bits was the last one taken out of it (`revents_stale`).
-/
import TwoSocks.Proofs.UdpAssociation

namespace TwoSocks

open Server Prog

/-- The bits of an entry are those the poll stored for its descriptor, and none if its
descriptor was not polled. -/
def Current (start : UdpLoop) (revents : List UInt16) (entry : Pollfd) : Prop :=
  (∀ j, 2 ≤ j → j < start.pollFds → (start.fds j).fd = entry.fd →
    entry.revents = revents.getD j 0) ∧
  ((∀ j, 2 ≤ j → j < start.pollFds → (start.fds j).fd ≠ entry.fd) → entry.revents = 0)

/-- A poll that goes on to the client has stored its bits and done nothing else. -/
theorem udpPoll_next {start polled : UdpLoop} {tr : Trace sys}
    (h : Eval (udpPoll start) tr (.next polled)) : ∃ revents,
      tr = [⟨.poll start.polled IDLE_TIMEOUT, .ready revents⟩] ∧
        polled = start.polledWith revents := by
  have hw : wlp (Spec.history fun _ => True) (udpPoll start) (fun flow tr =>
      flow = .next polled → ∃ revents, tr = [⟨.poll start.polled IDLE_TIMEOUT, .ready revents⟩] ∧
        polled = start.polledWith revents) [] := by
    unfold udpPoll
    simp only [bind_eq, pure_eq, wlp_bind]
    refine ⟨trivial, trivial, fun r _ => ⟨trivial, ?_⟩⟩
    rcases r with _ | e | revents
    · exact ⟨trivial, by simp⟩
    · simp only
      split
      · exact ⟨trivial, by simp⟩
      · exact ⟨trivial, by simp⟩
    · simp only
      split
      · exact ⟨trivial, by simp⟩
      · split
        · exact ⟨trivial, by simp⟩
        · split
          · simp only [wlp_bind]
            refine ⟨trivial, trivial, fun r _ => ⟨trivial, ?_⟩⟩
            rcases r with e | buf
            · simp only
              split
              · exact ⟨trivial, by simp⟩
              · exact ⟨trivial, trivial, fun _ _ => ⟨trivial, by simp⟩⟩
            · simp only
              split
              · exact ⟨trivial, by simp⟩
              · exact ⟨trivial, by simp⟩
          · exact ⟨trivial, fun hp => ⟨revents, rfl, (Flow.next.inj hp).symm⟩⟩
  have := ((wlp_eval h hw).elim (Spec.history_legal fun _ _ => trivial)).2
  rw [Spec.history_run, List.nil_append] at this
  exact this rfl

section Current

variable {tcpFd udpFd : Fd} {start : UdpLoop}

/-- Two entries on one descriptor are the same entry. -/
theorem Table.entry_inj (h : Table tcpFd udpFd start) {i j : Nat} (hi : 2 ≤ i)
    (hi' : i < start.pollFds) (hj : 2 ≤ j) (hj' : j < start.pollFds)
    (he : (start.fds i).fd = (start.fds j).fd) : i = j := by
  obtain ⟨hki, hfi⟩ := h.paired.item_of_entry hi hi'
  obtain ⟨hkj, hfj⟩ := h.paired.item_of_entry hj hj'
  have := h.paired.fd_inj hki hkj (by rw [hfi, hfj, he])
  omega

/-- An entry that was polled. -/
theorem current_polled (h : Table tcpFd udpFd start) (revents : List UInt16) {j : Nat}
    (hj : 2 ≤ j) (hj' : j < start.pollFds) :
    Current start revents (storeRevents start.fds start.pollFds revents j) := by
  have hentry : storeRevents start.fds start.pollFds revents j
      = { start.fds j with revents := revents.getD j 0 } := if_pos hj'
  rw [hentry]
  refine ⟨fun i hi hi' he => ?_, fun hnone => absurd rfl (hnone j hj hj')⟩
  rw [h.entry_inj hi hi' hj hj' he]

/-- An entry that was put into a clean slot after the poll. -/
theorem current_appended {revents : List UInt16} {entry : Pollfd}
    (hnew : ∀ j < start.pollFds, (start.fds j).fd ≠ entry.fd) (hclean : entry.revents = 0) :
    Current start revents entry :=
  ⟨fun j _ hj he => absurd he (hnew j hj), fun _ => hclean⟩

end Current

/-- A round that does anything had bits to act on. -/
theorem udpRepliesBody_idle {inet : Inet} {udpFd : Fd} {s : UdpLoop} {i : Nat} {tr : Trace sys}
    {r : (UdpLoop × Nat) ⊕ Flow} (h : Eval (udpRepliesBody inet udpFd (s, i)) tr r)
    (hidle : (s.fds i).revents = 0) : tr = [] := by
  simp only [udpRepliesBody, hidle] at h
  split at h
  · split at h
    · cases h
      rfl
    · cases h
      rfl
  · cases h
    rfl

/--
**The bits acted on are those of the last poll**, if no destination was appended to a slot
with bits left in it.

Whenever the loop over the destinations looks at an entry, the entry's bits are what this
iteration's poll stored for that descriptor, or zero if the descriptor was not polled.  So
whatever a round does, closing the destination or receiving from it, the poll reported for
that very socket.
-/
theorem revents_current (inet : Inet) (tcpFd udpFd : Fd) (bound : Bool)
    (start polled served s : UdpLoop) (i : Nat) (before poll client rounds : Trace sys)
    (htu : tcpFd ≠ udpFd)
    (h : Inspects inet tcpFd udpFd bound start polled served s i before poll client rounds)
    (hfresh : FreshSockets inet tcpFd udpFd (before ++ (poll ++ (client ++ rounds))))
    (hclean : served.pollFds = polled.pollFds + 1 → (polled.fds polled.pollFds).revents = 0) :
    ∃ revents, poll = [⟨.poll start.polled IDLE_TIMEOUT, .ready revents⟩] ∧
      Current start revents (s.fds i) ∧
      ∀ tr r, Eval (udpRepliesBody inet udpFd (s, i)) tr r → tr ≠ [] →
        ∃ j, 2 ≤ j ∧ j < start.pollFds ∧ (start.fds j).fd = (s.fds i).fd ∧
          (s.fds i).revents = revents.getD j 0 := by
  obtain ⟨htable, hgrew, hthin, -, hi⟩ := h.kept htu hfresh
  obtain ⟨revents, rfl, rfl⟩ := udpPoll_next h.polls
  obtain ⟨j, hj, hj', hentry⟩ := hthin i hi h.entry
  have hcurrent : Current start revents (s.fds i) := by
    rw [hentry]
    rcases hgrew with ⟨hfds, hlen⟩ | ⟨fd, hnew, hlen, hfds⟩
    · rw [hfds]
      exact current_polled htable revents hj (hlen ▸ hj')
    · by_cases hlast : j = start.pollFds
      · have happended : served.fds j
            = { storeRevents start.fds start.pollFds revents start.pollFds with
                fd := fd, events := POLLIN } := by
          rw [hfds, hlast]
          exact Function.update_self ..
        rw [happended]
        refine current_appended (fun k hk => ?_) (hclean hlen)
        have := hnew k hk
        rwa [UdpLoop.polledWith, storeRevents_fd] at this
      · have hkept : served.fds j = storeRevents start.fds start.pollFds revents j := by
          rw [hfds]
          exact Function.update_of_ne hlast ..
        have hlen : served.pollFds = start.pollFds + 1 := hlen
        rw [hkept]
        exact current_polled htable revents hj (by omega)
  refine ⟨revents, rfl, hcurrent, fun tr r hround hne => ?_⟩
  by_contra hnone
  refine hne (udpRepliesBody_idle hround (hcurrent.2 fun k hk hk' he => ?_))
  exact hnone ⟨k, hk, hk', he, hcurrent.1 k hk hk' he⟩

/-- The first datagram of an association goes into a clean slot. -/
theorem revents_current_first : ∃ polled served revents,
    Inspects Inet.plain 4 5 false (initialUdpLoop 4 5 false) polled served served 2 []
      firstPoll firstClient [] ∧ Current (initialUdpLoop 4 5 false) revents (served.fds 2) := by
  have hlook : Inspects Inet.plain 4 5 false (initialUdpLoop 4 5 false) _ _ _ 2 []
      firstPoll firstClient [] :=
    ⟨.refl, eval_of_replay 60 _ rfl, eval_of_replay 60 _ rfl, .refl, by decide⟩
  obtain ⟨revents, -, hcurrent, -⟩ := revents_current Inet.plain 4 5 false _ _ _ _ 2 [] firstPoll
    firstClient [] (by decide) hlook
    (by simp [FreshSockets, Spec.Legal, firstPoll, firstClient, Assoc.spec, Assoc.rely,
      Assoc.next, Assoc.initial]) (fun _ => rfl)
  exact ⟨_, _, revents, hlook, hcurrent⟩

/-! ### A slot that is not clean -/

/-- The first target's socket has an error, and is closed. -/
def errorIteration : Trace sys :=
  [⟨.poll [(4, POLLIN), (5, POLLIN), (7, POLLIN)] IDLE_TIMEOUT, .ready [0, 0, POLLERR]⟩,
    ⟨.close 7, ()⟩,
    ⟨.handler ⟨1, .udp, .error, firstTarget.addr, 53, .generalFailure⟩, ()⟩]

/-- `192.0.2.2`, port 53. -/
def secondTarget : Socks5Addrport := copyAddrport .ipv4 (hostText 2) 53

/-- The client sends one byte to `secondTarget`. -/
def secondClient : Trace sys :=
  [⟨.recv 5 UDP_COPY_BUFFER_SIZE, .ok [0, 0, 0, 1, 192, 0, 2, 2, 0, 53, 7]⟩,
    ⟨.getaddrinfo secondTarget.addr 53 .dgram, some (.v4 (hostAddress 2) 53)⟩,
    ⟨.socket .inet .dgram, .ok 8⟩,
    ⟨.connect 8 (.v4 (hostAddress 2) 53), .ok ()⟩,
    ⟨.nextConnectionIdentifier, (2 : Int)⟩,
    ⟨.handler ⟨2, .udp, .opened, secondTarget.addr, 53, .success⟩, ()⟩,
    ⟨.send 8 [7], .ok 1⟩,
    ⟨.fetchAdd .uploaded 1, ()⟩]

/-- **A new destination is closed for an error its socket never had.**  The first target
failed and left its bits in the slot the second one gets. -/
theorem revents_stale : ∃ start polled served s,
    Inspects Inet.plain 4 5 false start polled served served 2
      ((firstPoll ++ firstClient) ++ errorIteration) firstPoll secondClient [] ∧
    FreshSockets Inet.plain 4 5
      (((firstPoll ++ firstClient) ++ errorIteration) ++ (firstPoll ++ (secondClient ++ []))) ∧
    ¬ Current start [0, POLLIN] (served.fds 2) ∧
    Eval (udpRepliesBody Inet.plain 5 (served, 2))
      [⟨.close 8, ()⟩, ⟨.handler ⟨2, .udp, .error, secondTarget.addr, 53, .generalFailure⟩, ()⟩]
      (.inl (s, 2)) := by
  refine ⟨_, _, _, _, ⟨.tail (.single (eval_of_replay 60 _ rfl)) (eval_of_replay 60 _ rfl),
    eval_of_replay 60 _ rfl, eval_of_replay 60 _ rfl, .refl, by decide⟩, ?_, ?_,
    eval_of_replay 60 _ rfl⟩
  · simp [FreshSockets, Spec.Legal, firstPoll, firstClient, errorIteration, secondClient,
      Assoc.spec, Assoc.rely, Assoc.next, Assoc.initial]
  · intro hcurrent
    refine absurd (hcurrent.2 fun j hj hj' => ?_) (by decide)
    have hj' : j < 2 := hj'
    omega

end TwoSocks
