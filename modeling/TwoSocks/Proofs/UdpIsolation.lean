/-
A datagram that cannot be delivered.

The ways to fail once the address is known all end the same way: the iteration is over, the other
destinations are as they were, at most the addressed one is gone, one error is reported
for it, and no new descriptor stays open (`Forwarded`).  A datagram whose header is
rejected is different.  It ends the association, with all its destinations.

`datagram_isolated_iff` says that there is no third case, except that the very first
datagram also ends the association when the client socket cannot be connected to its sender.
-/
import TwoSocks.Proofs.UdpAssociation

namespace TwoSocks

open Server Prog

/-- No payload was accepted. -/
def Undelivered (tr : Trace sys) : Prop := ∀ e ∈ tr, ¬ Delivers e

/-- The first thing in a trace is that `buf` arrives from the client. -/
inductive Receives (udpFd : Fd) (buf : Bytes) : Trace sys → Prop
  | recv (n : Nat) (rest : Trace sys) : Receives udpFd buf (⟨.recv udpFd n, .ok buf⟩ :: rest)
  | recvfrom (n : Nat) (addr : SockaddrUnion) (rest : Trace sys) :
      Receives udpFd buf (⟨.recvfrom udpFd n, .ok (buf, addr)⟩ :: rest)

/-- The client socket could not be connected to the sender of the first datagram. -/
inductive PinFails (udpFd : Fd) : Trace sys → Prop
  | intro (n : Nat) (buf : Bytes) (addr : SockaddrUnion) (e : Errno) (rest : Trace sys) :
      PinFails udpFd
        (⟨.recvfrom udpFd n, .ok (buf, addr)⟩ :: ⟨.connect udpFd addr, .error e⟩ :: rest)

/-- A failure that concerns nobody but the destination a datagram is addressed to: `s` is
the state the datagram met, `held` and `held'` the open descriptors before and after. -/
structure Isolated (inet : Inet) (s : UdpLoop) (held held' : List Fd) (buf : Bytes)
    (tr : Trace sys) (flow : Flow) : Prop where
  /-- The association goes on with the next iteration, and the other destinations keep
  their items, poll entries and order. -/
  goesOn : ∃ s', flow = .again s' ∧ (s'.destinations = s.destinations ∨
    s'.destinations = s.destinations.filter
      (fun d => some d.1.addrport ≠ (addressed inet buf).map Prod.fst))
  /-- There is at most one error, and it is for the addressed destination. -/
  oneError : (tr.flatMap errorBy).length ≤ 1
  addressedError : ∀ e ∈ tr.flatMap errorBy, ∃ addrport payload,
    addressed inet buf = some (addrport, payload) ∧ e.host = addrport.addr ∧ e.port = addrport.port
  /-- No descriptor was opened and left open. -/
  noLeak : ∀ fd ∈ held', fd ∈ held

theorem Isolated.not_leave {inet : Inet} {s : UdpLoop} {held held' : List Fd} {buf : Bytes}
    {tr : Trace sys} {e : UdpEnd} : ¬ Isolated inet s held held' buf tr (.leave e) := by
  intro h
  obtain ⟨s', hs, -⟩ := h.goesOn
  cases hs

section Isolation

variable {inet : Inet} {tcpFd udpFd : Fd} {s : UdpLoop} {g : Assoc × Trace sys}

/-- Once the datagram is there, all depends on its header. -/
theorem deliver_isolated_iff (hk : Kept tcpFd udpFd s g) {buf : Bytes}
    (hdest : g.1.dest = addressed inet buf) {tr : Trace sys} {flow : Flow}
    (h : Eval (deliverUdpDatagram inet s buf) tr flow)
    (hl : (Assoc.spec inet udpFd).Legal g.1 tr) (hund : Undelivered tr) :
    Isolated inet s g.1.held ((Assoc.spec inet udpFd).run g.1 tr).held buf tr flow ↔
      ∃ r, extractUdpData inet buf buf.length = .ok r := by
  unfold deliverUdpDatagram at h
  cases hx : extractUdpData inet buf buf.length with
  | error ec =>
      rw [hx] at h
      cases h
      refine iff_of_false Isolated.not_leave ?_
      rintro ⟨r, hr⟩
      cases hr
  | ok r =>
      obtain ⟨offset, addrport⟩ := r
      rw [hx] at h
      have haddr : addressed inet buf = some (addrport, buf.drop offset) := by
        unfold addressed
        rw [hx]
      have hf := (wlp_eval h (forwardUdpPayload_spec hk (hdest.trans haddr)
        (addressed_known haddr))).elim (Spec.recording_legal.mpr hl)
      rw [Spec.recording_run] at hf
      refine iff_of_true ?_ ⟨_, rfl⟩
      rcases flow with s' | s' | e
      · obtain ⟨-, -, ⟨tail, hh, e, he, hdel⟩, -⟩ := hf
        rw [List.append_cancel_left hh] at hund
        exact absurd hdel (hund e he)
      · obtain ⟨-, hkept, hothers, tail, hh, hfail⟩ := hf
        obtain rfl := List.append_cancel_left hh
        obtain ⟨e, herr, hhost, hport⟩ := hfail.error
        refine ⟨⟨s', rfl, ?_⟩, by rw [herr]; simp, ?_, ?_⟩
        · rw [haddr]
          simpa using hothers
        · intro e' he'
          rw [herr, List.mem_singleton] at he'
          exact ⟨addrport, _, haddr, he' ▸ hhost, he' ▸ hport⟩
        · intro fd hfd
          have hsub : ∀ item ∈ s'.sockList.items, item ∈ s.sockList.items := by
            rw [← hkept.1.paired.destinations_items, ← hk.1.paired.destinations_items]
            intro item hi
            rcases hothers with ho | ho
            · rwa [ho] at hi
            · rw [ho] at hi
              obtain ⟨d, hd, rfl⟩ := List.mem_map.mp hi
              exact List.mem_map_of_mem (List.mem_of_mem_filter hd)
          have hheld := (hkept.2.held fd).mp hfd
          refine (hk.2.held fd).mpr ?_
          simp only [List.mem_cons, List.mem_map] at hheld ⊢
          rcases hheld with rfl | rfl | ⟨item, hi, rfl⟩
          · exact .inl rfl
          · exact .inr (.inl rfl)
          · exact .inr (.inr ⟨item, hsub item hi, rfl⟩)
      · exact hf.2.elim

/-- Receiving the datagram changes nothing but what is known of it. -/
theorem Isolated.prefixed {held held' : List Fd} {buf : Bytes} (pre : Trace sys)
    {tr : Trace sys} {flow : Flow} (b : Bool) (hpre : pre.flatMap errorBy = []) :
    Isolated inet { s with udpIsBound := b } held held' buf tr flow ↔
      Isolated inet s held held' buf (pre ++ tr) flow := by
  have herr : (pre ++ tr).flatMap errorBy = tr.flatMap errorBy := by
    rw [List.flatMap_append, hpre, List.nil_append]
  constructor
  · rintro ⟨hgo, hone, haddr, hleak⟩
    exact ⟨hgo, by rwa [herr], by rwa [herr], hleak⟩
  · rintro ⟨hgo, hone, haddr, hleak⟩
    exact ⟨hgo, by rwa [herr] at hone, by rwa [herr] at haddr, hleak⟩

theorem datagram_isolated_of_kept (hk : Kept tcpFd udpFd s g) {buf : Bytes} {tr : Trace sys}
    {flow : Flow} (h : Eval (udpClientDatagram inet udpFd s) tr flow)
    (hl : (Assoc.spec inet udpFd).Legal g.1 tr) (hrecv : Receives udpFd buf tr)
    (hund : Undelivered tr) :
    Isolated inet s g.1.held ((Assoc.spec inet udpFd).run g.1 tr).held buf tr flow ↔
      (∃ r, extractUdpData inet buf buf.length = .ok r) ∧ ¬ PinFails udpFd tr := by
  unfold udpClientDatagram at h
  cases hrecv with
  | recv n rest =>
      split at h
      · cases h with
        | call h =>
            have hnext : (Assoc.spec inet udpFd).next g.1 (.recv udpFd UDP_COPY_BUFFER_SIZE)
                (.ok buf) = { g.1 with dest := addressed inet buf } := if_pos rfl
            have hk' : Kept tcpFd udpFd s ({ g.1 with dest := addressed inet buf }, []) :=
              hk.seen rfl rfl
            have hiff := deliver_isolated_iff hk' rfl h (hnext ▸ hl.2)
              fun e he => hund e (List.mem_cons_of_mem _ he)
            rw [Spec.run_cons, hnext, ← List.singleton_append,
              ← Isolated.prefixed (s := s) [_] s.udpIsBound rfl]
            exact hiff.trans (and_iff_left nofun).symm
      · cases h
  | recvfrom n addr rest =>
      split at h
      · cases h
      · cases h with
        | call h =>
            unfold udpPinClient at h
            cases h with
            | @call _ _ _ r rest _ h =>
                rcases r with e | _
                · cases h
                  exact iff_of_false Isolated.not_leave fun hp => hp.2 (.intro ..)
                · have hk' : Kept tcpFd udpFd { s with udpIsBound := true }
                      ({ g.1 with dest := addressed inet buf }, []) := by
                    refine Kept.bound (hk.seen ?_ ?_) true <;> rfl
                  have hiff := deliver_isolated_iff hk' rfl h hl.2.2
                    fun e he => hund e (List.mem_cons_of_mem _ (List.mem_cons_of_mem _ he))
                  rw [Spec.run_cons, Spec.run_cons]
                  rw [show ∀ e e' : Event sys, e :: e' :: rest = [e, e'] ++ rest
                      from fun _ _ => rfl,
                    ← Isolated.prefixed (s := s) [_, _] true rfl]
                  exact hiff.trans (and_iff_left nofun).symm

end Isolation

/-- What is known after a run of the association. -/
abbrev knownAfter (inet : Inet) (tcpFd udpFd : Fd) (tr : Trace sys) : Assoc :=
  (Assoc.spec inet udpFd).run (Assoc.initial tcpFd udpFd) tr

/--
**A datagram that cannot be delivered hurts nobody else, if its header is accepted.**

In any state the association can reach, an undelivered datagram is isolated exactly when
`extract_udp_data` accepts it, and, if it is the first one, the client socket could be
connected to its sender.
-/
theorem datagram_isolated_iff (inet : Inet) (tcpFd udpFd : Fd) (bound : Bool)
    (start polled : UdpLoop) (before poll tr : Trace sys) (buf : Bytes) (flow : Flow)
    (htu : tcpFd ≠ udpFd)
    (hreached : Iters (copyLoopUdpBody inet udpFd) (initialUdpLoop tcpFd udpFd bound) before start)
    (hpolls : Eval (udpPoll start) poll (.next polled))
    (h : Eval (udpClientDatagram inet udpFd polled) tr flow)
    (hfresh : FreshSockets inet tcpFd udpFd (before ++ (poll ++ tr)))
    (hrecv : Receives udpFd buf tr) (hund : Undelivered tr) :
    Isolated inet polled (knownAfter inet tcpFd udpFd (before ++ poll)).held
        (knownAfter inet tcpFd udpFd (before ++ (poll ++ tr))).held buf tr flow ↔
      (∃ r, extractUdpData inet buf buf.length = .ok r) ∧ ¬ PinFails udpFd tr := by
  rw [← List.append_assoc] at hfresh ⊢
  obtain ⟨hlpre, hltr⟩ := Spec.legal_append.mp hfresh
  have hf : (recorded inet udpFd).Follows (Assoc.initial tcpFd udpFd, []) (before ++ poll)
      (Kept tcpFd udpFd polled) :=
    (Spec.Follows.mono (fun g hk => wlp_eval hpolls (udpPoll_spec hk))
      (iterations_follow htu hreached)).append
  have hk := (hf.elim (Spec.recording_legal.mpr hlpre)).2
  rw [Spec.recording_run] at hk
  have hiff := datagram_isolated_of_kept hk h hltr hrecv hund
  rwa [← Spec.run_append] at hiff

/-! ### One datagram of each kind -/

/-- The control connection is quiet, the client has sent something, and so has nobody else. -/
def secondPoll : Trace sys :=
  [⟨.poll [(4, POLLIN), (5, POLLIN), (7, POLLIN)] IDLE_TIMEOUT, .ready [0, POLLIN, 0]⟩]

/-- A datagram to `192.0.2.2`. -/
def laterDatagram : Bytes := [0, 0, 0, 1, 192, 0, 2, 2, 0, 53, 7]

/-- There is no such host. -/
def unresolvedClient : Trace sys :=
  let target := copyAddrport .ipv4 (hostText 2) 53
  [⟨.recv 5 UDP_COPY_BUFFER_SIZE, .ok laterDatagram⟩,
    ⟨.getaddrinfo target.addr 53 .dgram, none⟩,
    ⟨.nextConnectionIdentifier, (2 : Int)⟩,
    ⟨.handler ⟨2, .udp, .error, target.addr, 53, .generalFailure⟩, ()⟩]

theorem datagram_isolated_unresolved : ∃ start polled flow,
    Iters (copyLoopUdpBody Inet.plain 5) (initialUdpLoop 4 5 false) (firstPoll ++ firstClient)
      start ∧
    Eval (udpPoll start) secondPoll (.next polled) ∧
    Eval (udpClientDatagram Inet.plain 5 polled) unresolvedClient flow ∧
    Isolated Inet.plain polled
      (knownAfter Inet.plain 4 5 ((firstPoll ++ firstClient) ++ secondPoll)).held
      (knownAfter Inet.plain 4 5
        ((firstPoll ++ firstClient) ++ (secondPoll ++ unresolvedClient))).held
      laterDatagram unresolvedClient flow := by
  have hreached : Iters (copyLoopUdpBody Inet.plain 5) (initialUdpLoop 4 5 false)
      (firstPoll ++ firstClient) _ := .single (eval_of_replay 60 _ rfl)
  refine ⟨_, _, _, hreached, eval_of_replay 60 _ rfl, eval_of_replay 60 _ rfl, ?_⟩
  refine (datagram_isolated_iff Inet.plain 4 5 false _ _ _ secondPoll unresolvedClient
    laterDatagram _ (by decide)
    hreached (eval_of_replay 60 _ rfl) (eval_of_replay 60 _ rfl) ?_ (.recv _ _) ?_).mpr
    ⟨⟨_, rfl⟩, fun hpin => by cases hpin⟩
  · simp [FreshSockets, Spec.Legal, firstPoll, firstClient, secondPoll, unresolvedClient,
      Assoc.spec, Assoc.rely, Assoc.next, Assoc.initial]
  · simp [Undelivered, unresolvedClient, Delivers]

/-- A fragment. -/
def fragment : Bytes := [0, 0, 1, 1, 192, 0, 2, 1, 0, 53, 7]

/-- **A fragment ends the association**, with the destination that was there. -/
theorem fragment_not_isolated : ∃ start polled flow,
    Iters (copyLoopUdpBody Inet.plain 5) (initialUdpLoop 4 5 false) (firstPoll ++ firstClient)
      start ∧
    Eval (udpPoll start) secondPoll (.next polled) ∧
    Eval (udpClientDatagram Inet.plain 5 polled) [⟨.recv 5 UDP_COPY_BUFFER_SIZE, .ok fragment⟩]
      flow ∧
    polled.destinations ≠ [] ∧
    ∀ held held', ¬ Isolated Inet.plain polled held held' fragment
      [⟨.recv 5 UDP_COPY_BUFFER_SIZE, .ok fragment⟩] flow := by
  refine ⟨_, _, _, .single (eval_of_replay 60 _ rfl), eval_of_replay 60 _ rfl,
    eval_of_replay 60 _ rfl, ?_, fun held held' => Isolated.not_leave⟩
  intro hnil
  have hlen := congrArg List.length hnil
  cases hlen

end TwoSocks
