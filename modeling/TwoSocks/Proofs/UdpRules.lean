/-
One walk through the UDP relay for every invariant of it.

The loop of `copy_loop_udp` has many ways to end an iteration, but touches its
destinations in few places: it closes one, opens one, sends to one, passes a reply of
one on.  `UdpRules` asks that a relation between the loop state and a ghost state
survive those, and the system calls in between.  What follows is that it holds whenever
the loop is back at its head and when it leaves.

The loop leaves with a state and a code that belong together, which is part of the
conclusion because the events at `UDP_LOOP_END` are made from them.
-/
import TwoSocks.Proofs.UdpTable

namespace TwoSocks

open Server Prog

/-- A state and an error code that may stand in one event. -/
def Matches (state : ConnectionState) (errorCode : Errorcode) : Prop :=
  errorCode ≠ .success ↔ state = .error

/-- An association ends closed, or with an error and its code. -/
def UdpEnd.Proper (e : UdpEnd) : Prop :=
  e.finalState ≠ .opened ∧ Matches e.finalState e.errorCode

theorem generalFailure_ne_success : Errorcode.generalFailure ≠ .success := by decide

theorem UdpEnd.proper_closed (s : UdpLoop) : (UdpEnd.mk .closed .success s).Proper := by
  simp [Proper, Matches]

theorem UdpEnd.proper_error {ec : Errorcode} (h : ec ≠ .success) (s : UdpLoop) :
    (UdpEnd.mk .error ec s).Proper := by
  simp [Proper, Matches, h]

theorem parseAddrport_ne_success {inet : Inet} {buf : Bytes} {n : Nat} {ec : Errorcode}
    (h : parseAddrport inet buf n = .error ec) : ec ≠ .success := by
  have hip : ∀ type af minlen, parseAddrportIp inet buf n type af minlen = .error ec →
      ec ≠ .success := by
    intro type af minlen h
    unfold parseAddrportIp at h
    split at h
    · cases h; decide
    · split at h <;> cases h
      decide
  unfold parseAddrport at h
  dsimp only at h
  split_ifs at h
  · cases h; decide
  · exact hip _ _ _ h
  · exact hip _ _ _ h
  · cases h; decide
  · cases h; decide

/-- A datagram is refused with a code. -/
theorem extractUdpData_ne_success {inet : Inet} {buf : Bytes} {n : Nat} {ec : Errorcode}
    (h : extractUdpData inet buf n = .error ec) : ec ≠ .success := by
  unfold extractUdpData at h
  split_ifs at h
  · cases h; decide
  · cases h; decide
  · cases h; decide
  · split at h
    · rename_i hparse
      cases h
      exact parseAddrport_ne_success hparse
    · cases h

section Rules

variable {G : Type}

/-- Asking for `o` keeps `J`, whatever the answer. -/
def Asks (P : Spec sys G) (J : G → Prop) (o : Op) : Prop :=
  ∀ g, J g → P.guar g o ∧ ∀ r, P.rely g o r → J (P.next g o r)

/-- What an attempt to open a destination leaves: if it names one, there it is. -/
def Tried (J : UdpLoop → G → Prop) (r : UdpLoop × Option (Fd × Nat)) (g : G) : Prop :=
  J r.1 g ∧ ∀ fd idx, r.2 = some (fd, idx) →
    ∃ h : idx < r.1.sockList.items.length, r.1.sockList.items[idx].fd = fd

/-- What the parts of the loop must do to an invariant `J`. -/
structure UdpRules (P : Spec sys G) (inet : Inet) (udpFd : Fd) (J : UdpLoop → G → Prop) :
    Prop where
  inv : ∀ s g, J s g → P.inv g
  abort : ∀ s g, J s g → P.guar g .abort
  polled : ∀ s g revents, J s g → J (s.polledWith revents) g
  pinned : ∀ s g, J s g → J { s with udpIsBound := true } g
  poll : ∀ s, Asks P (J s) (.poll s.polled IDLE_TIMEOUT)
  control : ∀ s, Asks P (J s) (.read (s.fds 0).fd (UDP_COPY_BUFFER_SIZE - 1))
  perror : ∀ s, Asks P (J s) .perror
  receive : ∀ s, Asks P (J s) (.recv udpFd UDP_COPY_BUFFER_SIZE)
  receiveFrom : ∀ s, Asks P (J s) (.recvfrom udpFd UDP_COPY_BUFFER_SIZE)
  pin : ∀ s addr, Asks P (J s) (.connect udpFd addr)
  /-- A destination is closed because of an error. -/
  closed : ∀ s g idx ec, J s g → idx < s.sockList.items.length → ec ≠ .success →
    wlp P (closeUdpDestination s idx .error ec) J g
  /-- A destination is opened, or not. -/
  opened : ∀ s g addrport, J s g → wlp P (openUdpDestination s addrport) (Tried J) g
  /-- A payload is sent to a destination. -/
  sent : ∀ s g idx payload, J s g → ∀ h : idx < s.sockList.items.length,
    wlp P (sendRecorded s.sockList.items[idx].fd payload) (fun _ g' => J s g') g
  /-- A destination has something to read, which is passed on. -/
  replied : ∀ s g i idx header, J s g → ∀ h : idx < s.sockList.items.length,
    s.sockList.items[idx].fd = (s.fds i).fd →
    udpReplyHeader inet s.sockList.items[idx].addrport = .built header →
    wlp P (recv (s.fds i).fd (UDP_COPY_BUFFER_SIZE - header.length)) (fun r g' => match r with
      | .error _ => J s g'
      | .ok payload => wlp P (writeRecorded udpFd header payload) (fun _ g'' => J s g'') g') g

variable {P : Spec sys G} {inet : Inet} {udpFd : Fd} {J : UdpLoop → G → Prop}

/-- Where a part of an iteration may leave the loop. -/
def Flows (J : UdpLoop → G → Prop) : Flow → G → Prop
  | .next s, g | .again s, g => J s g
  | .leave e, g => J e.loop g ∧ e.Proper

namespace UdpRules

theorem udpPoll (R : UdpRules P inet udpFd J) {s : UdpLoop} {g : G} (h : J s g) :
    wlp P (udpPoll s) (Flows J) g := by
  have hleave : ∀ {e : UdpEnd} {g : G}, J e.loop g → e.Proper →
      wlp P (.ret (.leave e)) (Flows J) g := fun h hp => ⟨R.inv _ _ h, h, hp⟩
  obtain ⟨hpoll, hpolled⟩ := R.poll s g h
  unfold TwoSocks.udpPoll
  simp only [bind_eq, pure_eq, wlp_bind, TwoSocks.wlp_poll]
  refine ⟨R.inv _ _ h, hpoll, fun r hr => ?_⟩
  have h₁ := hpolled r hr
  refine ⟨R.inv _ _ h₁, ?_⟩
  rcases r with _ | e | revents
  · exact hleave h₁ (UdpEnd.proper_closed s)
  · dsimp only
    split
    · exact ⟨R.inv _ _ h₁, h₁⟩
    · exact hleave h₁ (UdpEnd.proper_error generalFailure_ne_success s)
  · replace h₁ := R.polled _ _ revents h₁
    dsimp only
    split
    · exact hleave h₁ (UdpEnd.proper_error generalFailure_ne_success _)
    split
    · exact hleave h₁ (UdpEnd.proper_closed _)
    split
    · obtain ⟨hread, hreadKeeps⟩ := R.control _ _ h₁
      simp only [wlp_bind, wlp_read]
      refine ⟨R.inv _ _ h₁, hread, fun r hr => ?_⟩
      have h₂ := hreadKeeps r hr
      refine ⟨R.inv _ _ h₂, ?_⟩
      rcases r with e | buf
      · dsimp only
        split
        · exact ⟨R.inv _ _ h₂, h₂⟩
        · obtain ⟨hperror, hperrorKeeps⟩ := R.perror _ _ h₂
          simp only [wlp_bind, wlp_perror]
          refine ⟨R.inv _ _ h₂, hperror, fun e he => ?_⟩
          have h₃ := hperrorKeeps e he
          exact ⟨R.inv _ _ h₃, hleave h₃
            (UdpEnd.proper_error (socketErrorCodeFromErrno_ne_success e) _)⟩
      · dsimp only
        split
        · exact hleave h₂ (UdpEnd.proper_closed _)
        · exact hleave h₂ (UdpEnd.proper_error generalFailure_ne_success _)
    · exact ⟨R.inv _ _ h₁, h₁⟩

theorem sendUdpPayload (R : UdpRules P inet udpFd J) {s : UdpLoop} {g : G} (h : J s g)
    {idx : Nat} (hidx : idx < s.sockList.items.length) {fd : Fd}
    (hfd : s.sockList.items[idx].fd = fd) (payload : Bytes) :
    wlp P (sendUdpPayload s fd idx payload) (Flows J) g := by
  subst hfd
  unfold TwoSocks.sendUdpPayload
  simp only [bind_eq, pure_eq, wlp_bind]
  refine wlp_mono _ (fun r g₁ h₁ => ?_) (R.sent s g idx payload h hidx)
  rcases r with e | n
  · refine (wlp_bind _).mpr (wlp_mono _ (fun s' g₂ h₂ => ⟨R.inv _ _ h₂, h₂⟩)
      (R.closed s g₁ idx _ h₁ hidx (socketErrorCodeFromErrno_ne_success e)))
  · exact ⟨R.inv _ _ h₁, h₁⟩

theorem deliverUdpDatagram (R : UdpRules P inet udpFd J) {s : UdpLoop} {g : G} (h : J s g)
    (buf : Bytes) : wlp P (deliverUdpDatagram inet s buf) (Flows J) g := by
  unfold TwoSocks.deliverUdpDatagram
  split
  · rename_i ec hec
    exact ⟨R.inv _ _ h, h, UdpEnd.proper_error (extractUdpData_ne_success hec) s⟩
  · rename_i offset addrport _
    unfold forwardUdpPayload
    cases hsearch : s.sockList.search
        (fun item => compareSocks5Addrport addrport item.addrport) with
    | some idx =>
        obtain ⟨hidx, -, -⟩ := List.findIdx?_eq_some_iff_getElem.mp hsearch
        have hitem : s.sockList.items[idx] = s.sockList.itemFromIndex idx :=
          (List.getD_eq_getElem _ _ hidx).symm
        exact R.sendUdpPayload h hidx (congrArg FdSocks5addr.fd hitem) _
    | none =>
        refine (wlp_bind _).mpr (wlp_mono _ ?_ (R.opened s g addrport h))
        rintro ⟨s', _ | ⟨fd, idx⟩⟩ g' ⟨h', hnew⟩
        · exact ⟨R.inv _ _ h', h'⟩
        · obtain ⟨hidx, hfd⟩ := hnew fd idx rfl
          exact R.sendUdpPayload h' hidx hfd _

theorem udpClient (R : UdpRules P inet udpFd J) {s : UdpLoop} {g : G} (h : J s g) :
    wlp P (udpClient inet udpFd s) (Flows J) g := by
  have hfailed : ∀ {g : G} (e : Errno), J s g →
      wlp P (.ret (udpReceiveFailed s e)) (Flows J) g := by
    intro g e h
    refine ⟨R.inv _ _ h, ?_⟩
    unfold udpReceiveFailed
    split
    · exact h
    · exact ⟨h, UdpEnd.proper_error (socketErrorCodeFromErrno_ne_success e) s⟩
  unfold TwoSocks.udpClient
  split
  · unfold udpClientDatagram
    split
    · obtain ⟨hrecv, hkeeps⟩ := R.receive s g h
      simp only [bind_eq, pure_eq, wlp_bind, TwoSocks.wlp_recv]
      refine ⟨R.inv _ _ h, hrecv, fun r hr => ?_⟩
      have h₁ := hkeeps r hr
      refine ⟨R.inv _ _ h₁, ?_⟩
      rcases r with e | buf
      · exact hfailed e h₁
      · exact R.deliverUdpDatagram h₁ buf
    · obtain ⟨hrecv, hkeeps⟩ := R.receiveFrom s g h
      simp only [bind_eq, pure_eq, wlp_bind, TwoSocks.wlp_recvfrom]
      refine ⟨R.inv _ _ h, hrecv, fun r hr => ?_⟩
      have h₁ := hkeeps r hr
      refine ⟨R.inv _ _ h₁, ?_⟩
      rcases r with e | ⟨buf, clientAddr⟩
      · exact hfailed e h₁
      · obtain ⟨hconnect, hpins⟩ := R.pin s clientAddr _ h₁
        simp only [udpPinClient, bind_eq, pure_eq, wlp_bind, TwoSocks.wlp_connect]
        refine ⟨R.inv _ _ h₁, hconnect, fun r hr => ?_⟩
        have h₂ := hpins r hr
        refine ⟨R.inv _ _ h₂, ?_⟩
        rcases r with e | ⟨⟩
        · exact ⟨R.inv _ _ h₂, R.inv _ _ h₂, h₂,
            UdpEnd.proper_error (socketErrorCodeFromErrno_ne_success e) s⟩
        · have h₃ := R.pinned _ _ h₂
          exact ⟨R.inv _ _ h₃, R.deliverUdpDatagram h₃ buf⟩
  · exact ⟨R.inv _ _ h, h⟩

/-- What a round of the loop over the destinations leaves. -/
def Rounds (J : UdpLoop → G → Prop) : (UdpLoop × Nat) ⊕ Flow → G → Prop
  | .inl (s, _), g => J s g
  | .inr flow, g => Flows J flow g

theorem closing (R : UdpRules P inet udpFd J) {s : UdpLoop} {g : G} (h : J s g) {idx : Nat}
    (hidx : idx < s.sockList.items.length) {ec : Errorcode} (hec : ec ≠ .success) (i : Nat) :
    wlp P (do let s ← closeUdpDestination s idx .error ec; return .inl (s, i)) (Rounds J) g :=
  (wlp_bind _).mpr (wlp_mono _ (fun _ _ h' => ⟨R.inv _ _ h', h'⟩) (R.closed s g idx ec h hidx hec))

theorem udpReply (R : UdpRules P inet udpFd J) {s : UdpLoop} {g : G} (h : J s g) {i idx : Nat}
    (hidx : idx < s.sockList.items.length) (hfd : s.sockList.items[idx].fd = (s.fds i).fd) :
    wlp P (udpReply inet udpFd s i idx) (Rounds J) g := by
  have hitem : s.sockList.itemFromIndex idx = s.sockList.items[idx] :=
    List.getD_eq_getElem _ _ hidx
  unfold TwoSocks.udpReply
  rw [hitem]
  split
  · exact wlp_abort.mpr ⟨R.inv _ _ h, R.abort _ _ h⟩
  · exact R.closing h hidx generalFailure_ne_success i
  · rename_i header hheader
    refine (wlp_bind _).mpr (wlp_mono _ (fun r g₁ h₁ => ?_)
      (R.replied s g i idx header h hidx hfd hheader))
    rcases r with e | payload
    · exact R.closing h₁ hidx (socketErrorCodeFromErrno_ne_success e) i
    · refine (wlp_bind _).mpr (wlp_mono _ (fun r g₂ h₂ => ?_) h₁)
      rcases r with e | n
      · exact ⟨R.inv _ _ h₂, h₂,
          UdpEnd.proper_error (socketErrorCodeFromErrno_ne_success e) s⟩
      · exact ⟨R.inv _ _ h₂, h₂⟩

theorem udpReplies (R : UdpRules P inet udpFd J) {s : UdpLoop} {g : G} (h : J s g) :
    wlp P (udpReplies inet udpFd s) (Flows J) g := by
  refine wlp_iterate (fun p g => J p.1 g) h fun ⟨s, i⟩ g h => ?_
  suffices wlp P (udpRepliesBody inet udpFd (s, i)) (Rounds J) g by
    refine wlp_mono _ ?_ this
    rintro (⟨s', i'⟩ | flow) g' h' <;> exact h'
  simp only [udpRepliesBody]
  split
  · cases hsearch : s.sockList.search (fun item => (s.fds i).fd == item.fd) with
    | none => exact ⟨R.inv _ _ h, h, UdpEnd.proper_error generalFailure_ne_success s⟩
    | some idx =>
        obtain ⟨hidx, hfd, -⟩ := List.findIdx?_eq_some_iff_getElem.mp hsearch
        dsimp only
        split
        · exact R.closing h hidx generalFailure_ne_success i
        · split
          · exact ⟨R.inv _ _ h, h⟩
          · exact R.udpReply h hidx (beq_iff_eq.mp hfd).symm
  · exact ⟨R.inv _ _ h, h⟩

theorem andThen (R : UdpRules P inet udpFd J) {f : UdpLoop → Server Flow}
    (hf : ∀ {s g}, J s g → wlp P (f s) (Flows J) g) {flow : Flow} {g : G} (h : Flows J flow g) :
    wlp P (flow.andThen f) (Flows J) g := by
  cases flow with
  | next s => exact hf h
  | again s => exact ⟨R.inv _ _ h, h⟩
  | leave e => exact ⟨R.inv _ _ h.1, h⟩

/-- **The invariant holds at the head of the loop, and when the loop is left.** -/
theorem loop (R : UdpRules P inet udpFd J) {s : UdpLoop} {g : G} (h : J s g) :
    wlp P (iterate (copyLoopUdpBody inet udpFd) s) (fun e g' => J e.loop g' ∧ e.Proper) g := by
  refine wlp_iterate J h fun s g h => ?_
  unfold copyLoopUdpBody udpBeforeReplies
  simp only [bind_eq, wlp_bind]
  refine wlp_mono _ (fun flow g₁ h₁ => ?_) (R.udpPoll h)
  refine wlp_mono _ (fun flow g₂ h₂ => ?_) (R.andThen R.udpClient h₁)
  refine wlp_mono _ (fun flow g₃ h₃ => ?_) (R.andThen R.udpReplies h₂)
  cases flow with
  | next s => exact ⟨R.inv _ _ h₃, h₃⟩
  | again s => exact ⟨R.inv _ _ h₃, h₃⟩
  | leave e => exact ⟨R.inv _ _ h₃.1, h₃⟩

end UdpRules

end Rules

end TwoSocks
