/-
Whose datagrams are forwarded.

An association whose client gave no address starts with a socket that is bound to any
address.  The first datagram that arrives there is taken with its sender, the socket is
connected to that sender, and from then on it receives from nobody else.  Nothing compares
the sender with the peer of the control connection: whoever is first has the association.

`Arrivals` is what an observer of the relay socket knows: to whom it is connected, and the
datagrams it has received, with their senders.  The sender of a datagram that `recv` returns
is the peer of a connected socket; that is what is assumed of connected sockets.
-/
import TwoSocks.Proofs.UdpAssociation
import TwoSocks.Proofs.Operations
import TwoSocks.Proofs.InetText

namespace TwoSocks

open Server Prog

/-! ### What arrives at the relay socket -/

structure Arrivals where
  /-- The relay socket, while there is one. -/
  relay : Option Fd
  /-- To whom it is connected. -/
  peer : Option SockaddrUnion
  /-- The datagrams received there, with their senders. -/
  received : List (SockaddrUnion × Bytes)

namespace Arrivals

/-- A session has no relay socket at first. -/
def initial : Arrivals := ⟨none, none, []⟩

/-- The first datagram socket of a session is the one for its client. -/
def next (g : Arrivals) : (o : Op) → o.Ret → Arrivals
  | .socket _ .dgram, .ok fd => if g.relay = none then ⟨some fd, none, []⟩ else g
  | .connect fd addr, .ok () => if g.relay = some fd then { g with peer := some addr } else g
  | .recvfrom fd _, .ok (buf, source) =>
      if g.relay = some fd then { g with received := g.received ++ [(source, buf)] } else g
  | .recv fd _, .ok buf =>
      if g.relay = some fd then
        { g with received := g.received ++ (g.peer.map fun source => (source, buf)).toList }
      else g
  | .close fd, _ => if g.relay = some fd then { g with relay := none } else g
  | _, _ => g

/-- `socket` does not return the relay socket while it is open, and `getpeername` knows
whether the relay socket is connected. -/
def rely (g : Arrivals) : (o : Op) → o.Ret → Prop
  | .socket _ _, .ok fd => g.relay ≠ some fd
  | .getpeername fd, .ok addr => g.relay = some fd → g.peer = some addr
  | .getpeername fd, .error e => g.relay = some fd → e = .enotconn → g.peer = none
  | _, _ => True

/-- The last datagram came from `source` and carried `payload`. -/
def Carried (inet : Inet) (g : Arrivals) (payload : Bytes) (source : SockaddrUnion) : Prop :=
  ∃ datagram offset addrport, g.received.getLast? = some (source, datagram) ∧
    extractUdpData inet datagram datagram.length = .ok (offset, addrport) ∧
    payload = datagram.drop offset

/-- It came from the sender of the first, to whom the relay socket is connected. -/
def FromFirst (inet : Inet) (g : Arrivals) (payload : Bytes) : Prop :=
  ∃ source first, g.received.head? = some (source, first) ∧ g.peer = some source ∧
    g.Carried inet payload source

/-- It came from the host at the other end of the control connection. -/
def FromClient (inet : Inet) (client : Client) (g : Arrivals) (payload : Bytes) : Prop :=
  ∃ source, g.Carried inet payload source ∧
    source.addressBytes = client.addr.addressBytes

/-- A payload goes out only if it is the first sender's, and `recv` is only called on the
relay socket once it is connected. -/
def guar (inet : Inet) (g : Arrivals) : Op → Prop
  | .send _ payload => FromFirst inet g payload
  | .recv fd _ => g.relay = some fd → g.peer.isSome
  | _ => True

def spec (inet : Inet) : Spec sys Arrivals where
  rely := rely
  guar := guar inet
  next := next

/-- What is known after a history. -/
def after (tr : Trace sys) : Arrivals := tr.foldl (fun g e => g.next e.op e.ret) initial

/-- The sockets behave, along the whole of a history. -/
def Answered (tr : Trace sys) : Prop :=
  ∀ pre e post, tr = pre ++ e :: post → (after pre).rely e.op e.ret

/-- Every payload that is sent, is sent with `Q` known of what has arrived. -/
def Forwards (Q : Arrivals → Bytes → Prop) (tr : Trace sys) : Prop :=
  ∀ pre fd payload (r : Except Errno Nat) post, tr = pre ++ ⟨.send fd payload, r⟩ :: post →
    Q (after pre) payload

end Arrivals

/-- An operation that concerns no socket, or only reads and writes a stream. -/
def Op.aside : Op → Prop
  | .socket _ _ | .connect _ _ | .recvfrom _ _ | .recv _ _ | .close _ | .send _ _ => False
  | _ => True

/-- What the loop and the observer agree on. -/
structure Pinned (udpFd : Fd) (s : UdpLoop) (g : Arrivals) : Prop where
  relay : g.relay = some udpFd
  bound : s.udpIsBound = g.peer.isSome
  sources : ∀ d ∈ g.received, g.peer = some d.1
  others : ∀ item ∈ s.sockList.items, item.fd ≠ udpFd

/-- The payload to be sent is in the last datagram, and all datagrams are from one sender. -/
structure InHand (inet : Inet) (udpFd : Fd) (s : UdpLoop) (payload : Bytes) (g : Arrivals) :
    Prop where
  pinned : Pinned udpFd s g
  ready : g.FromFirst inet payload

section Loop

variable {inet : Inet} {udpFd : Fd} {s : UdpLoop} {g : Arrivals}

/-- An answer that tells the observer nothing, or what `h` says. -/
theorem wlp_noted {α : Type} {p : Server α} {Q : α → Arrivals → Prop} {g' : Arrivals} (h : g' = g)
    (hw : wlp (Arrivals.spec inet) p Q g) : wlp (Arrivals.spec inet) p Q g' := h ▸ hw

/-- What has nothing to do with the relay socket leaves it alone. -/
theorem wlp_aside {α : Type} {p : Server α} (hu : Uses Op.aside p) :
    wlp (Arrivals.spec inet) p (fun _ g' => g = g') g := by
  refine wlp_of_uses (J := fun g' => g = g') (fun _ _ => trivial) (fun g' o _ ho => ?_)
    (fun g' o r hg ho _ => ?_) hu rfl
  · cases o <;> trivial
  · rw [hg]
    cases o <;> first | rfl | exact ho.elim

theorem Pinned.notRelay (hp : Pinned udpFd s g) {fd : Fd} (hfd : fd ≠ udpFd) :
    g.relay ≠ some fd := by
  rw [hp.relay]
  simpa using hfd.symm

/-- Closing a destination. -/
theorem closeUdpDestination_pinned (hp : Pinned udpFd s g) {idx : Nat}
    (hidx : idx < s.sockList.items.length) (state : ConnectionState) (ec : Errorcode) :
    wlp (Arrivals.spec inet) (closeUdpDestination s idx state ec)
      (fun s' g' => Pinned udpFd s' g') g := by
  have hitem : s.sockList.itemFromIndex idx = s.sockList.items[idx] :=
    List.getD_eq_getElem _ _ hidx
  have hother := hp.notRelay (hp.others _ (List.getElem_mem hidx))
  have hclosed : g.next (.close s.sockList.items[idx].fd) () = g := by
    simp only [Arrivals.next, if_neg hother]
  unfold closeUdpDestination
  simp only [hitem, bind_eq, wlp_bind, wlp_close]
  refine ⟨trivial, trivial, fun _ => ⟨trivial, ?_⟩⟩
  have hkept : Pinned udpFd
      { s with
        fds := (removeUdpPollfd s.fds s.pollFds s.sockList.items[idx].fd).1
        pollFds := (removeUdpPollfd s.fds s.pollFds s.sockList.items[idx].fd).2
        sockList := s.sockList.delete idx } g :=
    ⟨hp.relay, hp.bound, hp.sources, fun item hi => hp.others item (List.mem_of_mem_eraseIdx hi)⟩
  exact wlp_noted hclosed ⟨trivial, trivial, fun _ _ => ⟨trivial, trivial, hkept⟩⟩

/-- What an attempt to open a destination leaves. -/
def OpenedFor (udpFd : Fd) (g : Arrivals) :
    UdpLoop × Option (Fd × Nat) → Arrivals → Prop
  | (s', r), g' => g = g' ∧ Pinned udpFd s' g ∧
      ∀ fd idx, r = some (fd, idx) → idx < s'.sockList.items.length

theorem openUdpDestination_pinned (hp : Pinned udpFd s g) (addrport : Socks5Addrport) :
    wlp (Arrivals.spec inet) (openUdpDestination s addrport) (OpenedFor udpFd g) g := by
  have hfailed : ∀ {report : Server Unit}, Uses Op.aside report →
      wlp (Arrivals.spec inet) (do report; return (s, none)) (OpenedFor udpFd g) g := by
    intro report hu
    refine (wlp_bind _).mpr (wlp_mono _ ?_ (wlp_aside hu))
    rintro _ _ rfl
    exact ⟨trivial, rfl, hp, by simp⟩
  have habandoned : ∀ {fd : Fd} {report : Server Unit}, fd ≠ udpFd → Uses Op.aside report →
      wlp (Arrivals.spec inet) (do close fd; report; return (s, none)) (OpenedFor udpFd g) g := by
    intro fd report hfd hu
    have hclosed : g.next (.close fd) () = g := by
      simp only [Arrivals.next, if_neg (hp.notRelay hfd)]
    exact ⟨trivial, trivial, fun _ _ => wlp_noted hclosed (hfailed hu)⟩
  have hfail : ∀ ec, Uses Op.aside (failUdpDestination addrport ec) := fun ec =>
    .bind (uses_perform trivial) fun _ => uses_perform trivial
  have hresolve : Uses Op.aside (resolveSocks5Addrport addrport .udpSocket) := by
    refine .bind (uses_perform trivial) fun r => ?_
    cases r <;> trivial
  unfold openUdpDestination
  refine (wlp_bind _).mpr (wlp_mono _ ?_ (wlp_aside hresolve))
  rintro (ec | targetAddr) _ rfl
  · exact hfailed (hfail ec)
  refine ⟨trivial, trivial, fun r hr => ?_⟩
  rcases r with e | fd
  · exact hfailed (hfail _)
  have hfd : fd ≠ udpFd := by
    rintro rfl
    exact hr hp.relay
  have hsocket : g.next (.socket targetAddr.af .dgram) (.ok fd) = g := by
    simp [Arrivals.next, hp.relay]
  refine wlp_noted hsocket ⟨trivial, trivial, fun r _ => ?_⟩
  rcases r with e | ⟨⟩
  · exact habandoned hfd (hfail _)
  have hconnect : g.next (.connect fd targetAddr) (.ok ()) = g := by
    simp only [Arrivals.next, if_neg (hp.notRelay hfd)]
  refine wlp_noted hconnect ⟨trivial, trivial, fun connectionId _ => ?_⟩
  refine wlp_noted rfl ?_
  simp only [ret_bind]
  split
  · exact habandoned hfd (uses_perform trivial)
  have hadded : ∀ {l' : Sblist FdSocks5addr},
      l'.items = s.sockList.items ++ [⟨fd, connectionId, addrport⟩] →
      wlp (Arrivals.spec inet) (do
        let s := s.track l' fd
        emitAddrportConnectionEvent connectionId .udp .opened addrport .success
        return (s, some (fd, s.sockList.getsize - 1))) (OpenedFor udpFd g) g := by
    intro l' hlist
    have hpinned : Pinned udpFd (s.track l' fd) g := by
      refine ⟨hp.relay, hp.bound, hp.sources, fun item hi => ?_⟩
      change item ∈ l'.items at hi
      rw [hlist] at hi
      rcases List.mem_append.mp hi with hi | hi
      · exact hp.others item hi
      · rw [List.mem_singleton.mp hi]
        exact hfd
    refine ⟨trivial, trivial, fun _ _ => ⟨trivial, rfl, hpinned, fun fd' idx hsome => ?_⟩⟩
    obtain ⟨-, rfl⟩ : fd = fd' ∧ (s.track l' fd).sockList.getsize - 1 = idx := by
      simpa using hsome
    show l'.items.length - 1 < l'.items.length
    rw [hlist, List.length_append, List.length_singleton]
    omega
  refine (wlp_bind _).mpr (wlp_sblistAdd _ _ trivial (fun _ => trivial) (fun _ _ => trivial)
    (fun l' hlist => hadded hlist) (fun _ => ?_) (fun _ l' hlist => hadded hlist))
  exact habandoned hfd (uses_perform trivial)

/-! ### A datagram from the client -/

/-- How a part of an iteration leaves the loop and the observer. -/
def PinnedFlow (udpFd : Fd) : Flow → Arrivals → Prop
  | .next s, g | .again s, g => Pinned udpFd s g
  | .leave _, _ => True

theorem sendUdpPayload_pinned {payload : Bytes} (hh : InHand inet udpFd s payload g) {idx : Nat}
    (hidx : idx < s.sockList.items.length) (fd : Fd) :
    wlp (Arrivals.spec inet) (sendUdpPayload s fd idx payload) (PinnedFlow udpFd) g := by
  have hsend : wlp (Arrivals.spec inet) (sendRecorded fd payload) (fun _ g' => g = g') g := by
    refine wlp_opened (fun _ _ => trivial) ?_
    refine ⟨trivial, hh.ready, fun r _ => ?_⟩
    rcases r with e | n
    · exact ⟨trivial, rfl⟩
    · refine wlp_noted rfl ?_
      simp only [ret_bind]
      exact wlp_aside (.bind (uses_recordBytes (fun _ _ => trivial) _ _) fun _ => trivial)
  refine (wlp_bind _).mpr (wlp_mono _ ?_ hsend)
  rintro (e | n) _ rfl
  · exact (wlp_bind _).mpr (wlp_mono _ (fun s' g' hp' => ⟨trivial, hp'⟩)
      (closeUdpDestination_pinned hh.pinned hidx .error _))
  · exact ⟨trivial, hh.pinned⟩

theorem forwardUdpPayload_pinned {payload : Bytes} (hh : InHand inet udpFd s payload g)
    (addrport : Socks5Addrport) :
    wlp (Arrivals.spec inet) (forwardUdpPayload s addrport payload) (PinnedFlow udpFd) g := by
  unfold forwardUdpPayload
  cases hsearch : s.sockList.search
      (fun item => compareSocks5Addrport addrport item.addrport) with
  | some idx =>
      obtain ⟨hidx, -, -⟩ := List.findIdx?_eq_some_iff_getElem.mp hsearch
      exact sendUdpPayload_pinned hh hidx _
  | none =>
      refine (wlp_bind _).mpr (wlp_mono _ ?_ (openUdpDestination_pinned hh.pinned addrport))
      rintro ⟨s', _ | ⟨fd, idx⟩⟩ _ ⟨rfl, hp', hidx⟩
      · exact ⟨trivial, hp'⟩
      · exact sendUdpPayload_pinned ⟨hp', hh.ready⟩ (hidx fd idx rfl) fd

/-- A datagram that came last, from the one everything else came from. -/
theorem deliverUdpDatagram_pinned (hp : Pinned udpFd s g) {source : SockaddrUnion} {buf : Bytes}
    {earlier : List (SockaddrUnion × Bytes)} (hlast : g.received = earlier ++ [(source, buf)]) :
    wlp (Arrivals.spec inet) (deliverUdpDatagram inet s buf) (PinnedFlow udpFd) g := by
  have hsource : g.peer = some source := hp.sources (source, buf) (by simp [hlast])
  unfold deliverUdpDatagram
  cases hextract : extractUdpData inet buf buf.length with
  | error ec => exact ⟨trivial, trivial⟩
  | ok result =>
      refine forwardUdpPayload_pinned ⟨hp, ?_⟩ _
      obtain ⟨d, hd⟩ : ∃ d, g.received.head? = some d := by
        rw [hlast]
        cases earlier <;> simp
      have hfirst := hp.sources d (List.mem_of_head? hd)
      rw [hsource, Option.some.injEq] at hfirst
      exact ⟨source, d.2, by rw [hd, hfirst], hsource, buf, result.1, result.2,
        by simp [hlast], hextract, rfl⟩

theorem udpClient_pinned (hp : Pinned udpFd s g) :
    wlp (Arrivals.spec inet) (udpClient inet udpFd s) (PinnedFlow udpFd) g := by
  have hfailed : ∀ e, wlp (Arrivals.spec inet) (.ret (udpReceiveFailed s e))
      (PinnedFlow udpFd) g := by
    intro e
    refine ⟨trivial, ?_⟩
    unfold udpReceiveFailed
    split
    · exact hp
    · trivial
  unfold udpClient udpClientDatagram
  split
  · split
    · -- connected: the datagram is from the peer
      rename_i hbound
      rw [hp.bound] at hbound
      obtain ⟨peer, hpeer⟩ := Option.isSome_iff_exists.mp hbound
      refine ⟨trivial, fun _ => hbound, fun r _ => ?_⟩
      rcases r with e | buf
      · exact hfailed e
      · have hnext : g.next (.recv udpFd UDP_COPY_BUFFER_SIZE) (.ok buf) =
            { g with received := g.received ++ [(peer, buf)] } := by
          simp [Arrivals.next, hp.relay, hpeer]
        have hpinned : Pinned udpFd s { g with received := g.received ++ [(peer, buf)] } := by
          refine ⟨hp.relay, hp.bound, fun d hd => ?_, hp.others⟩
          rcases List.mem_append.mp hd with hd | hd
          · exact hp.sources d hd
          · rw [List.mem_singleton.mp hd]
            exact hpeer
        refine wlp_noted hnext ?_
        simp only [ret_bind]
        exact deliverUdpDatagram_pinned hpinned rfl
    · -- not connected: it is from whoever sent it, and nothing has come before
      rename_i hbound
      rw [hp.bound, Bool.not_eq_true, Option.isSome_eq_false_iff,
        Option.isNone_iff_eq_none] at hbound
      have hnone : g.received = [] := by
        refine List.eq_nil_iff_forall_not_mem.mpr fun d hd => ?_
        have := hp.sources d hd
        rw [hbound] at this
        cases this
      refine ⟨trivial, trivial, fun r _ => ?_⟩
      rcases r with e | ⟨buf, source⟩
      · exact hfailed e
      · have hnext : g.next (.recvfrom udpFd UDP_COPY_BUFFER_SIZE) (.ok (buf, source)) =
            { g with received := [(source, buf)] } := by
          simp [Arrivals.next, hp.relay, hnone]
        refine wlp_noted hnext ⟨trivial, trivial, fun r _ => ?_⟩
        rcases r with e | ⟨⟩
        · exact ⟨trivial, trivial⟩
        · have hconnected : Arrivals.next { g with received := [(source, buf)] }
              (.connect udpFd source) (.ok ()) =
              { g with peer := some source, received := [(source, buf)] } := by
            simp [Arrivals.next, hp.relay]
          have hpinned : Pinned udpFd { s with udpIsBound := true }
              { g with peer := some source, received := [(source, buf)] } := by
            refine ⟨hp.relay, rfl, fun d hd => ?_, hp.others⟩
            rw [List.mem_singleton.mp hd]
          refine wlp_noted hconnected ?_
          simp only [ret_bind, pure_eq]
          exact deliverUdpDatagram_pinned hpinned (List.nil_append _).symm
  · exact ⟨trivial, hp⟩

/-! ### The rest of an iteration -/

theorem udpPoll_pinned (hp : Pinned udpFd s g) :
    wlp (Arrivals.spec inet) (udpPoll s) (PinnedFlow udpFd) g := by
  unfold udpPoll
  refine ⟨trivial, trivial, fun r _ => wlp_noted rfl ?_⟩
  rcases r with _ | e | revents
  · exact ⟨trivial, trivial⟩
  · simp only [ret_bind]
    split
    · exact ⟨trivial, hp⟩
    · exact ⟨trivial, trivial⟩
  · have hstored : Pinned udpFd { s with fds := storeRevents s.fds s.pollFds revents } g :=
      ⟨hp.relay, hp.bound, hp.sources, hp.others⟩
    simp only [ret_bind]
    split
    · exact ⟨trivial, trivial⟩
    split
    · exact ⟨trivial, trivial⟩
    split
    · refine ⟨trivial, trivial, fun r _ => wlp_noted rfl ?_⟩
      rcases r with e | buf
      · simp only [ret_bind]
        split
        · exact ⟨trivial, hstored⟩
        · exact ⟨trivial, trivial, fun _ _ => ⟨trivial, trivial⟩⟩
      · simp only [ret_bind]
        split <;> exact ⟨trivial, trivial⟩
    · exact ⟨trivial, hstored⟩

/-- How a round of the loop over the destinations leaves them. -/
def PinnedRound (udpFd : Fd) : (UdpLoop × Nat) ⊕ Flow → Arrivals → Prop :=
  Sum.elim (fun r => Pinned udpFd r.1) (PinnedFlow udpFd)

theorem udpReply_pinned (hp : Pinned udpFd s g) {i idx : Nat}
    (hidx : idx < s.sockList.items.length) (hfd : (s.fds i).fd ≠ udpFd) :
    wlp (Arrivals.spec inet) (udpReply inet udpFd s i idx) (PinnedRound udpFd) g := by
  have hclose : ∀ ec, wlp (Arrivals.spec inet) (do
      let s ← closeUdpDestination s idx .error ec
      return .inl (s, i)) (PinnedRound udpFd) g := fun ec =>
    (wlp_bind _).mpr (wlp_mono _ (fun _ _ hp' => ⟨trivial, hp'⟩)
      (closeUdpDestination_pinned hp hidx .error ec))
  unfold udpReply
  cases udpReplyHeader inet (s.sockList.itemFromIndex idx).addrport with
  | unknownType => exact ⟨trivial, trivial, fun r => nomatch r⟩
  | invalidAddress => exact hclose _
  | built header =>
      have hrecv : ∀ r,
          g.next (.recv (s.fds i).fd (UDP_COPY_BUFFER_SIZE - header.length)) r = g := by
        intro r
        rcases r with e | payload
        · rfl
        · simp only [Arrivals.next, if_neg (hp.notRelay hfd)]
      refine ⟨trivial, fun hr => absurd hr (hp.notRelay hfd), fun r _ => wlp_noted (hrecv r) ?_⟩
      rcases r with e | payload
      · exact hclose _
      · have hwrite : Uses Op.aside (writeRecorded udpFd header payload) :=
          writeRecorded_uses (fun _ => trivial) (fun _ _ => trivial) _ _
        simp only [ret_bind]
        refine (wlp_bind _).mpr (wlp_mono _ ?_ (wlp_aside hwrite))
        rintro (e | n) _ rfl
        · exact ⟨trivial, trivial⟩
        · exact ⟨trivial, hp⟩

theorem udpRepliesBody_pinned (hp : Pinned udpFd s g) (i : Nat) :
    wlp (Arrivals.spec inet) (udpRepliesBody inet udpFd (s, i)) (PinnedRound udpFd) g := by
  unfold udpRepliesBody
  dsimp only
  split
  · cases hsearch : s.sockList.search (fun item => (s.fds i).fd == item.fd) with
    | none => exact ⟨trivial, trivial⟩
    | some idx =>
        obtain ⟨hidx, hitem, -⟩ := List.findIdx?_eq_some_iff_getElem.mp hsearch
        have hfd : (s.fds i).fd ≠ udpFd := by
          rw [beq_iff_eq.mp hitem]
          exact hp.others _ (List.getElem_mem hidx)
        dsimp only
        split
        · exact (wlp_bind _).mpr (wlp_mono _ (fun _ _ hp' => ⟨trivial, hp'⟩)
            (closeUdpDestination_pinned hp hidx .error _))
        split
        · exact ⟨trivial, hp⟩
        · exact udpReply_pinned hp hidx hfd
  · exact ⟨trivial, hp⟩

theorem udpReplies_pinned (hp : Pinned udpFd s g) :
    wlp (Arrivals.spec inet) (udpReplies inet udpFd s) (PinnedFlow udpFd) g :=
  wlp_iterate (fun r g => Pinned udpFd r.1 g) hp fun r _ hr => udpRepliesBody_pinned hr r.2

theorem andThen_pinned {f : UdpLoop → Server Flow}
    (hf : ∀ s g, Pinned udpFd s g → wlp (Arrivals.spec inet) (f s) (PinnedFlow udpFd) g)
    (flow : Flow)
    (hflow : PinnedFlow udpFd flow g) :
    wlp (Arrivals.spec inet) (flow.andThen f) (PinnedFlow udpFd) g := by
  cases flow with
  | next s => exact hf s g hflow
  | again s => exact ⟨trivial, hflow⟩
  | leave e => exact ⟨trivial, trivial⟩

/-- One iteration. -/
theorem copyLoopUdpBody_pinned (hp : Pinned udpFd s g) :
    wlp (Arrivals.spec inet) (copyLoopUdpBody inet udpFd s)
      (Sum.elim (Pinned udpFd) fun _ _ => True) g := by
  unfold copyLoopUdpBody udpBeforeReplies
  simp only [bind_eq, pure_eq, wlp_bind]
  refine wlp_mono _ (fun flow g hflow => ?_) (udpPoll_pinned hp)
  refine wlp_mono _ (fun flow g hflow => ?_)
    (andThen_pinned (fun s g hp => udpClient_pinned hp) flow hflow)
  refine wlp_mono _ (fun flow g hflow => ?_)
    (andThen_pinned (fun s g hp => udpReplies_pinned hp) flow hflow)
  cases flow with
  | next s => exact ⟨trivial, hflow⟩
  | again s => exact ⟨trivial, hflow⟩
  | leave e => exact ⟨trivial, trivial⟩

end Loop

/-! ### A session -/

section Session

variable {inet : Inet} {client : Client} {udpFd : Fd} {g : Arrivals}

/-- An operation that neither forwards anything nor takes what has arrived. -/
def Op.neutral : Op → Prop
  | .send _ _ | .recv _ _ => False
  | _ => True

theorem wlp_neutral {α : Type} {p : Server α} (hu : Uses Op.neutral p) :
    wlp (Arrivals.spec inet) p (fun _ _ => True) g := by
  refine wlp_of_uses (J := fun _ => True) (fun _ _ => trivial) (fun g' o _ ho => ?_)
    (fun _ _ _ _ _ _ => trivial) hu trivial
  cases o <;> trivial

/-- A relay socket at which nothing has arrived yet. -/
structure Waiting (udpFd : Fd) (g : Arrivals) : Prop where
  relay : g.relay = some udpFd
  received : g.received = []

/-- The socket of an association that has been set up. -/
def Prepared : Relay → Arrivals → Prop
  | .udp udpFd => Waiting udpFd
  | _ => fun _ => True

theorem copyLoopUdp_pinned (hw : Waiting udpFd g) (tcpFd : Fd) :
    wlp (Arrivals.spec inet) (copyLoopUdp inet tcpFd udpFd) (fun _ _ => True) g := by
  have hbound : wlp (Arrivals.spec inet) (udpIsBound udpFd)
      (fun bound g' => g = g' ∧ bound = g.peer.isSome) g := by
    refine ⟨trivial, trivial, fun r hr => wlp_noted (by cases r <;> rfl) ?_⟩
    rcases r with e | addr
    · simp only [ret_bind]
      split
      · rename_i he
        exact ⟨trivial, rfl, by rw [hr hw.relay he]; rfl⟩
      · exact ⟨trivial, trivial, fun r => nomatch r⟩
    · exact ⟨trivial, rfl, by rw [hr hw.relay]; rfl⟩
  have hmalloc : ∀ size, wlp (Arrivals.spec inet) (malloc size) (fun _ g' => g = g') g :=
    fun size => wlp_aside (uses_perform trivial)
  unfold copyLoopUdp
  refine (wlp_bind _).mpr (wlp_mono _ ?_ hbound)
  rintro bound _ ⟨rfl, hpeer⟩
  refine (wlp_bind _).mpr (wlp_mono _ ?_ (hmalloc _))
  rintro buf _ rfl
  refine (wlp_bind _).mpr (wlp_mono _ ?_ (hmalloc _))
  rintro sockList _ rfl
  split
  · have hinit : Pinned udpFd (initialUdpLoop tcpFd udpFd bound) g := by
      refine ⟨hw.relay, hpeer, ?_, by simp [initialUdpLoop, Sblist.new]⟩
      rw [hw.received]
      simp
    refine (wlp_bind _).mpr (wlp_mono _ (fun e g' _ => ?_)
      (wlp_iterate (Pinned udpFd) hinit fun s g hp => copyLoopUdpBody_pinned hp))
    exact wlp_neutral (.bind (uses_forEach (fun _ => uses_perform trivial) _)
      fun _ => uses_forEach (fun _ => uses_perform trivial) _)
  · exact ⟨trivial, trivial⟩

/-- The socket `udp_svc_setup` returns is the relay socket, whether it connects it or not. -/
theorem udpSvcSetup_waiting (hg : g.relay = none) (clientAddr : SockaddrUnion) :
    wlp (Arrivals.spec inet) (udpSvcSetup clientAddr)
      (fun r g' => ∀ fd, r = .ok fd → Waiting fd g') g := by
  have hsocket : ∀ fd, g.next (.socket clientAddr.af .dgram) (.ok fd) = ⟨some fd, none, []⟩ := by
    intro fd
    simp only [Arrivals.next, if_pos hg]
  have hclose : ∀ {fd : Fd} {ec : Errorcode} {g' : Arrivals}, wlp (Arrivals.spec inet)
      (do close fd; return (.error ec : Except Errorcode Fd))
      (fun r g' => ∀ fd, r = .ok fd → Waiting fd g') g' :=
    fun {_ _ _} => ⟨trivial, trivial, fun _ _ => ⟨trivial, nofun⟩⟩
  unfold udpSvcSetup
  refine ⟨trivial, trivial, fun r _ => ?_⟩
  rcases r with e | fd
  · exact ⟨trivial, nofun⟩
  refine wlp_noted (hsocket fd) ?_
  simp only [ret_bind]
  split
  · refine ⟨trivial, trivial, fun r _ => ?_⟩
    rcases r with e | ⟨⟩
    · exact hclose
    · have hconnect : Arrivals.next ⟨some fd, none, []⟩ (.connect fd clientAddr) (.ok ()) =
          ⟨some fd, some clientAddr, []⟩ := by
        simp only [Arrivals.next, if_pos]
      refine wlp_noted hconnect ⟨trivial, ?_⟩
      rintro _ ⟨⟩
      exact ⟨rfl, rfl⟩
  · refine ⟨trivial, trivial, fun r _ => wlp_noted (by cases r <;> rfl) ?_⟩
    rcases r with _ | addr
    · exact hclose
    refine ⟨trivial, trivial, fun r _ => wlp_noted (by cases r <;> rfl) ?_⟩
    rcases r with e | ⟨⟩
    · exact hclose
    · refine ⟨trivial, ?_⟩
      rintro _ ⟨⟩
      exact ⟨rfl, rfl⟩

theorem setupUdpAssociate_prepared (hg : g.relay = none) (address : SockaddrUnion) :
    wlp (Arrivals.spec inet) (setupUdpAssociate client address) Prepared g := by
  have hsend : ∀ {ec : Errorcode} {g' : Arrivals}, wlp (Arrivals.spec inet)
      (do sendError client.fd ec; return Relay.none) Prepared g' :=
    fun {_ _} => ⟨trivial, trivial, fun _ _ => ⟨trivial, trivial⟩⟩
  have hclose : ∀ {fd : Fd} {g' : Arrivals}, wlp (Arrivals.spec inet)
      (do close fd; return Relay.none) Prepared g' :=
    fun {_ _} => ⟨trivial, trivial, fun _ _ => ⟨trivial, trivial⟩⟩
  unfold setupUdpAssociate
  refine (wlp_bind _).mpr (wlp_mono _ (fun r g₁ hr => ?_) (udpSvcSetup_waiting hg address))
  rcases r with ec | _ | fd
  · exact hsend
  · exact hsend
  have hw : Waiting (fd + 1) g₁ := hr _ rfl
  have hpopulate : Uses Op.aside (populateUdpResponseAddr (fd + 1) client.fd) := by
    refine (populateUdpResponseAddr_uses _ _).mono fun o ho => ?_
    cases o <;> trivial
  refine (wlp_bind _).mpr (wlp_mono _ ?_ (wlp_aside hpopulate))
  rintro (_ | localAddr) _ rfl
  · exact hclose
  refine ⟨trivial, trivial, fun r _ => wlp_noted rfl ?_⟩
  rcases r with e | n
  · exact hclose
  · exact ⟨trivial, hw⟩

theorem setupRequest_prepared (hg : g.relay = none) (buf : Bytes) :
    wlp (Arrivals.spec inet) (setupRequest inet client buf) Prepared g := by
  have hparse : Uses Op.aside (parseSocksRequestHeader inet buf buf.length) := by
    refine (parseSocksRequestHeader_uses _ _ _).mono fun o ho => ?_
    cases o <;> trivial
  have hconnect : ∀ address requestedAddr,
      Uses Op.neutral (setupConnect client address requestedAddr) := by
    refine fun address requestedAddr => (setupConnect_connecting _ _ _).mono fun o ho => ?_
    cases o <;> trivial
  unfold setupRequest
  refine (wlp_bind _).mpr (wlp_mono _ ?_ (wlp_aside hparse))
  rintro (ec | ⟨_ | _, address, requestedAddr⟩) _ rfl
  · exact ⟨trivial, trivial⟩
  · refine wlp_mono _ (fun relay g' h => ?_)
      (wlp_returns (setupConnect_returns client address requestedAddr)
        (wlp_neutral (hconnect address requestedAddr)))
    cases relay with
    | udp fd => exact absurd rfl (h.1 fd)
    | none => trivial
    | tcp remotefd connectionId requestedAddr => trivial
  · exact setupUdpAssociate_prepared hg address

theorem runRelay_pinned {relay : Relay} (hr : Prepared relay g) :
    wlp (Arrivals.spec inet) (runRelay inet client relay) (fun _ _ => True) g := by
  cases relay with
  | none => exact ⟨trivial, trivial⟩
  | tcp remotefd connectionId requestedAddr =>
      have hcopy : Uses Op.neutral (copyloop client.fd remotefd) := by
        refine (copyloop_relaying _ _).mono fun o ho => ?_
        cases o <;> trivial
      exact wlp_neutral (.bind (uses_perform trivial) fun _ => .bind hcopy fun _ =>
        .bind (uses_perform trivial) fun _ => uses_perform trivial)
  | udp udpFd =>
      exact (wlp_bind _).mpr (wlp_mono _ (fun _ _ _ => wlp_neutral (uses_perform trivial))
        (copyLoopUdp_pinned hr client.fd))

/-- Until its request a session has no relay socket; after it there is nothing more to
keep. -/
theorem clientthreadBody_pinned (cfg : Config) (hg : g.relay = none) :
    wlp (Arrivals.spec inet) (clientthreadBody inet cfg client ())
      (Sum.elim (fun _ g' => g'.relay = none) fun _ _ => True) g := by
  have haside : ∀ o : Op, o.handshake → o.aside := by
    intro o ho
    cases o <;> trivial
  have hstays : ∀ {p : Server (Unit ⊕ Unit)}, Uses Op.handshake p →
      wlp (Arrivals.spec inet) p (Sum.elim (fun _ g' => g'.relay = none) fun _ _ => True) g := by
    intro p hu
    refine wlp_mono _ ?_ (wlp_aside (hu.mono haside))
    rintro (_ | _) _ rfl
    · exact hg
    · trivial
  have hrecv : ∀ r, g.next (.recv client.fd CLIENT_BUFFER_SIZE) r = g := by
    intro r
    rcases r with e | buf
    · rfl
    · simp only [Arrivals.next, hg, reduceCtorEq, if_false]
  unfold clientthreadBody
  refine ⟨trivial, fun hr => by simp [hg] at hr, fun r _ => wlp_noted (hrecv r) ?_⟩
  rcases r with e | buf
  · exact ⟨trivial, trivial⟩
  simp only [ret_bind]
  split
  · exact ⟨trivial, trivial⟩
  refine ⟨trivial, trivial, fun state _ => wlp_noted rfl ?_⟩
  simp only [ret_bind]
  cases state with
  | ss1Connected => exact hstays (selectMethod_handshake cfg client buf)
  | ss2NeedAuth => exact hstays (authenticate_handshake cfg client buf)
  | ss3Authed =>
      refine (wlp_bind _).mpr ((wlp_bind _).mpr (wlp_mono _ (fun relay g₁ hr => ?_)
        (setupRequest_prepared hg buf)))
      exact wlp_mono _ (fun _ _ _ => ⟨trivial, trivial⟩) (runRelay_pinned hr)

theorem clientthread_pinned (inet : Inet) (cfg : Config) (client : Client) :
    wlp (Arrivals.spec inet) (clientthread inet cfg client) (fun _ _ => True) .initial := by
  refine ⟨trivial, trivial, fun _ _ => wlp_noted rfl ?_⟩
  simp only [ret_bind]
  refine (wlp_bind _).mpr (wlp_mono _ (fun _ _ _ => ?_)
    (wlp_iterate (fun _ g => g.relay = none) rfl fun _ g hg => clientthreadBody_pinned cfg hg))
  exact wlp_neutral (.bind (uses_perform trivial) fun _ => uses_perform trivial)

end Session

/-! ### The result -/

/--
**Whoever is first has the association.**

Every payload a session forwards came in a datagram from the sender of the first datagram its
relay socket received, to whom that socket is connected by then.
-/
theorem forwards_from_first (inet : Inet) (cfg : Config) (client : Client)
    {whole : Block → Prop} {tr : Trace sys} {p : Server Unit}
    (hs : Steps whole (clientthread inet cfg client) tr p) (hanswered : Arrivals.Answered tr) :
    Arrivals.Forwards (Arrivals.FromFirst inet) tr := by
  have hlegal : (Arrivals.spec inet).Legal .initial tr := Spec.legal_iff.mpr hanswered
  have hf := wlp_steps hs (fun _ _ _ _ => trivial) (clientthread_pinned inet cfg client)
  have hall := (hf.elim hlegal).1
  intro pre fd payload r post he
  rw [he] at hall
  exact hall.at

/-- A user name and a password are asked for. -/
def passwordConfig : Config := ⟨some userName, some userPassword, false⟩

/-- What a client that gives no address sends as the one it will send from. -/
def anyAddrport : Socks5Addrport :=
  copyAddrport .ipv4 ⟨addressText .inet [0, 0, 0, 0], zero_notMem_addressText _ _⟩ 0

/-- The client logs in and asks for an association. -/
def associated : Trace sys :=
  [⟨.storeState .ss1Connected, ()⟩,
    ⟨.recv 4 1024, .ok [5, 1, 2]⟩, ⟨.loadState, .ss1Connected⟩,
    ⟨.storeState .ss2NeedAuth, ()⟩, ⟨.write 4 [5, 2], .ok 2⟩,
    ⟨.recv 4 1024, .ok [1, 1, 117, 1, 112]⟩, ⟨.loadState, .ss2NeedAuth⟩,
    ⟨.write 4 [1, 0], .ok 2⟩, ⟨.storeState .ss3Authed, ()⟩,
    ⟨.recv 4 1024, .ok [5, 3, 0, 1, 0, 0, 0, 0, 0, 0]⟩, ⟨.loadState, .ss3Authed⟩,
    ⟨.getaddrinfo anyAddrport.addr 0 .dgram, some (.v4 #v[0, 0, 0, 0] 0)⟩,
    ⟨.socket .inet .dgram, .ok 5⟩,
    ⟨.getaddrinfoPassive .inet, some (.v4 #v[0, 0, 0, 0] 0)⟩,
    ⟨.bind 5 (.v4 #v[0, 0, 0, 0] 0), .ok ()⟩,
    ⟨.getsockname 5, .ok (.v4 #v[0, 0, 0, 0] 50000)⟩,
    ⟨.getsockname 4, .ok (.v4 (hostAddress 1) 1080)⟩,
    ⟨.write 4 (responseBytes .success (.v4 (hostAddress 1) 50000)), .ok 10⟩,
    ⟨.getpeername 5, .error .enotconn⟩,
    ⟨.malloc UDP_COPY_BUFFER_SIZE, true⟩, ⟨.malloc SIZEOF_SBLIST, true⟩]

/-- A host that has not logged in is first to send a datagram, and it is forwarded. -/
def strangerFirst : Trace sys :=
  [⟨.poll [(4, POLLIN), (5, POLLIN)] IDLE_TIMEOUT, .ready [0, POLLIN]⟩,
    ⟨.recvfrom 5 UDP_COPY_BUFFER_SIZE, .ok (firstDatagram, .v4 #v[203, 0, 113, 5] 4000)⟩,
    ⟨.connect 5 (.v4 #v[203, 0, 113, 5] 4000), .ok ()⟩,
    ⟨.getaddrinfo firstTarget.addr 53 .dgram, some (.v4 (hostAddress 1) 53)⟩,
    ⟨.socket .inet .dgram, .ok 7⟩,
    ⟨.connect 7 (.v4 (hostAddress 1) 53), .ok ()⟩,
    ⟨.nextConnectionIdentifier, (1 : Int)⟩,
    ⟨.realloc 1, true⟩,
    ⟨.handler ⟨1, .udp, .opened, firstTarget.addr, 53, .success⟩, ()⟩]

/-- The payload goes out, and the association is left idle. -/
def forwarded : Trace sys :=
  [⟨.send 7 [7], .ok 1⟩, ⟨.fetchAdd .uploaded 1, ()⟩,
    ⟨.poll [(4, POLLIN), (5, POLLIN), (7, POLLIN)] IDLE_TIMEOUT, .timeout⟩,
    ⟨.handler ⟨1, .udp, .closed, firstTarget.addr, 53, .success⟩, ()⟩,
    ⟨.close 7, ()⟩, ⟨.close 5, ()⟩, ⟨.close 4, ()⟩, ⟨.storeDone, ()⟩]

theorem strangerSession : Steps (fun _ => True) (clientthread .plain passwordConfig webClient)
    (associated ++ strangerFirst ++ forwarded) (.ret ()) :=
  Eval.steps (eval_of_replay 60 (associated ++ strangerFirst ++ forwarded) rfl)

theorem stranger_answered : Arrivals.Answered (associated ++ strangerFirst ++ forwarded) := by
  refine (Spec.legal_iff (P := Arrivals.spec .plain)).mp ?_
  simp [Spec.Legal, associated, strangerFirst, forwarded, Arrivals.spec, Arrivals.rely,
    Arrivals.next,
    Arrivals.initial]

theorem forwards_from_first_stranger :
    Arrivals.Forwards (Arrivals.FromFirst .plain) (associated ++ strangerFirst ++ forwarded) :=
  forwards_from_first .plain passwordConfig webClient strangerSession stranger_answered

/-- The stranger's datagram is forwarded though the client has sent none. -/
theorem forwards_strangers :
    Steps (fun _ => True) (clientthread .plain passwordConfig webClient)
      (associated ++ strangerFirst ++ forwarded) (.ret ()) ∧
    Arrivals.Answered (associated ++ strangerFirst ++ forwarded) ∧
    ¬ Arrivals.Forwards (Arrivals.FromClient .plain webClient)
      (associated ++ strangerFirst ++ forwarded) := by
  refine ⟨strangerSession, stranger_answered, fun hall => ?_⟩
  obtain ⟨source, ⟨datagram, -, -, hlast, -⟩, hsame⟩ :=
    hall (associated ++ strangerFirst) 7 [7] (.ok 1) forwarded.tail (by simp [forwarded])
  have harrived : (Arrivals.after (associated ++ strangerFirst)).received =
      [(.v4 #v[203, 0, 113, 5] 4000, firstDatagram)] := by
    simp [Arrivals.after, associated, strangerFirst, Arrivals.next, Arrivals.initial]
  rw [harrived] at hlast
  obtain ⟨rfl, -⟩ : SockaddrUnion.v4 #v[203, 0, 113, 5] 4000 = source ∧
      firstDatagram = datagram := by
    simpa using hlast
  exact absurd hsame (by decide)

end TwoSocks
