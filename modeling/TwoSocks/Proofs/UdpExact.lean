/-
The UDP relay passes everything on once.

The relay is a buffer with one place.  It takes a datagram of the client or a reply of
a destination, and before it reads or polls again that has been settled: the datagram
was accepted by the one socket opened for its address, or an error event names its
address; the reply was written to the client, under its destination's header.

`Courier` adds what is in hand to what `Assoc` knows.  Its spec asks that nothing is
read and no poll made with something in hand.  One lemma for each function of the loop
shows that the loop keeps to it, and what a trace that keeps to it has moved follows from
the spec alone, by induction on the trace.

What is in hand when the loop is left stays there.  That is only so when the association
fails.
-/
import TwoSocks.Proofs.UdpAssociation

namespace TwoSocks

open Server Prog

/-! ### What is in hand -/

/-- An address and the bytes that go there, or come from there. -/
abbrev Parcel := Socks5Addrport × Bytes

/-- What was read and is not settled yet. -/
inductive Cargo
  | none
  /-- A datagram of the client. -/
  | outward (parcel : Parcel)
  /-- A reply, with the address of its destination. -/
  | inward (parcel : Parcel)
  /-- Bytes that cannot be passed on. -/
  | stray

namespace Cargo

/-- What the client sent. -/
def fromClient (inet : Inet) (buf : Bytes) : Cargo :=
  match addressed inet buf with
  | some parcel => .outward parcel
  | Option.none => .stray

/-- What came on a socket that was opened for an address, or for none. -/
def fromSocket (owner : Option Socks5Addrport) (buf : Bytes) : Cargo :=
  match owner with
  | some addrport => .inward (addrport, buf)
  | Option.none => .stray

/-- An error event for its address settles a datagram. -/
def reported (c : Cargo) (e : ConnectionEvent) : Cargo :=
  match c with
  | .outward parcel =>
      if e.state = .error ∧ e.host = parcel.1.addr ∧ e.port = parcel.1.port then .none
      else .outward parcel
  | c => c

/-- The datagrams in hand, one at most. -/
def outgoing : Cargo → List Parcel
  | .outward parcel => [parcel]
  | _ => []

/-- The replies in hand, one at most. -/
def incoming : Cargo → List Parcel
  | .inward parcel => [parcel]
  | _ => []

end Cargo

/-- What an observer knows, and what the relay has in hand. -/
structure Courier where
  known : Assoc
  cargo : Cargo

namespace Courier

def initial (tcpFd udpFd : Fd) : Courier := ⟨.initial tcpFd udpFd, .none⟩

/-- What is in hand after an operation. -/
def cargoNext (inet : Inet) (udpFd : Fd) (g : Courier) : (o : Op) → o.Ret → Cargo
  | .recv fd _, .ok buf =>
      if fd = udpFd then .fromClient inet buf else .fromSocket (g.known.owner fd) buf
  | .recvfrom _ _, .ok (buf, _) => .fromClient inet buf
  | .send _ _, .ok _ => .none
  | .write fd _, .ok _ => if fd = udpFd then .none else g.cargo
  | .handler e, _ => g.cargo.reported e
  | _, _ => g.cargo

/-- Nothing is read with something in hand, and what is sent or written is what is in hand,
to the one socket opened for its address or under its destination's header. -/
def guar (inet : Inet) (udpFd : Fd) (g : Courier) : Op → Prop
  | .poll _ _ | .recvfrom _ _ => g.cargo = .none
  | .recv fd _ => g.cargo = .none ∧ (fd = udpFd ∨ g.known.owner fd ≠ none)
  | .send fd payload => ∃ addrport, g.cargo = .outward (addrport, payload) ∧
      ∀ fd', g.known.owner fd' = some addrport ↔ fd' = fd
  | .write fd buf => fd = udpFd → ∃ addrport payload header, g.cargo = .inward (addrport, payload) ∧
      udpReplyHeader inet addrport = .built header ∧ buf = header ++ payload
  | .abort => False
  | _ => True

end Courier

/-- A relay that has one thing in hand at most. -/
def courier (inet : Inet) (udpFd : Fd) : Spec sys Courier where
  rely g := g.known.rely
  guar := Courier.guar inet udpFd
  next g o r := ⟨g.known.next inet udpFd o r, g.cargoNext inet udpFd o r⟩

@[simp] theorem courier_next_known {inet : Inet} {udpFd : Fd} {g : Courier} {o : Op} {r : o.Ret} :
    ((courier inet udpFd).next g o r).known = g.known.next inet udpFd o r := rfl

@[simp] theorem courier_next_cargo {inet : Inet} {udpFd : Fd} {g : Courier} {o : Op} {r : o.Ret} :
    ((courier inet udpFd).next g o r).cargo = g.cargoNext inet udpFd o r := rfl

theorem courier_legal {inet : Inet} {udpFd : Fd} {tr : Trace sys} : ∀ {g : Courier},
    (courier inet udpFd).Legal g tr ↔ (Assoc.spec inet udpFd).Legal g.known tr := by
  induction tr with
  | nil => intro g; exact Iff.rfl
  | cons e tr ih => intro g; exact and_congr_right fun _ => ih

/-! ### What a trace moves -/

/-- The datagrams an event takes from the client. -/
def takenBy (inet : Inet) (udpFd : Fd) : Event sys → List Parcel
  | ⟨.recv fd _, .ok buf⟩ => if fd = udpFd then (addressed inet buf).toList else []
  | ⟨.recvfrom _ _, .ok (buf, _)⟩ => (addressed inet buf).toList
  | _ => []

/-- The payloads an event's socket accepts. -/
def acceptedBy : Event sys → List (Fd × Bytes)
  | ⟨.send fd payload, .ok _⟩ => [(fd, payload)]
  | _ => []

/-- The replies an event takes from a destination. -/
def repliedBy (udpFd : Fd) : Event sys → List Bytes
  | ⟨.recv fd _, .ok buf⟩ => if fd = udpFd then [] else [buf]
  | _ => []

/-- What an event writes to the client. -/
def handedBy (udpFd : Fd) : Event sys → List Bytes
  | ⟨.write fd buf, .ok _⟩ => if fd = udpFd then [buf] else []
  | _ => []

/-- What became of a datagram. -/
inductive Fate
  /-- The socket accepted it. -/
  | accepted (fd : Fd)
  /-- The event tells that it failed. -/
  | failed (e : ConnectionEvent)

/-- The socket and the payload of a datagram that was accepted. -/
def acceptance : Parcel × Fate → Option (Fd × Bytes)
  | ((_, payload), .accepted fd) => some (fd, payload)
  | (_, .failed _) => none

/-- The event for a datagram that failed. -/
def failure : Parcel × Fate → Option ConnectionEvent
  | (_, .accepted _) => none
  | (_, .failed e) => some e

/-- A failed datagram's event names its address. -/
def Attributed : Parcel × Fate → Prop
  | (_, .accepted _) => True
  | ((addrport, _), .failed e) => e.host = addrport.addr ∧ e.port = addrport.port

/-- A reply as the client gets it. -/
def Framed (inet : Inet) : Parcel → Bytes → Prop
  | (addrport, payload), buf =>
      ∃ header, udpReplyHeader inet addrport = .built header ∧ buf = header ++ payload

/-- What a trace moved between the client and the destinations, when `left` is in hand at its end
and `start` was at its beginning. -/
structure Moves (inet : Inet) (udpFd : Fd) (start : Cargo) (tr : Trace sys) (left : Cargo) :
    Prop where
  /-- Each datagram has one fate, in the order they came; the accepted ones are all that was
  accepted, and each failed one has an event of its own. -/
  outward : ∃ fates : List (Parcel × Fate),
    fates.map Prod.fst ++ left.outgoing = start.outgoing ++ tr.flatMap (takenBy inet udpFd) ∧
      fates.filterMap acceptance = tr.flatMap acceptedBy ∧
      (fates.filterMap failure).Sublist (tr.flatMap errorBy) ∧ ∀ fate ∈ fates, Attributed fate
  /-- Each reply is written once, in the order they came. -/
  inward : ∃ replies : List Parcel,
    (replies ++ left.incoming).map Prod.snd
        = start.incoming.map Prod.snd ++ tr.flatMap (repliedBy udpFd) ∧
      List.Forall₂ (Framed inet) replies (tr.flatMap (handedBy udpFd))

/-! ### What a trace that keeps to the spec moves -/

section Moving

variable {inet : Inet} {tcpFd udpFd : Fd} {a b c : Cargo} {g : Courier} {tr tr' : Trace sys}

namespace Moves

theorem refl : Moves inet udpFd c [] c :=
  ⟨⟨[], by simp⟩, [], by simp, .nil⟩

theorem trans (h : Moves inet udpFd a tr b) (h' : Moves inet udpFd b tr' c) :
    Moves inet udpFd a (tr ++ tr') c := by
  obtain ⟨fates, hfates, haccepted, hfailed, hnamed⟩ := h.outward
  obtain ⟨fates', hfates', haccepted', hfailed', hnamed'⟩ := h'.outward
  obtain ⟨replies, hreplies, hframed⟩ := h.inward
  obtain ⟨replies', hreplies', hframed'⟩ := h'.inward
  refine ⟨⟨fates ++ fates', ?_, ?_, ?_, ?_⟩, replies ++ replies', ?_, ?_⟩
  · rw [List.map_append, List.append_assoc, hfates', ← List.append_assoc, hfates,
      List.append_assoc, List.flatMap_append]
  · rw [List.filterMap_append, haccepted, haccepted', List.flatMap_append]
  · rw [List.filterMap_append, List.flatMap_append]
    exact hfailed.append hfailed'
  · intro fate hfate
    exact (List.mem_append.mp hfate).elim (hnamed fate) (hnamed' fate)
  · rw [List.append_assoc, List.map_append, hreplies', ← List.append_assoc, ← List.map_append,
      hreplies, List.append_assoc, List.flatMap_append]
  · rw [List.flatMap_append]
    exact List.rel_append hframed hframed'

/-- An event that moves nothing. -/
theorem idle {e : Event sys} (ht : takenBy inet udpFd e = []) (ha : acceptedBy e = [])
    (hr : repliedBy udpFd e = []) (hh : handedBy udpFd e = []) : Moves inet udpFd c [e] c :=
  ⟨⟨[], by simp [ht, ha]⟩, [], by simp [hr], by simp [hh]⟩

/-- Something is taken from the client. -/
theorem taken {e : Event sys} {buf : Bytes}
    (ht : takenBy inet udpFd e = (addressed inet buf).toList) (ha : acceptedBy e = [])
    (hr : repliedBy udpFd e = []) (hh : handedBy udpFd e = []) :
    Moves inet udpFd .none [e] (.fromClient inet buf) := by
  refine ⟨⟨[], ?_, by simp [ha], by simp, by simp⟩, [], ?_, by simp [hh]⟩
  · cases hp : addressed inet buf <;> simp [ht, hp, Cargo.fromClient, Cargo.outgoing]
  · cases hp : addressed inet buf <;> simp [hr, hp, Cargo.fromClient, Cargo.incoming]

/-- One event that the spec allows. -/
theorem event {e : Event sys} (hg : (courier inet udpFd).guar g e.op) :
    Moves inet udpFd g.cargo [e] ((courier inet udpFd).next g e.op e.ret).cargo := by
  obtain ⟨o, r⟩ := e
  cases o
  case recv fd len =>
    obtain ⟨hnone, howner⟩ := hg
    rcases r with e | buf
    · exact idle rfl rfl rfl rfl
    · rw [hnone]
      by_cases hfd : fd = udpFd
      · have hcargo : ((courier inet udpFd).next g (.recv fd len) (.ok buf)).cargo
            = .fromClient inet buf := if_pos hfd
        rw [hcargo]
        exact taken (if_pos hfd) rfl (if_pos hfd) rfl
      · obtain ⟨addrport, ha⟩ := Option.ne_none_iff_exists'.mp (howner.resolve_left hfd)
        have hcargo : ((courier inet udpFd).next g (.recv fd len) (.ok buf)).cargo
            = .inward (addrport, buf) := by
          show (if fd = udpFd then _ else _) = _
          rw [if_neg hfd, ha]
          rfl
        rw [hcargo]
        refine ⟨⟨[], ?_⟩, [], ?_, ?_⟩
        · simp [takenBy, acceptedBy, hfd, Cargo.outgoing]
        · simp [repliedBy, hfd, Cargo.incoming]
        · simp [handedBy]
  case recvfrom fd len =>
    rcases r with e | ⟨buf, source⟩
    · exact idle rfl rfl rfl rfl
    · rw [show g.cargo = .none from hg]
      exact taken rfl rfl rfl rfl
  case send fd payload =>
    obtain ⟨addrport, hcargo, -⟩ := hg
    rcases r with e | n
    · exact idle rfl rfl rfl rfl
    · rw [hcargo]
      refine ⟨⟨[((addrport, payload), .accepted fd)], rfl, rfl, List.nil_sublist _, ?_⟩, [], rfl,
        .nil⟩
      simp [Attributed]
  case write fd buf =>
    rcases r with e | n
    · exact idle rfl rfl rfl rfl
    · by_cases hfd : fd = udpFd
      · obtain ⟨addrport, payload, header, hcargo, hheader, hbuf⟩ := hg hfd
        have hnext : ((courier inet udpFd).next g (.write fd buf) (.ok n)).cargo = .none :=
          if_pos hfd
        rw [hcargo, hnext]
        refine ⟨⟨[], by simp [takenBy, acceptedBy, Cargo.outgoing]⟩, [(addrport, payload)], ?_, ?_⟩
        · simp [Cargo.incoming, repliedBy]
        · simp only [List.flatMap_cons, List.flatMap_nil, handedBy, if_pos hfd, List.append_nil]
          exact .cons ⟨header, hheader, hbuf⟩ .nil
      · have hnext : ((courier inet udpFd).next g (.write fd buf) (.ok n)).cargo = g.cargo :=
          if_neg hfd
        rw [hnext]
        exact idle rfl rfl rfl (if_neg hfd)
  case handler e =>
    show Moves inet udpFd g.cargo [_] (g.cargo.reported e)
    cases hcargo : g.cargo with
    | outward parcel =>
        by_cases he : e.state = .error ∧ e.host = parcel.1.addr ∧ e.port = parcel.1.port
        · rw [show (Cargo.outward parcel).reported e = .none from if_pos he]
          refine ⟨⟨[(parcel, .failed e)], ?_, ?_, ?_, ?_⟩, [], rfl, .nil⟩
          · simp [Cargo.outgoing, takenBy]
          · simp [acceptance, acceptedBy]
          · simp [failure, errorBy, he.1]
          · simp [Attributed, he.2]
        · rw [show (Cargo.outward parcel).reported e = .outward parcel from if_neg he]
          exact idle rfl rfl rfl rfl
    | none => exact idle rfl rfl rfl rfl
    | inward parcel => exact idle rfl rfl rfl rfl
    | stray => exact idle rfl rfl rfl rfl
  all_goals exact idle rfl rfl rfl rfl

/-- **Whatever keeps to the spec passes everything on once.** -/
theorem guaranteed : ∀ {g : Courier}, (courier inet udpFd).Guaranteed g tr →
    Moves inet udpFd g.cargo tr ((courier inet udpFd).run g tr).cargo := by
  induction tr with
  | nil => exact fun _ => refl
  | cons e tr ih => exact fun h => (event h.1).trans (ih h.2)

end Moves

end Moving

/-! ### A destination is closed, opened, or sent to -/

section Carrying

variable {inet : Inet} {tcpFd udpFd : Fd} {s : UdpLoop} {g : Courier}

/-- The tables are aligned and known. -/
def Tabled (tcpFd udpFd : Fd) (s : UdpLoop) (a : Assoc) : Prop :=
  Table tcpFd udpFd s ∧ Linked tcpFd udpFd s a

/-- So they are, and nothing is in hand. -/
def EmptyHanded (tcpFd udpFd : Fd) (s : UdpLoop) (g : Courier) : Prop :=
  Tabled tcpFd udpFd s g.known ∧ g.cargo = .none

/-- So they are, and a datagram to `addrport` is in hand. -/
def Laden (tcpFd udpFd : Fd) (s : UdpLoop) (addrport : Socks5Addrport) (payload : Bytes)
    (g : Courier) : Prop :=
  Tabled tcpFd udpFd s g.known ∧ g.known.dest = some (addrport, payload) ∧
    g.cargo = .outward (addrport, payload)

/-- An error event for the address of the datagram in hand settles it. -/
theorem Cargo.reported_addrport (addrport : Socks5Addrport) (payload : Bytes) (id : Int)
    (errorCode : Errorcode) : (Cargo.outward (addrport, payload)).reported
      ⟨id, .udp, .error, addrport.addr, addrport.port, errorCode⟩ = .none :=
  if_pos ⟨rfl, rfl, rfl⟩

theorem closeUdpDestination_courier (ht : Tabled tcpFd udpFd s g.known) {idx : Nat}
    (hidx : idx < s.sockList.items.length) (state : ConnectionState) (errorCode : Errorcode) :
    wlp (courier inet udpFd) (closeUdpDestination s idx state errorCode) (fun s' g' =>
      s' = s.remove idx ∧ Tabled tcpFd udpFd s' g'.known ∧
        g'.cargo = g.cargo.reported ⟨s.sockList.items[idx].connectionId, .udp, state,
          s.sockList.items[idx].addrport.addr, s.sockList.items[idx].addrport.port, errorCode⟩)
      g := by
  rw [ht.1.paired.closeUdpDestination hidx]
  exact ⟨trivial, trivial, fun _ _ => ⟨trivial, trivial, fun _ _ =>
    ⟨trivial, rfl, ⟨ht.1.remove hidx, ht.2.remove inet ht.1 hidx⟩, rfl⟩⟩⟩

/-- A destination that is closed for an error while nothing is in hand. -/
theorem closeUdpDestination_idle (hi : EmptyHanded tcpFd udpFd s g) {idx : Nat}
    (hidx : idx < s.sockList.items.length) (state : ConnectionState) (errorCode : Errorcode) :
    wlp (courier inet udpFd) (closeUdpDestination s idx state errorCode)
      (fun s' g' => s' = s.remove idx ∧ EmptyHanded tcpFd udpFd s' g') g := by
  refine wlp_mono _ ?_ (closeUdpDestination_courier hi.1 hidx state errorCode)
  rintro s' g' ⟨hs, ht, hcargo⟩
  exact ⟨hs, ht, by rw [hcargo, hi.2]; rfl⟩

theorem failUdpDestination_courier {addrport : Socks5Addrport} (payload : Bytes)
    (hc : Laden tcpFd udpFd s addrport payload g) (errorCode : Errorcode) :
    wlp (courier inet udpFd) (failUdpDestination addrport errorCode)
      (fun _ g' => EmptyHanded tcpFd udpFd s g') g := by
  refine ⟨trivial, trivial, fun id _ => ⟨trivial, trivial, fun _ _ => ⟨trivial, hc.1, ?_⟩⟩⟩
  show g.cargo.reported _ = _
  rw [hc.2.2]
  exact Cargo.reported_addrport ..

/-- What `openUdpDestination` comes back with: nothing in hand, or the datagram still in hand
and its destination at the end of the list. -/
def Readied (tcpFd udpFd : Fd) (addrport : Socks5Addrport) (payload : Bytes) :
    UdpLoop × Option (Fd × Nat) → Courier → Prop
  | (s, none), g => EmptyHanded tcpFd udpFd s g
  | (s, some (fd, idx)), g => Laden tcpFd udpFd s addrport payload g ∧
      ∃ h : idx < s.sockList.items.length,
        s.sockList.items[idx].fd = fd ∧ s.sockList.items[idx].addrport = addrport

theorem Laden.tracked (inet : Inet) {addrport : Socks5Addrport} {payload : Bytes}
    (hc : Laden tcpFd udpFd s addrport payload g)
    (hnew : ∀ other ∈ s.sockList.items, other.addrport ≠ addrport)
    (hknown : addrport.type ≠ .unknown) (hroom : s.pollFds < UDP_MAX_POLL_FDS) {fd : Fd}
    (hfd : fd ∉ g.known.held) (af : Af) {connectionId : Int} {sockList : Sblist FdSocks5addr}
    (hlist : sockList.items = s.sockList.items ++ [⟨fd, connectionId, addrport⟩])
    {g' : Courier} (hg : g'.known = g.known.next inet udpFd (.socket af .dgram) (.ok fd))
    (hcargo : g'.cargo = .outward (addrport, payload)) :
    Readied tcpFd udpFd addrport payload
      (s.track sockList fd, some (fd, (s.track sockList fd).sockList.getsize - 1)) g' := by
  obtain ⟨⟨ht, hl⟩, hdest, -⟩ := hc
  have hfresh : fd ∉ tcpFd :: udpFd :: s.sockList.items.map FdSocks5addr.fd :=
    fun hm => hfd ((hl.held fd).mpr hm)
  refine ⟨⟨⟨ht.track hlist hroom hfresh hnew hknown, ?_⟩, ?_, hcargo⟩, ?_, ?_⟩
  · rw [hg]
    exact hl.track inet hfd hdest hlist af .dgram
  · rw [hg]
    exact hdest
  · simp [UdpLoop.track, Sblist.getsize, hlist]
  · simp [UdpLoop.track, Sblist.getsize, hlist]

theorem openUdpDestination_courier {addrport : Socks5Addrport} {payload : Bytes}
    (hc : Laden tcpFd udpFd s addrport payload g)
    (hnew : ∀ other ∈ s.sockList.items, other.addrport ≠ addrport)
    (hknown : addrport.type ≠ .unknown) :
    wlp (courier inet udpFd) (openUdpDestination s addrport)
      (Readied tcpFd udpFd addrport payload) g := by
  have hcargo := hc.2.2
  unfold openUdpDestination resolveSocks5Addrport
  simp only [bind_eq, pure_eq, wlp_bind]
  refine ⟨trivial, trivial, fun addr _ => ⟨trivial, ?_⟩⟩
  rcases addr with _ | targetAddr
  · simp only [wlp_ret, wlp_bind]
    exact ⟨trivial, wlp_mono _ (fun _ g' hi => ⟨trivial, hi⟩)
      (failUdpDestination_courier payload hc .generalFailure)⟩
  · simp only [wlp_ret, wlp_bind]
    refine ⟨trivial, trivial, trivial, fun fd hfd => ⟨trivial, ?_⟩⟩
    rcases fd with e | fd
    · simp only [wlp_bind]
      exact wlp_mono _ (fun _ g' hi => ⟨trivial, hi⟩) (failUdpDestination_courier payload hc _)
    · -- a socket that is closed again leaves the tables as they were
      have hclosed := hc.1.2.openClose inet hfd targetAddr.af .dgram
      simp only [wlp_bind]
      refine ⟨trivial, trivial, fun connected _ => ⟨trivial, ?_⟩⟩
      rcases connected with e | _
      · simp only [wlp_bind]
        refine ⟨trivial, trivial, fun _ _ => ⟨trivial, ?_⟩⟩
        refine wlp_mono _ (fun _ g' hi => ⟨trivial, hi⟩) (failUdpDestination_courier payload ?_ _)
        exact ⟨⟨hc.1.1, hclosed⟩, hc.2⟩
      · simp only [wlp_bind]
        refine ⟨trivial, trivial, fun id _ => ⟨trivial, ?_⟩⟩
        have hsettled : g.cargo.reported
            ⟨id, .udp, .error, addrport.addr, addrport.port, .generalFailure⟩ = .none := by
          rw [hcargo]
          exact Cargo.reported_addrport ..
        have hstill : g.cargo.reported
            ⟨id, .udp, .opened, addrport.addr, addrport.port, .success⟩
              = .outward (addrport, payload) := by
          rw [hcargo]
          simp [Cargo.reported]
        split
        · simp only [wlp_bind]
          exact ⟨trivial, trivial, fun _ _ => ⟨trivial, trivial, trivial, fun _ _ =>
            ⟨trivial, trivial, ⟨hc.1.1, hclosed⟩, hsettled⟩⟩⟩
        · rename_i hroom
          simp only [wlp_bind]
          refine wlp_sblistAdd _ _ trivial (fun _ => trivial) (fun _ _ => trivial) ?_ ?_ ?_
          · intro sockList hlist
            simp only [wlp_bind]
            exact ⟨trivial, trivial, fun _ _ => ⟨trivial, trivial,
              hc.tracked inet hnew hknown (by omega) hfd targetAddr.af hlist rfl hstill⟩⟩
          · intro n
            simp only [wlp_bind]
            exact ⟨trivial, trivial, fun _ _ => ⟨trivial, trivial, trivial, fun _ _ =>
              ⟨trivial, trivial, ⟨hc.1.1, hclosed⟩, hsettled⟩⟩⟩
          · intro n sockList hlist
            simp only [wlp_bind]
            exact ⟨trivial, trivial, fun _ _ => ⟨trivial, trivial,
              hc.tracked inet hnew hknown (by omega) hfd targetAddr.af hlist rfl hstill⟩⟩

/-! ### A datagram of the client -/

/-- The one socket opened for the address of item `idx`. -/
theorem Tabled.owner_iff {a : Assoc} (ht : Tabled tcpFd udpFd s a) {idx : Nat}
    (hidx : idx < s.sockList.items.length) (fd : Fd) :
    a.owner fd = some s.sockList.items[idx].addrport ↔ fd = s.sockList.items[idx].fd :=
  Kept.owner_iff (g := (a, [])) ht hidx fd

/-- Where a part of an iteration may leave the loop: with nothing in hand, unless it ends with
an error. -/
def Unladen (tcpFd udpFd : Fd) : Flow → Courier → Prop
  | .next s, g | .again s, g => EmptyHanded tcpFd udpFd s g
  | .leave e, g => e.finalState ≠ .error → g.cargo = .none

theorem recordBytes_idle (hi : EmptyHanded tcpFd udpFd s g) (d : Direction) (n : Nat) :
    wlp (courier inet udpFd) (recordBytes d n) (fun _ g' => EmptyHanded tcpFd udpFd s g') g :=
  wlp_recordBytes d n trivial (fun _ => hi) trivial ⟨trivial, hi⟩

theorem sendUdpPayload_courier {payload : Bytes} {idx : Nat}
    (hidx : idx < s.sockList.items.length)
    (hc : Laden tcpFd udpFd s s.sockList.items[idx].addrport payload g) :
    wlp (courier inet udpFd) (sendUdpPayload s s.sockList.items[idx].fd idx payload)
      (Unladen tcpFd udpFd) g := by
  unfold sendUdpPayload sendRecorded recordUploadedBytes
  simp only [bind_eq, pure_eq, wlp_bind]
  refine wlp_opened (fun _ _ => trivial) ?_
  simp only [wlp_bind]
  refine ⟨trivial, ⟨_, hc.2.2, hc.1.owner_iff hidx⟩, fun ret _ => ⟨trivial, ?_⟩⟩
  rcases ret with e | n
  · simp only [wlp_ret, wlp_bind]
    refine ⟨trivial, wlp_mono _ ?_ (closeUdpDestination_courier hc.1 hidx .error
      (socketErrorCodeFromErrno e))⟩
    rintro s' g' ⟨rfl, ht, hcargo⟩
    refine ⟨trivial, ht, hcargo.trans ?_⟩
    show g.cargo.reported _ = _
    rw [hc.2.2]
    exact Cargo.reported_addrport ..
  · have hi : EmptyHanded tcpFd udpFd s ((courier inet udpFd).next g
        (.send s.sockList.items[idx].fd payload) (.ok n)) := ⟨hc.1, rfl⟩
    exact (wlp_bind _).mpr (wlp_mono _ (fun _ g' hi' => ⟨trivial, trivial, hi'⟩)
      (recordBytes_idle hi .uploaded n))

theorem forwardUdpPayload_courier {addrport : Socks5Addrport} {payload : Bytes}
    (hc : Laden tcpFd udpFd s addrport payload g) (hknown : addrport.type ≠ .unknown) :
    wlp (courier inet udpFd) (forwardUdpPayload s addrport payload) (Unladen tcpFd udpFd) g := by
  unfold forwardUdpPayload
  cases hsearch : s.sockList.search
      (fun item => compareSocks5Addrport addrport item.addrport) with
  | some idx =>
      obtain ⟨hidx, hcmp, -⟩ := List.findIdx?_eq_some_iff_getElem.mp hsearch
      obtain rfl := compareSocks5Addrport_iff.mp hcmp
      have hitem : s.sockList.itemFromIndex idx = s.sockList.items[idx] :=
        List.getD_eq_getElem _ _ hidx
      simp only [hitem]
      exact sendUdpPayload_courier hidx hc
  | none =>
      have hnew : ∀ other ∈ s.sockList.items, other.addrport ≠ addrport := by
        intro other ho he
        have := List.findIdx?_eq_none_iff.mp hsearch other ho
        rw [compareSocks5Addrport_iff.mpr he.symm] at this
        cases this
      simp only [bind_eq, pure_eq, wlp_bind]
      refine wlp_mono _ ?_ (openUdpDestination_courier hc hnew hknown)
      rintro ⟨s', _ | ⟨fd, idx⟩⟩ g' hready
      · exact ⟨trivial, hready⟩
      · obtain ⟨hc', hidx, rfl, rfl⟩ := hready
        exact sendUdpPayload_courier hidx hc'

/-- A datagram that has just been taken. -/
theorem deliverUdpDatagram_courier (ht : Tabled tcpFd udpFd s g.known) {buf : Bytes}
    (hdest : g.known.dest = addressed inet buf) (hcargo : g.cargo = .fromClient inet buf) :
    wlp (courier inet udpFd) (deliverUdpDatagram inet s buf) (Unladen tcpFd udpFd) g := by
  unfold deliverUdpDatagram
  cases hx : extractUdpData inet buf buf.length with
  | error ec => exact ⟨trivial, fun he => absurd rfl he⟩
  | ok r =>
      obtain ⟨offset, addrport⟩ := r
      have haddressed : addressed inet buf = some (addrport, buf.drop offset) := by
        unfold addressed
        rw [hx]
      refine forwardUdpPayload_courier ⟨ht, hdest.trans haddressed, ?_⟩
        (addressed_known haddressed)
      rw [hcargo, Cargo.fromClient, haddressed]

theorem udpReceiveFailed_unladen (hi : EmptyHanded tcpFd udpFd s g) (e : Errno) :
    Unladen tcpFd udpFd (udpReceiveFailed s e) g := by
  unfold udpReceiveFailed
  split
  · exact hi
  · exact fun he => absurd rfl he

theorem udpClientDatagram_courier (hi : EmptyHanded tcpFd udpFd s g) :
    wlp (courier inet udpFd) (udpClientDatagram inet udpFd s) (Unladen tcpFd udpFd) g := by
  unfold udpClientDatagram
  split
  · simp only [bind_eq, pure_eq, wlp_bind]
    refine ⟨trivial, ⟨hi.2, .inl rfl⟩, fun r _ => ⟨trivial, ?_⟩⟩
    rcases r with e | buf
    · exact ⟨trivial, udpReceiveFailed_unladen (by exact hi) e⟩
    · have hnext : g.known.next inet udpFd (.recv udpFd UDP_COPY_BUFFER_SIZE) (.ok buf)
          = { g.known with dest := addressed inet buf } := if_pos rfl
      refine deliverUdpDatagram_courier ?_ ?_ (if_pos rfl)
      · rw [courier_next_known, hnext]
        exact ⟨hi.1.1, hi.1.2.held, hi.1.2.owner⟩
      · rw [courier_next_known, hnext]
  · simp only [bind_eq, pure_eq, wlp_bind]
    refine ⟨trivial, hi.2, fun r _ => ⟨trivial, ?_⟩⟩
    rcases r with e | ⟨buf, clientAddr⟩
    · exact ⟨trivial, udpReceiveFailed_unladen (by exact hi) e⟩
    · unfold udpPinClient
      simp only [bind_eq, pure_eq, wlp_bind]
      refine ⟨trivial, trivial, fun r _ => ⟨trivial, ?_⟩⟩
      rcases r with e | _
      · exact ⟨trivial, trivial, fun he => absurd rfl he⟩
      · refine ⟨trivial, deliverUdpDatagram_courier ?_ rfl rfl⟩
        have ht := Kept.bound (g := (g.known, [])) hi.1 true
        exact ⟨ht.1, ht.2.held, ht.2.owner⟩

theorem udpClient_courier (hi : EmptyHanded tcpFd udpFd s g) :
    wlp (courier inet udpFd) (udpClient inet udpFd s) (Unladen tcpFd udpFd) g := by
  unfold udpClient
  split
  · exact udpClientDatagram_courier hi
  · exact ⟨trivial, hi⟩

/-! ### Polling -/

theorem udpPoll_courier (hi : EmptyHanded tcpFd udpFd s g) :
    wlp (courier inet udpFd) (udpPoll s) (Unladen tcpFd udpFd) g := by
  have hleave (e : UdpEnd) : Unladen tcpFd udpFd (.leave e) g := fun _ => hi.2
  unfold udpPoll
  simp only [bind_eq, pure_eq, wlp_bind]
  refine ⟨trivial, hi.2, fun r _ => ⟨trivial, ?_⟩⟩
  rcases r with _ | e | revents
  · exact ⟨trivial, hleave _⟩
  · simp only
    split
    · exact ⟨trivial, hi⟩
    · exact ⟨trivial, hleave _⟩
  · have hpolled : EmptyHanded tcpFd udpFd (s.polledWith revents) g :=
      ⟨⟨hi.1.1.polledWith revents, ⟨hi.1.2.held, hi.1.2.owner⟩⟩, hi.2⟩
    simp only
    split
    · exact ⟨trivial, hleave _⟩
    · split
      · exact ⟨trivial, hleave _⟩
      · split
        · simp only [wlp_bind]
          refine ⟨trivial, trivial, fun r _ => ⟨trivial, ?_⟩⟩
          rcases r with e | buf
          · simp only
            split
            · exact ⟨trivial, hpolled⟩
            · exact ⟨trivial, trivial, fun _ _ => ⟨trivial, hleave _⟩⟩
          · simp only
            split
            · exact ⟨trivial, hleave _⟩
            · exact ⟨trivial, hleave _⟩
        · exact ⟨trivial, hpolled⟩

/-! ### The loop over the destinations -/

/-- What one round over a destination leaves. -/
def RoundUnladen (tcpFd udpFd : Fd) : (UdpLoop × Nat) ⊕ Flow → Courier → Prop
  | .inl (s, i), g => EmptyHanded tcpFd udpFd s g ∧ 2 ≤ i
  | .inr flow, g => Unladen tcpFd udpFd flow g

theorem closing_idle (hi : EmptyHanded tcpFd udpFd s g) {i idx : Nat} (h₂ : 2 ≤ i)
    (hidx : idx < s.sockList.items.length) (state : ConnectionState) (errorCode : Errorcode) :
    wlp (courier inet udpFd) (do
      let s ← closeUdpDestination s idx state errorCode
      return .inl (s, i)) (RoundUnladen tcpFd udpFd) g := by
  simp only [bind_eq, pure_eq, wlp_bind]
  refine wlp_mono _ ?_ (closeUdpDestination_idle hi hidx state errorCode)
  rintro s' g' ⟨-, hi'⟩
  exact ⟨trivial, hi', h₂⟩

theorem udpReply_courier (hi : EmptyHanded tcpFd udpFd s g) {i idx : Nat} (h₂ : 2 ≤ i)
    (hidx : idx < s.sockList.items.length) (hfd : s.sockList.items[idx].fd = (s.fds i).fd) :
    wlp (courier inet udpFd) (udpReply inet udpFd s i idx) (RoundUnladen tcpFd udpFd) g := by
  have hitem : s.sockList.itemFromIndex idx = s.sockList.items[idx] :=
    List.getD_eq_getElem _ _ hidx
  have hmem := List.getElem_mem hidx
  have hne : ¬ (s.fds i).fd = udpFd := hfd ▸ (hi.1.1.wired.fd_ne_control hmem).2
  have howner : g.known.owner (s.fds i).fd = some s.sockList.items[idx].addrport :=
    (hi.1.owner_iff hidx _).mpr hfd.symm
  unfold udpReply
  rw [hitem]
  cases hheader : udpReplyHeader inet s.sockList.items[idx].addrport with
  | unknownType => exact absurd (udpReplyHeader_unknownType hheader) (hi.1.1.known _ hmem)
  | invalidAddress => exact closing_idle hi h₂ hidx _ _
  | built header =>
      simp only [bind_eq, pure_eq, wlp_bind]
      refine ⟨trivial, ⟨hi.2, .inr (by simp [howner])⟩, fun r _ => ⟨trivial, ?_⟩⟩
      rcases r with e | payload
      · exact closing_idle (by exact hi) h₂ hidx _ _
      · -- the reply is in hand until it is written
        have hknown : g.known.next inet udpFd (.recv (s.fds i).fd
            (UDP_COPY_BUFFER_SIZE - header.length)) (.ok payload)
              = { g.known with reply := some ((s.fds i).fd, payload) } := if_neg hne
        have hcargo : g.cargoNext inet udpFd (.recv (s.fds i).fd
            (UDP_COPY_BUFFER_SIZE - header.length)) (.ok payload)
              = .inward (s.sockList.items[idx].addrport, payload) := by
          show (if (s.fds i).fd = udpFd then _ else Cargo.fromSocket _ _) = _
          rw [if_neg hne, howner]
          rfl
        refine (wlp_bind _).mpr (wlp_opened (fun _ _ => trivial) ?_)
        unfold recordDownloadedBytes
        simp only [bind_eq, pure_eq, wlp_bind]
        refine ⟨trivial, fun _ => ⟨_, _, header, hcargo, hheader, rfl⟩, fun r _ => ⟨trivial, ?_⟩⟩
        rcases r with e | n
        · exact ⟨trivial, trivial, fun he => absurd rfl he⟩
        · have hi' : EmptyHanded tcpFd udpFd s ((courier inet udpFd).next
              ((courier inet udpFd).next g (.recv (s.fds i).fd
                (UDP_COPY_BUFFER_SIZE - header.length)) (.ok payload))
              (.write udpFd (header ++ payload)) (.ok n)) := by
            refine ⟨?_, if_pos rfl⟩
            show Tabled tcpFd udpFd s (g.known.next inet udpFd (.recv (s.fds i).fd
              (UDP_COPY_BUFFER_SIZE - header.length)) (.ok payload))
            rw [hknown]
            exact ⟨hi.1.1, hi.1.2.held, hi.1.2.owner⟩
          exact (wlp_bind _).mpr (wlp_mono _ (fun _ g' h => ⟨trivial, trivial, h, by omega⟩)
            (recordBytes_idle hi' .downloaded payload.length))

theorem udpRepliesBody_courier (hi : EmptyHanded tcpFd udpFd s g) {i : Nat} (h₂ : 2 ≤ i) :
    wlp (courier inet udpFd) (udpRepliesBody inet udpFd (s, i)) (RoundUnladen tcpFd udpFd) g := by
  simp only [udpRepliesBody]
  split
  · rename_i hlt
    obtain ⟨hidx, hfd⟩ := hi.1.1.paired.item_of_entry h₂ hlt
    rw [hi.1.1.paired.search_fd h₂ hlt]
    simp only
    split
    · exact closing_idle hi h₂ hidx _ _
    · split
      · exact ⟨trivial, hi, by omega⟩
      · exact udpReply_courier hi h₂ hidx hfd
  · exact ⟨trivial, hi⟩

theorem udpReplies_courier (hi : EmptyHanded tcpFd udpFd s g) :
    wlp (courier inet udpFd) (udpReplies inet udpFd s) (Unladen tcpFd udpFd) g := by
  refine wlp_iterate (fun x g => EmptyHanded tcpFd udpFd x.1 g ∧ 2 ≤ x.2) ⟨hi, le_rfl⟩ ?_
  rintro ⟨s, i⟩ g ⟨hi, h₂⟩
  refine wlp_mono _ ?_ (udpRepliesBody_courier hi h₂)
  rintro (⟨s', i'⟩ | flow) g' h
  · exact h
  · exact h

theorem andThen_courier {f : UdpLoop → Server Flow} (hf : ∀ {s g}, EmptyHanded tcpFd udpFd s g →
      wlp (courier inet udpFd) (f s) (Unladen tcpFd udpFd) g) {flow : Flow}
    (h : Unladen tcpFd udpFd flow g) :
    wlp (courier inet udpFd) (flow.andThen f) (Unladen tcpFd udpFd) g := by
  cases flow with
  | next s => exact hf h
  | again s => exact ⟨trivial, h⟩
  | leave e => exact ⟨trivial, h⟩

theorem copyLoopUdpBody_courier (hi : EmptyHanded tcpFd udpFd s g) :
    wlp (courier inet udpFd) (copyLoopUdpBody inet udpFd s) (Sum.elim (EmptyHanded tcpFd udpFd)
      fun e g' => e.finalState ≠ .error → g'.cargo = .none) g := by
  unfold copyLoopUdpBody udpBeforeReplies
  simp only [bind_eq, wlp_bind]
  refine wlp_mono _ (fun flow g₁ h₁ => ?_) (udpPoll_courier hi)
  refine wlp_mono _ (fun flow g₂ h₂ => ?_) (andThen_courier udpClient_courier h₁)
  refine wlp_mono _ (fun flow g₃ h₃ => ?_) (andThen_courier udpReplies_courier h₂)
  cases flow with
  | next s => exact ⟨trivial, h₃⟩
  | again s => exact ⟨trivial, h₃⟩
  | leave e => exact ⟨trivial, h₃⟩

end Carrying

/-! ### Runs -/

/--
**The UDP relay passes everything on once.**

In any run of the loop, as far as it has come: nothing was read and no poll made with
something in hand, every payload was sent on the one socket opened for its address, and
every reply written under its destination's header.  So each datagram was accepted or
reported, in the order they came, and each reply was written once.  When the loop has
ended without an error, nothing is in hand.
-/
theorem udpRelay_exact {inet : Inet} {tcpFd udpFd : Fd} {bound : Bool} (htu : tcpFd ≠ udpFd)
    {whole : Block → Prop} {tr : Trace sys} {rest : Server UdpEnd}
    (h : Steps whole (iterate (copyLoopUdpBody inet udpFd) (initialUdpLoop tcpFd udpFd bound)) tr
      rest) (hl : FreshSockets inet tcpFd udpFd tr) :
    (courier inet udpFd).Guaranteed (.initial tcpFd udpFd) tr ∧
      Moves inet udpFd .none tr ((courier inet udpFd).run (.initial tcpFd udpFd) tr).cargo ∧
      ∀ e, rest = .ret e → e.finalState ≠ .error →
        ((courier inet udpFd).run (.initial tcpFd udpFd) tr).cargo = .none := by
  have hw : wlp (courier inet udpFd)
      (iterate (copyLoopUdpBody inet udpFd) (initialUdpLoop tcpFd udpFd bound))
      (fun e g' => e.finalState ≠ .error → g'.cargo = .none) (.initial tcpFd udpFd) :=
    wlp_iterate (EmptyHanded tcpFd udpFd) ⟨Kept.initial htu, rfl⟩ fun _ _ => copyLoopUdpBody_courier
  obtain ⟨hg, hrest⟩ := (wlp_steps h (fun _ _ _ _ => trivial) hw).elim (courier_legal.mpr hl)
  refine ⟨hg, Moves.guaranteed hg, ?_⟩
  rintro e rfl he
  exact hrest.2 he

theorem udpRelay_exact_exchange : ∃ e : UdpEnd, e.finalState = .closed ∧
    Steps (fun _ => False) (iterate (copyLoopUdpBody Inet.plain 5) (initialUdpLoop 4 5 false))
      exchange (.ret e) ∧
    Moves Inet.plain 5 .none exchange .none := by
  have hrun : Eval (iterate (copyLoopUdpBody Inet.plain 5) (initialUdpLoop 4 5 false)) exchange _ :=
    eval_of_replay 60 exchange rfl
  have hsteps : Steps (fun _ => False) (iterate (copyLoopUdpBody Inet.plain 5)
      (initialUdpLoop 4 5 false)) exchange _ := hrun.steps
  obtain ⟨-, hmoves, hended⟩ := udpRelay_exact (by decide) hsteps exchange_fresh
  rw [hended _ rfl (by decide)] at hmoves
  exact ⟨_, rfl, hsteps, hmoves⟩

end TwoSocks
