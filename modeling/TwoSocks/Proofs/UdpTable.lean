/-
The two tables of a UDP association.

`Table` says that the poll entries from index two on and the items of `sock_list` are the
same destinations in the same order, on descriptors that are all different, for addresses
that are all different.  `Paired` is the part of it about the destinations alone, `Wired`
the part about descriptors.  Everything the loop does to the tables is one of three things:
the bits of a poll are stored, a destination is appended, a destination is taken out.  Each
keeps `Wired` and `Table`.

Nothing here runs a program except `Paired.closeUdpDestination`, which says that on aligned
tables taking a destination out by its index and taking it out by its descriptor are the
same.
-/
import TwoSocks.Server.Rules

namespace TwoSocks

open Server Prog

/-- Two destinations are for different addresses. -/
def OtherAddrport (a b : FdSocks5addr) : Prop :=
  compareSocks5Addrport a.addrport b.addrport = false

theorem otherAddrport_iff {a b : FdSocks5addr} :
    OtherAddrport a b ↔ a.addrport ≠ b.addrport := by
  unfold OtherAddrport
  rw [ne_eq, ← compareSocks5Addrport_iff]
  simp

/-- The items and the entries from index two on are the same destinations, in the same
order, on descriptors that are all different. -/
structure Paired (s : UdpLoop) : Prop where
  size : s.sockList.getsize + 2 = s.pollFds
  aligned : ∀ k (h : k < s.sockList.items.length), s.sockList.items[k].fd = (s.fds (k + 2)).fd
  distinct : (s.sockList.items.map FdSocks5addr.fd).Nodup

/-- The tables agree on the descriptors. -/
structure Wired (tcpFd udpFd : Fd) (s : UdpLoop) : Prop where
  control : (s.fds 0).fd = tcpFd
  client : (s.fds 1).fd = udpFd
  size : s.sockList.getsize + 2 = s.pollFds
  aligned : ∀ k (h : k < s.sockList.items.length), s.sockList.items[k].fd = (s.fds (k + 2)).fd
  distinct : (tcpFd :: udpFd :: s.sockList.items.map FdSocks5addr.fd).Nodup

/-- The tables agree. -/
structure Table (tcpFd udpFd : Fd) (s : UdpLoop) : Prop where
  /-- Entry zero is the control connection. -/
  control : (s.fds 0).fd = tcpFd
  /-- Entry one is the client socket. -/
  client : (s.fds 1).fd = udpFd
  size : s.sockList.getsize + 2 = s.pollFds
  bounded : s.pollFds ≤ UDP_MAX_POLL_FDS
  aligned : ∀ k (h : k < s.sockList.items.length), s.sockList.items[k].fd = (s.fds (k + 2)).fd
  distinct : (tcpFd :: udpFd :: s.sockList.items.map FdSocks5addr.fd).Nodup
  addrports : s.sockList.items.Pairwise OtherAddrport
  known : ∀ item ∈ s.sockList.items, item.addrport.type ≠ .unknown

namespace Paired

variable {s : UdpLoop}

theorem two_le (h : Paired s) : 2 ≤ s.pollFds := by
  have := h.size
  omega

/-- Two items on one descriptor are the same item. -/
theorem fd_inj (h : Paired s) {j k : Nat} (hj : j < s.sockList.items.length)
    (hk : k < s.sockList.items.length)
    (he : s.sockList.items[j].fd = s.sockList.items[k].fd) : j = k := by
  have hj' : j < (s.sockList.items.map FdSocks5addr.fd).length := by simpa using hj
  have hk' : k < (s.sockList.items.map FdSocks5addr.fd).length := by simpa using hk
  have he' : (s.sockList.items.map FdSocks5addr.fd)[j] =
      (s.sockList.items.map FdSocks5addr.fd)[k] := by simpa using he
  exact h.distinct.getElem_inj_iff.mp he'

/-- The item an entry belongs to. -/
theorem item_of_entry (h : Paired s) {i : Nat} (h₂ : 2 ≤ i) (hi : i < s.pollFds) :
    ∃ hk : i - 2 < s.sockList.items.length, s.sockList.items[i - 2].fd = (s.fds i).fd := by
  have hsize := h.size
  unfold Sblist.getsize at hsize
  have hk : i - 2 < s.sockList.items.length := by omega
  refine ⟨hk, ?_⟩
  rw [h.aligned _ hk, show i - 2 + 2 = i by omega]

/-- Looking for the descriptor of an entry finds the entry's item. -/
theorem search_fd (h : Paired s) {i : Nat} (h₂ : 2 ≤ i) (hi : i < s.pollFds) :
    s.sockList.search (fun item => (s.fds i).fd == item.fd) = some (i - 2) := by
  obtain ⟨hk, hfd⟩ := h.item_of_entry h₂ hi
  refine List.findIdx?_eq_some_iff_getElem.mpr ⟨hk, by simp [hfd], fun j hj => ?_⟩
  have hjk : j < s.sockList.items.length := by omega
  have hne : ¬ (s.fds i).fd = s.sockList.items[j].fd := fun he => by
    have := h.fd_inj hjk hk (he.symm.trans hfd.symm)
    omega
  simp [hne]

end Paired

namespace Wired

variable {tcpFd udpFd : Fd} {s : UdpLoop}

theorem paired (h : Wired tcpFd udpFd s) : Paired s :=
  ⟨h.size, h.aligned, (List.nodup_cons.mp (List.nodup_cons.mp h.distinct).2).2⟩

theorem fd_ne_control (h : Wired tcpFd udpFd s) {item : FdSocks5addr}
    (hi : item ∈ s.sockList.items) : item.fd ≠ tcpFd ∧ item.fd ≠ udpFd := by
  have h₁ := (List.nodup_cons.mp h.distinct).1
  have h₂ := (List.nodup_cons.mp (List.nodup_cons.mp h.distinct).2).1
  refine ⟨fun he => h₁ ?_, fun he => h₂ ?_⟩
  · exact List.mem_cons_of_mem _ (List.mem_map.mpr ⟨item, hi, he⟩)
  · exact List.mem_map.mpr ⟨item, hi, he⟩

end Wired

namespace Table

variable {tcpFd udpFd : Fd} {s : UdpLoop}

theorem wired (h : Table tcpFd udpFd s) : Wired tcpFd udpFd s :=
  ⟨h.control, h.client, h.size, h.aligned, h.distinct⟩

theorem paired (h : Table tcpFd udpFd s) : Paired s := h.wired.paired

end Table

/-! ### Storing the bits of a poll -/

@[simp] theorem storeRevents_fd (fds : Nat → Pollfd) (pollFds : Nat) (revents : List UInt16)
    (i : Nat) : (storeRevents fds pollFds revents i).fd = (fds i).fd := by
  unfold storeRevents
  split <;> rfl

/-- The state after a poll. -/
def UdpLoop.polledWith (s : UdpLoop) (revents : List UInt16) : UdpLoop :=
  { s with fds := storeRevents s.fds s.pollFds revents }

theorem Wired.polledWith {tcpFd udpFd : Fd} {s : UdpLoop} (h : Wired tcpFd udpFd s)
    (revents : List UInt16) : Wired tcpFd udpFd (s.polledWith revents) where
  control := by rw [← h.control]; exact storeRevents_fd ..
  client := by rw [← h.client]; exact storeRevents_fd ..
  size := h.size
  aligned k hk := (h.aligned k hk).trans (storeRevents_fd ..).symm
  distinct := h.distinct

theorem Table.polledWith {tcpFd udpFd : Fd} {s : UdpLoop} (h : Table tcpFd udpFd s)
    (revents : List UInt16) : Table tcpFd udpFd (s.polledWith revents) :=
  have hw := h.wired.polledWith revents
  ⟨hw.control, hw.client, hw.size, h.bounded, hw.aligned, hw.distinct, h.addrports, h.known⟩

/-! ### Appending a destination -/

theorem Wired.track {tcpFd udpFd : Fd} {s : UdpLoop} (h : Wired tcpFd udpFd s)
    {sockList : Sblist FdSocks5addr} {item : FdSocks5addr}
    (hlist : sockList.items = s.sockList.items ++ [item])
    (hfresh : item.fd ∉ tcpFd :: udpFd :: s.sockList.items.map FdSocks5addr.fd) :
    Wired tcpFd udpFd (s.track sockList item.fd) := by
  have htwo := h.paired.two_le
  have hsize := h.size
  unfold Sblist.getsize at hsize
  refine ⟨?_, ?_, ?_, ?_, ?_⟩
  · rw [← h.control]
    simp [UdpLoop.track, show 0 ≠ s.pollFds by omega]
  · rw [← h.client]
    simp [UdpLoop.track, show 1 ≠ s.pollFds by omega]
  · simp only [Sblist.getsize, UdpLoop.track, hlist, List.length_append, List.length_singleton]
    omega
  · intro k hk
    simp only [UdpLoop.track, hlist, List.length_append, List.length_singleton] at hk ⊢
    by_cases hlast : k = s.sockList.items.length
    · have he : k + 2 = s.pollFds := by omega
      simp [hlast, show s.sockList.items.length + 2 = s.pollFds by omega]
    · have hlt : k < s.sockList.items.length := by omega
      rw [List.getElem_append_left hlt, h.aligned k hlt,
        Function.update_of_ne (by omega)]
  · have hmap : tcpFd :: udpFd :: (s.track sockList item.fd).sockList.items.map FdSocks5addr.fd
        = (tcpFd :: udpFd :: s.sockList.items.map FdSocks5addr.fd) ++ [item.fd] := by
      simp [UdpLoop.track, hlist]
    rw [hmap, ← List.concat_eq_append]
    exact h.distinct.concat hfresh

theorem Table.track {tcpFd udpFd : Fd} {s : UdpLoop} (h : Table tcpFd udpFd s)
    {sockList : Sblist FdSocks5addr} {item : FdSocks5addr}
    (hlist : sockList.items = s.sockList.items ++ [item]) (hroom : s.pollFds < UDP_MAX_POLL_FDS)
    (hfresh : item.fd ∉ tcpFd :: udpFd :: s.sockList.items.map FdSocks5addr.fd)
    (hnew : ∀ other ∈ s.sockList.items, other.addrport ≠ item.addrport)
    (hknown : item.addrport.type ≠ .unknown) :
    Table tcpFd udpFd (s.track sockList item.fd) := by
  have hw := h.wired.track hlist hfresh
  refine ⟨hw.control, hw.client, hw.size, hroom, hw.aligned, hw.distinct, ?_, ?_⟩
  · simp only [UdpLoop.track, hlist]
    refine List.pairwise_append.mpr ⟨h.addrports, List.pairwise_singleton .., ?_⟩
    intro other ho new hn
    rw [List.mem_singleton.mp hn]
    exact otherAddrport_iff.mpr (hnew other ho)
  · intro other ho
    simp only [UdpLoop.track, hlist] at ho
    rcases List.mem_append.mp ho with ho | ho
    · exact h.known other ho
    · rw [List.mem_singleton.mp ho]
      exact hknown

/-! ### Taking a destination out -/

/-- The state without destination `idx`. -/
def UdpLoop.remove (s : UdpLoop) (idx : Nat) : UdpLoop :=
  { s with
    fds := shiftDown s.fds s.pollFds (idx + 2)
    pollFds := s.pollFds - 1
    sockList := s.sockList.delete idx }

theorem Paired.remove {s : UdpLoop} (h : Paired s) {idx : Nat}
    (hidx : idx < s.sockList.items.length) : Paired (s.remove idx) := by
  have hsize := h.size
  unfold Sblist.getsize at hsize
  have hlen : (s.sockList.items.eraseIdx idx).length + 1 = s.sockList.items.length := by
    rw [List.length_eraseIdx_of_lt hidx]
    omega
  refine ⟨?_, ?_, ?_⟩
  · show (s.sockList.items.eraseIdx idx).length + 2 = s.pollFds - 1
    omega
  · intro k hk
    change k < (s.sockList.items.eraseIdx idx).length at hk
    show (s.sockList.items.eraseIdx idx)[k].fd
      = (shiftDown s.fds s.pollFds (idx + 2) (k + 2)).fd
    rw [List.getElem_eraseIdx]
    unfold shiftDown
    by_cases hki : k < idx
    · rw [dif_pos hki, if_neg (by omega)]
      exact h.aligned k (by omega)
    · rw [dif_neg hki, if_pos (by omega)]
      exact h.aligned (k + 1) (by omega)
  · exact h.distinct.sublist ((List.eraseIdx_sublist ..).map _)

theorem Wired.remove {tcpFd udpFd : Fd} {s : UdpLoop} (h : Wired tcpFd udpFd s) {idx : Nat}
    (hidx : idx < s.sockList.items.length) : Wired tcpFd udpFd (s.remove idx) := by
  have hp := h.paired.remove hidx
  have hsub : (s.sockList.items.eraseIdx idx).Sublist s.sockList.items :=
    List.eraseIdx_sublist ..
  refine ⟨?_, ?_, hp.size, hp.aligned, ?_⟩
  · rw [← h.control]
    simp [UdpLoop.remove, shiftDown]
  · rw [← h.client]
    simp [UdpLoop.remove, shiftDown]
  · exact h.distinct.sublist (.cons_cons _ (.cons_cons _ (hsub.map _)))

theorem Table.remove {tcpFd udpFd : Fd} {s : UdpLoop} (h : Table tcpFd udpFd s) {idx : Nat}
    (hidx : idx < s.sockList.items.length) : Table tcpFd udpFd (s.remove idx) := by
  have hw := h.wired.remove hidx
  have hsub : (s.sockList.items.eraseIdx idx).Sublist s.sockList.items :=
    List.eraseIdx_sublist ..
  exact ⟨hw.control, hw.client, hw.size, (Nat.sub_le ..).trans h.bounded, hw.aligned, hw.distinct,
    h.addrports.sublist hsub, fun item hi => h.known item (hsub.mem hi)⟩

/-- What is left are the destinations on other descriptors. -/
theorem Table.mem_remove {tcpFd udpFd : Fd} {s : UdpLoop} (h : Table tcpFd udpFd s) {idx : Nat}
    (hidx : idx < s.sockList.items.length) (item : FdSocks5addr) :
    item ∈ (s.remove idx).sockList.items ↔
      item ∈ s.sockList.items ∧ item.fd ≠ s.sockList.items[idx].fd := by
  show item ∈ s.sockList.items.eraseIdx idx ↔ _
  rw [List.mem_eraseIdx_iff_getElem]
  constructor
  · rintro ⟨k, hk, hne, rfl⟩
    exact ⟨List.getElem_mem hk, fun he => hne (h.paired.fd_inj hk hidx he)⟩
  · rintro ⟨hi, hne⟩
    obtain ⟨k, hk, rfl⟩ := List.getElem_of_mem hi
    exact ⟨k, hk, fun he => hne (by simp only [he]), rfl⟩

/-- The entry of an item is found by its descriptor. -/
theorem Paired.removeUdpPollfd {s : UdpLoop} (h : Paired s) {idx : Nat}
    (hidx : idx < s.sockList.items.length) :
    removeUdpPollfd s.fds s.pollFds s.sockList.items[idx].fd
      = (shiftDown s.fds s.pollFds (idx + 2), s.pollFds - 1) := by
  have hsize := h.size
  unfold Sblist.getsize at hsize
  have hfind : (List.range' 2 (s.pollFds - 2)).find?
      (fun i => (s.fds i).fd == s.sockList.items[idx].fd) = some (idx + 2) := by
    refine List.find?_range'_eq_some.mpr ⟨?_, ?_, fun j hj₂ hj => ?_⟩
    · simp [h.aligned idx hidx]
    · rw [List.mem_range'_1]
      omega
    · obtain ⟨hk, hfd⟩ := h.item_of_entry hj₂ (show j < s.pollFds by omega)
      have hne : ¬ (s.fds j).fd = s.sockList.items[idx].fd := fun he => by
        have := h.fd_inj hk hidx (hfd.trans he)
        omega
      simp [hne]
  unfold TwoSocks.removeUdpPollfd
  rw [hfind]

/-- `close_udp_destination` on aligned tables. -/
theorem Paired.closeUdpDestination {s : UdpLoop} (h : Paired s) {idx : Nat}
    (hidx : idx < s.sockList.items.length) (state : ConnectionState)
    (errorCode : Errorcode) :
    closeUdpDestination s idx state errorCode = (do
      close s.sockList.items[idx].fd
      emitAddrportConnectionEvent s.sockList.items[idx].connectionId .udp state
        s.sockList.items[idx].addrport errorCode
      return s.remove idx) := by
  have hitem : s.sockList.itemFromIndex idx = s.sockList.items[idx] :=
    List.getD_eq_getElem _ _ hidx
  unfold TwoSocks.closeUdpDestination
  simp only [hitem, h.removeUdpPollfd hidx]
  rfl

/-! ### The destinations -/

/-- The destinations: each item with its poll entry, in order. -/
def UdpLoop.destinations (s : UdpLoop) : List (FdSocks5addr × Pollfd) :=
  s.sockList.items.zip ((List.range' 2 (s.pollFds - 2)).map s.fds)

/-- If no key occurs twice, taking out one element is leaving out its key. -/
theorem eraseIdx_eq_filter {α β : Type} [DecidableEq β] (key : α → β) :
    ∀ {l : List α} {idx : Nat} (h : idx < l.length), (l.map key).Nodup →
      l.eraseIdx idx = l.filter (fun a => key a ≠ key l[idx])
  | a :: l, 0, _, hn => by
      have ha := (List.nodup_cons.mp hn).1
      have hl : l.filter (fun b => key b ≠ key a) = l := List.filter_eq_self.mpr fun b hb => by
        have : key b ≠ key a := fun he => ha (he ▸ List.mem_map_of_mem hb)
        simpa using this
      simpa using hl.symm
  | a :: l, idx + 1, h, hn => by
      have hlt : idx < l.length := by simpa using h
      have hne : key a ≠ key l[idx] := fun he =>
        (List.nodup_cons.mp hn).1 (he ▸ List.mem_map_of_mem (List.getElem_mem hlt))
      simp only [List.eraseIdx_cons_succ, List.getElem_cons_succ]
      rw [List.filter_cons_of_pos (by simpa using hne),
        eraseIdx_eq_filter key hlt (List.nodup_cons.mp hn).2]

theorem Paired.destinations_length {s : UdpLoop} (h : Paired s) :
    s.destinations.length = s.sockList.items.length := by
  have := h.size
  unfold Sblist.getsize at this
  unfold UdpLoop.destinations
  rw [List.length_zip, List.length_map, List.length_range']
  omega

theorem UdpLoop.destinations_getElem {s : UdpLoop} {k : Nat} (hk : k < s.destinations.length)
    (hk' : k < s.sockList.items.length) :
    s.destinations[k] = (s.sockList.items[k], s.fds (k + 2)) := by
  simp only [UdpLoop.destinations, List.getElem_zip, List.getElem_map, List.getElem_range',
    show 2 + 1 * k = k + 2 by omega]

theorem Paired.destinations_items {s : UdpLoop} (h : Paired s) :
    s.destinations.map Prod.fst = s.sockList.items := by
  have := h.size
  unfold Sblist.getsize at this
  refine List.map_fst_zip ?_
  rw [List.length_map, List.length_range']
  omega

/-- Without destination `idx`, the others keep their items, entries and order. -/
theorem Paired.destinations_remove {s : UdpLoop} (h : Paired s) {idx : Nat}
    (hidx : idx < s.sockList.items.length) :
    (s.remove idx).destinations = s.destinations.eraseIdx idx := by
  have hr := h.remove hidx
  have hlen := h.destinations_length
  have hsize := h.size
  unfold Sblist.getsize at hsize
  have hitems : (s.remove idx).sockList.items = s.sockList.items.eraseIdx idx := rfl
  refine List.ext_getElem ?_ fun k hk₁ hk₂ => ?_
  · rw [hr.destinations_length, hitems, List.length_eraseIdx, List.length_eraseIdx, hlen]
  · have hk : k < (s.remove idx).sockList.items.length := by
      rw [← hr.destinations_length]
      exact hk₁
    have hk₃ : k + 1 < s.sockList.items.length := by
      rw [hitems, List.length_eraseIdx_of_lt hidx] at hk
      omega
    have hk₄ : k < (s.sockList.items.eraseIdx idx).length := hk
    have hget : (s.remove idx).destinations[k] = ((s.sockList.items.eraseIdx idx)[k],
        shiftDown s.fds s.pollFds (idx + 2) (k + 2)) := UdpLoop.destinations_getElem hk₁ hk
    rw [hget, List.getElem_eraseIdx, List.getElem_eraseIdx]
    unfold shiftDown
    by_cases hki : k < idx
    · rw [dif_pos hki, dif_pos hki, if_neg (by omega),
        UdpLoop.destinations_getElem (by omega) (by omega)]
    · rw [dif_neg hki, dif_neg hki, if_pos (by omega),
        UdpLoop.destinations_getElem (by omega) hk₃]

theorem Table.destinations_addrports {tcpFd udpFd : Fd} {s : UdpLoop} (h : Table tcpFd udpFd s) :
    (s.destinations.map fun d => d.1.addrport).Nodup := by
  have hmap : (s.destinations.map fun d => d.1.addrport)
      = s.sockList.items.map FdSocks5addr.addrport := by
    rw [← h.paired.destinations_items, List.map_map]
    rfl
  rw [hmap]
  exact List.pairwise_map.mpr (h.addrports.imp otherAddrport_iff.mp)

/-- Without destination `idx`, the others are those for other addresses. -/
theorem Table.destinations_remove {tcpFd udpFd : Fd} {s : UdpLoop} (h : Table tcpFd udpFd s)
    {idx : Nat} (hidx : idx < s.sockList.items.length) :
    (s.remove idx).destinations = s.destinations.filter
      (fun d => d.1.addrport ≠ s.sockList.items[idx].addrport) := by
  have hidx' : idx < s.destinations.length := by
    rw [h.paired.destinations_length]
    exact hidx
  rw [h.paired.destinations_remove hidx,
    eraseIdx_eq_filter (fun d => d.1.addrport) hidx' h.destinations_addrports,
    UdpLoop.destinations_getElem hidx' hidx]

/-- A destination that is appended and taken out again leaves the others alone. -/
theorem Table.destinations_track_remove {tcpFd udpFd : Fd} {s : UdpLoop} (h : Table tcpFd udpFd s)
    {sockList : Sblist FdSocks5addr} {item : FdSocks5addr}
    (hlist : sockList.items = s.sockList.items ++ [item]) :
    ((s.track sockList item.fd).remove s.sockList.items.length).destinations
      = s.destinations := by
  have hsize := h.size
  unfold Sblist.getsize at hsize
  have hitems : ((s.track sockList item.fd).remove s.sockList.items.length).sockList.items
      = s.sockList.items := by
    show (sockList.items.eraseIdx s.sockList.items.length) = _
    rw [hlist, List.eraseIdx_append_of_length_le le_rfl]
    simp
  have hfds : (List.range' 2 (s.pollFds + 1 - 1 - 2)).map
      (shiftDown (Function.update s.fds s.pollFds
          { s.fds s.pollFds with fd := item.fd, events := POLLIN })
        (s.pollFds + 1) (s.sockList.items.length + 2))
      = (List.range' 2 (s.pollFds - 2)).map s.fds := by
    rw [show s.pollFds + 1 - 1 - 2 = s.pollFds - 2 by omega]
    refine List.map_congr_left fun j hj => ?_
    have := List.mem_range'_1.mp hj
    unfold shiftDown
    rw [if_neg (by omega), Function.update_of_ne (by omega)]
  unfold UdpLoop.destinations
  rw [hitems]
  exact congrArg _ hfds

end TwoSocks
