/-
Whose descriptor it is, and for how long.

A session has the descriptor it was started with and those `socket` gives it.  The ghost
state is the history, and whether a descriptor is open is read off it: it has been obtained
once more than it has been closed.  `Holds` says which ones are open at a point, each listed
once, so that a close takes exactly one of them away and nothing closed can be named again.

While an association is running the open descriptors are the control connection, the client's
socket and those of `sock_list`; `Wired` then says that the poll array names no others.
At `UDP_LOOP_END` the array and the list still agree, which is why closing the one closes
the other.
-/
import TwoSocks.Proofs.UdpRules
import TwoSocks.Proofs.Operations
import TwoSocks.Proofs.InetText

namespace TwoSocks

open Server Prog

/-! ### Open descriptors -/

/-- The descriptors an operation is asked for on. -/
def Op.descriptors : Op → List Fd
  | .poll fds _ => fds.map Prod.fst
  | .recv fd _ | .recvfrom fd _ | .read fd _ | .write fd _ | .send fd _ => [fd]
  | .connect fd _ | .bind fd _ | .close fd | .getsockname fd | .getpeername fd => [fd]
  | _ => []

/-- The event is `socket` coming back with `fd`. -/
def Obtains (fd : Fd) : Event sys → Bool
  | ⟨.socket _ _, .ok fd'⟩ => fd' = fd
  | _ => false

/-- The event is `close` of `fd`. -/
def Closes (fd : Fd) : Event sys → Bool
  | ⟨.close fd', _⟩ => fd' = fd
  | _ => false

/-- How often the session got `fd`; it starts with the client's. -/
def timesObtained (clientFd fd : Fd) (tr : Trace sys) : Nat :=
  (if fd = clientFd then 1 else 0) + tr.countP (Obtains fd)

def timesClosed (fd : Fd) (tr : Trace sys) : Nat := tr.countP (Closes fd)

/-- `socket` gives positive descriptors that are not open. -/
def NotOpen (clientFd : Fd) (h : Trace sys) : Event sys → Prop
  | ⟨.socket _ _, .ok fd⟩ => 0 < fd ∧ timesObtained clientFd fd h = timesClosed fd h
  | _ => True

/-- What the session may ask for.  It only names what is open, and when it says that it is
done nothing is; then it asks for nothing more. -/
def Owning (clientFd : Fd) (h : Trace sys) (o : Op) : Prop :=
  (∀ fd ∈ o.descriptors, timesObtained clientFd fd h = timesClosed fd h + 1) ∧
    (o = .storeDone → timesClosed clientFd h = 1 ∧
      ∀ fd, timesObtained clientFd fd h = timesClosed fd h) ∧
    ∀ e ∈ h, e.op ≠ .storeDone

abbrev ownSpec (clientFd : Fd) : Spec sys (Trace sys) :=
  .watching (NotOpen clientFd) (Owning clientFd)

/-- The open descriptors are the client's and `others`. -/
structure Holds (clientFd : Fd) (others : List Fd) (h : Trace sys) : Prop where
  distinct : (clientFd :: others).Nodup
  opened : ∀ fd, timesObtained clientFd fd h =
    timesClosed fd h + if fd ∈ clientFd :: others then 1 else 0
  client : timesObtained clientFd clientFd h = 1
  running : ∀ e ∈ h, e.op ≠ .storeDone

/-- A call on some of `fds` that opens and closes nothing. -/
def Op.within (fds : List Fd) : Op → Prop
  | .socket _ _ | .close _ | .storeDone => False
  | o => ∀ fd ∈ o.descriptors, fd ∈ fds

section Events

variable {clientFd : Fd} {others : List Fd} {h : Trace sys}

theorem timesObtained_concat (fd : Fd) (e : Event sys) :
    timesObtained clientFd fd (h ++ [e]) =
      timesObtained clientFd fd h + if Obtains fd e then 1 else 0 := by
  unfold timesObtained
  rw [List.countP_append, List.countP_singleton]
  omega

theorem timesClosed_concat (fd : Fd) (e : Event sys) :
    timesClosed fd (h ++ [e]) = timesClosed fd h + if Closes fd e then 1 else 0 := by
  unfold timesClosed
  rw [List.countP_append, List.countP_singleton]

theorem Holds.isOpen (hh : Holds clientFd others h) {fd : Fd} (hfd : fd ∈ clientFd :: others) :
    timesObtained clientFd fd h = timesClosed fd h + 1 := by
  rw [hh.opened, if_pos hfd]

theorem Holds.perm (hh : Holds clientFd others h) {others' : List Fd} (hp : others.Perm others') :
    Holds clientFd others' h where
  distinct := (hp.cons clientFd).nodup_iff.mp hh.distinct
  opened fd := by
    rw [hh.opened]
    simp only [(hp.cons clientFd).mem_iff]
  client := hh.client
  running := hh.running

theorem Holds.start : Holds clientFd [] [] where
  distinct := List.nodup_singleton _
  opened fd := by
    unfold timesObtained timesClosed
    by_cases hfd : fd = clientFd
    · simp [hfd]
    · simp [hfd]
  client := by simp [timesObtained]
  running := by simp

theorem Holds.running_concat (hh : Holds clientFd others h) {e : Event sys}
    (he : e.op ≠ .storeDone) : ∀ e' ∈ h ++ [e], e'.op ≠ .storeDone := by
  intro e' he'
  rcases List.mem_append.mp he' with he' | he'
  · exact hh.running e' he'
  · rwa [List.mem_singleton.mp he']

/-- An event that is neither a `socket` nor a `close`. -/
theorem Holds.other (hh : Holds clientFd others h) {o : Op} (ho : o.within (clientFd :: others))
    (r : o.Ret) : Holds clientFd others (h ++ [⟨o, r⟩]) := by
  have hquiet : ∀ fd, Obtains fd ⟨o, r⟩ = false ∧ Closes fd ⟨o, r⟩ = false := by
    intro fd
    cases o <;> first | exact ho.elim | exact ⟨rfl, rfl⟩
  refine ⟨hh.distinct, fun fd => ?_, ?_, hh.running_concat ?_⟩
  · rw [timesObtained_concat, timesClosed_concat, (hquiet fd).1, (hquiet fd).2]
    exact hh.opened fd
  · rw [timesObtained_concat, (hquiet clientFd).1]
    exact hh.client
  · rintro rfl
    exact ho.elim

theorem Holds.guar (hh : Holds clientFd others h) {o : Op} (ho : o.within (clientFd :: others)) :
    Owning clientFd h o := by
  refine ⟨fun fd hfd => hh.isOpen ?_, ?_, hh.running⟩
  · cases o <;> first | exact ho.elim | exact ho fd hfd
  · rintro rfl
    exact ho.elim

/-- Asking for a socket. -/
theorem Holds.guar_socket (hh : Holds clientFd others h) (af : Af) (type : SockType) :
    Owning clientFd h (.socket af type) :=
  ⟨by simp [Op.descriptors], nofun, hh.running⟩

theorem Holds.guar_close (hh : Holds clientFd others h) {fd : Fd}
    (hfd : fd ∈ clientFd :: others) : Owning clientFd h (.close fd) := by
  refine ⟨fun fd' hfd' => ?_, nofun, hh.running⟩
  rw [List.mem_singleton.mp hfd']
  exact hh.isOpen hfd

theorem Holds.socket_failed (hh : Holds clientFd others h) (af : Af) (type : SockType) (e : Errno) :
    Holds clientFd others (h ++ [⟨.socket af type, .error e⟩]) := by
  refine ⟨hh.distinct, fun fd => ?_, ?_, hh.running_concat (by simp)⟩
  · rw [timesObtained_concat, timesClosed_concat]
    exact hh.opened fd
  · rw [timesObtained_concat]
    exact hh.client

/-- A descriptor that is not open is none of those that are. -/
theorem Holds.notMem (hh : Holds clientFd others h) {fd : Fd}
    (hfd : timesObtained clientFd fd h = timesClosed fd h) : fd ∉ clientFd :: others := by
  intro hmem
  have := hh.isOpen hmem
  omega

theorem Holds.socket (hh : Holds clientFd others h) (af : Af) (type : SockType) {fd : Fd}
    (hfd : timesObtained clientFd fd h = timesClosed fd h) :
    Holds clientFd (fd :: others) (h ++ [⟨.socket af type, .ok fd⟩]) := by
  have hnew := hh.notMem hfd
  have hne : fd ≠ clientFd := fun he => hnew (he ▸ List.mem_cons_self)
  refine ⟨?_, fun fd' => ?_, ?_, hh.running_concat (by simp)⟩
  · exact (List.Perm.swap clientFd fd others).nodup_iff.mp
      (List.nodup_cons.mpr ⟨hnew, hh.distinct⟩)
  · rw [timesObtained_concat, timesClosed_concat]
    have hopened := hh.opened fd'
    by_cases hfd' : fd' = fd
    · subst hfd'
      simp only [Obtains, Closes, hfd]
      simp
    · have hmem : fd' ∈ clientFd :: fd :: others ↔ fd' ∈ clientFd :: others := by
        simp [hfd']
      simp only [hmem, Obtains, Closes]
      simpa [Ne.symm hfd'] using hopened
  · rw [timesObtained_concat]
    simp [Obtains, hne, hh.client]

theorem Holds.close (hh : Holds clientFd others h) {fd : Fd} (hfd : fd ∈ others) :
    Holds clientFd (others.erase fd) (h ++ [⟨.close fd, ()⟩]) := by
  have hnodup := (List.nodup_cons.mp hh.distinct).2
  have hclient := (List.nodup_cons.mp hh.distinct).1
  have hne : fd ≠ clientFd := fun he => hclient (he ▸ hfd)
  refine ⟨?_, fun fd' => ?_, ?_, hh.running_concat (by simp)⟩
  · refine List.nodup_cons.mpr ⟨fun hmem => hclient (List.mem_of_mem_erase hmem), ?_⟩
    exact hnodup.erase fd
  · rw [timesObtained_concat, timesClosed_concat]
    have hopened := hh.opened fd'
    have hmem : fd' ∈ clientFd :: others.erase fd ↔ fd' ∈ clientFd :: others ∧ fd' ≠ fd := by
      rw [List.mem_cons, List.mem_cons, hnodup.mem_erase_iff]
      constructor
      · rintro (rfl | ⟨hne', hmem⟩)
        · exact ⟨.inl rfl, hne.symm⟩
        · exact ⟨.inr hmem, hne'⟩
      · rintro ⟨rfl | hmem, hne'⟩
        · exact .inl rfl
        · exact .inr ⟨hne', hmem⟩
    by_cases hfd' : fd' = fd
    · subst hfd'
      have hin : fd' ∈ clientFd :: others := List.mem_cons_of_mem _ hfd
      simp only [hmem, Obtains, Closes]
      simpa [hin] using hopened
    · simp only [hmem, Obtains, Closes]
      simpa [hfd', Ne.symm hfd'] using hopened
  · rw [timesObtained_concat]
    simp [Obtains, hh.client]

/-- With the client's descriptor closed as well, the session may say that it is done. -/
theorem Holds.finish (hh : Holds clientFd [] h) :
    Owning clientFd (h ++ [⟨.close clientFd, ()⟩]) .storeDone := by
  have hone := hh.isOpen List.mem_cons_self
  have hclient := hh.client
  refine ⟨by simp [Op.descriptors], fun _ => ⟨?_, fun fd => ?_⟩, hh.running_concat (by simp)⟩
  · rw [timesClosed_concat]
    simp only [Closes, decide_true, if_true]
    omega
  · rw [timesObtained_concat, timesClosed_concat, hh.opened]
    by_cases hfd : fd = clientFd
    · simp [hfd, Obtains, Closes]
    · simp [hfd, Ne.symm hfd, Obtains, Closes]

end Events

/-! ### Programs -/

section Programs

variable {clientFd : Fd} {others : List Fd} {h : Trace sys}

/-- A program that keeps to the open descriptors keeps them open. -/
theorem wlp_within {α : Type} {p : Server α} (hu : Uses (Op.within (clientFd :: others)) p)
    (hh : Holds clientFd others h) :
    wlp (ownSpec clientFd) p (fun _ h' => Holds clientFd others h') h :=
  wlp_of_uses (fun _ _ => trivial) (fun _ _ hh ho => hh.guar ho)
    (fun _ _ r hh ho _ => hh.other ho r) hu hh

/-- `socket`, and what it may come back with. -/
theorem wlp_socket_own (af : Af) (type : SockType) (hh : Holds clientFd others h) :
    wlp (ownSpec clientFd) (socket af type) (fun r h' => match r with
      | .error _ => Holds clientFd others h'
      | .ok fd => 0 < fd ∧ Holds clientFd (fd :: others) h') h := by
  rw [wlp_socket]
  refine ⟨trivial, hh.guar_socket af type, fun r hr => ⟨trivial, ?_⟩⟩
  rcases r with e | fd
  · exact hh.socket_failed af type e
  · exact ⟨hr.1, hh.socket af type hr.2⟩

theorem wlp_close_own {fd : Fd} (hfd : fd ∈ others) (hh : Holds clientFd others h) :
    wlp (ownSpec clientFd) (close fd) (fun _ h' => Holds clientFd (others.erase fd) h') h := by
  rw [wlp_close]
  exact ⟨trivial, hh.guar_close (List.mem_cons_of_mem _ hfd), fun _ => ⟨trivial, hh.close hfd⟩⟩

/-- Closing the descriptor that came last. -/
theorem wlp_close_last {fd : Fd} (hh : Holds clientFd (fd :: others) h) :
    wlp (ownSpec clientFd) (close fd) (fun _ h' => Holds clientFd others h') h := by
  have hclose := wlp_close_own List.mem_cons_self hh
  rwa [List.erase_cons_head] at hclose

/-- Close the last descriptor and go on with `a`. -/
theorem wlp_closeThen {α : Type} {fd : Fd} {a : α} (hh : Holds clientFd (fd :: others) h)
    {Q : α → Trace sys → Prop} (hQ : ∀ h', Holds clientFd others h' → Q a h') :
    wlp (ownSpec clientFd) (do close fd; return a) Q h :=
  (wlp_bind _).mpr (wlp_mono _ (fun _ h' hh' => ⟨trivial, hQ h' hh'⟩) (wlp_close_last hh))

/-! ### Reaching the other side -/

theorem connectSocksTarget_own (remoteAddr : SockaddrUnion) (hh : Holds clientFd others h) :
    wlp (ownSpec clientFd) (connectSocksTarget remoteAddr) (fun r h' => match r with
      | .error _ => Holds clientFd others h'
      | .ok fd => 0 < fd ∧ Holds clientFd (fd :: others) h') h := by
  unfold connectSocksTarget
  refine (wlp_bind _).mpr (wlp_mono _ (fun r h₁ h₁' => ?_) (wlp_socket_own _ _ hh))
  rcases r with e | fd
  · exact ⟨trivial, h₁'⟩
  · refine (wlp_bind _).mpr (wlp_mono _ (fun r h₂ h₂' => ?_)
      (wlp_within (uses_perform (by simp [Op.within, Op.descriptors])) h₁'.2))
    rcases r with e | ⟨⟩
    · exact wlp_closeThen h₂' fun _ h => h
    · exact ⟨trivial, h₁'.1, h₂'⟩

theorem udpSvcSetup_own (clientAddr : SockaddrUnion) (hh : Holds clientFd others h) :
    wlp (ownSpec clientFd) (udpSvcSetup clientAddr) (fun r h' => match r with
      | .error _ => Holds clientFd others h'
      | .ok fd => 0 < fd ∧ Holds clientFd (fd :: others) h') h := by
  unfold udpSvcSetup
  refine (wlp_bind _).mpr (wlp_mono _ (fun r h₁ h₁' => ?_) (wlp_socket_own _ _ hh))
  rcases r with e | fd
  · exact ⟨trivial, h₁'⟩
  · dsimp only
    split
    · refine (wlp_bind _).mpr (wlp_mono _ (fun r h₂ h₂' => ?_)
        (wlp_within (uses_perform (by simp [Op.within, Op.descriptors])) h₁'.2))
      rcases r with e | ⟨⟩
      · exact wlp_closeThen h₂' fun _ h => h
      · exact ⟨trivial, h₁'.1, h₂'⟩
    · refine (wlp_bind _).mpr (wlp_mono _ (fun r h₂ h₂' => ?_)
        (wlp_within (uses_perform (by simp [Op.within, Op.descriptors])) h₁'.2))
      rcases r with _ | addr
      · exact wlp_closeThen h₂' fun _ h => h
      · refine (wlp_bind _).mpr (wlp_mono _ (fun r h₃ h₃' => ?_)
          (wlp_within (uses_perform (by simp [Op.within, Op.descriptors])) h₂'))
        rcases r with e | ⟨⟩
        · exact wlp_closeThen h₃' fun _ h => h
        · exact ⟨trivial, h₁'.1, h₃'⟩

end Programs

/-- The descriptors a request holds for its relay. -/
def Relay.holds : Relay → List Fd
  | .none => []
  | .tcp remotefd _ _ => [remotefd]
  | .udp fd => [fd]

section Requests

variable {client : Client} {h : Trace sys}

/-- Report an error to the client, and set up no relay. -/
theorem wlp_sendError (ec : Errorcode) (hh : Holds client.fd [] h) :
    wlp (ownSpec client.fd) (do sendError client.fd ec; return .none)
      (fun relay h' => Holds client.fd (Relay.holds relay) h') h :=
  (wlp_bind _).mpr (wlp_mono _ (fun _ _ hh' => ⟨trivial, hh'⟩)
    (wlp_within (.bind (uses_perform (by simp [Op.within, Op.descriptors])) fun _ => trivial) hh))

theorem setupConnect_own (address : SockaddrUnion) (requestedAddr : Socks5Addrport)
    (hh : Holds client.fd [] h) :
    wlp (ownSpec client.fd) (setupConnect client address requestedAddr)
      (fun relay h' => Holds client.fd relay.holds h') h := by
  unfold setupConnect
  refine (wlp_bind _).mpr (wlp_mono _ (fun connectionId h₁ h₁' => ?_)
    (wlp_within (uses_perform (by simp [Op.within, Op.descriptors])) hh))
  refine (wlp_bind _).mpr (wlp_mono _ (fun r h₂ h₂' => ?_) (connectSocksTarget_own address h₁'))
  rcases r with ec | remotefd
  · refine (wlp_bind _).mpr (wlp_mono _ (fun _ h₃ h₃' => ?_)
      (wlp_within (uses_perform (by simp [Op.within, Op.descriptors])) h₂'))
    exact wlp_sendError ec h₃'
  · refine (wlp_bind _).mpr (wlp_mono _ (fun r h₃ h₃' => ?_)
      (wlp_within (uses_perform (by simp [Op.within, Op.descriptors])) h₂'.2))
    rcases r with e | localAddr
    · refine (wlp_bind _).mpr (wlp_mono _ (fun _ h₄ h₄' => ?_)
        (wlp_within (uses_perform (by simp [Op.within, Op.descriptors])) h₃'))
      exact wlp_closeThen h₄' fun _ h => h
    · refine (wlp_bind _).mpr (wlp_mono _ (fun r h₄ h₄' => ?_)
        (wlp_within (uses_perform (by simp [Op.within, Op.descriptors])) h₃'))
      rcases r with e | n
      · refine (wlp_bind _).mpr (wlp_mono _ (fun _ h₅ h₅' => ?_)
          (wlp_within (uses_perform (by simp [Op.within, Op.descriptors])) h₄'))
        exact wlp_closeThen h₅' fun _ h => h
      · exact ⟨trivial, h₄'⟩

theorem populateUdpResponseAddr_within (udpFd : Fd) :
    Uses (Op.within [client.fd, udpFd]) (populateUdpResponseAddr udpFd client.fd) := by
  refine .bind (uses_perform (by simp [Op.within, Op.descriptors])) fun r => ?_
  rcases r with e | responseAddr
  · trivial
  · dsimp only
    split
    · trivial
    · refine .bind (uses_perform (by simp [Op.within, Op.descriptors])) fun r => ?_
      rcases r with e | tcpLocalAddr <;> trivial

theorem setupUdpAssociate_own (address : SockaddrUnion) (hh : Holds client.fd [] h) :
    wlp (ownSpec client.fd) (setupUdpAssociate client address)
      (fun relay h' => Holds client.fd relay.holds h') h := by
  unfold setupUdpAssociate
  refine (wlp_bind _).mpr (wlp_mono _ (fun r h₁ h₁' => ?_) (udpSvcSetup_own address hh))
  rcases r with ec | fd
  · exact wlp_sendError ec h₁'
  · obtain ⟨hpos, h₁'⟩ := h₁'
    cases fd with
    | zero => exact absurd hpos (Nat.lt_irrefl 0)
    | succ fd =>
    refine (wlp_bind _).mpr (wlp_mono _ (fun r h₂ h₂' => ?_)
      (wlp_within (populateUdpResponseAddr_within _) h₁'))
    rcases r with _ | localAddr
    · exact wlp_closeThen h₂' fun _ h => h
    · refine (wlp_bind _).mpr (wlp_mono _ (fun r h₃ h₃' => ?_)
        (wlp_within (uses_perform (by simp [Op.within, Op.descriptors])) h₂'))
      rcases r with e | n
      · exact wlp_closeThen h₃' fun _ h => h
      · exact ⟨trivial, h₃'⟩

theorem setupRequest_own (inet : Inet) (buf : Bytes) (hh : Holds client.fd [] h) :
    wlp (ownSpec client.fd) (setupRequest inet client buf)
      (fun relay h' => Holds client.fd relay.holds h') h := by
  have hparse : Uses (Op.within [client.fd]) (parseSocksRequestHeader inet buf buf.length) := by
    unfold parseSocksRequestHeader
    split
    · trivial
    · refine .bind (.bind (uses_perform (by simp [Op.within, Op.descriptors])) fun r => ?_)
        fun r => ?_
      · cases r <;> trivial
      · cases r <;> trivial
  unfold setupRequest
  refine (wlp_bind _).mpr (wlp_mono _ (fun r h₁ h₁' => ?_) (wlp_within hparse hh))
  rcases r with ec | ⟨_ | _, address, requestedAddr⟩
  · exact ⟨trivial, h₁'⟩
  · exact setupConnect_own address requestedAddr h₁'
  · exact setupUdpAssociate_own address h₁'

end Requests

/-! ### An association -/

/-- While the loop runs the open descriptors are the three kinds of the poll array. -/
structure Wields (clientFd udpFd : Fd) (s : UdpLoop) (h : Trace sys) : Prop where
  wired : Wired clientFd udpFd s
  holds : Holds clientFd (udpFd :: s.sockList.items.map FdSocks5addr.fd) h

section Association

variable {clientFd udpFd : Fd} {s : UdpLoop} {h : Trace sys}

/-- A call on open descriptors keeps both. -/
theorem Wields.other (hw : Wields clientFd udpFd s h) {o : Op}
    (ho : o.within (clientFd :: udpFd :: s.sockList.items.map FdSocks5addr.fd)) (r : o.Ret) :
    Wields clientFd udpFd s (h ++ [⟨o, r⟩]) := ⟨hw.wired, hw.holds.other ho r⟩

theorem Wields.asks (hw : Wields clientFd udpFd s h) {o : Op}
    (ho : o.within (clientFd :: udpFd :: s.sockList.items.map FdSocks5addr.fd)) :
    (ownSpec clientFd).guar h o ∧ ∀ r, (ownSpec clientFd).rely h o r →
      Wields clientFd udpFd s ((ownSpec clientFd).next h o r) :=
  ⟨hw.holds.guar ho, fun r _ => hw.other ho r⟩

theorem Wields.run (hw : Wields clientFd udpFd s h) {α : Type} {p : Server α}
    (hu : Uses (Op.within (clientFd :: udpFd :: s.sockList.items.map FdSocks5addr.fd)) p) :
    wlp (ownSpec clientFd) p (fun _ h' => Wields clientFd udpFd s h') h :=
  wlp_mono _ (fun _ _ hh => ⟨hw.wired, hh⟩) (wlp_within hu hw.holds)

theorem item_open {s : UdpLoop} (clientFd udpFd : Fd) {idx : Nat}
    (hidx : idx < s.sockList.items.length) :
    s.sockList.items[idx].fd ∈ clientFd :: udpFd :: s.sockList.items.map FdSocks5addr.fd :=
  List.mem_cons_of_mem _ (List.mem_cons_of_mem _
    (List.mem_map.mpr ⟨_, List.getElem_mem hidx, rfl⟩))

/-- What the poll array names is open. -/
theorem Wields.polled (hw : Wields clientFd udpFd s h) {fd : Fd}
    (hfd : fd ∈ s.polled.map Prod.fst) :
    fd ∈ clientFd :: udpFd :: s.sockList.items.map FdSocks5addr.fd := by
  obtain ⟨_, hpair, rfl⟩ := List.mem_map.mp hfd
  obtain ⟨i, hi, rfl⟩ := List.mem_map.mp hpair
  have hlt := List.mem_range.mp hi
  by_cases h0 : i = 0
  · rw [h0, hw.wired.control]
    exact List.mem_cons_self
  by_cases h1 : i = 1
  · rw [h1, hw.wired.client]
    exact List.mem_cons_of_mem _ List.mem_cons_self
  obtain ⟨hk, hitem⟩ := hw.wired.paired.item_of_entry (show 2 ≤ i by omega) hlt
  rw [← hitem]
  exact item_open _ _ hk

theorem closeUdpDestination_own (hw : Wields clientFd udpFd s h) {idx : Nat}
    (hidx : idx < s.sockList.items.length) (state : ConnectionState) (ec : Errorcode) :
    wlp (ownSpec clientFd) (closeUdpDestination s idx state ec)
      (fun s' h' => Wields clientFd udpFd s' h') h := by
  rw [hw.wired.paired.closeUdpDestination hidx]
  have hmem : s.sockList.items[idx].fd ∈ s.sockList.items.map FdSocks5addr.fd :=
    List.mem_map.mpr ⟨_, List.getElem_mem hidx, rfl⟩
  have hne := (hw.wired.fd_ne_control (List.getElem_mem hidx)).2
  refine (wlp_bind _).mpr (wlp_mono _ (fun _ h₁ h₁' => ?_)
    (wlp_close_own (List.mem_cons_of_mem _ hmem) hw.holds))
  have herase : (udpFd :: s.sockList.items.map FdSocks5addr.fd).erase s.sockList.items[idx].fd =
      udpFd :: (s.remove idx).sockList.items.map FdSocks5addr.fd := by
    have hnodup := (List.nodup_cons.mp (List.nodup_cons.mp hw.wired.distinct).2).2
    rw [List.erase_cons_tail (by simpa using hne.symm)]
    show _ = udpFd :: (s.sockList.items.eraseIdx idx).map FdSocks5addr.fd
    rw [← List.eraseIdx_map, ← hnodup.erase_getElem idx (by simpa using hidx), List.getElem_map]
  rw [herase] at h₁'
  refine (wlp_bind _).mpr (wlp_mono _ (fun _ h₂ h₂' => ?_)
    (wlp_within (uses_perform (by simp [Op.within, Op.descriptors])) h₁'))
  exact ⟨trivial, hw.wired.remove hidx, h₂'⟩

/-- Nothing more than events about a destination that was not opened. -/
theorem failUdpDestination_within (fds : List Fd) (addrport : Socks5Addrport) (ec : Errorcode) :
    Uses (Op.within fds) (failUdpDestination addrport ec) :=
  .bind (uses_perform (by simp [Op.within, Op.descriptors])) fun _ =>
    uses_perform (by simp [Op.within, Op.descriptors])

/-- The destination could not be opened, and its socket, the last one, goes. -/
theorem abandon_own (hw : Wired clientFd udpFd s) {fd : Fd}
    (hh : Holds clientFd (fd :: udpFd :: s.sockList.items.map FdSocks5addr.fd) h)
    {report : Server Unit}
    (hreport :
      Uses (Op.within (clientFd :: udpFd :: s.sockList.items.map FdSocks5addr.fd)) report) :
    wlp (ownSpec clientFd) (do close fd; report; return (s, none))
      (Tried (Wields clientFd udpFd)) h :=
  (wlp_bind _).mpr (wlp_mono _ (fun _ _ h₁ => (wlp_bind _).mpr (wlp_mono _
    (fun _ _ h₂ => ⟨trivial, ⟨hw, h₂⟩, by simp⟩) (wlp_within hreport h₁))) (wlp_close_last hh))

theorem openUdpDestination_own (hw : Wields clientFd udpFd s h) (addrport : Socks5Addrport) :
    wlp (ownSpec clientFd) (openUdpDestination s addrport) (Tried (Wields clientFd udpFd)) h := by
  have hemit : ∀ fds id state ec, Uses (Op.within fds)
      (emitAddrportConnectionEvent id .udp state addrport ec) :=
    fun fds id state ec => uses_perform (by simp [Op.within, Op.descriptors])
  have hfail : ∀ {h' : Trace sys} ec, Wields clientFd udpFd s h' →
      wlp (ownSpec clientFd) (do failUdpDestination addrport ec; return (s, none))
        (Tried (Wields clientFd udpFd)) h' := by
    intro h' ec hw'
    refine (wlp_bind _).mpr (wlp_mono _ (fun _ h₁ h₁' => ⟨trivial, h₁', by simp⟩)
      (hw'.run (failUdpDestination_within _ addrport ec)))
  have hresolve : Uses (Op.within (clientFd :: udpFd :: s.sockList.items.map FdSocks5addr.fd))
      (resolveSocks5Addrport addrport .udpSocket) := by
    refine .bind (uses_perform (by simp [Op.within, Op.descriptors])) fun r => ?_
    cases r <;> trivial
  unfold openUdpDestination
  refine (wlp_bind _).mpr (wlp_mono _ (fun r h₁ h₁' => ?_) (hw.run hresolve))
  rcases r with ec | targetAddr
  · exact hfail ec h₁'
  refine (wlp_bind _).mpr (wlp_mono _ (fun r h₂ h₂' => ?_) (wlp_socket_own _ _ h₁'.holds))
  rcases r with e | fd
  · exact hfail _ ⟨hw.wired, h₂'⟩
  obtain ⟨-, h₂'⟩ := h₂'
  refine (wlp_bind _).mpr (wlp_mono _ (fun r h₃ h₃' => ?_)
    (wlp_within (uses_perform (by simp [Op.within, Op.descriptors])) h₂'))
  rcases r with e | ⟨⟩
  · exact abandon_own hw.wired h₃' (failUdpDestination_within _ addrport _)
  refine (wlp_bind _).mpr (wlp_mono _ (fun connectionId h₄ h₄' => ?_)
    (wlp_within (uses_perform (by simp [Op.within, Op.descriptors])) h₃'))
  dsimp only
  split
  · exact abandon_own hw.wired h₄' (hemit _ _ _ _)
  have hrealloc : ∀ n, (Op.realloc n).within
      (clientFd :: fd :: udpFd :: s.sockList.items.map FdSocks5addr.fd) := by
    simp [Op.within, Op.descriptors]
  have hadded : ∀ {l' : Sblist FdSocks5addr} {h' : Trace sys},
      l'.items = s.sockList.items ++ [⟨fd, connectionId, addrport⟩] →
      Holds clientFd (fd :: udpFd :: s.sockList.items.map FdSocks5addr.fd) h' →
      wlp (ownSpec clientFd) (do
        let s := s.track l' fd
        emitAddrportConnectionEvent connectionId .udp .opened addrport .success
        return (s, some (fd, s.sockList.getsize - 1))) (Tried (Wields clientFd udpFd)) h' := by
    intro l' h' hlist hh
    have hfresh : fd ∉ clientFd :: udpFd :: s.sockList.items.map FdSocks5addr.fd := by
      have := hh.distinct
      simp only [List.nodup_cons, List.mem_cons, not_or] at this ⊢
      exact ⟨fun he => this.1.1 he.symm, this.2.1⟩
    have hwired : Wired clientFd udpFd (s.track l' fd) := hw.wired.track hlist hfresh
    have hopen : (fd :: udpFd :: s.sockList.items.map FdSocks5addr.fd).Perm
        (udpFd :: (s.track l' fd).sockList.items.map FdSocks5addr.fd) := by
      show List.Perm _ (udpFd :: l'.items.map FdSocks5addr.fd)
      rw [hlist, List.map_append]
      exact (List.Perm.swap udpFd fd _).trans ((List.perm_append_singleton _ _).symm.cons udpFd)
    refine (wlp_bind _).mpr (wlp_mono _ (fun _ h₅ h₅' => ⟨trivial, h₅', ?_⟩)
      (Wields.run ⟨hwired, hh.perm hopen⟩ (hemit _ _ _ _)))
    intro fd' idx hsome
    obtain ⟨rfl, rfl⟩ : fd = fd' ∧ (s.track l' fd).sockList.getsize - 1 = idx := by
      simpa using hsome
    have hsize : (s.track l' fd).sockList.getsize - 1 = s.sockList.items.length := by
      show l'.items.length - 1 = s.sockList.items.length
      rw [hlist, List.length_append, List.length_singleton]
      omega
    have hlast : l'.items[s.sockList.items.length]? = some ⟨fd, connectionId, addrport⟩ := by
      rw [hlist, List.getElem?_append_right (Nat.le_refl _), Nat.sub_self]
      rfl
    obtain ⟨hlt, hget⟩ := List.getElem?_eq_some_iff.mp hlast
    rw [hsize]
    exact ⟨hlt, congrArg FdSocks5addr.fd hget⟩
  refine (wlp_bind _).mpr (wlp_sblistAdd _ _ trivial (fun n => h₄'.guar (hrealloc n))
    (fun _ _ => trivial) (fun l' hlist => hadded hlist h₄') (fun n => ?_)
    (fun n l' hlist => hadded hlist (h₄'.other (hrealloc n) true)))
  exact abandon_own hw.wired (h₄'.other (hrealloc n) false) (hemit _ _ _ _)

/-- Every part of the loop keeps to the open descriptors. -/
theorem own_rules (inet : Inet) (clientFd udpFd : Fd) :
    UdpRules (ownSpec clientFd) inet udpFd (Wields clientFd udpFd) where
  inv _ _ _ := trivial
  abort _ _ hw := hw.holds.guar (by simp [Op.within, Op.descriptors])
  polled _ _ revents hw := ⟨hw.wired.polledWith revents, hw.holds⟩
  pinned _ _ hw := ⟨⟨hw.wired.control, hw.wired.client, hw.wired.size, hw.wired.aligned,
    hw.wired.distinct⟩, hw.holds⟩
  poll s h hw := hw.asks fun _ hfd => hw.polled hfd
  control s h hw := hw.asks (by simp [Op.within, Op.descriptors, hw.wired.control])
  perror s h hw := hw.asks (by simp [Op.within, Op.descriptors])
  receive s h hw := hw.asks (by simp [Op.within, Op.descriptors])
  receiveFrom s h hw := hw.asks (by simp [Op.within, Op.descriptors])
  pin s addr h hw := hw.asks (by simp [Op.within, Op.descriptors])
  closed _ _ _ ec hw hidx _ := closeUdpDestination_own hw hidx .error ec
  opened _ _ addrport hw := openUdpDestination_own hw addrport
  sent s h idx payload hw hidx := by
    refine hw.run (sendRecorded_uses (fun _ fd hfd => ?_) (by simp [Op.within, Op.descriptors]) _)
    rw [List.mem_singleton.mp hfd]
    exact item_open _ _ hidx
  replied s h i idx header hw hidx hfd hheader := by
    refine wlp_mono _ (fun r h₁ h₁' => ?_) (hw.run (uses_perform fun fd hmem => ?_))
    · rcases r with e | payload
      · exact h₁'
      · exact h₁'.run (writeRecorded_uses (by simp [Op.within, Op.descriptors])
          (by simp [Op.within, Op.descriptors]) _ _)
    · rw [List.mem_singleton.mp hmem, ← hfd]
      exact item_open _ _ hidx

/-- Closing one after the other whatever is open beside `fd` and the client's. -/
theorem forEach_close {fd : Fd} (f : Nat → Fd) : ∀ (is : List Nat) {h : Trace sys},
    Holds clientFd (fd :: is.map f) h →
    wlp (ownSpec clientFd) (forEach (fun i => close (f i)) is)
      (fun _ h' => Holds clientFd [fd] h') h := by
  intro is
  induction is with
  | nil => intro h hh; exact ⟨trivial, hh⟩
  | cons i is ih =>
      intro h hh
      exact (wlp_bind _).mpr (wlp_mono _ (fun _ _ hh' => ih hh')
        (wlp_close_last (hh.perm (List.Perm.swap (f i) fd _))))

/-- The entries from two on are the items' descriptors. -/
theorem Wired.entries (hw : Wired clientFd udpFd s) :
    (List.range' 2 (s.pollFds - 2)).map (fun i => (s.fds i).fd) =
      s.sockList.items.map FdSocks5addr.fd := by
  have hsize := hw.size
  unfold Sblist.getsize at hsize
  refine List.ext_getElem ?_ fun k hk hk' => ?_
  · simp only [List.length_map, List.length_range']
    omega
  · rw [List.length_map] at hk'
    simp only [List.getElem_map, List.getElem_range']
    rw [show 2 + 1 * k = k + 2 by omega]
    exact (hw.aligned k hk').symm

/-- At the end of an association only the client's socket is left. -/
theorem udpLoopEnd_own {e : UdpEnd} (hw : Wields clientFd udpFd e.loop h) :
    wlp (ownSpec clientFd) (udpLoopEnd e) (fun _ h' => Holds clientFd [udpFd] h') h := by
  have hevents := hw.run (p := forEach (fun item => emitAddrportConnectionEvent item.connectionId
    .udp e.finalState item.addrport e.errorCode) e.loop.sockList.items)
    (uses_forEach (fun _ => uses_perform (by simp [Op.within, Op.descriptors])) _)
  refine (wlp_bind _).mpr (wlp_mono _ (fun _ h₁ h₁' => ?_) hevents)
  refine forEach_close (fun i => (e.loop.fds i).fd) _ ?_
  rw [hw.wired.entries]
  exact h₁'.holds

theorem Wired.initial (hne : clientFd ≠ udpFd) (bound : Bool) :
    Wired clientFd udpFd (initialUdpLoop clientFd udpFd bound) where
  control := rfl
  client := rfl
  size := rfl
  aligned _ hk := absurd hk (Nat.not_lt_zero _)
  distinct := by simp [initialUdpLoop, Sblist.new, hne]

theorem copyLoopUdp_own (inet : Inet) (hh : Holds clientFd [udpFd] h) :
    wlp (ownSpec clientFd) (copyLoopUdp inet clientFd udpFd)
      (fun _ h' => Holds clientFd [udpFd] h') h := by
  have hne : clientFd ≠ udpFd := by
    have := hh.distinct
    simpa using this
  have hbound : Uses (Op.within [clientFd, udpFd]) (udpIsBound udpFd) := by
    refine .bind (uses_perform (by simp [Op.within, Op.descriptors])) fun r => ?_
    rcases r with e | addr
    · dsimp only
      split
      · trivial
      · exact ⟨by simp [Op.within, Op.descriptors], nofun⟩
    · trivial
  have hmalloc : ∀ n, Uses (Op.within [clientFd, udpFd]) (malloc n) := fun n =>
    uses_perform (by simp [Op.within, Op.descriptors])
  unfold copyLoopUdp
  refine (wlp_bind _).mpr (wlp_mono _ (fun bound h₁ h₁' => ?_) (wlp_within hbound hh))
  refine (wlp_bind _).mpr (wlp_mono _ (fun buf h₂ h₂' => ?_) (wlp_within (hmalloc _) h₁'))
  refine (wlp_bind _).mpr (wlp_mono _ (fun sockList h₃ h₃' => ?_) (wlp_within (hmalloc _) h₂'))
  split
  · refine (wlp_bind _).mpr (wlp_mono _ ?_ ((own_rules inet clientFd udpFd).loop
      (s := initialUdpLoop clientFd udpFd bound) ⟨.initial hne bound, h₃'⟩))
    exact fun e g he => udpLoopEnd_own he.1
  · exact ⟨trivial, h₃'⟩

end Association

/-! ### The thread -/

section Thread

variable {client : Client} {h : Trace sys}

theorem runRelay_own (inet : Inet) (relay : Relay) (hh : Holds client.fd relay.holds h) :
    wlp (ownSpec client.fd) (runRelay inet client relay)
      (fun _ h' => Holds client.fd [] h') h := by
  cases relay with
  | none => exact ⟨trivial, hh⟩
  | tcp remotefd connectionId requestedAddr =>
      have hemit : ∀ state ec, Uses (Op.within [client.fd, remotefd])
          (emitAddrportConnectionEvent connectionId .tcp state requestedAddr ec) :=
        fun state ec => uses_perform (by simp [Op.within, Op.descriptors])
      have hcopy : Uses (Op.within [client.fd, remotefd]) (copyloop client.fd remotefd) :=
        copyloop_uses (fun o ho => by cases o <;> first | exact ho.elim | exact nofun)
          (by simp [Op.within, Op.descriptors]) (by simp [Op.within, Op.descriptors])
          (by simp [Op.within, Op.descriptors])
      refine (wlp_bind _).mpr (wlp_mono _ (fun _ h₁ h₁' => ?_) (wlp_within (hemit _ _) hh))
      refine (wlp_bind _).mpr (wlp_mono _ (fun finalState h₂ h₂' => ?_) (wlp_within hcopy h₁'))
      refine (wlp_bind _).mpr (wlp_mono _ (fun _ h₃ h₃' => ?_) (wlp_within (hemit _ _) h₂'))
      exact wlp_close_last h₃'
  | udp fd =>
      exact (wlp_bind _).mpr (wlp_mono _ (fun _ _ h' => wlp_close_last h')
        (copyLoopUdp_own inet hh))

theorem clientthreadBody_own (inet : Inet) (cfg : Config) (hh : Holds client.fd [] h) :
    wlp (ownSpec client.fd) (clientthreadBody inet cfg client ())
      (Sum.elim (fun _ h' => Holds client.fd [] h') fun _ h' => Holds client.fd [] h') h := by
  have hend : ∀ {p : Server (Unit ⊕ Unit)} {h' : Trace sys}, Uses (Op.within [client.fd]) p →
      Holds client.fd [] h' → wlp (ownSpec client.fd) p
        (Sum.elim (fun _ h' => Holds client.fd [] h') fun _ h' => Holds client.fd [] h') h' := by
    intro p h' hu hh'
    refine wlp_mono _ ?_ (wlp_within hu hh')
    rintro (_ | _) h'' hh'' <;> exact hh''
  have hconsult : ∀ o : Op, o.consulting → o.within [client.fd] := by
    intro o ho
    cases o <;> first | exact ho.elim | exact nofun
  unfold clientthreadBody
  refine (wlp_bind _).mpr (wlp_mono _ (fun r h₁ h₁' => ?_)
    (wlp_within (uses_perform (by simp [Op.within, Op.descriptors])) hh))
  rcases r with e | buf
  · exact ⟨trivial, h₁'⟩
  dsimp only
  split
  · exact ⟨trivial, h₁'⟩
  refine (wlp_bind _).mpr (wlp_mono _ (fun state h₂ h₂' => ?_)
    (wlp_within (uses_perform (by simp [Op.within, Op.descriptors])) h₁'))
  cases state with
  | ss1Connected =>
      exact hend (selectMethod_uses hconsult (by simp [Op.within, Op.descriptors])
        (by simp [Op.within, Op.descriptors]) cfg buf) h₂'
  | ss2NeedAuth =>
      exact hend (authenticate_uses hconsult (by simp [Op.within, Op.descriptors])
        (by simp [Op.within, Op.descriptors]) (by simp [Op.within, Op.descriptors]) cfg buf) h₂'
  | ss3Authed =>
      refine (wlp_bind _).mpr ((wlp_bind _).mpr (wlp_mono _ (fun relay h₃ h₃' => ?_)
        (setupRequest_own inet buf h₂')))
      exact wlp_mono _ (fun _ h₄ h₄' => ⟨trivial, h₄'⟩) (runRelay_own inet relay h₃')

/-- From its start the thread keeps to what is open, and leaves nothing open. -/
theorem clientthread_own (inet : Inet) (cfg : Config) (client : Client) :
    wlp (ownSpec client.fd) (clientthread inet cfg client) (fun _ _ => True) [] := by
  unfold clientthread
  refine (wlp_bind _).mpr (wlp_mono _ (fun _ h₁ h₁' => ?_)
    (wlp_within (uses_perform (by simp [Op.within, Op.descriptors]))
      (Holds.start : Holds client.fd [] [])))
  refine (wlp_bind _).mpr (wlp_mono _ (fun _ h₂ h₂' => ?_)
    (wlp_iterate (fun _ h' => Holds client.fd [] h') h₁'
      fun _ h' hh' => clientthreadBody_own inet cfg hh'))
  exact ⟨trivial, h₂'.guar_close List.mem_cons_self, fun _ _ =>
    ⟨trivial, h₂'.finish, fun _ _ => ⟨trivial, trivial⟩⟩⟩

end Thread

/-! ### The result -/

/-- What a history says about the descriptors of its session. -/
structure OwnsDescriptors (clientFd : Fd) (tr : Trace sys) : Prop where
  /-- Whatever is named, to be closed or for anything else, is open: it has been obtained
  once more than it has been closed. -/
  named : ∀ {pre e post}, tr = pre ++ e :: post → ∀ fd ∈ e.op.descriptors,
    timesObtained clientFd fd pre = timesClosed fd pre + 1
  /-- When the session is done every descriptor has been closed as often as obtained. -/
  closed : ∀ {pre e post}, tr = pre ++ e :: post → e.op = .storeDone →
    ∀ fd, timesObtained clientFd fd pre = timesClosed fd pre
  /-- The client's has been closed once. -/
  client : ∀ {pre e post}, tr = pre ++ e :: post → e.op = .storeDone →
    timesClosed clientFd pre = 1
  /-- There is nothing after that. -/
  last : ∀ {pre e post}, tr = pre ++ e :: post → e.op = .storeDone → post = []

/-- `socket` gives positive descriptors that are not open. -/
def SocketsNotOpen (clientFd : Fd) (tr : Trace sys) : Prop :=
  ∀ pre e post, tr = pre ++ e :: post → NotOpen clientFd pre e

theorem socketsNotOpen_iff {clientFd : Fd} {tr : Trace sys} :
    SocketsNotOpen clientFd tr ↔ (ownSpec clientFd).Legal [] tr := by
  rw [Spec.watching_legal_iff]
  simp only [List.nil_append]
  rfl

/--
**A session closes what it opens, once, and names nothing it has closed.**

Over any run of `clientthread`, whatever the client sends and the system answers.
-/
theorem session_owns_descriptors (inet : Inet) (cfg : Config) (client : Client)
    {whole : Block → Prop} {tr : Trace sys} {p : Server Unit}
    (hs : Steps whole (clientthread inet cfg client) tr p) (hfresh : SocketsNotOpen client.fd tr) :
    OwnsDescriptors client.fd tr := by
  have hf := wlp_steps hs (fun _ _ _ _ => trivial) (clientthread_own inet cfg client)
  have hall := (hf.elim (socketsNotOpen_iff.mp hfresh)).1
  have hguar : ∀ {pre e post}, tr = pre ++ e :: post → Owning client.fd pre e.op := by
    intro pre e post he
    rw [he] at hall
    have := hall.at
    rwa [Spec.watching_run, List.nil_append] at this
  refine ⟨fun he => (hguar he).1, fun he hdone => ((hguar he).2.1 hdone).2,
    fun he hdone => ((hguar he).2.1 hdone).1, ?_⟩
  intro pre e post he hdone
  cases post with
  | nil => rfl
  | cons e' post =>
      have hlater : tr = (pre ++ [e]) ++ e' :: post := by simp [he]
      have hrunning := (hguar hlater).2.2
      exact absurd hdone (hrunning e (by simp))

/-- A client asks for a target that refuses. -/
def refusedTrace : Trace sys :=
  [⟨.storeState .ss1Connected, ()⟩,
    ⟨.recv 4 1024, .ok [5, 1, 0]⟩, ⟨.loadState, .ss1Connected⟩, ⟨.storeState .ss3Authed, ()⟩,
    ⟨.write 4 [5, 0], .ok 2⟩,
    ⟨.recv 4 1024, .ok [5, 1, 0, 1, 192, 0, 2, 1, 0, 80]⟩, ⟨.loadState, .ss3Authed⟩,
    ⟨.getaddrinfo webTarget.addr 80 .stream, some (.v4 (hostAddress 1) 80)⟩,
    ⟨.nextConnectionIdentifier, (1 : Int)⟩,
    ⟨.socket .inet .stream, .ok 7⟩, ⟨.connect 7 (.v4 (hostAddress 1) 80), .error .econnrefused⟩,
    ⟨.close 7, ()⟩,
    ⟨.handler ⟨1, .tcp, .error, webTarget.addr, 80, .connRefused⟩, ()⟩,
    ⟨.write 4 (errorBytes .connRefused), .ok 10⟩,
    ⟨.close 4, ()⟩, ⟨.storeDone, ()⟩]

/-- The socket of a refused connection is closed, and then the client's. -/
theorem session_owns_descriptors_refused : OwnsDescriptors webClient.fd refusedTrace :=
  have hrun : Steps (fun _ => True) (clientthread .plain ⟨none, none, false⟩ webClient)
      refusedTrace (.ret ()) := Eval.steps (eval_of_replay 60 refusedTrace rfl)
  session_owns_descriptors .plain ⟨none, none, false⟩ webClient hrun
    (socketsNotOpen_iff.mpr (by trivial))

end TwoSocks
