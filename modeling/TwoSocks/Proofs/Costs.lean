/-
What a session does for what it is sent.

A thread that waits should wait in a call, so that it costs nothing while nothing happens.  What
wakes it is a message, the end of a connection, or a signal; here each of these is worth a number of
operations, and every part of the server is shown to do with that.

`poll` is only relied on not to come back for nothing, and `write` to take something.
-/
import TwoSocks.Program.Credits
import TwoSocks.Proofs.Operations
import TwoSocks.Proofs.Relay

namespace TwoSocks

open Server Prog

/-! ### What comes in -/

/-- Whether something was received, which may be the end of a connection. -/
def receipt : Event sys → Nat
  | ⟨.recv _ _, .ok _⟩ => 1
  | ⟨.recvfrom _ _, .ok _⟩ => 1
  | ⟨.read _ _, .ok _⟩ => 1
  | _ => 0

/-- How many octets were received. -/
def octets : Event sys → Nat
  | ⟨.recv _ _, .ok buf⟩ => buf.length
  | ⟨.recvfrom _ _, .ok (buf, _)⟩ => buf.length
  | ⟨.read _ _, .ok buf⟩ => buf.length
  | _ => 0

/-- `EINTR` and `EAGAIN`. -/
def Errno.interrupts (e : Errno) : Bool := e = .eintr ∨ e = .eagain

/-- Whether waiting was interrupted. -/
def interruption : Event sys → Nat
  | ⟨.poll _ _, .failed e⟩ => e.interrupts.toNat
  | ⟨.recv _ _, .error e⟩ => e.interrupts.toNat
  | ⟨.recvfrom _ _, .error e⟩ => e.interrupts.toNat
  | ⟨.read _ _, .error e⟩ => e.interrupts.toNat
  | _ => 0

/-- The bits say something about a descriptor. -/
def PollReports (revents : UInt16) : Prop :=
  pollReventsHaveError revents = true ∨ pollReventsHaveHangup revents = true ∨
    pollReventsHaveInput revents = true

/-- `poll` does not come back for nothing, and a successful write accepts something. -/
def Prompt : Event sys → Prop
  | ⟨.poll fds _, .ready revents⟩ => ∃ i < fds.length, PollReports (revents.getD i 0)
  | e => AcceptsSome e

/-- What an answer is worth, in operations. -/
def worth (e : Event sys) : Nat := 32 * (receipt e + interruption e) + 3 * octets e

/-- A session pays for all it does with what it is sent. -/
abbrev costSpec : Spec sys Nat := .paying Prompt worth

theorem worth_eq (e : Event sys) :
    worth e = 32 * (receipt e + interruption e) + 3 * octets e := rfl

theorem worth_read (fd : Fd) (n : Nat) (buf : Bytes) :
    worth ⟨.read fd n, .ok buf⟩ = 32 + 3 * buf.length := rfl

theorem worth_recv (fd : Fd) (n : Nat) (buf : Bytes) :
    worth ⟨.recv fd n, .ok buf⟩ = 32 + 3 * buf.length := rfl

theorem worth_recvfrom (fd : Fd) (n : Nat) (buf : Bytes) (addr : SockaddrUnion) :
    worth ⟨.recvfrom fd n, .ok (buf, addr)⟩ = 32 + 3 * buf.length := rfl

section Interrupted

variable {e : Errno} (he : e = .eintr ∨ e = .eagain)

include he

theorem interrupts_toNat : e.interrupts.toNat = 1 := by
  simp [Errno.interrupts, he]

theorem worth_poll_failed (fds : List (Fd × UInt16)) (timeout : Nat) :
    worth ⟨.poll fds timeout, .failed e⟩ = 32 := by
  simp [worth, receipt, interruption, octets, interrupts_toNat he]

theorem worth_read_error (fd : Fd) (n : Nat) : worth ⟨.read fd n, .error e⟩ = 32 := by
  simp [worth, receipt, interruption, octets, interrupts_toNat he]

theorem worth_recv_error (fd : Fd) (n : Nat) : worth ⟨.recv fd n, .error e⟩ = 32 := by
  simp [worth, receipt, interruption, octets, interrupts_toNat he]

theorem worth_recvfrom_error (fd : Fd) (n : Nat) : worth ⟨.recvfrom fd n, .error e⟩ = 32 := by
  simp [worth, receipt, interruption, octets, interrupts_toNat he]

end Interrupted

/-! ### Without loops -/

theorem within_recordBytes (d : Direction) (n : Nat) : Within 1 (recordBytes d n) := by
  unfold recordBytes
  split
  · trivial
  · exact .perform _

theorem within_sblistAdd {α : Type} (l : Sblist α) (item : α) : Within 1 (sblistAdd l item) := by
  have hgrow : Within 1 (sblistGrowIfNeeded l) := by
    unfold sblistGrowIfNeeded
    split
    · exact ⟨Nat.one_pos, fun r => by cases r <;> trivial⟩
    · trivial
  refine hgrow.bind (n := 0) fun r => ?_
  cases r <;> trivial

theorem within_flushPendingTransferTotals : Within 6 flushPendingTransferTotals := by
  have hflush : ∀ d, Within 3 (flushPending d) := by
    intro d
    refine (Within.perform _).bind fun pending => ?_
    split
    · exact (within_recordBytes d pending).bind fun _ => .perform _
    · trivial
  exact .atomically ((hflush _).bind fun _ => hflush _)

theorem within_accountPending (d : Direction) (n : Nat) : Within 5 (accountPending d n) := by
  refine (Within.perform _).bind fun _ => (Within.perform _).bind fun _ =>
    (Within.perform _).bind fun pending => ?_
  split
  · exact (within_recordBytes d pending).bind fun _ => .perform _
  · trivial

theorem within_forEach {α : Type} {f : α → Server Unit} {n : Nat} (h : ∀ a, Within n (f a))
    (l : List α) : Within (n * l.length) (forEach f l) := by
  induction l with
  | nil => trivial
  | cons a l ih =>
      rw [List.length_cons, Nat.mul_succ]
      exact (h a).bind fun _ => ih

/-! ### The handshake -/

theorem within_lookupAuthIp (caddr : SockaddrUnion) : Within 3 (lookupAuthIp caddr) := by
  refine .atomically ((Within.perform _).bind fun r => ?_)
  cases r with
  | false => trivial
  | true => exact (Within.perform _).bind fun _ => (Within.perform _).bind fun _ => trivial

theorem within_rememberAuthIp (caddr : SockaddrUnion) : Within 5 (rememberAuthIp caddr) := by
  refine .atomically ((Within.perform _).bind fun r => ?_)
  cases r with
  | false => trivial
  | true =>
      refine (Within.perform _).bind fun authIps => ?_
      split
      · have hadd : Within 2 (addAuthIp authIps caddr) := by
          refine (within_sblistAdd _ _).bind fun r => ?_
          cases r with
          | none => trivial
          | some l => exact .perform _
        exact hadd.bind fun _ => .perform _
      · exact (Within.perform _).mono (by omega)

theorem within_considerAuthMethod (cfg : Config) (method : UInt8) (client : Client) :
    Within 3 (considerAuthMethod cfg method client) := by
  unfold considerAuthMethod
  split
  · split
    · trivial
    split
    · refine (within_lookupAuthIp _).bind (n := 0) fun r => ?_
      cases r <;> trivial
    · trivial
  split
  · split <;> trivial
  · trivial

/-- Each method that is offered may be looked up. -/
theorem within_checkAuthMethods (cfg : Config) (buf : Bytes) (n : Nat) (client : Client)
    (nMethods : Nat) :
    ∀ idx, Within (3 * (n - idx)) (checkAuthMethods cfg buf n client idx nMethods) := by
  induction nMethods with
  | zero => intro idx; trivial
  | succ nMethods ih =>
      intro idx
      unfold checkAuthMethods
      split
      · have hle : 3 * (n - (idx + 1)) + 3 ≤ 3 * (n - idx) := by omega
        refine ((within_considerAuthMethod _ _ _).bind fun r => ?_).mono hle
        cases r with
        | none => exact ih _
        | some am => trivial
      · trivial

theorem within_sendAuthResponse (fd : Fd) (version meth : UInt8) :
    Within 1 (sendAuthResponse fd version meth) := (Within.perform _).bind (n := 0) fun _ => trivial

theorem within_selectMethod (cfg : Config) (client : Client) (buf : Bytes) :
    Within (2 + 3 * buf.length) (selectMethod cfg client buf) := by
  have hmethod : Within (3 * buf.length) (checkAuthMethod cfg buf buf.length client) := by
    unfold checkAuthMethod
    split
    · trivial
    split
    · trivial
    · exact (within_checkAuthMethods _ _ _ _ _ _).mono (by omega)
  refine hmethod.bind fun am => ?_
  have hrest : Within 1 (do
      sendAuthResponse client.fd 5 am.code
      if am = .invalid then return .inr () else return .inl () : Server (Unit ⊕ Unit)) := by
    refine (within_sendAuthResponse _ _ _).bind (n := 0) fun _ => ?_
    split <;> trivial
  dsimp only
  split
  · exact (Within.perform _).bind fun _ => hrest
  split
  · exact (Within.perform _).bind fun _ => hrest
  · exact hrest.mono (by omega)

theorem within_authenticate (cfg : Config) (client : Client) (buf : Bytes) :
    Within 7 (authenticate cfg client buf) := by
  unfold authenticate
  split
  · exact ⟨by omega, fun r => Empty.elim r⟩
  refine (within_sendAuthResponse _ _ _).bind fun _ => ?_
  split
  · trivial
  refine (Within.perform _).bind fun _ => ?_
  dsimp only
  split
  · exact (within_rememberAuthIp _).bind fun _ => trivial
  · trivial

/-! ### Setting up a request -/

theorem within_sendError (fd : Fd) (ec : Errorcode) : Within 1 (sendError fd ec) :=
  (Within.perform _).bind (n := 0) fun _ => trivial

theorem within_resolveSocks5Addrport (addrport : Socks5Addrport) (stype : Socks5SocketType) :
    Within 1 (resolveSocks5Addrport addrport stype) := by
  refine (Within.perform _).bind (n := 0) fun r => ?_
  cases r <;> trivial

theorem within_parseSocksRequestHeader (inet : Inet) (buf : Bytes) (n : Nat) :
    Within 1 (parseSocksRequestHeader inet buf n) := by
  unfold parseSocksRequestHeader
  split
  · trivial
  · refine (within_resolveSocks5Addrport _ _).bind (n := 0) fun r => ?_
    cases r <;> trivial

theorem within_connectSocksTarget (remoteAddr : SockaddrUnion) :
    Within 3 (connectSocksTarget remoteAddr) := by
  refine (Within.perform _).bind fun r => ?_
  rcases r with e | fd
  · trivial
  refine (Within.perform _).bind fun r => ?_
  rcases r with e | ⟨⟩
  · exact (Within.perform _).bind fun _ => trivial
  · trivial

theorem within_setupConnect (client : Client) (address : SockaddrUnion)
    (requestedAddr : Socks5Addrport) : Within 8 (setupConnect client address requestedAddr) := by
  have hfailed : ∀ (e : ConnectionEvent) (fd : Fd), Within 2 (do
      emitConnectionEvent e
      close fd
      return Relay.none) := fun e fd =>
    (Within.perform _).bind fun _ => (Within.perform _).bind fun _ => trivial
  refine (Within.perform _).bind fun id => (within_connectSocksTarget _).bind fun r => ?_
  rcases r with ec | remotefd
  · exact (Within.perform _).bind fun _ => (within_sendError _ _).bind fun _ => trivial
  refine (Within.perform _).bind fun r => ?_
  rcases r with e | localAddr
  · exact (hfailed _ _).mono (by omega)
  refine (Within.perform _).bind fun r => ?_
  rcases r with e | n
  · exact hfailed _ _
  · trivial

theorem within_udpSvcSetup (clientAddr : SockaddrUnion) : Within 4 (udpSvcSetup clientAddr) := by
  refine (Within.perform _).bind fun r => ?_
  rcases r with e | fd
  · trivial
  dsimp only
  split
  · refine (Within.perform _).bind fun r => ?_
    rcases r with e | ⟨⟩
    · exact (Within.perform _).bind fun _ => trivial
    · trivial
  refine (Within.perform _).bind fun r => ?_
  rcases r with _ | addr
  · exact (Within.perform _).bind fun _ => trivial
  refine (Within.perform _).bind fun r => ?_
  rcases r with e | ⟨⟩
  · exact (Within.perform _).bind fun _ => trivial
  · trivial

theorem within_populateUdpResponseAddr (udpFd tcpFd : Fd) :
    Within 2 (populateUdpResponseAddr udpFd tcpFd) := by
  refine (Within.perform _).bind fun r => ?_
  rcases r with e | responseAddr
  · trivial
  dsimp only
  split
  · trivial
  refine (Within.perform _).bind fun r => ?_
  rcases r with e | tcpLocalAddr <;> trivial

theorem within_setupUdpAssociate (client : Client) (address : SockaddrUnion) :
    Within 8 (setupUdpAssociate client address) := by
  refine (within_udpSvcSetup _).bind fun r => ?_
  split
  · exact (within_sendError _ _).bind fun _ => trivial
  · exact (within_sendError _ _).bind fun _ => trivial
  refine (within_populateUdpResponseAddr _ _).bind fun r => ?_
  rcases r with _ | localAddr
  · exact (Within.perform _).bind fun _ => trivial
  refine (Within.perform _).bind fun r => ?_
  rcases r with e | n
  · exact (Within.perform _).bind fun _ => trivial
  · trivial

theorem within_setupRequest (inet : Inet) (client : Client) (buf : Bytes) :
    Within 9 (setupRequest inet client buf) := by
  refine (within_parseSocksRequestHeader _ _ _).bind fun r => ?_
  rcases r with ec | ⟨_ | _, address, requestedAddr⟩
  · trivial
  · exact within_setupConnect _ _ _
  · exact within_setupUdpAssociate _ _

/-! ### The TCP relay -/

section Tcp

variable {k c : Nat}

/-- Each write takes something, so there are no more of them than octets. -/
theorem writeAll_costs (outfd : Fd) (buf : Bytes) (h : k + buf.length ≤ c) :
    wlp costSpec (writeAll outfd buf) (fun _ c' => k ≤ c') c := by
  refine wlp_iterate (fun sent c' => sent ≤ buf.length ∧ k + (buf.length - sent) ≤ c')
    ⟨Nat.zero_le _, by simpa using h⟩ ?_
  rintro sent c' ⟨hsent, hc'⟩
  unfold writeRest
  split
  · simp only [bind_eq, pure_eq, wlp_bind, wlp_write, Spec.paying_inv, Spec.paying_guar,
      Spec.paying_rely, Spec.paying_next, true_and]
    refine ⟨by omega, fun r hr => ?_⟩
    rcases r with e | m
    · exact ⟨trivial, show k ≤ _ by omega⟩
    · have hm : 1 ≤ m ∧ m ≤ (buf.drop sent).length := hr
      rw [List.length_drop] at hm
      exact ⟨trivial, show sent + m ≤ _ ∧ _ by omega⟩
  · exact ⟨trivial, show k ≤ _ by omega⟩

/-- A chunk that is relayed leaves more than it cost. -/
theorem relayData_costs (infd outfd : Fd) (bufSize : Nat) (countsAsUpload : Bool)
    (h : k + 1 ≤ c) : wlp costSpec (relayData infd outfd bufSize countsAsUpload)
      (fun r c' => k ≤ c' ∧ (r = .opened → k + 20 ≤ c')) c := by
  refine wlp_opened (fun _ _ => trivial) ?_
  unfold relayChunk
  simp only [bind_eq, pure_eq, wlp_bind, wlp_read, Spec.paying_inv, Spec.paying_guar,
    Spec.paying_rely, Spec.paying_next, true_and]
  refine ⟨by omega, fun r _ => ?_⟩
  rcases r with e | buf
  · exact ⟨trivial, by omega, fun h => by cases h⟩
  rw [worth_read]
  dsimp only
  split
  · exact ⟨trivial, by omega, fun h => by cases h⟩
  simp only [wlp_bind]
  refine wlp_mono _ (fun sent c₁ h₁ => ?_)
    (writeAll_costs (k := k + 25) outfd buf (by omega))
  cases sent with
  | false => exact ⟨trivial, by omega, fun h => by cases h⟩
  | true =>
      have haccount : ∀ d, wlp costSpec (accountPending d buf.length)
          (fun _ c' => k + 20 ≤ c') c₁ := fun d => (within_accountPending d _).leaves h₁
      cases countsAsUpload with
      | false =>
          exact (wlp_bind _).mpr (wlp_mono _ (fun _ _ h₂ => ⟨trivial, by omega, fun _ => h₂⟩)
            (haccount _))
      | true =>
          exact (wlp_bind _).mpr (wlp_mono _ (fun _ _ h₂ => ⟨trivial, by omega, fun _ => h₂⟩)
            (haccount _))

theorem relayIfReadable_costs (revents : UInt16) (infd outfd : Fd) (countsAsUpload : Bool)
    (h : k + 1 ≤ c) : wlp costSpec (relayIfReadable revents infd outfd countsAsUpload)
      (fun r c' => k ≤ c' ∧ (r = .opened → k + 1 ≤ c' ∧
        (pollReventsHaveInput revents = true → k + 20 ≤ c'))) c := by
  unfold relayIfReadable
  split
  · refine wlp_mono _ (fun r c' h' => ⟨h'.1, fun hr => ?_⟩) (relayData_costs infd outfd _ _ h)
    have := h'.2 hr
    exact ⟨by omega, fun _ => this⟩
  · exact ⟨trivial, by omega, fun _ => ⟨h, fun hin => absurd hin ‹_›⟩⟩

/-- What an iteration of `copyloop` leaves: enough for another one, or for what follows. -/
def CopyloopLeaves (k : Nat) : Unit ⊕ ConnectionState → Nat → Prop
  | .inl (), c => k + 8 ≤ c
  | .inr _, c => k ≤ c

theorem flushAndReturn_costs (state : ConnectionState) (h : k + 6 ≤ c) :
    wlp costSpec (flushAndReturn state) (CopyloopLeaves k) c :=
  (wlp_bind _).mpr (wlp_mono _ (fun _ _ h' => ⟨trivial, h'⟩)
    (within_flushPendingTransferTotals.leaves h))

theorem copyloopReady_costs (fd1 fd2 : Fd) {revents1 revents2 : UInt16} (h : k + 7 ≤ c)
    (hreports : PollReports revents1 ∨ PollReports revents2) :
    wlp costSpec (copyloopReady fd1 fd2 revents1 revents2) (CopyloopLeaves k) c := by
  unfold copyloopReady
  split
  · exact flushAndReturn_costs _ (by omega)
  rename_i herror
  simp only [bind_eq, wlp_bind]
  refine wlp_mono _ (fun r c₁ h₁ => ?_)
    (relayIfReadable_costs (k := k + 6) revents1 fd1 fd2 true h)
  split
  · exact flushAndReturn_costs _ h₁.1
  rename_i hopened
  obtain ⟨hmore, hfirst⟩ := h₁.2 (not_not.mp hopened)
  simp only [wlp_bind]
  refine wlp_mono _ (fun r c₂ h₂ => ?_)
    (relayIfReadable_costs (k := c₁ - 1) revents2 fd2 fd1 false (by omega))
  split
  · exact flushAndReturn_costs _ (by omega)
  rename_i hopened
  obtain ⟨hmore', hsecond⟩ := h₂.2 (not_not.mp hopened)
  split
  · exact flushAndReturn_costs _ (by omega)
  rename_i hidle
  refine ⟨trivial, show k + 8 ≤ c₂ from ?_⟩
  -- Neither an error nor a hangup was reported, so one of the two had something to read.
  simp only [PollReports] at hreports
  simp only [Bool.or_eq_true, not_or, Bool.not_eq_true] at herror
  by_cases hin1 : pollReventsHaveInput revents1 = true
  · have := hfirst hin1
    omega
  by_cases hin2 : pollReventsHaveInput revents2 = true
  · have := hsecond hin2
    omega
  exfalso
  simp only [Bool.not_eq_true] at hin1 hin2
  simp [hin1, hin2, herror] at hreports hidle
  simp [hidle] at hreports

theorem copyloop_costs (fd1 fd2 : Fd) (h : k + 10 ≤ c) :
    wlp costSpec (copyloop fd1 fd2) (fun _ c' => k ≤ c') c := by
  unfold copyloop
  simp only [bind_eq, wlp_bind, wlp_storePending, Spec.paying_inv, Spec.paying_guar,
    Spec.paying_rely, Spec.paying_next, true_and]
  refine ⟨by omega, fun _ => ⟨by omega, fun _ => ?_⟩⟩
  refine wlp_iterate (fun _ c' => k + 8 ≤ c') (by omega) fun _ c' hc' => ?_
  suffices wlp costSpec (copyloopBody fd1 fd2 ()) (CopyloopLeaves k) c' by
    refine wlp_mono _ ?_ this
    rintro (⟨⟩ | state) c'' h'' <;> exact h''
  unfold copyloopBody
  simp only [bind_eq, pure_eq, wlp_bind, TwoSocks.wlp_poll, Spec.paying_inv, Spec.paying_guar,
    Spec.paying_rely, Spec.paying_next, true_and]
  refine ⟨by omega, fun r hr => ?_⟩
  rcases r with _ | e | revents
  · exact flushAndReturn_costs _ (by omega)
  · dsimp only
    split
    · rename_i he
      rw [worth_poll_failed he]
      exact ⟨trivial, show k + 8 ≤ _ by omega⟩
    · exact flushAndReturn_costs _ (by omega)
  · refine copyloopReady_costs fd1 fd2 (by omega) ?_
    obtain ⟨i, hi, hreports⟩ := hr
    have hi : i < 2 := hi
    interval_cases i
    · exact .inl hreports
    · exact .inr hreports

end Tcp

end TwoSocks
