/-
Which operations each part of the server asks for.

A proof about one thing, the authentication or the events or the counters, has little
to say about most of the code: it only needs to know that the code does not touch that
thing.  `wlp_of_uses` turns what is said here into a precondition.

The handshake keeps to `Op.handshake` and a request to `Op.serving`.  Within a request,
what is about reaching the other side keeps to `Op.setup`, what only looks a name or an
address up to `Op.lookup`, and the TCP relay to `Op.relaying`.
-/
import TwoSocks.Server.Rules

namespace TwoSocks

open Server Prog

/-- What a thread asks for between receiving a message of the handshake and the next. -/
def Op.handshake : Op → Prop
  | .write _ _ | .realloc _ | .abort => True
  | .rdlock | .wrlock | .unlock | .loadAuthIps | .storeAuthIps _ => True
  | .loadState | .storeState _ => True
  | _ => False

/-- What looking at and adding to the authenticated addresses asks for. -/
def Op.consulting : Op → Prop
  | .rdlock | .wrlock | .unlock | .loadAuthIps | .storeAuthIps _ | .realloc _ => True
  | _ => False

theorem Op.consulting.handshake : ∀ o : Op, o.consulting → o.handshake := by
  intro o h
  cases o <;> trivial

/-- What serving a request asks for: anything but the state of the connection, the list
of authenticated addresses and the end of the thread. -/
def Op.serving : Op → Prop
  | .rdlock | .wrlock | .unlock | .loadAuthIps | .storeAuthIps _ => False
  | .loadState | .storeState _ | .storeDone => False
  | _ => True

/-- What looking a name up, opening and connecting a socket ask for. -/
def Op.opening : Op → Prop
  | .getaddrinfo _ _ _ | .getaddrinfoPassive _ | .socket _ _ | .connect _ _ | .bind _ _ => True
  | .close _ | .getsockname _ => True
  | _ => False

/-- The same, and answering. -/
def Op.setup : Op → Prop
  | .write _ _ => True
  | o => o.opening

/-- What opening the socket of an association asks for. -/
def Op.binding : Op → Prop
  | .socket _ type => type = .dgram
  | o => o.opening

/-- What running an association asks for: what serving does, but no stream socket. -/
def Op.associating : Op → Prop
  | .socket _ type => type = .dgram
  | o => o.serving

/-- What setting up a connection asks for: it is reported as well. -/
def Op.connecting : Op → Prop
  | .nextConnectionIdentifier | .handler _ => True
  | o => o.setup

/-- What looking a name or a socket's own address up asks for. -/
def Op.lookup : Op → Prop
  | .getaddrinfo _ _ _ | .getsockname _ => True
  | _ => False

/-- What opening or closing a destination asks for: it is reported as well. -/
def Op.reaching : Op → Prop
  | .socket _ type => type = .dgram
  | .getaddrinfo _ _ _ | .connect _ _ | .close _ | .realloc _ => True
  | .nextConnectionIdentifier | .handler _ => True
  | _ => False

/-- What `copyloop` asks for. -/
def Op.relaying : Op → Prop
  | .poll _ _ | .read _ _ | .write _ _ => True
  | .fetchAdd _ _ | .loadPending _ | .storePending _ _ => True
  | _ => False

/-- What counting bytes asks for. -/
def Op.counting : Op → Prop
  | .fetchAdd _ _ | .loadPending _ | .storePending _ _ => True
  | _ => False

/-- What passing on asks for, once there are bytes. -/
def Op.passingOn : Op → Prop
  | .write _ _ => True
  | o => o.counting

theorem Op.counting.passingOn : ∀ o : Op, o.counting → o.passingOn := by
  intro o h
  cases o <;> trivial

theorem Op.counting.relaying : ∀ o : Op, o.counting → o.relaying := by
  intro o h
  cases o <;> trivial

theorem Op.relaying.serving : ∀ o : Op, o.relaying → o.serving := by
  intro o h
  cases o <;> trivial

theorem Op.opening.setup : ∀ o : Op, o.opening → o.setup := by
  intro o h
  cases o <;> trivial

theorem Op.binding.opening : ∀ o : Op, o.binding → o.opening := by
  intro o h
  cases o <;> trivial

theorem Op.lookup.binding : ∀ o : Op, o.lookup → o.binding := by
  intro o h
  cases o <;> trivial

theorem Op.lookup.associating : ∀ o : Op, o.lookup → o.associating := by
  intro o h
  cases o <;> trivial

theorem Op.reaching.associating : ∀ o : Op, o.reaching → o.associating := by
  intro o h
  cases o <;> trivial

theorem Op.associating.serving : ∀ o : Op, o.associating → o.serving := by
  intro o h
  cases o <;> trivial

theorem Op.lookup.setup : ∀ o : Op, o.lookup → o.setup := by
  intro o h
  cases o <;> trivial

theorem Op.setup.connecting : ∀ o : Op, o.setup → o.connecting := by
  intro o h
  cases o <;> trivial

theorem Op.connecting.serving : ∀ o : Op, o.connecting → o.serving := by
  intro o h
  cases o <;> trivial

theorem Op.setup.serving : ∀ o : Op, o.setup → o.serving := by
  intro o h
  cases o <;> trivial

/-- One operation. -/
theorem uses_perform {A : Op → Prop} {o : Op} (h : A o) :
    Uses A (Prog.perform (S := sys) o) := ⟨h, fun _ => trivial⟩

theorem uses_recordBytes {A : Op → Prop} (h : ∀ d n, A (.fetchAdd d n)) (d : Direction)
    (n : Nat) : Uses A (recordBytes d n) := by
  unfold recordBytes
  split
  · trivial
  · exact uses_perform (h d n)

theorem uses_sblistAdd {A : Op → Prop} (h : ∀ n, A (.realloc n)) {α : Type} (l : Sblist α)
    (item : α) : Uses A (sblistAdd l item) := by
  refine .bind ?_ fun r => ?_
  · unfold sblistGrowIfNeeded
    split
    · refine .bind (uses_perform (h _)) fun r => ?_
      cases r <;> trivial
    · trivial
  · cases r <;> trivial

theorem uses_forEach {A : Op → Prop} {α : Type} {f : α → Server Unit} (h : ∀ a, Uses A (f a))
    (l : List α) : Uses A (forEach f l) := by
  induction l with
  | nil => trivial
  | cons a l ih => exact .bind (h a) fun _ => ih

/-! ### The handshake -/

theorem lookupAuthIp_uses (caddr : SockaddrUnion) : Uses Op.consulting (lookupAuthIp caddr) := by
  refine .atomically (.bind (uses_perform trivial) fun r => ?_)
  cases r with
  | false => trivial
  | true =>
      exact .bind (uses_perform trivial) fun _ => .bind (uses_perform trivial) fun _ => trivial

theorem rememberAuthIp_uses (caddr : SockaddrUnion) :
    Uses Op.consulting (rememberAuthIp caddr) := by
  refine .atomically (.bind (uses_perform trivial) fun r => ?_)
  cases r with
  | false => trivial
  | true =>
      refine .bind (uses_perform trivial) fun authIps => ?_
      split
      · refine .bind (.bind (uses_sblistAdd (fun _ => trivial) _ _) fun r => ?_)
          fun _ => uses_perform trivial
        cases r with
        | none => trivial
        | some l => exact uses_perform trivial
      · exact uses_perform trivial

theorem considerAuthMethod_uses (cfg : Config) (method : UInt8) (client : Client) :
    Uses Op.consulting (considerAuthMethod cfg method client) := by
  unfold considerAuthMethod
  split
  · split
    · trivial
    · split
      · refine .bind (lookupAuthIp_uses _) fun r => ?_
        cases r <;> trivial
      · trivial
  · split
    · split <;> trivial
    · trivial

theorem checkAuthMethods_uses (cfg : Config) (buf : Bytes) (n : Nat) (client : Client)
    (nMethods : Nat) :
    ∀ idx, Uses Op.consulting (checkAuthMethods cfg buf n client idx nMethods) := by
  induction nMethods with
  | zero => intro idx; trivial
  | succ nMethods ih =>
      intro idx
      unfold checkAuthMethods
      split
      · refine .bind (considerAuthMethod_uses _ _ _) fun r => ?_
        cases r with
        | none => exact ih _
        | some am => trivial
      · trivial

theorem checkAuthMethod_uses (cfg : Config) (buf : Bytes) (n : Nat) (client : Client) :
    Uses Op.consulting (checkAuthMethod cfg buf n client) := by
  unfold checkAuthMethod
  split
  · trivial
  · split
    · trivial
    · exact checkAuthMethods_uses _ _ _ _ _ _

section Handshake

variable {A : Op → Prop} {client : Client} (hconsult : ∀ o : Op, o.consulting → A o)
  (hstate : ∀ s, A (.storeState s)) (hwrite : ∀ buf, A (.write client.fd buf))

include hconsult hstate hwrite

theorem selectMethod_uses (cfg : Config) (buf : Bytes) : Uses A (selectMethod cfg client buf) := by
  unfold selectMethod
  refine .bind ((checkAuthMethod_uses _ _ _ _).mono hconsult) fun am => ?_
  have hrest : Uses A (do
      sendAuthResponse client.fd 5 am.code
      if am = .invalid then return .inr () else return .inl () : Server (Unit ⊕ Unit)) := by
    refine .bind (.bind (uses_perform (hwrite _)) fun _ => trivial) fun _ => ?_
    split <;> trivial
  dsimp only
  split
  · exact .bind (uses_perform (hstate _)) fun _ => hrest
  · split
    · exact .bind (uses_perform (hstate _)) fun _ => hrest
    · exact hrest

theorem authenticate_uses (habort : A .abort) (cfg : Config) (buf : Bytes) :
    Uses A (authenticate cfg client buf) := by
  unfold authenticate
  split
  · exact ⟨habort, nofun⟩
  · refine .bind (.bind (uses_perform (hwrite _)) fun _ => trivial) fun _ => ?_
    split
    · trivial
    · refine .bind (uses_perform (hstate _)) fun _ => ?_
      dsimp only
      split
      · exact .bind ((rememberAuthIp_uses _).mono hconsult) fun _ => trivial
      · trivial

end Handshake

theorem selectMethod_handshake (cfg : Config) (client : Client) (buf : Bytes) :
    Uses Op.handshake (selectMethod cfg client buf) :=
  selectMethod_uses Op.consulting.handshake (fun _ => trivial) (fun _ => trivial) cfg buf

theorem authenticate_handshake (cfg : Config) (client : Client) (buf : Bytes) :
    Uses Op.handshake (authenticate cfg client buf) :=
  authenticate_uses Op.consulting.handshake (fun _ => trivial) (fun _ => trivial) trivial cfg buf

/-! ### The TCP relay -/

theorem flushPendingTransferTotals_uses : Uses Op.counting flushPendingTransferTotals := by
  have hflush : ∀ d, Uses Op.counting (flushPending d) := by
    intro d
    unfold flushPending
    refine .bind (uses_perform trivial) fun _ => ?_
    split
    · exact .bind (uses_recordBytes (fun _ _ => trivial) _ _) fun _ => uses_perform trivial
    · trivial
  exact .atomically (.bind (hflush _) fun _ => hflush _)

theorem accountPending_uses (d : Direction) (n : Nat) : Uses Op.counting (accountPending d n) := by
  unfold accountPending
  refine .bind (uses_perform trivial) fun _ => .bind (uses_perform trivial) fun _ =>
    .bind (uses_perform trivial) fun _ => ?_
  split
  · exact .bind (uses_recordBytes (fun _ _ => trivial) _ _) fun _ => uses_perform trivial
  · trivial

section Relaying

variable {A : Op → Prop} (hcounting : ∀ o : Op, o.counting → A o)

theorem writeAll_uses {outfd : Fd} (hwrite : ∀ buf, A (.write outfd buf)) (buf : Bytes) :
    Uses A (writeAll outfd buf) := by
  refine .iterate fun sent => ?_
  unfold writeRest
  split
  · refine .bind (uses_perform (hwrite _)) fun r => ?_
    cases r <;> trivial
  · trivial

include hcounting

/-- What `relay_data` does with the bytes it has read. -/
theorem relayRead_uses {outfd : Fd} (hwrite : ∀ buf, A (.write outfd buf)) (buf : Bytes)
    (countsAsUpload : Bool) :
    Uses A (if buf = [] then (return .closed : Server ConnectionState)
      else do
        if ← writeAll outfd buf then
          if countsAsUpload then accountPending .uploaded buf.length
          else accountPending .downloaded buf.length
          return .opened
        else return .error) := by
  have haccount : ∀ d n, Uses A (accountPending d n) :=
    fun d n => (accountPending_uses d n).mono hcounting
  split
  · trivial
  · refine .bind (writeAll_uses hwrite _) fun sent => ?_
    cases sent with
    | false => trivial
    | true =>
        cases countsAsUpload with
        | false => exact .bind (haccount _ _) fun _ => trivial
        | true => exact .bind (haccount _ _) fun _ => trivial

theorem relayData_uses {infd outfd : Fd} (hread : ∀ n, A (.read infd n))
    (hwrite : ∀ buf, A (.write outfd buf)) (bufSize : Nat) (countsAsUpload : Bool) :
    Uses A (relayData infd outfd bufSize countsAsUpload) := by
  refine .atomically (.bind (uses_perform (hread _)) fun r => ?_)
  rcases r with e | buf
  · trivial
  · exact relayRead_uses hcounting hwrite buf countsAsUpload

omit hcounting in
theorem flushAndReturn_uses (state : ConnectionState) :
    Uses Op.counting (flushAndReturn state) :=
  .bind flushPendingTransferTotals_uses fun _ => trivial

theorem copyloopReady_uses {fd1 fd2 : Fd} (hread : ∀ fd ∈ [fd1, fd2], ∀ n, A (.read fd n))
    (hwrite : ∀ fd ∈ [fd1, fd2], ∀ buf, A (.write fd buf)) (revents1 revents2 : UInt16) :
    Uses A (copyloopReady fd1 fd2 revents1 revents2) := by
  have hflush : ∀ state, Uses A (flushAndReturn state) :=
    fun state => (flushAndReturn_uses state).mono hcounting
  have hrelay : ∀ revents, ∀ infd ∈ [fd1, fd2], ∀ outfd ∈ [fd1, fd2], ∀ up,
      Uses A (relayIfReadable revents infd outfd up) := by
    intro revents infd hin outfd hout up
    unfold relayIfReadable
    split
    · exact relayData_uses hcounting (hread infd hin) (hwrite outfd hout) _ _
    · trivial
  unfold copyloopReady
  split
  · exact hflush _
  · refine .bind (hrelay _ _ (by simp) _ (by simp) _) fun result => ?_
    split
    · exact hflush _
    · refine .bind (hrelay _ _ (by simp) _ (by simp) _) fun result => ?_
      split
      · exact hflush _
      · dsimp only
        split
        · exact hflush _
        · trivial

theorem copyloop_uses {fd1 fd2 : Fd}
    (hpoll : A (.poll [(fd1, POLLIN), (fd2, POLLIN)] IDLE_TIMEOUT))
    (hread : ∀ fd ∈ [fd1, fd2], ∀ n, A (.read fd n))
    (hwrite : ∀ fd ∈ [fd1, fd2], ∀ buf, A (.write fd buf)) : Uses A (copyloop fd1 fd2) := by
  have hstore : ∀ d n, A (.storePending d n) := fun d n => hcounting _ trivial
  refine .bind (uses_perform (hstore _ _)) fun _ => .bind (uses_perform (hstore _ _)) fun _ =>
    .iterate fun _ => .bind (uses_perform hpoll) fun r => ?_
  rcases r with _ | e | revents
  · exact (flushAndReturn_uses _).mono hcounting
  · dsimp only
    split
    · trivial
    · exact (flushAndReturn_uses _).mono hcounting
  · exact copyloopReady_uses hcounting hread hwrite _ _

end Relaying

theorem copyloop_relaying (fd1 fd2 : Fd) : Uses Op.relaying (copyloop fd1 fd2) :=
  copyloop_uses Op.counting.relaying trivial (fun _ _ _ => trivial) (fun _ _ _ => trivial)

/-- `copyloop` does not say that the connection is open. -/
theorem copyloop_returns (fd1 fd2 : Fd) : Returns (· ≠ .opened) (copyloop fd1 fd2) := by
  have hflush : ∀ {state : ConnectionState}, state ≠ .opened →
      Returns (Sum.elim (fun _ => True) (· ≠ .opened)) (flushAndReturn state) :=
    fun h => .bind (.any _) fun _ _ => h
  refine .bind (.any _) fun _ _ => .bind (.any _) fun _ _ => .iterate fun _ =>
    .bind (.any _) fun r _ => ?_
  rcases r with _ | e | revents
  · exact hflush (by decide)
  · dsimp only
    split
    · trivial
    · exact hflush (by decide)
  · show Returns _ (copyloopReady _ _ _ _)
    unfold copyloopReady
    split
    · exact hflush (by decide)
    refine .bind (.any _) fun result _ => ?_
    split
    · rename_i h
      exact hflush h
    refine .bind (.any _) fun result _ => ?_
    split
    · rename_i h
      exact hflush h
    dsimp only
    split
    · exact hflush (by decide)
    · trivial

/-! ### The UDP relay -/

theorem closeUdpDestination_reaching (s : UdpLoop) (idx : Nat) (state : ConnectionState)
    (ec : Errorcode) : Uses Op.reaching (closeUdpDestination s idx state ec) :=
  .bind (uses_perform trivial) fun _ => .bind (uses_perform trivial) fun _ => trivial

theorem closeUdpDestination_uses (s : UdpLoop) (idx : Nat) (state : ConnectionState)
    (ec : Errorcode) : Uses Op.associating (closeUdpDestination s idx state ec) :=
  (closeUdpDestination_reaching s idx state ec).mono Op.reaching.associating

theorem udpPoll_uses (s : UdpLoop) : Uses Op.associating (udpPoll s) := by
  refine .bind (uses_perform trivial) fun r => ?_
  rcases r with _ | e | revents
  · trivial
  · dsimp only
    split <;> trivial
  · dsimp only
    split
    · trivial
    · split
      · trivial
      · split
        · refine .bind (uses_perform trivial) fun r => ?_
          rcases r with e | buf
          · dsimp only
            split
            · trivial
            · exact .bind (uses_perform trivial) fun _ => trivial
          · dsimp only
            split <;> trivial
        · trivial

theorem resolveSocks5Addrport_uses (addrport : Socks5Addrport) (stype : Socks5SocketType) :
    Uses Op.lookup (resolveSocks5Addrport addrport stype) := by
  refine .bind (uses_perform trivial) fun r => ?_
  cases r <;> trivial

theorem failUdpDestination_reaching (addrport : Socks5Addrport) (ec : Errorcode) :
    Uses Op.reaching (failUdpDestination addrport ec) :=
  .bind (uses_perform trivial) fun _ => uses_perform trivial

theorem openUdpDestination_reaching (s : UdpLoop) (addrport : Socks5Addrport) :
    Uses Op.reaching (openUdpDestination s addrport) := by
  have hresolve : Uses Op.reaching (resolveSocks5Addrport addrport .udpSocket) := by
    refine .bind (uses_perform trivial) fun r => ?_
    cases r <;> trivial
  refine .bind hresolve fun r => ?_
  rcases r with ec | targetAddr
  · exact .bind (failUdpDestination_reaching _ _) fun _ => trivial
  refine .bind (uses_perform rfl) fun r => ?_
  rcases r with e | fd
  · exact .bind (failUdpDestination_reaching _ _) fun _ => trivial
  refine .bind (uses_perform trivial) fun r => ?_
  rcases r with e | ⟨⟩
  · exact .bind (uses_perform trivial) fun _ =>
      .bind (failUdpDestination_reaching _ _) fun _ => trivial
  refine .bind (uses_perform trivial) fun connectionId => ?_
  split
  · exact .bind (uses_perform trivial) fun _ => .bind (uses_perform trivial) fun _ => trivial
  · refine .bind (uses_sblistAdd (fun _ => trivial) _ _) fun r => ?_
    cases r with
    | none =>
        exact .bind (uses_perform trivial) fun _ => .bind (uses_perform trivial) fun _ => trivial
    | some sockList => exact .bind (uses_perform trivial) fun _ => trivial

theorem openUdpDestination_uses (s : UdpLoop) (addrport : Socks5Addrport) :
    Uses Op.associating (openUdpDestination s addrport) :=
  (openUdpDestination_reaching s addrport).mono Op.reaching.associating

theorem sblistAdd_returns {α : Type} (l : Sblist α) (item : α) : Returns
    (fun r => ∀ l', r = some l' → l'.items = l.items ++ [item]) (sblistAdd l item) := by
  unfold sblistAdd sblistGrowIfNeeded
  simp only [bind_eq, pure_eq]
  split
  · intro r
    cases r with
    | false => exact nofun
    | true =>
        rintro _ ⟨⟩
        rfl
  · rintro _ ⟨⟩
    rfl

/-- A destination that was opened is there. -/
theorem openUdpDestination_returns (s : UdpLoop) (addrport : Socks5Addrport) :
    Returns (fun r => ∀ fd idx, r.2 = some (fd, idx) → ∃ h : idx < r.1.sockList.items.length,
      r.1.sockList.items[idx].fd = fd) (openUdpDestination s addrport) := by
  have hnone : ∀ p : Server Unit, Returns (fun r : UdpLoop × Option (Fd × Nat) =>
      ∀ fd idx, r.2 = some (fd, idx) → ∃ h : idx < r.1.sockList.items.length,
        r.1.sockList.items[idx].fd = fd) (do p; return (s, none)) :=
    fun p => .bind (.any p) fun _ _ => nofun
  refine .bind (.any _) fun r _ => ?_
  rcases r with ec | targetAddr
  · exact hnone _
  refine .bind (.any _) fun r _ => ?_
  rcases r with e | fd
  · exact hnone _
  refine .bind (.any _) fun r _ => ?_
  rcases r with e | ⟨⟩
  · exact .bind (.any _) fun _ _ => hnone _
  refine .bind (.any _) fun id _ => ?_
  dsimp only
  split
  · exact .bind (.any _) fun _ _ => hnone _
  · refine .bind (sblistAdd_returns _ _) fun r hr => ?_
    rcases r with _ | sockList
    · exact .bind (.any _) fun _ _ => hnone _
    · have hitems := hr sockList rfl
      refine .bind (.any _) fun _ _ => ?_
      rintro _ _ ⟨⟩
      show ∃ h : sockList.items.length - 1 < sockList.items.length, _
      exact ⟨by simp [hitems], by simp [UdpLoop.track, hitems, Sblist.getsize]⟩

theorem sendRecorded_uses {A : Op → Prop} {fd : Fd} (hs : ∀ buf, A (.send fd buf))
    (hf : ∀ d n, A (.fetchAdd d n)) (payload : Bytes) : Uses A (sendRecorded fd payload) := by
  refine .atomically (.bind (uses_perform (hs _)) fun r => ?_)
  rcases r with e | n
  · trivial
  · exact .bind (uses_recordBytes hf _ _) fun _ => trivial

theorem writeRecorded_uses {A : Op → Prop} {udpFd : Fd} (hw : ∀ buf, A (.write udpFd buf))
    (hf : ∀ d n, A (.fetchAdd d n)) (header payload : Bytes) :
    Uses A (writeRecorded udpFd header payload) := by
  refine .atomically (.bind (uses_perform (hw _)) fun r => ?_)
  rcases r with e | n
  · trivial
  · exact .bind (uses_recordBytes hf _ _) fun _ => trivial

theorem sendUdpPayload_uses (s : UdpLoop) (fd : Fd) (idx : Nat) (payload : Bytes) :
    Uses Op.associating (sendUdpPayload s fd idx payload) := by
  refine .bind (sendRecorded_uses (fun _ => trivial) (fun _ _ => trivial) _) fun r => ?_
  rcases r with e | n
  · exact .bind (closeUdpDestination_uses _ _ _ _) fun _ => trivial
  · trivial

theorem forwardUdpPayload_uses (s : UdpLoop) (addrport : Socks5Addrport) (payload : Bytes) :
    Uses Op.associating (forwardUdpPayload s addrport payload) := by
  unfold forwardUdpPayload
  split
  · exact sendUdpPayload_uses _ _ _ _
  · refine .bind (openUdpDestination_uses _ _) fun r => ?_
    rcases r with ⟨s', _ | ⟨fd, idx⟩⟩
    · trivial
    · exact sendUdpPayload_uses _ _ _ _

theorem deliverUdpDatagram_uses (inet : Inet) (s : UdpLoop) (buf : Bytes) :
    Uses Op.associating (deliverUdpDatagram inet s buf) := by
  unfold deliverUdpDatagram
  split
  · trivial
  · exact forwardUdpPayload_uses _ _ _

theorem udpClientDatagram_uses (inet : Inet) (udpFd : Fd) (s : UdpLoop) :
    Uses Op.associating (udpClientDatagram inet udpFd s) := by
  unfold udpClientDatagram
  split
  · refine .bind (uses_perform trivial) fun r => ?_
    rcases r with e | buf
    · trivial
    · exact deliverUdpDatagram_uses _ _ _
  · refine .bind (uses_perform trivial) fun r => ?_
    rcases r with e | ⟨buf, clientAddr⟩
    · trivial
    · refine .bind (.bind (uses_perform trivial) fun r => ?_) fun flow => ?_
      · rcases r <;> trivial
      · cases flow with
        | next s => exact deliverUdpDatagram_uses _ _ _
        | again s => trivial
        | leave e => trivial

theorem udpReply_uses (inet : Inet) (udpFd : Fd) (s : UdpLoop) (i idx : Nat) :
    Uses Op.associating (udpReply inet udpFd s i idx) := by
  unfold udpReply
  split
  · exact ⟨trivial, nofun⟩
  · exact .bind (closeUdpDestination_uses _ _ _ _) fun _ => trivial
  · refine .bind (uses_perform trivial) fun r => ?_
    rcases r with e | payload
    · exact .bind (closeUdpDestination_uses _ _ _ _) fun _ => trivial
    · refine .bind (writeRecorded_uses (fun _ => trivial) (fun _ _ => trivial) _ _) fun r => ?_
      rcases r <;> trivial

theorem udpReplies_uses (inet : Inet) (udpFd : Fd) (s : UdpLoop) :
    Uses Op.associating (udpReplies inet udpFd s) := by
  refine .iterate fun ⟨s, i⟩ => ?_
  simp only [udpRepliesBody]
  split
  · split
    · trivial
    · split
      · exact .bind (closeUdpDestination_uses _ _ _ _) fun _ => trivial
      · split
        · trivial
        · exact udpReply_uses _ _ _ _ _
  · trivial

theorem udpClient_uses (inet : Inet) (udpFd : Fd) (s : UdpLoop) :
    Uses Op.associating (udpClient inet udpFd s) := by
  unfold udpClient
  split
  · exact udpClientDatagram_uses _ _ _
  · trivial

theorem andThen_uses {A : Op → Prop} {f : UdpLoop → Server Flow} (h : ∀ s, Uses A (f s))
    (flow : Flow) : Uses A (flow.andThen f) := by
  cases flow with
  | next s => exact h s
  | again s => trivial
  | leave e => trivial

theorem copyLoopUdp_uses (inet : Inet) (tcpFd udpFd : Fd) :
    Uses Op.associating (copyLoopUdp inet tcpFd udpFd) := by
  refine .bind (.bind (uses_perform trivial) fun r => ?_) fun bound =>
    .bind (uses_perform trivial) fun buf => .bind (uses_perform trivial) fun sockList => ?_
  · rcases r with e | addr
    · dsimp only
      split
      · trivial
      · exact ⟨trivial, nofun⟩
    · trivial
  · split
    · refine .bind (.iterate fun s => ?_) fun e => .bind (uses_forEach (fun _ => ?_) _) fun _ =>
        uses_forEach (fun _ => uses_perform trivial) _
      · refine .bind (.bind (udpPoll_uses s) fun flow => andThen_uses (udpClient_uses _ _) flow)
          fun flow => .bind (andThen_uses (udpReplies_uses _ _) flow) fun flow => ?_
        cases flow <;> trivial
      · exact uses_perform trivial
    · trivial

/-! ### A request -/

theorem connectSocksTarget_uses (remoteAddr : SockaddrUnion) :
    Uses Op.opening (connectSocksTarget remoteAddr) := by
  refine .bind (uses_perform trivial) fun r => ?_
  rcases r with e | fd
  · trivial
  · refine .bind (uses_perform trivial) fun r => ?_
    rcases r with e | ⟨⟩
    · exact .bind (uses_perform trivial) fun _ => trivial
    · trivial

/-- A connection that fails has a code that says so. -/
theorem connectSocksTarget_returns (remoteAddr : SockaddrUnion) :
    Returns (fun r => ∀ ec, r = .error ec → ec ≠ .success) (connectSocksTarget remoteAddr) := by
  have herror : ∀ e ec, (.error (socketErrorCodeFromErrno e) : Except Errorcode Fd) = .error ec →
      ec ≠ .success := by
    rintro e _ ⟨⟩
    exact socketErrorCodeFromErrno_ne_success e
  refine .bind (.any _) fun r _ => ?_
  rcases r with e | fd
  · exact herror e
  · refine .bind (.any _) fun r _ => ?_
    rcases r with e | ⟨⟩
    · exact .bind (.any _) fun _ _ => herror e
    · exact nofun

section Answering

variable {A : Op → Prop} {client : Client}

theorem sendError_uses {fd : Fd} (hwrite : ∀ buf, A (.write fd buf)) (ec : Errorcode) :
    Uses A (sendError fd ec) := .bind (uses_perform (hwrite _)) fun _ => trivial

/-- A connection is opened and answered to the client, and reported if it fails. -/
theorem setupConnect_uses (hopening : ∀ o : Op, o.opening → A o)
    (hidentifier : A .nextConnectionIdentifier) (hreport : ∀ e, e.state = .error → A (.handler e))
    (hwrite : ∀ buf, A (.write client.fd buf)) (address : SockaddrUnion)
    (requestedAddr : Socks5Addrport) : Uses A (setupConnect client address requestedAddr) := by
  have hclose : ∀ {ec : Errorcode} {connectionId : Int} {remotefd : Fd}, Uses A (do
      emitAddrportConnectionEvent connectionId .tcp .error requestedAddr ec
      close remotefd
      return Relay.none) := fun {_ _ _} =>
    .bind (uses_perform (hreport _ rfl)) fun _ =>
      .bind (uses_perform (hopening _ trivial)) fun _ => trivial
  refine .bind (uses_perform hidentifier) fun connectionId =>
    .bind ((connectSocksTarget_uses _).mono hopening) fun r => ?_
  rcases r with ec | remotefd
  · exact .bind (uses_perform (hreport _ rfl)) fun _ =>
      .bind (sendError_uses hwrite _) fun _ => trivial
  refine .bind (uses_perform (hopening _ trivial)) fun r => ?_
  rcases r with e | localAddr
  · exact hclose
  refine .bind (uses_perform (hwrite _)) fun r => ?_
  rcases r with e | n
  · exact hclose
  · trivial

/-- A connection is not an association. -/
theorem setupConnect_returns (client : Client) (address : SockaddrUnion)
    (requestedAddr : Socks5Addrport) :
    Returns (fun relay => ∀ fd, relay ≠ .udp fd) (setupConnect client address requestedAddr) := by
  refine .bind (.any _) fun connectionId _ => .bind (.any _) fun r _ => ?_
  rcases r with ec | remotefd
  · exact .bind (.any _) fun _ _ => .bind (.any _) fun _ _ => nofun
  refine .bind (.any _) fun r _ => ?_
  rcases r with e | localAddr
  · exact .bind (.any _) fun _ _ => .bind (.any _) fun _ _ => nofun
  refine .bind (.any _) fun r _ => ?_
  rcases r with e | n
  · exact .bind (.any _) fun _ _ => .bind (.any _) fun _ _ => nofun
  · exact nofun

theorem udpSvcSetup_uses (clientAddr : SockaddrUnion) :
    Uses Op.binding (udpSvcSetup clientAddr) := by
  refine .bind (uses_perform rfl) fun r => ?_
  rcases r with e | fd
  · trivial
  dsimp only
  split
  · refine .bind (uses_perform trivial) fun r => ?_
    rcases r with e | ⟨⟩
    · exact .bind (uses_perform trivial) fun _ => trivial
    · trivial
  · refine .bind (uses_perform trivial) fun r => ?_
    rcases r with _ | addr
    · exact .bind (uses_perform trivial) fun _ => trivial
    · refine .bind (uses_perform trivial) fun r => ?_
      rcases r with e | ⟨⟩
      · exact .bind (uses_perform trivial) fun _ => trivial
      · trivial

theorem populateUdpResponseAddr_uses (udpFd tcpFd : Fd) :
    Uses Op.lookup (populateUdpResponseAddr udpFd tcpFd) := by
  refine .bind (uses_perform trivial) fun r => ?_
  rcases r with e | responseAddr
  · trivial
  dsimp only
  split
  · trivial
  · refine .bind (uses_perform trivial) fun r => ?_
    rcases r <;> trivial

/-- An association is opened with a datagram socket and answered to the client. -/
theorem setupUdpAssociate_uses (hbinding : ∀ o : Op, o.binding → A o)
    (hwrite : ∀ buf, A (.write client.fd buf)) (address : SockaddrUnion) :
    Uses A (setupUdpAssociate client address) := by
  refine .bind ((udpSvcSetup_uses _).mono hbinding) fun r => ?_
  rcases r with ec | _ | fd
  · exact .bind (sendError_uses hwrite _) fun _ => trivial
  · exact .bind (sendError_uses hwrite _) fun _ => trivial
  refine .bind ((populateUdpResponseAddr_uses _ _).mono fun o ho =>
    hbinding o (Op.lookup.binding o ho)) fun r => ?_
  rcases r with _ | localAddr
  · exact .bind (uses_perform (hbinding _ trivial)) fun _ => trivial
  refine .bind (uses_perform (hwrite _)) fun r => ?_
  rcases r with e | n
  · exact .bind (uses_perform (hbinding _ trivial)) fun _ => trivial
  · trivial

end Answering

/-- Setting an association up reports nothing. -/
theorem setupUdpAssociate_setup (client : Client) (address : SockaddrUnion) :
    Uses Op.setup (setupUdpAssociate client address) :=
  setupUdpAssociate_uses (fun o ho => Op.opening.setup o (Op.binding.opening o ho))
    (fun _ => trivial) address

/-- Setting a connection up takes nothing from the client. -/
theorem setupConnect_connecting (client : Client) (address : SockaddrUnion)
    (requestedAddr : Socks5Addrport) :
    Uses Op.connecting (setupConnect client address requestedAddr) :=
  setupConnect_uses (fun o ho => Op.setup.connecting o (Op.opening.setup o ho)) trivial
    (fun _ _ => trivial) (fun _ => trivial) address requestedAddr

/-- An association has no connection of its own to report. -/
theorem setupUdpAssociate_returns (client : Client) (address : SockaddrUnion) :
    Returns (fun relay => ∀ fd id addrport, relay ≠ .tcp fd id addrport)
      (setupUdpAssociate client address) := by
  refine .bind (.any _) fun r _ => ?_
  rcases r with ec | _ | fd
  · exact .bind (.any _) fun _ _ => nofun
  · exact .bind (.any _) fun _ _ => nofun
  refine .bind (.any _) fun r _ => ?_
  rcases r with _ | localAddr
  · exact .bind (.any _) fun _ _ => nofun
  refine .bind (.any _) fun r _ => ?_
  rcases r with e | n
  · exact .bind (.any _) fun _ _ => nofun
  · exact nofun

theorem parseSocksRequestHeader_uses (inet : Inet) (buf : Bytes) (n : Nat) :
    Uses Op.lookup (parseSocksRequestHeader inet buf n) := by
  unfold parseSocksRequestHeader
  split
  · trivial
  · refine .bind (resolveSocks5Addrport_uses _ _) fun r => ?_
    cases r <;> trivial

theorem setupRequest_uses (inet : Inet) (client : Client) (buf : Bytes) :
    Uses Op.serving (setupRequest inet client buf) := by
  refine .bind (((parseSocksRequestHeader_uses _ _ _).mono Op.lookup.setup).mono
    Op.setup.serving) fun r => ?_
  rcases r with ec | ⟨_ | _, address, requestedAddr⟩
  · trivial
  · exact (setupConnect_connecting _ _ _).mono Op.connecting.serving
  · exact (setupUdpAssociate_setup _ _).mono Op.setup.serving

theorem runRelay_uses (inet : Inet) (client : Client) (relay : Relay) :
    Uses Op.serving (runRelay inet client relay) := by
  cases relay with
  | none => trivial
  | tcp remotefd connectionId requestedAddr =>
      exact .bind (uses_perform trivial) fun _ =>
        .bind ((copyloop_relaying _ _).mono Op.relaying.serving) fun _ =>
          .bind (uses_perform trivial) fun _ => uses_perform trivial
  | udp fd =>
      exact .bind ((copyLoopUdp_uses _ _ _).mono Op.associating.serving) fun _ =>
        uses_perform trivial

theorem serveRequest_uses (inet : Inet) (client : Client) (buf : Bytes) :
    Uses Op.serving (serveRequest inet client buf) :=
  .bind (setupRequest_uses _ _ _) fun relay => runRelay_uses _ _ relay

end TwoSocks
