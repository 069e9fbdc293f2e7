/-
The sections under the lock, and that there are no others.

`underLock` is what all sections keep to.  They take the lock first, touch the list only while
they hold it and write to it only if they hold it for themselves, ask for nothing else but memory,
and end without it.  Everything else in the server leaves the lock and the list alone: that it
does not ask for them is in `Proofs/Operations.lean`, and that it runs no block under the
name of a section is said here, function by function.
-/
import TwoSocks.Program.Deferral
import TwoSocks.Server.Locking
import TwoSocks.Proofs.Operations

namespace TwoSocks

open Server Prog

/-! ### Everything but the sections -/

/-- The blocks of everything but the sections. -/
def Unsectioned : Block → Prop := (· = .accounted)

theorem opens_recordBytes (d : Direction) (n : Nat) : Opens Unsectioned (recordBytes d n) := by
  unfold recordBytes
  split
  · trivial
  · exact .perform _

theorem opens_sblistAdd {α : Type} (l : Sblist α) (item : α) :
    Opens Unsectioned (sblistAdd l item) := by
  refine .bind ?_ fun r => ?_
  · unfold sblistGrowIfNeeded
    split
    · refine .bind (.perform _) fun r => ?_
      cases r <;> trivial
    · trivial
  · cases r <;> trivial

theorem opens_forEach {α : Type} {f : α → Server Unit} (h : ∀ a, Opens Unsectioned (f a))
    (l : List α) : Opens Unsectioned (forEach f l) := by
  induction l with
  | nil => trivial
  | cons a l ih => exact .bind (h a) fun _ => ih

theorem accountPending_opens (d : Direction) (n : Nat) :
    Opens Unsectioned (accountPending d n) := by
  refine .bind (.perform _) fun _ => .bind (.perform _) fun _ => .bind (.perform _) fun _ => ?_
  split
  · exact .bind (opens_recordBytes _ _) fun _ => .perform _
  · trivial

theorem relayData_opens (infd outfd : Fd) (bufSize : Nat) (countsAsUpload : Bool) :
    Opens Unsectioned (relayData infd outfd bufSize countsAsUpload) := by
  refine .atomically rfl (.bind (.perform _) fun r => ?_)
  rcases r with e | buf
  · trivial
  dsimp only
  split
  · trivial
  refine .bind (.iterate fun sent => ?_) fun sent => ?_
  · unfold writeRest
    split
    · refine .bind (.perform _) fun r => ?_
      cases r <;> trivial
    · trivial
  · cases sent with
    | false => trivial
    | true => cases countsAsUpload <;> exact .bind (accountPending_opens _ _) fun _ => trivial

theorem flushAndReturn_opens (state : ConnectionState) :
    Opens Unsectioned (flushAndReturn state) := by
  have hflush : ∀ d, Opens Unsectioned (flushPending d) := by
    intro d
    refine .bind (.perform _) fun _ => ?_
    split
    · exact .bind (opens_recordBytes _ _) fun _ => .perform _
    · trivial
  exact .bind (.atomically rfl (.bind (hflush _) fun _ => hflush _)) fun _ => trivial

theorem relayIfReadable_opens (revents : UInt16) (infd outfd : Fd) (countsAsUpload : Bool) :
    Opens Unsectioned (relayIfReadable revents infd outfd countsAsUpload) := by
  unfold relayIfReadable
  split
  · exact relayData_opens _ _ _ _
  · trivial

theorem copyloop_opens (fd1 fd2 : Fd) : Opens Unsectioned (copyloop fd1 fd2) := by
  refine .bind (.perform _) fun _ => .bind (.perform _) fun _ => .iterate fun _ =>
    .bind (.perform _) fun r => ?_
  rcases r with _ | e | revents
  · exact flushAndReturn_opens _
  · dsimp only
    split
    · trivial
    · exact flushAndReturn_opens _
  · show Opens _ (copyloopReady _ _ _ _)
    unfold copyloopReady
    split
    · exact flushAndReturn_opens _
    refine .bind (relayIfReadable_opens _ _ _ _) fun result => ?_
    split
    · exact flushAndReturn_opens _
    refine .bind (relayIfReadable_opens _ _ _ _) fun result => ?_
    split
    · exact flushAndReturn_opens _
    dsimp only
    split
    · exact flushAndReturn_opens _
    · trivial

theorem closeUdpDestination_opens (s : UdpLoop) (idx : Nat) (state : ConnectionState)
    (ec : Errorcode) : Opens Unsectioned (closeUdpDestination s idx state ec) :=
  .bind (.perform _) fun _ => .bind (.perform _) fun _ => trivial

theorem udpPoll_opens (s : UdpLoop) : Opens Unsectioned (udpPoll s) := by
  refine .bind (.perform _) fun r => ?_
  rcases r with _ | e | revents
  · trivial
  · dsimp only
    split <;> trivial
  · dsimp only
    split
    · trivial
    split
    · trivial
    split
    · refine .bind (.perform _) fun r => ?_
      rcases r with e | buf
      · dsimp only
        split
        · trivial
        · exact .bind (.perform _) fun _ => trivial
      · dsimp only
        split <;> trivial
    · trivial

theorem failUdpDestination_opens (addrport : Socks5Addrport) (ec : Errorcode) :
    Opens Unsectioned (failUdpDestination addrport ec) :=
  .bind (.perform _) fun _ => .perform _

theorem resolveSocks5Addrport_opens (addrport : Socks5Addrport) (stype : Socks5SocketType) :
    Opens Unsectioned (resolveSocks5Addrport addrport stype) := by
  refine .bind (.perform _) fun r => ?_
  cases r <;> trivial

theorem openUdpDestination_opens (s : UdpLoop) (addrport : Socks5Addrport) :
    Opens Unsectioned (openUdpDestination s addrport) := by
  refine .bind (resolveSocks5Addrport_opens _ _) fun r => ?_
  rcases r with ec | targetAddr
  · exact .bind (failUdpDestination_opens _ _) fun _ => trivial
  refine .bind (.perform _) fun r => ?_
  rcases r with e | fd
  · exact .bind (failUdpDestination_opens _ _) fun _ => trivial
  refine .bind (.perform _) fun r => ?_
  rcases r with e | ⟨⟩
  · exact .bind (.perform _) fun _ => .bind (failUdpDestination_opens _ _) fun _ => trivial
  refine .bind (.perform _) fun connectionId => ?_
  split
  · exact .bind (.perform _) fun _ => .bind (.perform _) fun _ => trivial
  refine .bind (opens_sblistAdd _ _) fun r => ?_
  cases r with
  | none => exact .bind (.perform _) fun _ => .bind (.perform _) fun _ => trivial
  | some sockList => exact .bind (.perform _) fun _ => trivial

theorem sendUdpPayload_opens (s : UdpLoop) (fd : Fd) (idx : Nat) (payload : Bytes) :
    Opens Unsectioned (sendUdpPayload s fd idx payload) := by
  refine .bind (.atomically rfl (.bind (.perform _) fun r => ?_)) fun r => ?_
  · rcases r with e | n
    · trivial
    · exact .bind (opens_recordBytes _ _) fun _ => trivial
  · rcases r with e | n
    · exact .bind (closeUdpDestination_opens _ _ _ _) fun _ => trivial
    · trivial

theorem deliverUdpDatagram_opens (inet : Inet) (s : UdpLoop) (buf : Bytes) :
    Opens Unsectioned (deliverUdpDatagram inet s buf) := by
  unfold deliverUdpDatagram
  split
  · trivial
  unfold forwardUdpPayload
  split
  · exact sendUdpPayload_opens _ _ _ _
  refine .bind (openUdpDestination_opens _ _) fun r => ?_
  rcases r with ⟨s', _ | ⟨fd, idx⟩⟩
  · trivial
  · exact sendUdpPayload_opens _ _ _ _

theorem udpClient_opens (inet : Inet) (udpFd : Fd) (s : UdpLoop) :
    Opens Unsectioned (udpClient inet udpFd s) := by
  unfold udpClient
  split
  · unfold udpClientDatagram
    split
    · refine .bind (.perform _) fun r => ?_
      rcases r with e | buf
      · trivial
      · exact deliverUdpDatagram_opens _ _ _
    · refine .bind (.perform _) fun r => ?_
      rcases r with e | ⟨buf, clientAddr⟩
      · trivial
      refine .bind (.bind (.perform _) fun r => ?_) fun flow => ?_
      · rcases r <;> trivial
      · cases flow with
        | next s => exact deliverUdpDatagram_opens _ _ _
        | again s => trivial
        | leave e => trivial
  · trivial

theorem udpReply_opens (inet : Inet) (udpFd : Fd) (s : UdpLoop) (i idx : Nat) :
    Opens Unsectioned (udpReply inet udpFd s i idx) := by
  unfold udpReply
  split
  · exact nofun
  · exact .bind (closeUdpDestination_opens _ _ _ _) fun _ => trivial
  · refine .bind (.perform _) fun r => ?_
    rcases r with e | payload
    · exact .bind (closeUdpDestination_opens _ _ _ _) fun _ => trivial
    refine .bind (.atomically rfl (.bind (.perform _) fun r => ?_)) fun r => ?_
    · rcases r with e | n
      · trivial
      · exact .bind (opens_recordBytes _ _) fun _ => trivial
    · rcases r <;> trivial

theorem udpReplies_opens (inet : Inet) (udpFd : Fd) (s : UdpLoop) :
    Opens Unsectioned (udpReplies inet udpFd s) := by
  refine .iterate fun ⟨s, i⟩ => ?_
  simp only [udpRepliesBody]
  split
  · split
    · trivial
    split
    · exact .bind (closeUdpDestination_opens _ _ _ _) fun _ => trivial
    split
    · trivial
    · exact udpReply_opens _ _ _ _ _
  · trivial

theorem andThen_opens {f : UdpLoop → Server Flow} (h : ∀ s, Opens Unsectioned (f s))
    (flow : Flow) : Opens Unsectioned (flow.andThen f) := by
  cases flow with
  | next s => exact h s
  | again s => trivial
  | leave e => trivial

theorem copyLoopUdp_opens (inet : Inet) (tcpFd udpFd : Fd) :
    Opens Unsectioned (copyLoopUdp inet tcpFd udpFd) := by
  refine .bind (.bind (.perform _) fun r => ?_) fun bound => .bind (.perform _) fun buf =>
    .bind (.perform _) fun sockList => ?_
  · rcases r with e | addr
    · dsimp only
      split
      · trivial
      · exact nofun
    · trivial
  split
  · refine .bind (.iterate fun s => ?_) fun e => .bind (opens_forEach (fun _ => .perform _) _)
      fun _ => opens_forEach (fun _ => .perform _) _
    refine .bind (.bind (udpPoll_opens s) fun flow => andThen_opens (udpClient_opens _ _) flow)
      fun flow => .bind (andThen_opens (udpReplies_opens _ _) flow) fun flow => ?_
    cases flow <;> trivial
  · trivial

theorem setupConnect_opens (client : Client) (address : SockaddrUnion)
    (requestedAddr : Socks5Addrport) :
    Opens Unsectioned (setupConnect client address requestedAddr) := by
  refine .bind (.perform _) fun connectionId => .bind (.bind (.perform _) fun r => ?_) fun r => ?_
  · rcases r with e | fd
    · trivial
    refine .bind (.perform _) fun r => ?_
    rcases r with e | ⟨⟩
    · exact .bind (.perform _) fun _ => trivial
    · trivial
  rcases r with ec | remotefd
  · exact .bind (.perform _) fun _ => .bind (.bind (.perform _) fun _ => trivial) fun _ => trivial
  refine .bind (.perform _) fun r => ?_
  rcases r with e | localAddr
  · exact .bind (.perform _) fun _ => .bind (.perform _) fun _ => trivial
  refine .bind (.perform _) fun r => ?_
  rcases r with e | n
  · exact .bind (.perform _) fun _ => .bind (.perform _) fun _ => trivial
  · trivial

theorem udpSvcSetup_opens (clientAddr : SockaddrUnion) :
    Opens Unsectioned (udpSvcSetup clientAddr) := by
  refine .bind (.perform _) fun r => ?_
  rcases r with e | fd
  · trivial
  dsimp only
  split
  · refine .bind (.perform _) fun r => ?_
    rcases r with e | ⟨⟩
    · exact .bind (.perform _) fun _ => trivial
    · trivial
  refine .bind (.perform _) fun r => ?_
  rcases r with _ | addr
  · exact .bind (.perform _) fun _ => trivial
  refine .bind (.perform _) fun r => ?_
  rcases r with e | ⟨⟩
  · exact .bind (.perform _) fun _ => trivial
  · trivial

theorem setupUdpAssociate_opens (client : Client) (address : SockaddrUnion) :
    Opens Unsectioned (setupUdpAssociate client address) := by
  refine .bind (udpSvcSetup_opens _) fun r => ?_
  rcases r with ec | _ | fd
  · exact .bind (.bind (.perform _) fun _ => trivial) fun _ => trivial
  · exact .bind (.bind (.perform _) fun _ => trivial) fun _ => trivial
  refine .bind (.bind (.perform _) fun r => ?_) fun r => ?_
  · rcases r with e | responseAddr
    · trivial
    dsimp only
    split
    · trivial
    refine .bind (.perform _) fun r => ?_
    rcases r <;> trivial
  rcases r with _ | localAddr
  · exact .bind (.perform _) fun _ => trivial
  refine .bind (.perform _) fun r => ?_
  rcases r with e | n
  · exact .bind (.perform _) fun _ => trivial
  · trivial

/-- Serving a request has no section under the lock. -/
theorem serveRequest_opens (inet : Inet) (client : Client) (buf : Bytes) :
    Opens Unsectioned (serveRequest inet client buf) := by
  refine .bind (.bind ?_ fun r => ?_) fun relay => ?_
  · unfold parseSocksRequestHeader
    split
    · trivial
    refine .bind (resolveSocks5Addrport_opens _ _) fun r => ?_
    cases r <;> trivial
  · rcases r with ec | ⟨_ | _, address, requestedAddr⟩
    · trivial
    · exact setupConnect_opens _ _ _
    · exact setupUdpAssociate_opens _ _
  · cases relay with
    | none => trivial
    | tcp remotefd connectionId requestedAddr =>
        exact .bind (.perform _) fun _ => .bind (copyloop_opens _ _) fun _ =>
          .bind (.perform _) fun _ => .perform _
    | udp fd => exact .bind (copyLoopUdp_opens _ _ _) fun _ => .perform _

/-! ### The sections -/

/-- A block is a section. -/
def Locked : Block → Prop := (· = .locked)

/-- What is asked for outside the sections. -/
def Op.unlocked : Op → Prop
  | .rdlock | .wrlock | .unlock | .loadAuthIps | .storeAuthIps _ => False
  | _ => True

theorem Op.serving.unlocked : ∀ o : Op, o.serving → o.unlocked := by
  intro o h
  cases o <;> trivial

/-- How a thread that held nothing holds the lock after a trace. -/
def heldAfter (tr : Trace sys) : Hold := tr.foldl (fun hold e => nextHold hold e.op e.ret) .none

@[simp] theorem heldAfter_nil : heldAfter [] = .none := rfl

@[simp] theorem heldAfter_concat (tr : Trace sys) (e : Event sys) :
    heldAfter (tr ++ [e]) = nextHold (heldAfter tr) e.op e.ret := by
  simp [heldAfter]

/-- What a section does. -/
def underLock : Protocol sys where
  guar done o := match o with
    | .rdlock | .wrlock => done = []
    | .loadAuthIps | .unlock => heldAfter done ≠ .none
    | .realloc _ | .storeAuthIps _ => heldAfter done = .exclusive
    | _ => False
  ends done := heldAfter done = .none

theorem lookupAuthIp_obeys (caddr : SockaddrUnion) : Sectioned Locked Op.unlocked underLock
    (lookupAuthIp caddr) := by
  refine .section rfl ⟨.bind (.perform _) fun r => ?_, ?_⟩
  · cases r with
    | false => trivial
    | true => exact .bind (.perform _) fun _ => .bind (.perform _) fun _ => trivial
  · simp only [bind_eq, pure_eq, wlp_bind, wlp_rdlock]
    refine ⟨trivial, rfl, fun r _ => ⟨trivial, ?_⟩⟩
    cases r with
    | false => exact ⟨trivial, rfl⟩
    | true =>
        simp only [if_true, wlp_bind, wlp_loadAuthIps, wlp_unlock, wlp_ret]
        exact ⟨trivial, Hold.shared_ne_none, fun l _ => ⟨trivial, trivial, Hold.shared_ne_none,
          fun _ => ⟨trivial, trivial, rfl⟩⟩⟩

theorem rememberAuthIp_obeys (caddr : SockaddrUnion) : Sectioned Locked Op.unlocked underLock
    (rememberAuthIp caddr) := by
  have hgrow : ∀ l : Sblist SockaddrUnion, Prog.Plain (sblistAdd l caddr) := by
    intro l
    refine .bind ?_ fun r => by cases r <;> trivial
    unfold sblistGrowIfNeeded
    split
    · exact .bind (.perform _) fun r => by cases r <;> trivial
    · trivial
  refine .section rfl ⟨.bind (.perform _) fun r => ?_, ?_⟩
  · cases r with
    | false => trivial
    | true =>
        refine .bind (.perform _) fun l => ?_
        split
        · refine .bind (.bind (hgrow l) fun r => ?_) fun _ => .perform _
          cases r with
          | none => trivial
          | some l => exact .perform _
        · exact .perform _
  · simp only [bind_eq, pure_eq, wlp_bind, wlp_wrlock]
    refine ⟨trivial, rfl, fun r _ => ⟨trivial, ?_⟩⟩
    cases r with
    | false => exact ⟨trivial, rfl⟩
    | true =>
        simp only [if_true, wlp_bind, wlp_loadAuthIps]
        refine ⟨trivial, Hold.exclusive_ne_none, fun l _ => ⟨trivial, ?_⟩⟩
        -- whatever the section has done with the list, it gives the lock back
        have hunlock : ∀ done, heldAfter done = .exclusive →
            wlp (Spec.watching (fun _ _ => True) underLock.guar) unlock
              (fun _ h => underLock.ends h) done := by
          intro done hdone
          rw [wlp_unlock]
          refine ⟨trivial, ?_, fun _ => ⟨trivial, ?_⟩⟩
          · show heldAfter done ≠ .none
            rw [hdone]
            decide
          · exact heldAfter_concat done ⟨.unlock, ()⟩
        have hstore : ∀ done, heldAfter done = .exclusive → ∀ l' : Sblist SockaddrUnion,
            wlp (Spec.watching (fun _ _ => True) underLock.guar) (storeAuthIps l') (fun _ h =>
              wlp (Spec.watching (fun _ _ => True) underLock.guar) unlock
                (fun _ h => underLock.ends h) h) done := by
          intro done hdone l'
          refine ⟨trivial, hdone, fun _ _ => ⟨trivial, hunlock _ ?_⟩⟩
          exact (heldAfter_concat done ⟨.storeAuthIps l', ()⟩).trans hdone
        split
        · refine (wlp_bind _).mpr ((wlp_bind _).mpr (wlp_sblistAdd l caddr trivial (fun _ => rfl)
            (fun _ _ => trivial) (fun l' _ => hstore _ rfl l') (fun n => ⟨trivial, hunlock _ rfl⟩)
            (fun n l' _ => hstore _ rfl l')))
        · exact hunlock _ rfl

theorem considerAuthMethod_sectioned (cfg : Config) (method : UInt8) (client : Client) :
    Sectioned Locked Op.unlocked underLock (considerAuthMethod cfg method client) := by
  unfold considerAuthMethod
  split
  · split
    · trivial
    split
    · refine .bind (lookupAuthIp_obeys _) fun r => ?_
      cases r <;> trivial
    · trivial
  · split
    · split <;> trivial
    · trivial

theorem checkAuthMethods_sectioned (cfg : Config) (buf : Bytes) (n : Nat) (client : Client)
    (nMethods : Nat) : ∀ idx, Sectioned Locked Op.unlocked underLock
      (checkAuthMethods cfg buf n client idx nMethods) := by
  induction nMethods with
  | zero => intro idx; trivial
  | succ nMethods ih =>
      intro idx
      unfold checkAuthMethods
      split
      · refine .bind (considerAuthMethod_sectioned _ _ _) fun r => ?_
        cases r with
        | none => exact ih _
        | some am => trivial
      · trivial

theorem checkAuthMethod_sectioned (cfg : Config) (buf : Bytes) (n : Nat) (client : Client) :
    Sectioned Locked Op.unlocked underLock (checkAuthMethod cfg buf n client) := by
  unfold checkAuthMethod
  split
  · trivial
  split
  · trivial
  · exact checkAuthMethods_sectioned _ _ _ _ _ _

theorem selectMethod_sectioned (cfg : Config) (client : Client) (buf : Bytes) :
    Sectioned Locked Op.unlocked underLock (selectMethod cfg client buf) := by
  refine .bind (checkAuthMethod_sectioned _ _ _ _) fun am => ?_
  have hrest : Sectioned Locked Op.unlocked underLock (do
      sendAuthResponse client.fd 5 am.code
      if am = .invalid then return .inr () else return .inl () : Server (Unit ⊕ Unit)) := by
    refine .bind (.bind (.perform trivial) fun _ => trivial) fun _ => ?_
    split <;> trivial
  dsimp only
  split
  · exact .bind (.perform trivial) fun _ => hrest
  split
  · exact .bind (.perform trivial) fun _ => hrest
  · exact hrest

theorem authenticate_sectioned (cfg : Config) (client : Client) (buf : Bytes) :
    Sectioned Locked Op.unlocked underLock (authenticate cfg client buf) := by
  unfold authenticate
  split
  · exact ⟨trivial, nofun⟩
  refine .bind (.bind (.perform trivial) fun _ => trivial) fun _ => ?_
  split
  · trivial
  refine .bind (.perform trivial) fun _ => ?_
  dsimp only
  split
  · exact .bind (rememberAuthIp_obeys _) fun _ => trivial
  · trivial

theorem serveRequest_sectioned (inet : Inet) (client : Client) (buf : Bytes) :
    Sectioned Locked Op.unlocked underLock (serveRequest inet client buf) := by
  refine (serveRequest_opens inet client buf).sectioned ?_
    ((serveRequest_uses inet client buf).mono Op.serving.unlocked)
  rintro t rfl
  exact nofun

/-- **A thread touches the list in its sections only, and holds the lock nowhere else.** -/
theorem clientthread_sectioned (inet : Inet) (cfg : Config) (client : Client) :
    Sectioned Locked Op.unlocked underLock (clientthread inet cfg client) := by
  refine .bind (.perform trivial) fun _ => .bind (.iterate fun _ => ?_) fun _ =>
    .bind (.perform trivial) fun _ => .perform trivial
  refine .bind (.perform trivial) fun r => ?_
  rcases r with e | buf
  · trivial
  dsimp only
  split
  · trivial
  refine .bind (.perform trivial) fun s => ?_
  cases s with
  | ss1Connected => exact selectMethod_sectioned _ _ _
  | ss2NeedAuth => exact authenticate_sectioned _ _ _
  | ss3Authed => exact .bind (serveRequest_sectioned _ _ _) fun _ => trivial

end TwoSocks
