/-
Which requests are answered.

A client that is authenticated sends one request.  What the server sends back before it
relays, or gives up, is read off the trace of `setupRequest`: `Answered` says that this
is one reply, and that the reply carries the code it should.

It is not so for every request.  A message the parser rejects, a name that does not
resolve and a socket whose own address the system will not tell end the connection
without a reply, although the parser and the resolver had a code for it and the other
failures of the same request do send one.  `request_answered_iff` says that these are
the only ones.
-/
import TwoSocks.Server.Rules
import TwoSocks.Proofs.InetText

namespace TwoSocks

open Server Prog

/-! ### Replies and failures in a trace -/

/-- The reply an event sends to `fd`, and what became of it. -/
def replyBy (fd : Fd) : Event sys → List (Bytes × Except Errno Nat)
  | ⟨.write fd' reply, result⟩ => if fd' = fd then [(reply, result)] else []
  | _ => []

/-- The replies sent to `fd`, in order. -/
def repliesTo (fd : Fd) (tr : Trace sys) : List (Bytes × Except Errno Nat) :=
  tr.flatMap (replyBy fd)

/-- The code for a step that failed, as the source computes it. -/
def failureOf : Event sys → Option Errorcode
  | ⟨.getaddrinfo _ _ _, none⟩ => some .generalFailure
  | ⟨.socket _ _, .error e⟩ => some (socketErrorCodeFromErrno e)
  | ⟨.connect _ _, .error e⟩ => some (socketErrorCodeFromErrno e)
  | ⟨.getaddrinfoPassive _, none⟩ => some .generalFailure
  | ⟨.bind _ _, .error _⟩ => some .generalFailure
  | ⟨.getsockname _, .error _⟩ => some .generalFailure
  | _ => none

/-- The code of the first step of a setup that failed, or success. -/
def codeOf (setup : Trace sys) : Errorcode := (setup.findSome? failureOf).getD .success

/-- The code a request is to be answered with: the parser's, or that of the setup. -/
def replyCode (inet : Inet) (buf : Bytes) (setup : Trace sys) : Errorcode :=
  match socksRequestFields inet buf buf.length with
  | .error ec => ec
  | .ok _ => codeOf setup

/-- The two forms a reply may have. -/
inductive IsReply (ec : Errorcode) : Bytes → Prop
  | response (addr : SockaddrUnion) : IsReply ec (responseBytes ec addr)
  | error : IsReply ec (errorBytes ec)

/-- One reply was sent, with code `ec`, and a relay follows it just if `ec` is success
and the write went through. -/
def RepliesOnce (client : Client) (ec : Errorcode) (setup : Trace sys) (relay : Relay) : Prop :=
  ∃ reply result, repliesTo client.fd setup = [(reply, result)] ∧ IsReply ec reply ∧
    (relay ≠ .none → ec = .success) ∧
    (ec = .success → relay ≠ .none ∨ ∃ e, result = .error e)

/-- The request in `buf` was answered as it should be. -/
def Answered (inet : Inet) (client : Client) (buf : Bytes) (setup : Trace sys)
    (relay : Relay) : Prop :=
  RepliesOnce client (replyCode inet buf setup) setup relay

/-- A name was resolved, and a socket has an address. -/
def Named : Event sys → Prop
  | ⟨.getaddrinfo _ _ _, addr⟩ => addr ≠ none
  | ⟨.getsockname _, .error _⟩ => False
  | _ => True

/-- A descriptor is above zero. -/
def OpensAboveZero : Event sys → Prop
  | ⟨.socket _ _, .ok fd⟩ => 0 < fd
  | _ => True

@[simp] theorem repliesTo_append (fd : Fd) (tr tr' : Trace sys) :
    repliesTo fd (tr ++ tr') = repliesTo fd tr ++ repliesTo fd tr' := List.flatMap_append ..

@[simp] theorem repliesTo_singleton (fd : Fd) (e : Event sys) :
    repliesTo fd [e] = replyBy fd e := by
  simp [repliesTo]

/-! ### A setup as it goes on

`Undecided` is a setup in which nothing was sent and nothing went wrong, `Doomed` one in
which a step failed but nobody was told, `Settled` one that is over as far as the client
is concerned.
-/

/-- An event that neither fails nor sends anything. -/
def Plain (e : Event sys) : Prop :=
  failureOf e = none ∧ Named e ∧ ∀ fd, replyBy fd e = []

def Undecided (setup : Trace sys) : Prop := ∀ e ∈ setup, Plain e

/-- The step that failed has code `ec`. -/
def Doomed (ec : Errorcode) (setup : Trace sys) : Prop :=
  setup.findSome? failureOf = some ec ∧ ec ≠ .success ∧ (∀ fd, repliesTo fd setup = []) ∧
    ∀ e ∈ setup, Named e

/-- Either a socket had no address, and nothing was sent, or everything is as it should
be. -/
def Settled (client : Client) (relay : Relay) (setup : Trace sys) : Prop :=
  (repliesTo client.fd setup = [] ∧ ¬ ∀ e ∈ setup, Named e) ∨
    (RepliesOnce client (codeOf setup) setup relay ∧ ∀ e ∈ setup, Named e)

section Setup

variable {client : Client} {relay : Relay} {ec : Errorcode} {h : Trace sys} {e : Event sys}

theorem Undecided.silent (hu : Undecided h) (fd : Fd) : repliesTo fd h = [] :=
  List.flatMap_eq_nil_iff.mpr fun e he => (hu e he).2.2 fd

theorem Undecided.noFailure (hu : Undecided h) : h.findSome? failureOf = none :=
  List.findSome?_eq_none_iff.mpr fun e he => (hu e he).1

theorem Undecided.plain (hu : Undecided h) (hp : Plain e) : Undecided (h ++ [e]) := by
  intro e' he'
  rcases List.mem_append.mp he' with he' | he'
  · exact hu e' he'
  · rw [List.mem_singleton.mp he']
    exact hp

/-- A step fails. -/
theorem Undecided.fails (hu : Undecided h) (hf : failureOf e = some ec) (hec : ec ≠ .success)
    (hn : Named e) (hq : ∀ fd, replyBy fd e = []) : Doomed ec (h ++ [e]) := by
  refine ⟨by simp [List.findSome?_append, hu.noFailure, hf], hec, fun fd => ?_, ?_⟩
  · simp [hu.silent fd, hq fd]
  · intro e' he'
    rcases List.mem_append.mp he' with he' | he'
    · exact (hu e' he').2.1
    · rw [List.mem_singleton.mp he']
      exact hn

/-- A socket has no address. -/
theorem Undecided.unnamed (hu : Undecided h) (hn : ¬ Named e)
    (hq : replyBy client.fd e = []) : Settled client relay (h ++ [e]) :=
  .inl ⟨by simp [hu.silent, hq], fun hall => hn (hall e (by simp))⟩

/-- The client is told that the request was granted. -/
theorem Undecided.replies (hu : Undecided h) (addr : SockaddrUnion) (result : Except Errno Nat)
    (hr : relay ≠ .none ∨ ∃ e, result = .error e) :
    Settled client relay (h ++ [⟨.write client.fd (responseBytes .success addr), result⟩]) := by
  have hcode : codeOf (h ++ [⟨.write client.fd (responseBytes .success addr), result⟩])
      = .success := by
    unfold codeOf
    rw [List.findSome?_append, hu.noFailure]
    rfl
  refine .inr ⟨⟨responseBytes .success addr, result, by simp [hu.silent, replyBy], ?_,
    fun _ => hcode, fun _ => hr⟩, ?_⟩
  · rw [hcode]
    exact .response addr
  · intro e he
    rcases List.mem_append.mp he with he | he
    · exact (hu e he).2.1
    · rw [List.mem_singleton.mp he]
      trivial

theorem Doomed.plain (hd : Doomed ec h) (hp : Plain e) : Doomed ec (h ++ [e]) := by
  obtain ⟨hf, hec, hq, hn⟩ := hd
  refine ⟨by simp [List.findSome?_append, hf], hec, fun fd => by simp [hq fd, hp.2.2 fd], ?_⟩
  intro e' he'
  rcases List.mem_append.mp he' with he' | he'
  · exact hn e' he'
  · rw [List.mem_singleton.mp he']
    exact hp.2.1

/-- The client is told what failed. -/
theorem Doomed.replies (hd : Doomed ec h) (result : Except Errno Nat) :
    Settled client .none (h ++ [⟨.write client.fd (errorBytes ec), result⟩]) := by
  obtain ⟨hf, hec, hq, hn⟩ := hd
  have hcode : codeOf (h ++ [⟨.write client.fd (errorBytes ec), result⟩]) = ec := by
    unfold codeOf
    rw [List.findSome?_append, hf]
    rfl
  refine .inr ⟨⟨errorBytes ec, result, by simp [hq, replyBy], ?_, by simp, fun hs => ?_⟩, ?_⟩
  · rw [hcode]
    exact .error
  · exact absurd (hcode ▸ hs) hec
  · intro e he
    rcases List.mem_append.mp he with he | he
    · exact hn e he
    · rw [List.mem_singleton.mp he]
      trivial

theorem Settled.plain (hs : Settled client relay h) (hp : Plain e) :
    Settled client relay (h ++ [e]) := by
  have hcode : codeOf (h ++ [e]) = codeOf h := by
    unfold codeOf
    rw [List.findSome?_append]
    simp [hp.1]
  rcases hs with ⟨hq, hn⟩ | ⟨⟨reply, result, hq, hrest⟩, hn⟩
  · exact .inl ⟨by simp [hq, hp.2.2], fun hall => hn fun e' he' => hall e' (by simp [he'])⟩
  · refine .inr ⟨⟨reply, result, by simp [hq, hp.2.2], ?_⟩, ?_⟩
    · rw [hcode]
      exact hrest
    · intro e' he'
      rcases List.mem_append.mp he' with he' | he'
      · exact hn e' he'
      · rw [List.mem_singleton.mp he']
        exact hp.2.1

end Setup

/-! ### The two setups -/

theorem connectSocksTarget_spec {address : SockaddrUnion} {h : Trace sys} (hu : Undecided h) :
    wlp (Spec.history OpensAboveZero) (connectSocksTarget address) (fun fd h' =>
      match fd with
      | .error ec => Doomed ec h'
      | .ok _ => Undecided h') h := by
  unfold connectSocksTarget
  simp only [pure_eq, bind_eq, wlp_bind, wlp_socket, Spec.history_inv, Spec.history_guar,
    Spec.history_rely, Spec.history_next, true_and]
  intro fd _
  rcases fd with e | fd
  · exact ⟨trivial, hu.fails rfl (socketErrorCodeFromErrno_ne_success e) trivial fun _ => rfl⟩
  · have hu := hu.plain (e := ⟨.socket address.af .stream, .ok fd⟩) ⟨rfl, trivial, fun _ => rfl⟩
    simp only [wlp_bind, wlp_connect, Spec.history_inv, Spec.history_guar, Spec.history_rely,
      Spec.history_next, true_and]
    intro connected _
    rcases connected with e | _
    · simp only [wlp_ret, wlp_bind, wlp_close, Spec.history_inv, Spec.history_guar,
        Spec.history_rely, Spec.history_next, true_and]
      intro _
      show Doomed _ _
      exact .plain (hu.fails rfl (socketErrorCodeFromErrno_ne_success e) trivial fun _ => rfl)
          ⟨rfl, trivial, fun _ => rfl⟩
    · exact ⟨trivial, hu.plain ⟨rfl, trivial, fun _ => rfl⟩⟩

theorem setupConnect_settled {client : Client} {address : SockaddrUnion}
    {requestedAddr : Socks5Addrport} {h : Trace sys} (hu : Undecided h) :
    wlp (Spec.history OpensAboveZero) (setupConnect client address requestedAddr)
      (Settled client) h := by
  unfold setupConnect emitAddrportConnectionEvent sendError sendResponse
  simp only [pure_eq, bind_eq, wlp_bind, wlp_nextConnectionIdentifier, Spec.history_inv,
    Spec.history_guar, Spec.history_rely, Spec.history_next, true_and]
  intro connectionId _
  have hu := hu.plain (e := ⟨.nextConnectionIdentifier, connectionId⟩)
    ⟨rfl, trivial, fun _ => rfl⟩
  refine wlp_mono _ ?_ (connectSocksTarget_spec hu)
  rintro (ec | remotefd) h' hsetup
  · simp only [wlp_ret, wlp_bind, wlp_emitConnectionEvent, wlp_write, Spec.history_inv,
      Spec.history_guar, Spec.history_rely, Spec.history_next, true_and]
    intro _ result _
    have hevent : ∀ event, Doomed ec (h' ++ [⟨.handler event, ()⟩]) := fun event =>
      Doomed.plain hsetup ⟨rfl, trivial, fun _ => rfl⟩
    exact (hevent _).replies result
  · simp only [wlp_bind, wlp_getsockname, Spec.history_inv, Spec.history_guar,
      Spec.history_rely, Spec.history_next, true_and]
    intro localAddr _
    rcases localAddr with e | localAddr
    · simp only [wlp_ret, wlp_bind, wlp_close, wlp_emitConnectionEvent, Spec.history_inv,
        Spec.history_guar, Spec.history_rely, Spec.history_next, true_and]
      intro _ _
      exact .plain (.plain (hsetup.unnamed (by simp [Named]) rfl) ⟨rfl, trivial, fun _ => rfl⟩)
        ⟨rfl, trivial, fun _ => rfl⟩
    · have hu := hsetup.plain (e := ⟨.getsockname remotefd, .ok localAddr⟩)
        ⟨rfl, trivial, fun _ => rfl⟩
      simp only [wlp_bind, wlp_write, Spec.history_inv, Spec.history_guar, Spec.history_rely,
        Spec.history_next, true_and]
      intro result _
      rcases result with e | n
      · simp only [wlp_ret, wlp_bind, wlp_close, wlp_emitConnectionEvent, Spec.history_inv,
          Spec.history_guar, Spec.history_rely, Spec.history_next, true_and]
        intro _ _
        exact .plain (.plain (hu.replies localAddr _ (.inr ⟨e, rfl⟩)) ⟨rfl, trivial, fun _ => rfl⟩)
          ⟨rfl, trivial, fun _ => rfl⟩
      · exact ⟨trivial, hu.replies localAddr _ (.inl (by simp))⟩

theorem udpSvcSetup_spec {clientAddr : SockaddrUnion} {h : Trace sys} (hu : Undecided h) :
    wlp (Spec.history OpensAboveZero) (udpSvcSetup clientAddr) (fun fd h' =>
      match fd with
      | .error ec => Doomed ec h'
      | .ok fd => 0 < fd ∧ Undecided h') h := by
  unfold udpSvcSetup
  simp only [pure_eq, bind_eq, wlp_bind, wlp_socket, Spec.history_inv, Spec.history_guar,
    Spec.history_rely, Spec.history_next, true_and]
  intro fd hfd
  rcases fd with e | fd
  · exact ⟨trivial, hu.fails rfl (socketErrorCodeFromErrno_ne_success e) trivial fun _ => rfl⟩
  · have hu := hu.plain (e := ⟨.socket clientAddr.af .dgram, .ok fd⟩) ⟨rfl, trivial, fun _ => rfl⟩
    simp only
    split
    · simp only [wlp_bind, wlp_connect, Spec.history_inv, Spec.history_guar, Spec.history_rely,
        Spec.history_next, true_and]
      intro connected _
      rcases connected with e | _
      · simp only [wlp_ret, wlp_bind, wlp_close, Spec.history_inv, Spec.history_guar,
          Spec.history_rely, Spec.history_next, true_and]
        intro _
        show Doomed _ _
        exact .plain (hu.fails rfl (socketErrorCodeFromErrno_ne_success e) trivial fun _ => rfl)
          ⟨rfl, trivial, fun _ => rfl⟩
      · exact ⟨trivial, hfd, hu.plain ⟨rfl, trivial, fun _ => rfl⟩⟩
    · simp only [wlp_bind, wlp_getaddrinfoPassive, Spec.history_inv, Spec.history_guar,
        Spec.history_rely, Spec.history_next, true_and]
      intro addr _
      rcases addr with _ | addr
      · simp only [wlp_ret, wlp_bind, wlp_close, Spec.history_inv, Spec.history_guar,
          Spec.history_rely, Spec.history_next, true_and]
        intro _
        show Doomed _ _
        exact .plain (hu.fails rfl (by simp) trivial fun _ => rfl) ⟨rfl, trivial, fun _ => rfl⟩
      · have hu := hu.plain (e := ⟨.getaddrinfoPassive clientAddr.af, some addr⟩)
          ⟨rfl, trivial, fun _ => rfl⟩
        simp only [wlp_bind, wlp_bindCall, Spec.history_inv, Spec.history_guar,
          Spec.history_rely, Spec.history_next, true_and]
        intro bound _
        rcases bound with e | _
        · simp only [wlp_ret, wlp_bind, wlp_close, Spec.history_inv, Spec.history_guar,
            Spec.history_rely, Spec.history_next, true_and]
          intro _
          show Doomed _ _
          exact .plain (hu.fails rfl (by simp) trivial fun _ => rfl) ⟨rfl, trivial, fun _ => rfl⟩
        · exact ⟨trivial, hfd, hu.plain ⟨rfl, trivial, fun _ => rfl⟩⟩

theorem populateUdpResponseAddr_spec (client : Client) {udpFd tcpFd : Fd} {h : Trace sys}
    (hu : Undecided h) :
    wlp (Spec.history OpensAboveZero) (populateUdpResponseAddr udpFd tcpFd) (fun addr h' =>
      match addr with
      | none => Settled client .none h'
      | some _ => Undecided h') h := by
  unfold populateUdpResponseAddr
  simp only [pure_eq, bind_eq, wlp_bind, wlp_getsockname, Spec.history_inv, Spec.history_guar,
    Spec.history_rely, Spec.history_next, true_and]
  intro addr _
  rcases addr with e | responseAddr
  · exact ⟨trivial, hu.unnamed (by simp [Named]) rfl⟩
  · have hu := hu.plain (e := ⟨.getsockname udpFd, .ok responseAddr⟩)
      ⟨rfl, trivial, fun _ => rfl⟩
    simp only
    split
    · exact ⟨trivial, hu⟩
    · simp only [wlp_bind, wlp_getsockname, Spec.history_inv, Spec.history_guar,
        Spec.history_rely, Spec.history_next, true_and]
      intro addr _
      rcases addr with e | tcpLocalAddr
      · exact ⟨trivial, hu.unnamed (by simp [Named]) rfl⟩
      · exact ⟨trivial, hu.plain ⟨rfl, trivial, fun _ => rfl⟩⟩

theorem setupUdpAssociate_settled {client : Client} {address : SockaddrUnion} {h : Trace sys}
    (hu : Undecided h) :
    wlp (Spec.history OpensAboveZero) (setupUdpAssociate client address) (Settled client) h := by
  unfold setupUdpAssociate sendError sendResponse
  simp only [pure_eq, bind_eq, wlp_bind]
  refine wlp_mono _ ?_ (udpSvcSetup_spec hu)
  rintro (ec | fd) h' hsetup
  · simp only [wlp_ret, wlp_bind, wlp_write, Spec.history_inv, Spec.history_guar,
      Spec.history_rely, Spec.history_next, true_and]
    intro result _
    exact hsetup.replies result
  · obtain ⟨hpos, hu⟩ := hsetup
    obtain ⟨n, rfl⟩ := Nat.exists_eq_succ_of_ne_zero (Nat.pos_iff_ne_zero.mp hpos)
    simp only [wlp_bind]
    refine wlp_mono _ ?_ (populateUdpResponseAddr_spec client hu)
    rintro (_ | localAddr) h'' hsetup
    · simp only [wlp_ret, wlp_bind, wlp_close, Spec.history_inv, Spec.history_guar,
        Spec.history_rely, Spec.history_next, true_and]
      intro _
      exact hsetup.plain ⟨rfl, trivial, fun _ => rfl⟩
    · simp only [wlp_bind, wlp_write, Spec.history_inv, Spec.history_guar, Spec.history_rely,
        Spec.history_next, true_and]
      intro result _
      rcases result with e | k
      · simp only [wlp_ret, wlp_bind, wlp_close, Spec.history_inv, Spec.history_guar,
          Spec.history_rely, Spec.history_next, true_and]
        intro _
        exact .plain (hsetup.replies localAddr _ (.inr ⟨e, rfl⟩)) ⟨rfl, trivial, fun _ => rfl⟩
      · exact ⟨trivial, hsetup.replies localAddr _ (.inl (by simp))⟩

/-! ### The result -/

theorem setupRequest_of_rejected {inet : Inet} {client : Client} {buf : Bytes} {ec : Errorcode}
    {setup : Trace sys} {relay : Relay} (hf : socksRequestFields inet buf buf.length = .error ec)
    (h : Eval (setupRequest inet client buf) setup relay) : setup = [] := by
  unfold setupRequest parseSocksRequestHeader at h
  rw [hf] at h
  cases h
  rfl

/-- A message the parser takes: the name is resolved, then one of the setups runs. -/
theorem setupRequest_of_parsed {inet : Inet} {client : Client} {buf : Bytes}
    {cmd : Socks5Cmd} {addrport : Socks5Addrport} {setup : Trace sys} {relay : Relay}
    (hf : socksRequestFields inet buf buf.length = .ok (cmd, addrport))
    (h : Eval (setupRequest inet client buf) setup relay)
    (hfds : ∀ e ∈ setup, OpensAboveZero e) : Settled client relay setup := by
  have hnil : Undecided [] := fun e he => nomatch he
  have hw : wlp (Spec.history OpensAboveZero) (setupRequest inet client buf)
      (Settled client) [] := by
    unfold setupRequest parseSocksRequestHeader resolveSocks5Addrport
    simp only [hf, pure_eq, bind_eq, wlp_bind, wlp_getaddrinfo, Spec.history_inv,
      Spec.history_guar, Spec.history_rely, Spec.history_next, true_and]
    intro addr _
    rcases addr with _ | address
    · exact ⟨trivial, trivial, trivial, hnil.unnamed (by simp [Named]) rfl⟩
    · have hu := fun type => hnil.plain
        (e := ⟨.getaddrinfo addrport.addr addrport.port type, some address⟩)
        ⟨rfl, by simp [Named], fun _ => rfl⟩
      cases cmd with
      | connect => exact ⟨trivial, trivial, setupConnect_settled (hu _)⟩
      | udpAssociate => exact ⟨trivial, trivial, setupUdpAssociate_settled (hu _)⟩
  simpa using ((wlp_eval h hw).elim (Spec.history_legal hfds)).2

/-- Nothing kept the server from answering: the message is a request, its name was
resolved, and every socket it asked about had an address. -/
def Answerable (inet : Inet) (buf : Bytes) (setup : Trace sys) : Prop :=
  (∃ fields, socksRequestFields inet buf buf.length = .ok fields) ∧ ∀ e ∈ setup, Named e

theorem setupRequest_answered_iff {inet : Inet} {client : Client} {buf : Bytes}
    {setup : Trace sys} {relay : Relay} (h : Eval (setupRequest inet client buf) setup relay)
    (hfds : ∀ e ∈ setup, OpensAboveZero e) :
    Answered inet client buf setup relay ↔ Answerable inet buf setup := by
  have hsilent : repliesTo client.fd setup = [] → ¬ Answered inet client buf setup relay := by
    rintro hq ⟨reply, result, hr, -⟩
    rw [hq] at hr
    cases hr
  cases hf : socksRequestFields inet buf buf.length with
  | error ec =>
      have hnil := setupRequest_of_rejected hf h
      refine iff_of_false (hsilent (by rw [hnil]; rfl)) ?_
      rintro ⟨⟨fields, hok⟩, -⟩
      rw [hf] at hok
      cases hok
  | ok fields =>
      have hcode : replyCode inet buf setup = codeOf setup := by
        unfold replyCode
        rw [hf]
      rcases setupRequest_of_parsed hf h hfds with ⟨hq, hn⟩ | ⟨honce, hn⟩
      · exact iff_of_false (hsilent hq) fun ha => hn ha.2
      · refine iff_of_true ?_ ⟨⟨fields, hf⟩, hn⟩
        unfold Answered
        rw [hcode]
        exact honce

/-- An authenticated client. -/
def exampleClient : Client := ⟨.v4 localAddress 40000, 4⟩

/-- A request to connect to `192.0.2.1`, port 80. -/
def connectMessage : Bytes := [5, 1, 0, 1, 192, 0, 2, 1, 0, 80]

/-- The same request with the command `BIND`. -/
def bindMessage : Bytes := [5, 2, 0, 1, 192, 0, 2, 1, 0, 80]

/-- The target of `connectMessage` as the parser stores it. -/
def connectTarget : Socks5Addrport := copyAddrport .ipv4 (hostText 1) 80

/-- A connection to it that is set up, stays idle and is closed. -/
def connectTrace : Trace sys :=
  [⟨.getaddrinfo connectTarget.addr 80 .stream, some (.v4 (hostAddress 1) 80)⟩,
    ⟨.nextConnectionIdentifier, (1 : Int)⟩,
    ⟨.socket .inet .stream, .ok 7⟩,
    ⟨.connect 7 (.v4 (hostAddress 1) 80), .ok ()⟩,
    ⟨.getsockname 7, .ok (.v4 #v[10, 0, 0, 1] 5000)⟩,
    ⟨.write 4 (responseBytes .success (.v4 #v[10, 0, 0, 1] 5000)), .ok 10⟩,
    ⟨.handler ⟨1, .tcp, .opened, connectTarget.addr, 80, .success⟩, ()⟩,
    ⟨.storePending .downloaded 0, ()⟩,
    ⟨.storePending .uploaded 0, ()⟩,
    ⟨.poll [(4, POLLIN), (7, POLLIN)] IDLE_TIMEOUT, .timeout⟩,
    ⟨.loadPending .downloaded, (0 : Nat)⟩,
    ⟨.loadPending .uploaded, (0 : Nat)⟩,
    ⟨.handler ⟨1, .tcp, .closed, connectTarget.addr, 80, .success⟩, ()⟩,
    ⟨.close 7, ()⟩]

end TwoSocks
