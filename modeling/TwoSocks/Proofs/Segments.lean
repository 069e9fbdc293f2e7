/-
How a client's stream is cut.

TCP promises the bytes of a stream, not where one `recv` ends and the next begins.  Each state
of `clientthread` acts on what a single `recv` returned and keeps nothing of it for the next,
so a message that arrives in two pieces is two wrong messages.  A session therefore depends on
how its handshake is cut.

It does not depend on how what follows is cut.  Two sessions that are served the same pieces
before their relays, and are answered alike there, come to their relays by the same events; and
from then on `copyloop` passes on bytes, not pieces.

The two runs are compared at the first operation they are answered differently.
-/
import TwoSocks.Proofs.Operations
import TwoSocks.Proofs.Relay
import TwoSocks.Proofs.Auth
import TwoSocks.Proofs.Drain

namespace TwoSocks

open Server Prog

/-! ### Pieces -/

/-- A piece of the stream arrives at `fd`. -/
def TakesPiece (fd : Fd) : Event sys → Bool
  | ⟨.recv fd' _, .ok _⟩ => fd' == fd
  | ⟨.read fd' _, .ok _⟩ => fd' == fd
  | _ => false

def piecesTaken (fd : Fd) (tr : Trace sys) : Nat := tr.countP (TakesPiece fd)

@[simp] theorem piecesTaken_append (fd : Fd) (tr tr' : Trace sys) :
    piecesTaken fd (tr ++ tr') = piecesTaken fd tr + piecesTaken fd tr' := List.countP_append

theorem takesPiece_iff {fd : Fd} {e : Event sys} : TakesPiece fd e = true ↔
    ∃ n buf, e = ⟨.recv fd n, .ok buf⟩ ∨ e = ⟨.read fd n, .ok buf⟩ := by
  constructor
  · intro h
    unfold TakesPiece at h
    split at h
    · rename_i fd' n buf
      exact ⟨n, buf, .inl (by rw [beq_iff_eq.mp h])⟩
    · rename_i fd' n buf
      exact ⟨n, buf, .inr (by rw [beq_iff_eq.mp h])⟩
    · cases h
  · rintro ⟨n, buf, rfl | rfl⟩ <;> simp [TakesPiece]

/-- The stream arrives at `fd` as `pieces`, one after the other, and then ends.  Before the
relay nothing else happens to it. -/
structure Segmented (fd : Fd) (pieces : List Bytes) (tr : Trace sys) : Prop where
  received : ∀ pre n (r : Except Errno Bytes) post, tr = pre ++ ⟨.recv fd n, r⟩ :: post →
    r = .ok (pieces.getD (piecesTaken fd pre) [])
  read : ∀ pre n buf post, tr = pre ++ ⟨.read fd n, .ok buf⟩ :: post →
    buf = pieces.getD (piecesTaken fd pre) []

/-- The same as an assumption about the answers, given how many pieces have been taken. -/
def cutSpec (fd : Fd) (pieces : List Bytes) : Spec sys Nat where
  rely k o r := match o, r with
    | .recv fd' _, r => fd' = fd → r = .ok (pieces.getD k [])
    | .read fd' _, .ok buf => fd' = fd → buf = pieces.getD k []
    | _, _ => True
  guar _ _ := True
  next k o r := k + piecesTaken fd [⟨o, r⟩]

theorem cutSpec_run (fd : Fd) (pieces : List Bytes) (tr : Trace sys) :
    ∀ k, (cutSpec fd pieces).run k tr = k + piecesTaken fd tr := by
  induction tr with
  | nil => intro k; rfl
  | cons e tr ih =>
      intro k
      rw [Spec.run_cons, ih, show e :: tr = [e] ++ tr from rfl, piecesTaken_append,
        ← Nat.add_assoc]
      rfl

theorem segmented_of_legal {fd : Fd} {pieces : List Bytes} {tr : Trace sys}
    (h : (cutSpec fd pieces).Legal 0 tr) : Segmented fd pieces tr := by
  have hat := Spec.legal_iff.mp h
  refine ⟨fun pre n r post he => ?_, fun pre n buf post he => ?_⟩
  · have := hat pre _ post he
    rw [cutSpec_run, Nat.zero_add] at this
    exact this rfl
  · have := hat pre _ post he
    rw [cutSpec_run, Nat.zero_add] at this
    exact this rfl

/-- The relays begin with a `poll`. -/
def Polls : Event sys → Bool
  | ⟨.poll _ _, _⟩ => true
  | _ => false

/-- The part of a session before its relay. -/
def beforeRelay (tr : Trace sys) : Trace sys := tr.takeWhile fun e => !Polls e

/-- Up to the relays, and the stream at `fd` apart, what has been answered alike so far is
answered alike again. -/
def AnsweredAlike (fd : Fd) (tr₁ tr₂ : Trace sys) : Prop :=
  ∀ pre o r₁ r₂ post₁ post₂, tr₁ = pre ++ ⟨o, r₁⟩ :: post₁ → tr₂ = pre ++ ⟨o, r₂⟩ :: post₂ →
    NoPoll (pre ++ [⟨o, r₁⟩]) → (∀ n, o ≠ .recv fd n) → r₁ = r₂

/-! ### Up to the relay -/

theorem noPoll_iff {tr : Trace sys} : NoPoll tr ↔ ∀ e ∈ tr, (!Polls e) = true := by
  refine forall₂_congr fun e _ => ?_
  obtain ⟨o, r⟩ := e
  cases o <;> simp [Polls]

theorem beforeRelay_of_noPoll {pre post : Trace sys} (h : NoPoll pre) :
    beforeRelay (pre ++ post) = pre ++ beforeRelay post :=
  List.takeWhile_append_of_pos (noPoll_iff.mp h)

theorem beforeRelay_of_poll {pre post : Trace sys} (h : ¬ NoPoll pre) :
    beforeRelay (pre ++ post) = beforeRelay pre := by
  rw [noPoll_iff] at h
  unfold beforeRelay
  rw [List.takeWhile_append, if_neg]
  intro hlen
  refine h fun e he => ?_
  have hall := (List.takeWhile_prefix fun e => !Polls e).eq_of_length hlen
  rw [← hall] at he
  exact List.mem_takeWhile_imp (p := fun e => !Polls e) he

/-- **Sessions that are served the same pieces come to their relays alike.** -/
theorem beforeRelay_eq {α : Type} {p : Server α} {tr₁ tr₂ : Trace sys} {a₁ a₂ : α} {fd : Fd}
    {pieces₁ pieces₂ : List Bytes} (h₁ : Eval p tr₁ a₁) (h₂ : Eval p tr₂ a₂)
    (hseg₁ : Segmented fd pieces₁ tr₁) (hseg₂ : Segmented fd pieces₂ tr₂)
    (halike : AnsweredAlike fd tr₁ tr₂)
    (hcut : ∀ k < piecesTaken fd (beforeRelay tr₁), pieces₁.getD k [] = pieces₂.getD k []) :
    beforeRelay tr₁ = beforeRelay tr₂ := by
  rcases h₁.same_or_diverge h₂ with ⟨rfl, -⟩ | ⟨pre, o, r₁, r₂, post₁, post₂, hne, he₁, he₂⟩
  · rfl
  by_cases hpre : NoPoll pre
  · by_cases hpoll : ∃ fds timeout, o = .poll fds timeout
    · obtain ⟨fds, timeout, rfl⟩ := hpoll
      rw [he₁, he₂, beforeRelay_of_noPoll hpre, beforeRelay_of_noPoll hpre]
      rfl
    · have hquiet : NoPoll (pre ++ [⟨o, r₁⟩]) := by
        refine hpre.append fun e he => ?_
        rw [List.mem_singleton.mp he]
        exact fun fds timeout ho => hpoll ⟨fds, timeout, ho⟩
      refine absurd ?_ hne
      by_cases hrecv : ∃ n, o = .recv fd n
      · obtain ⟨n, rfl⟩ := hrecv
        have hr₁ := hseg₁.received pre n r₁ post₁ he₁
        have hr₂ := hseg₂.received pre n r₂ post₂ he₂
        rw [hr₁, hr₂]
        refine congrArg Except.ok (hcut _ ?_)
        have hsplit : beforeRelay tr₁ = pre ++ [⟨.recv fd n, r₁⟩] ++ beforeRelay post₁ := by
          rw [he₁, ← beforeRelay_of_noPoll hquiet]
          simp
        have htaken : piecesTaken fd [⟨.recv fd n, r₁⟩] = 1 := by
          rw [hr₁]
          simp [piecesTaken, TakesPiece]
        rw [hsplit, piecesTaken_append, piecesTaken_append, htaken]
        omega
      · exact halike pre o r₁ r₂ post₁ post₂ he₁ he₂ hquiet fun n ho => hrecv ⟨n, ho⟩
  · rw [he₁, he₂, beforeRelay_of_poll hpre, beforeRelay_of_poll hpre]

/-! ### The parts of a session -/

/-- Before its relay a session writes to its client only, reads and polls nothing, and reports
nothing but failures. -/
def Op.preparing (fd : Fd) : Op → Prop
  | .write fd' _ => fd' = fd
  | .handler e => e.state = .error
  | .read _ _ | .poll _ _ => False
  | _ => True

/-- The same, without opening a stream socket. -/
def Op.greeting (fd : Fd) : Op → Prop
  | .socket _ type => type = .dgram
  | o => o.preparing fd

theorem Op.greeting.preparing (fd : Fd) : ∀ o : Op, o.greeting fd → o.preparing fd := by
  intro o ho
  cases o <;> first | exact ho | trivial

/-- The stream sockets opened for a relay: one for a TCP relay, and none for an association. -/
def SoleTarget : Relay → Trace sys → Prop
  | .none, _ => True
  | .tcp remotefd _ _, tr => ∀ af fd, ⟨.socket af .stream, .ok fd⟩ ∈ tr → fd = remotefd
  | .udp _, tr => ∀ e ∈ tr, ∀ af, e.op ≠ .socket af .stream

theorem SoleTarget.after {relay : Relay} {pre tr : Trace sys} (h : SoleTarget relay tr)
    (hpre : ∀ e ∈ pre, ∀ af, e.op ≠ .socket af .stream) : SoleTarget relay (pre ++ tr) := by
  cases relay with
  | none => trivial
  | tcp remotefd id addr =>
      intro af fd hmem
      rcases List.mem_append.mp hmem with hmem | hmem
      · exact absurd rfl (hpre _ hmem af)
      · exact h af fd hmem
  | udp fd =>
      intro e he
      rcases List.mem_append.mp he with he | he
      · exact hpre e he
      · exact h e he

section Parts

variable {inet : Inet} {cfg : Config} {client : Client} {tr : Trace sys}

theorem greeting_noStream {fd : Fd} (h : ∀ e ∈ tr, e.op.greeting fd) :
    ∀ e ∈ tr, ∀ af, e.op ≠ .socket af .stream := by
  intro e he af ho
  have := h e he
  rw [ho] at this
  cases this

/-- A connection is made with the one stream socket that was opened. -/
theorem setupConnect_sole (address : SockaddrUnion) (requestedAddr : Socks5Addrport) :
    wlp (Spec.history fun _ => True) (setupConnect client address requestedAddr) SoleTarget [] := by
  have hclose : ∀ {h : Trace sys} {connectionId : Int} {remotefd : Fd},
      wlp (Spec.history fun _ => True) (do
        emitAddrportConnectionEvent connectionId .tcp .error requestedAddr .generalFailure
        close remotefd
        return Relay.none) SoleTarget h := fun {_ _ _} =>
    ⟨trivial, trivial, fun _ _ => ⟨trivial, trivial, fun _ _ => ⟨trivial, trivial⟩⟩⟩
  have hfailed : ∀ {h : Trace sys} {connectionId : Int} {ec : Errorcode},
      wlp (Spec.history fun _ => True) (do
        emitAddrportConnectionEvent connectionId .tcp .error requestedAddr ec
        sendError client.fd ec
        return Relay.none) SoleTarget h := fun {_ _ _} =>
    ⟨trivial, trivial, fun _ _ => ⟨trivial, trivial, fun _ _ => ⟨trivial, trivial⟩⟩⟩
  unfold setupConnect
  refine ⟨trivial, trivial, fun connectionId _ => ?_⟩
  refine ⟨trivial, trivial, fun r _ => ?_⟩
  rcases r with e | remotefd
  · exact hfailed
  refine ⟨trivial, trivial, fun r _ => ?_⟩
  rcases r with e | ⟨⟩
  · exact ⟨trivial, trivial, fun _ _ => hfailed⟩
  refine ⟨trivial, trivial, fun r _ => ?_⟩
  rcases r with e | localAddr
  · exact hclose
  refine ⟨trivial, trivial, fun r _ => ?_⟩
  rcases r with e | n
  · exact hclose
  · refine ⟨trivial, fun af fd hmem => ?_⟩
    simp only [Spec.history, List.nil_append, List.append_assoc, List.mem_append,
      List.mem_singleton] at hmem
    rcases hmem with h | h | h | h | h <;> cases h
    rfl

theorem setupConnect_parts {address : SockaddrUnion} {requestedAddr : Socks5Addrport}
    {relay : Relay} (h : Eval (setupConnect client address requestedAddr) tr relay) :
    (∀ e ∈ tr, e.op.preparing client.fd) ∧ SoleTarget relay tr := by
  have hopening : ∀ o : Op, o.opening → o.preparing client.fd := by
    intro o ho
    cases o <;> trivial
  refine ⟨(setupConnect_uses hopening trivial (fun _ he => he) (fun _ => rfl) address
    requestedAddr).eval h, ?_⟩
  have hsole := ((wlp_eval h (setupConnect_sole address requestedAddr)).elim
    (Spec.history_legal fun _ _ => trivial)).2
  rwa [Spec.history_run, List.nil_append] at hsole

theorem setupRequest_parts {buf : Bytes} {relay : Relay}
    (h : Eval (setupRequest inet client buf) tr relay) :
    (∀ e ∈ tr, e.op.preparing client.fd) ∧ SoleTarget relay tr := by
  obtain ⟨parsing, parsed, rest, rfl, hparse, hrest⟩ := eval_bind _ h
  have hlookup : ∀ e ∈ parsing, e.op.greeting client.fd := by
    refine Uses.eval hparse ((parseSocksRequestHeader_uses _ _ _).mono fun o ho => ?_)
    cases o <;> trivial
  have hparsing : ∀ e ∈ parsing, e.op.preparing client.fd :=
    fun e he => Op.greeting.preparing _ _ (hlookup e he)
  have hnone := greeting_noStream hlookup
  rcases parsed with ec | ⟨_ | _, address, requestedAddr⟩
  · cases hrest
    simpa [SoleTarget] using hparsing
  · obtain ⟨hprep, hsole⟩ := setupConnect_parts hrest
    exact ⟨fun e he => (List.mem_append.mp he).elim (hparsing e) (hprep e), hsole.after hnone⟩
  · have hgreeting : ∀ e ∈ rest, e.op.greeting client.fd := by
      refine Uses.eval hrest (setupUdpAssociate_uses (fun o ho => ?_) (fun _ => rfl) address)
      cases o <;> first | exact ho | trivial
    have hall : ∀ e ∈ parsing ++ rest, e.op.greeting client.fd :=
      fun e he => (List.mem_append.mp he).elim (hlookup e) (hgreeting e)
    refine ⟨fun e he => Op.greeting.preparing _ _ (hall e he), ?_⟩
    cases relay with
    | none => trivial
    | tcp remotefd id addr => exact fun af fd hmem => absurd rfl (greeting_noStream hall _ hmem af)
    | udp fd => exact greeting_noStream hall

/-- One round of `clientthread`: it goes on only if there was no request. -/
theorem clientthreadBody_parts {r : Unit ⊕ Unit}
    (h : Eval (clientthreadBody inet cfg client ()) tr r) :
    (∀ e ∈ tr, e.op.greeting client.fd) ∨
    r = .inr () ∧ ∃ pre relay rest, tr = pre ++ rest ∧ (∀ e ∈ pre, e.op.preparing client.fd) ∧
      SoleTarget relay pre ∧ Eval (runRelay inet client relay) rest () := by
  have hconsult : ∀ o : Op, o.consulting → o.greeting client.fd := by
    intro o ho
    cases o <;> trivial
  unfold clientthreadBody at h
  obtain ⟨receiving, received, tr', rfl, hrecv, h⟩ := eval_bind _ h
  have hfirst : ∀ e ∈ receiving, e.op.greeting client.fd :=
    Uses.eval hrecv (uses_perform trivial)
  have hthen : ∀ {p : Server (Unit ⊕ Unit)}, Eval p tr' r → Uses (Op.greeting client.fd) p →
      ∀ e ∈ receiving ++ tr', e.op.greeting client.fd := fun hp hu e he =>
    (List.mem_append.mp he).elim (hfirst e) (hu.eval hp e)
  rcases received with e | buf
  · exact .inl (hthen h trivial)
  dsimp only at h
  split at h
  · exact .inl (hthen h trivial)
  obtain ⟨loading, state, tr'', rfl, hload, h⟩ := eval_bind _ h
  have hsecond : ∀ e ∈ receiving ++ loading, e.op.greeting client.fd := fun e he =>
    (List.mem_append.mp he).elim (hfirst e) (Uses.eval hload (uses_perform trivial) e)
  rw [← List.append_assoc]
  cases state with
  | ss1Connected =>
      refine .inl fun e he => (List.mem_append.mp he).elim (hsecond e) (Uses.eval h ?_ e)
      exact selectMethod_uses hconsult (fun _ => trivial) (fun _ => rfl) cfg buf
  | ss2NeedAuth =>
      refine .inl fun e he => (List.mem_append.mp he).elim (hsecond e) (Uses.eval h ?_ e)
      exact authenticate_uses hconsult (fun _ => trivial) (fun _ => rfl) trivial cfg buf
  | ss3Authed =>
      obtain ⟨served, _, last, rfl, hserved, hlast⟩ := eval_bind _ h
      cases hlast
      obtain ⟨setup, relay, rest, rfl, hsetup, hrelay⟩ := eval_bind _ hserved
      obtain ⟨hprep, hsole⟩ := setupRequest_parts hsetup
      refine .inr ⟨rfl, receiving ++ loading ++ setup, relay, rest, by simp, ?_, ?_, hrelay⟩
      · exact fun e he => (List.mem_append.mp he).elim
          (fun he => Op.greeting.preparing _ _ (hsecond e he)) (hprep e)
      · exact hsole.after (greeting_noStream hsecond)

theorem clientthread_rounds {s s' : Unit} (h : Iters (clientthreadBody inet cfg client) s tr s') :
    ∀ e ∈ tr, e.op.greeting client.fd := by
  induction h with
  | refl => exact fun e he => absurd he List.not_mem_nil
  | tail _ hround ih =>
      rcases clientthreadBody_parts hround with hgreeting | ⟨hleave, -⟩
      · exact fun e he => (List.mem_append.mp he).elim (ih e) (hgreeting e)
      · cases hleave

/-- A session is what it does before its relay, the relay, and the end. -/
theorem clientthread_parts (h : Eval (clientthread inet cfg client) tr ()) :
    ∃ pre relay rest, tr = pre ++ rest ++ [⟨.close client.fd, ()⟩, ⟨.storeDone, ()⟩] ∧
      (∀ e ∈ pre, e.op.preparing client.fd) ∧ SoleTarget relay pre ∧
      Eval (runRelay inet client relay) rest () := by
  unfold clientthread at h
  obtain ⟨starting, _, tr₁, rfl, hstart, h⟩ := eval_bind _ h
  have hfirst : ∀ e ∈ starting, e.op.greeting client.fd :=
    Uses.eval hstart (uses_perform trivial)
  obtain ⟨looping, _, tr₂, rfl, hloop, h⟩ := eval_bind _ h
  have hend : tr₂ = [⟨.close client.fd, ()⟩, ⟨.storeDone, ()⟩] := by
    cases h with
    | call h =>
        cases h with
        | call h =>
            cases h
            rfl
  subst hend
  obtain ⟨rounds, _, last, _, after, rfl, hrounds, hlast, hafter⟩ := eval_loop hloop
  cases hafter
  have hbefore : ∀ e ∈ starting ++ rounds, e.op.greeting client.fd := fun e he =>
    (List.mem_append.mp he).elim (hfirst e) (clientthread_rounds hrounds e)
  rcases clientthreadBody_parts hlast with
    hgreeting | ⟨-, pre, relay, rest, rfl, hprep, hsole, hrelay⟩
  · have hall : ∀ e ∈ starting ++ rounds ++ last, e.op.greeting client.fd := fun e he =>
      (List.mem_append.mp he).elim (hbefore e) (hgreeting e)
    exact ⟨starting ++ rounds ++ last, .none, [], by simp,
      fun e he => Op.greeting.preparing _ _ (hall e he), trivial, .ret ()⟩
  · refine ⟨starting ++ rounds ++ pre, relay, rest, by simp, fun e he => ?_,
      hsole.after (greeting_noStream hbefore), hrelay⟩
    exact (List.mem_append.mp he).elim
      (fun he => Op.greeting.preparing _ _ (hbefore e he)) (hprep e)

/-! ### States -/

theorem storedStates_append (tr tr' : Trace sys) :
    storedStates (tr ++ tr') = storedStates tr ++ storedStates tr' := List.filterMap_append

theorem storedStates_nil (h : ∀ e ∈ tr, ∀ s, e.op ≠ .storeState s) : storedStates tr = [] := by
  refine List.filterMap_eq_nil_iff.mpr fun e he => ?_
  have := h e he
  cases ho : e.op <;> first | rfl | exact absurd ho (this _)

theorem preparing_noPoll {fd : Fd} (h : ∀ e ∈ tr, e.op.preparing fd) : NoPoll tr := by
  intro e he fds timeout ho
  have := h e he
  rw [ho] at this
  exact this

/-- Once a relay has begun the state is not stored again. -/
theorem storedStates_beforeRelay (h : Eval (clientthread inet cfg client) tr ()) :
    storedStates tr = storedStates (beforeRelay tr) := by
  obtain ⟨pre, relay, rest, rfl, hprep, -, hrelay⟩ := clientthread_parts h
  have hserving : ∀ e ∈ rest ++ [⟨.close client.fd, ()⟩, ⟨.storeDone, ()⟩],
      ∀ s, e.op ≠ .storeState s := by
    intro e he s ho
    rcases List.mem_append.mp he with he | he
    · have := (runRelay_uses inet client relay).eval hrelay e he
      rw [ho] at this
      exact this
    · simp only [List.mem_cons, List.not_mem_nil, or_false] at he
      rcases he with rfl | rfl <;> cases ho
  have hrest : ∀ e ∈ beforeRelay (rest ++ [⟨.close client.fd, ()⟩, ⟨.storeDone, ()⟩]),
      ∀ s, e.op ≠ .storeState s := fun e he => hserving e (List.takeWhile_sublist _ |>.subset he)
  rw [List.append_assoc, beforeRelay_of_noPoll (preparing_noPoll hprep), storedStates_append pre,
    storedStates_append pre, storedStates_nil hserving, storedStates_nil hrest]

/-! ### The stream of the relay -/

theorem flatten_eq_head (pieces : List Bytes) :
    pieces.flatten = pieces.getD 0 [] ++ pieces.tail.flatten := by
  cases pieces <;> simp

/-- What is left of a stream does not depend on how it is cut, if what is gone was cut alike. -/
theorem flatten_drop_eq : ∀ (k : Nat) {pieces₁ pieces₂ : List Bytes},
    pieces₁.flatten = pieces₂.flatten →
    (∀ j < k, pieces₁.getD j [] = pieces₂.getD j []) →
    (pieces₁.drop k).flatten = (pieces₂.drop k).flatten := by
  intro k
  induction k with
  | zero => intro pieces₁ pieces₂ h _; exact h
  | succ k ih =>
      intro pieces₁ pieces₂ h hcut
      rw [flatten_eq_head pieces₁, flatten_eq_head pieces₂, hcut 0 (by omega)] at h
      rw [← List.drop_tail, ← List.drop_tail]
      refine ih (List.append_cancel_left h) fun j hj => ?_
      simpa [List.getD_eq_getElem?_getD] using hcut (j + 1) (by omega)

/-- Where only `read` takes from the stream, what is read is the pieces one after the other. -/
theorem readFrom_pieces {fd : Fd} {pieces : List Bytes} {pre rest : Trace sys}
    (hseg : Segmented fd pieces (pre ++ rest)) (hrecv : ∀ e ∈ rest, ∀ n, e.op ≠ .recv fd n) :
    readFrom fd rest =
      ((pieces.drop (piecesTaken fd pre)).take (piecesTaken fd rest)).flatten := by
  suffices ∀ t more, rest = t ++ more → readFrom fd t =
      ((pieces.drop (piecesTaken fd pre)).take (piecesTaken fd t)).flatten from
    this rest [] (by simp)
  intro t
  induction t using List.reverseRecOn with
  | nil => intro more _; simp [readFrom, piecesTaken]
  | append_singleton t e ih =>
      intro more he
      rw [readFrom_append, piecesTaken_append, readFrom_singleton, ih (e :: more) (by simp [he])]
      by_cases htakes : TakesPiece fd e = true
      · obtain ⟨n, buf, rfl | rfl⟩ := takesPiece_iff.mp htakes
        · exact absurd rfl (hrecv ⟨.recv fd n, .ok buf⟩ (by simp [he]) n)
        have hbuf := hseg.read (pre ++ t) n buf more (by simp [he])
        have hone : piecesTaken fd [⟨.read fd n, .ok buf⟩] = 1 := by
          simp [piecesTaken, htakes]
        rw [hone, List.take_add_one, List.flatten_append, List.getElem?_drop,
          ← piecesTaken_append]
        simp only [readBy, if_true, hbuf, List.getD_eq_getElem?_getD]
        cases pieces[piecesTaken fd (pre ++ t)]? <;> simp
      · have hnone : piecesTaken fd [e] = 0 := by simp [piecesTaken, htakes]
        have hread : readBy fd e = [] := by
          unfold readBy
          split
          · rename_i fd' n buf
            exact if_neg fun h => htakes (takesPiece_iff.mpr ⟨n, buf, .inr (by rw [h])⟩)
          · rfl
        rw [hnone, hread]
        simp

/-! ### Delivery -/

/-- The relay reported its connection closed. -/
def ReportsClosed (tr : Trace sys) : Prop :=
  ∃ e ∈ tr, ∃ event, e.op = .handler event ∧ event.state = .closed

/-- `fd` is sent what comes from the client, in order, and by the time the connection is reported
closed, all of it. -/
structure PassesOn (clientFd fd : Fd) (stream : Bytes) (tr : Trace sys) : Prop where
  read : readFrom clientFd tr <+: stream
  inOrder : writtenTo fd tr <+: readFrom clientFd tr
  all : ReportsClosed tr → writtenTo fd tr = readFrom clientFd tr

theorem preparing_quiet {clientFd : Fd} (h : ∀ e ∈ tr, e.op.preparing clientFd) :
    (∀ fd, readFrom fd tr = []) ∧ (∀ fd, fd ≠ clientFd → writtenTo fd tr = []) ∧
      ¬ ReportsClosed tr := by
  refine ⟨fun fd => ?_, fun fd hne => ?_, ?_⟩
  · refine List.flatMap_eq_nil_iff.mpr fun e he => ?_
    have := h e he
    unfold readBy
    split
    · exact this.elim
    · rfl
  · refine List.flatMap_eq_nil_iff.mpr fun e he => ?_
    have := h e he
    unfold writtenBy
    split
    · exact if_neg fun h => hne (h.symm.trans this)
    · rfl
  · rintro ⟨e, he, event, ho, hclosed⟩
    have := h e he
    rw [ho] at this
    rw [show event.state = .error from this] at hclosed
    cases hclosed

theorem copyloop_begins {fd1 fd2 : Fd} {r : ConnectionState} (h : Eval (copyloop fd1 fd2) tr r)
    (more : Trace sys) : beforeRelay (tr ++ more) =
      [⟨.storePending .downloaded 0, ()⟩, ⟨.storePending .uploaded 0, ()⟩] := by
  have hpolls : ∀ {t : Trace sys} {x}, Eval (copyloopBody fd1 fd2 ()) t x →
      ∀ more, beforeRelay (t ++ more) = [] := by
    intro t x hbody more
    unfold copyloopBody at hbody
    cases hbody with
    | call _ => rfl
  unfold copyloop at h
  cases h with
  | call h =>
      cases h with
      | call h =>
          cases h with
          | @again _ _ _ _ _ _ _ _ tr' _ hb _ =>
              have := hpolls hb (tr' ++ more)
              rw [← List.append_assoc] at this
              exact congrArg (fun t => _ :: _ :: t) this
          | @leave _ _ _ _ _ _ _ _ tr' _ hb _ =>
              have := hpolls hb (tr' ++ more)
              rw [← List.append_assoc] at this
              exact congrArg (fun t => _ :: _ :: t) this

/-- What a TCP relay does: it reports, copies, reports again and closes the target. -/
theorem runRelay_tcp {remotefd : Fd} {connectionId : Int} {requestedAddr : Socks5Addrport}
    (h : Eval (runRelay inet client (.tcp remotefd connectionId requestedAddr)) tr ()) :
    ∃ copying r, Eval (copyloop client.fd remotefd) copying r ∧
      tr = [⟨.handler ⟨connectionId, .tcp, .opened, requestedAddr.addr, requestedAddr.port,
          .success⟩, ()⟩] ++ copying ++
        [⟨.handler ⟨connectionId, .tcp, r, requestedAddr.addr, requestedAddr.port,
          if r = .error then .generalFailure else .success⟩, ()⟩, ⟨.close remotefd, ()⟩] := by
  obtain ⟨opening, _, tr₁, rfl, hopen, hrun⟩ := eval_bind _ h
  cases hopen with
  | call hopen =>
  cases hopen
  obtain ⟨copying, r, tr₂, rfl, hcopy, hend⟩ := eval_bind _ hrun
  cases hend with
  | call hend =>
  cases hend with
  | call hend =>
  cases hend
  exact ⟨copying, r, hcopy, rfl⟩

/-- A TCP relay passes on what it reads, and takes no piece of the stream before its first
`poll`. -/
theorem runRelay_delivers {fd : Fd} {connectionId : Int} {requestedAddr : Socks5Addrport}
    (h : Eval (runRelay inet client (.tcp fd connectionId requestedAddr)) tr ())
    (hacc : ∀ e ∈ tr, AcceptsSome e) :
    writtenTo fd tr <+: readFrom client.fd tr ∧
    (ReportsClosed tr → writtenTo fd tr = readFrom client.fd tr) ∧
    (∀ e ∈ tr, ∀ n, e.op ≠ .recv client.fd n) ∧
    ∀ more, piecesTaken client.fd (beforeRelay (tr ++ more)) = 0 := by
  obtain ⟨copying, r, hcopy, rfl⟩ := runRelay_tcp h
  have hrelaying := (copyloop_relaying _ _).eval hcopy
  obtain ⟨hopen, hclosed, herror⟩ := (copyloop_relays_exactly client.fd fd).2.1 copying r hcopy
    fun e he => hacc e (by simp [he])
  simp only [writtenTo_append, readFrom_append]
  simp only [writtenTo, readFrom, List.flatMap_cons, List.flatMap_nil, writtenBy, readBy,
    List.nil_append, List.append_nil]
  refine ⟨?_, ?_, ?_, fun more => ?_⟩
  · cases r with
    | opened => exact absurd rfl hopen
    | closed => exact (hclosed rfl).behind.1
    | error => exact (herror rfl).1
  · rintro ⟨e, he, event, ho, hstate⟩
    simp only [List.mem_append, List.mem_cons, List.not_mem_nil, or_false] at he
    rcases he with (rfl | he) | rfl | rfl
    · cases ho
      cases hstate
    · have := hrelaying e he
      rw [ho] at this
      exact this.elim
    · cases ho
      exact (hclosed hstate).1
    · cases ho
  · intro e he n ho
    simp only [List.mem_append, List.mem_cons, List.not_mem_nil, or_false] at he
    rcases he with (rfl | he) | rfl | rfl
    · cases ho
    · have := hrelaying e he
      rw [ho] at this
      exact this
    · cases ho
    · cases ho
  · have hbegin := copyloop_begins hcopy ([⟨.handler ⟨connectionId, .tcp, r, requestedAddr.addr,
      requestedAddr.port, if r = .error then .generalFailure else .success⟩, ()⟩,
      ⟨.close fd, ()⟩] ++ more)
    rw [← List.append_assoc] at hbegin
    rw [List.append_assoc, List.append_assoc, beforeRelay_of_noPoll (by simp [NoPoll]),
      ← List.append_assoc, hbegin]
    rfl

theorem clientthread_delivers {pieces : List Bytes} {af : Af} {fd : Fd}
    (h : Eval (clientthread inet cfg client) tr ()) (hseg : Segmented client.fd pieces tr)
    (hacc : ∀ e ∈ tr, AcceptsSome e) (hsocket : ⟨.socket af .stream, .ok fd⟩ ∈ tr)
    (hne : fd ≠ client.fd) :
    ⟨.socket af .stream, .ok fd⟩ ∈ beforeRelay tr ∧
    PassesOn client.fd fd (pieces.drop (piecesTaken client.fd (beforeRelay tr))).flatten tr := by
  obtain ⟨pre, relay, rest, rfl, hprep, hsole, hrelay⟩ := clientthread_parts h
  obtain ⟨hnoread, hnowrite, hnoclosed⟩ := preparing_quiet hprep
  have hbefore : ∀ more, beforeRelay (pre ++ rest ++ more) = pre ++ beforeRelay (rest ++ more) := by
    intro more
    rw [List.append_assoc, beforeRelay_of_noPoll (preparing_noPoll hprep)]
  rw [hbefore]
  have hinPre : ⟨.socket af .stream, .ok fd⟩ ∈ rest → False := by
    intro hmem
    cases relay with
    | none =>
        cases hrelay
        cases hmem
    | tcp remotefd connectionId requestedAddr =>
        obtain ⟨copying, r, hcopy, rfl⟩ := runRelay_tcp hrelay
        simp only [List.mem_append, List.mem_cons, List.not_mem_nil, or_false] at hmem
        rcases hmem with (hmem | hmem) | hmem | hmem
        · cases hmem
        · exact (copyloop_relaying _ _).eval hcopy _ hmem
        · cases hmem
        · cases hmem
    | udp udpFd =>
        obtain ⟨copying, _, closing, rfl, hcopy, hclose⟩ := eval_bind _ hrelay
        rcases List.mem_append.mp hmem with hmem | hmem
        · cases (copyLoopUdp_uses _ _ _).eval hcopy _ hmem
        · cases hclose with
          | call hclose =>
              cases hclose
              simp at hmem
  have hpre : ⟨.socket af .stream, .ok fd⟩ ∈ pre := by
    simp only [List.mem_append, List.mem_cons, List.not_mem_nil, or_false] at hsocket
    rcases hsocket with (hmem | hmem) | hmem | hmem
    · exact hmem
    · exact (hinPre hmem).elim
    · cases hmem
    · cases hmem
  refine ⟨List.mem_append_left _ hpre, ?_⟩
  cases relay with
  | none =>
      cases hrelay
      have hread : readFrom client.fd
          (pre ++ [] ++ [⟨.close client.fd, ()⟩, ⟨.storeDone, ()⟩]) = [] := by
        rw [readFrom_append, readFrom_append, hnoread]
        rfl
      have hwritten : writtenTo fd
          (pre ++ [] ++ [⟨.close client.fd, ()⟩, ⟨.storeDone, ()⟩]) = [] := by
        rw [writtenTo_append, writtenTo_append, hnowrite fd hne]
        rfl
      exact ⟨by rw [hread]; exact List.nil_prefix, by rw [hwritten]; exact List.nil_prefix,
        fun _ => by rw [hread, hwritten]⟩
  | udp udpFd => exact absurd rfl (hsole _ hpre af)
  | tcp remotefd connectionId requestedAddr =>
      obtain rfl := hsole af fd hpre
      obtain ⟨horder, hall, hnorecv, hnone⟩ :=
        runRelay_delivers hrelay fun e he => hacc e (by simp [he])
      have hread : readFrom client.fd
          (pre ++ rest ++ [⟨.close client.fd, ()⟩, ⟨.storeDone, ()⟩])
          = readFrom client.fd rest := by
        rw [readFrom_append, readFrom_append, hnoread, List.nil_append]
        exact List.append_nil _
      have hwritten : writtenTo fd
          (pre ++ rest ++ [⟨.close client.fd, ()⟩, ⟨.storeDone, ()⟩]) = writtenTo fd rest := by
        rw [writtenTo_append, writtenTo_append, hnowrite fd hne, List.nil_append]
        exact List.append_nil _
      refine ⟨?_, by rw [hread, hwritten]; exact horder, fun hreport => ?_⟩
      · rw [List.append_assoc] at hseg
        have hpieces := readFrom_pieces hseg fun e he n ho => by
          rcases List.mem_append.mp he with he | he
          · exact hnorecv e he n ho
          · simp only [List.mem_cons, List.not_mem_nil, or_false] at he
            rcases he with rfl | rfl <;> cases ho
        rw [piecesTaken_append, hnone, Nat.add_zero, List.append_assoc, readFrom_append, hnoread,
          List.nil_append, hpieces]
        exact ⟨_, by rw [← List.flatten_append, List.take_append_drop]⟩
      · rw [hread, hwritten]
        refine hall ?_
        obtain ⟨e, he, event, ho, hstate⟩ := hreport
        simp only [List.mem_append, List.mem_cons, List.not_mem_nil, or_false] at he
        rcases he with (he | he) | rfl | rfl
        · exact absurd ⟨e, he, event, ho, hstate⟩ hnoclosed
        · exact ⟨e, he, event, ho, hstate⟩
        · cases ho
        · cases ho

end Parts

/-! ### The result -/

/-- Two sessions do the same with what their client sent: everything up to the relays, replies
and request included, and the states; and a target is sent the same stream. -/
structure SameSession (client : Client) (stream : Bytes) (tr₁ tr₂ : Trace sys) : Prop where
  setup : beforeRelay tr₁ = beforeRelay tr₂
  states : storedStates tr₁ = storedStates tr₂
  delivered : ∀ af fd, fd ≠ client.fd → ⟨.socket af .stream, .ok fd⟩ ∈ tr₁ →
    PassesOn client.fd fd stream tr₁ ∧ PassesOn client.fd fd stream tr₂
  whole : ∀ af fd, fd ≠ client.fd → ⟨.socket af .stream, .ok fd⟩ ∈ tr₁ →
    ReportsClosed tr₁ → ReportsClosed tr₂ →
    readFrom client.fd tr₁ = stream → readFrom client.fd tr₂ = stream →
    writtenTo fd tr₁ = writtenTo fd tr₂

/-- What comes to the relay alike is answered alike. -/
theorem answeredAlike_of_setup {fd : Fd} {tr₁ tr₂ : Trace sys}
    (h : beforeRelay tr₁ = beforeRelay tr₂) : AnsweredAlike fd tr₁ tr₂ := by
  intro pre o r₁ r₂ post₁ post₂ he₁ he₂ hquiet _
  have hquiet₂ : NoPoll (pre ++ [⟨o, r₂⟩]) := by
    intro e he fds timeout ho
    rcases List.mem_append.mp he with he | he
    · exact hquiet e (List.mem_append_left _ he) fds timeout ho
    · rw [List.mem_singleton.mp he] at ho
      exact hquiet ⟨o, r₁⟩ (by simp) fds timeout ho
  rw [he₁, he₂, ← List.singleton_append, ← List.append_assoc, beforeRelay_of_noPoll hquiet,
    ← List.singleton_append (l := post₂), ← List.append_assoc, beforeRelay_of_noPoll hquiet₂,
    List.append_assoc, List.append_assoc] at h
  have := (List.cons.inj (List.append_cancel_left h)).1
  cases this
  rfl

/-- Two runs that part where their clients' streams are received are answered alike. -/
theorem answeredAlike_of_recv {fd : Fd} {n : Nat} {r₁ r₂ : Except Errno Bytes}
    {pre post₁ post₂ : Trace sys} (hne : r₁ ≠ r₂) :
    AnsweredAlike fd (pre ++ ⟨.recv fd n, r₁⟩ :: post₁) (pre ++ ⟨.recv fd n, r₂⟩ :: post₂) := by
  intro pre' o s₁ s₂ more₁ more₂ he₁ he₂ _ hrecv
  have hhere : ∀ {x}, (⟨.recv fd n, r₁⟩ : Event sys) :: post₁ = ⟨o, s₁⟩ :: x → s₁ = s₂ := by
    intro x h
    cases h
    exact absurd rfl (hrecv n)
  rcases List.append_eq_append_iff.mp he₁ with ⟨gap, rfl, hgap⟩ | ⟨gap, rfl, hgap⟩
  · cases gap with
    | nil => exact hhere hgap
    | cons e gap =>
        rw [List.append_assoc] at he₂
        have hfirst := (List.cons.inj hgap).1
        have hsecond := (List.cons.inj (List.append_cancel_left he₂)).1
        rw [← hfirst] at hsecond
        cases hsecond
        exact absurd rfl hne
  · cases gap with
    | nil => exact hhere hgap.symm
    | cons e gap =>
        rw [List.append_assoc] at he₂
        have hfirst := (List.cons.inj hgap).1
        have hsecond := (List.cons.inj (List.append_cancel_left he₂)).1
        rw [← hfirst] at hsecond
        cases hsecond
        rfl

/-- The client asks for `webTarget`, and is connected to it. -/
def connectedTrace : Trace sys :=
  [⟨.storeState .ss1Connected, ()⟩,
    ⟨.recv 4 1024, .ok [5, 1, 0]⟩, ⟨.loadState, .ss1Connected⟩, ⟨.storeState .ss3Authed, ()⟩,
    ⟨.write 4 [5, 0], .ok 2⟩,
    ⟨.recv 4 1024, .ok [5, 1, 0, 1, 192, 0, 2, 1, 0, 80]⟩, ⟨.loadState, .ss3Authed⟩,
    ⟨.getaddrinfo webTarget.addr 80 .stream, some (.v4 (hostAddress 1) 80)⟩,
    ⟨.nextConnectionIdentifier, (1 : Int)⟩,
    ⟨.socket .inet .stream, .ok 7⟩, ⟨.connect 7 (.v4 (hostAddress 1) 80), .ok ()⟩,
    ⟨.getsockname 7, .ok (.v4 (hostAddress 9) 50000)⟩,
    ⟨.write 4 [5, 0, 0, 1, 192, 0, 2, 9, 195, 80], .ok 10⟩,
    ⟨.handler ⟨1, .tcp, .opened, webTarget.addr, 80, .success⟩, ()⟩,
    ⟨.storePending .downloaded 0, ()⟩, ⟨.storePending .uploaded 0, ()⟩]

/-- A piece is passed on, with `count` bytes counted before it. -/
def passedOn (count : Nat) (buf : Bytes) : Trace sys :=
  [⟨.poll [(4, POLLIN), (7, POLLIN)] IDLE_TIMEOUT, .ready [POLLIN, 0]⟩,
    ⟨.read 4 TCP_COPY_BUFFER_SIZE, .ok buf⟩, ⟨.write 7 buf, .ok buf.length⟩,
    ⟨.loadPending .uploaded, count⟩, ⟨.storePending .uploaded (count + buf.length), ()⟩,
    ⟨.loadPending .uploaded, count + buf.length⟩]

/-- The client's stream ends, two bytes having been counted. -/
def finished : Trace sys :=
  [⟨.poll [(4, POLLIN), (7, POLLIN)] IDLE_TIMEOUT, .ready [POLLIN, 0]⟩,
    ⟨.read 4 TCP_COPY_BUFFER_SIZE, .ok []⟩,
    ⟨.loadPending .downloaded, (0 : Nat)⟩, ⟨.loadPending .uploaded, (2 : Nat)⟩,
    ⟨.fetchAdd .uploaded 2, ()⟩, ⟨.storePending .uploaded 0, ()⟩,
    ⟨.handler ⟨1, .tcp, .closed, webTarget.addr, 80, .success⟩, ()⟩,
    ⟨.close 7, ()⟩, ⟨.close 4, ()⟩, ⟨.storeDone, ()⟩]

/-- Two bytes come in one piece. -/
def onePiece : Trace sys := connectedTrace ++ passedOn 0 [65, 66] ++ finished

/-- They come one by one. -/
def twoPieces : Trace sys := connectedTrace ++ passedOn 0 [65] ++ passedOn 1 [66] ++ finished

theorem onePiece_run : Eval (clientthread .plain ⟨none, none, false⟩ webClient) onePiece () :=
  eval_of_replay 60 onePiece rfl

theorem twoPieces_run : Eval (clientthread .plain ⟨none, none, false⟩ webClient) twoPieces () :=
  eval_of_replay 60 twoPieces rfl

theorem onePiece_segmented :
    Segmented 4 [[5, 1, 0], [5, 1, 0, 1, 192, 0, 2, 1, 0, 80], [65, 66]] onePiece :=
  segmented_of_legal (by simp [onePiece, connectedTrace, passedOn, finished, Spec.Legal, cutSpec,
    piecesTaken, TakesPiece])

theorem twoPieces_segmented :
    Segmented 4 [[5, 1, 0], [5, 1, 0, 1, 192, 0, 2, 1, 0, 80], [65], [66]] twoPieces :=
  segmented_of_legal (by simp [twoPieces, connectedTrace, passedOn, finished, Spec.Legal, cutSpec,
    piecesTaken, TakesPiece])

/-- A client offers to log in without a password, and leaves. -/
def greetedTrace : Trace sys :=
  [⟨.storeState .ss1Connected, ()⟩,
    ⟨.recv 4 1024, .ok [5, 1, 0]⟩, ⟨.loadState, .ss1Connected⟩, ⟨.storeState .ss3Authed, ()⟩,
    ⟨.write 4 [5, 0], .ok 2⟩,
    ⟨.recv 4 1024, .ok []⟩, ⟨.close 4, ()⟩, ⟨.storeDone, ()⟩]

/-- Only the first byte of the offer comes at once. -/
def cutTrace : Trace sys :=
  [⟨.storeState .ss1Connected, ()⟩,
    ⟨.recv 4 1024, .ok [5]⟩, ⟨.loadState, .ss1Connected⟩, ⟨.write 4 [5, 255], .ok 2⟩,
    ⟨.close 4, ()⟩, ⟨.storeDone, ()⟩]

end TwoSocks
