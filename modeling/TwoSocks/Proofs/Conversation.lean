/-
What a client and the server say to each other.

Before anything is relayed the two take turns: the client greets, the server names a
method; the client gives credentials if it has to, the server accepts them or not; the
client asks, the server grants or refuses.  `Converses` says who may say what in which
phase, and what an answer has to do with the message before it.  It knows nothing of
`t->state`, of the order in which `clientthread` does things or of its calls.

`talkSpec` asks a thread to keep to that, and to relay or abort only once a request was granted.
A thread does: at the head of its loop `t->state` says whose turn it is.  So whatever a
client sends, everything it hears before the relay starts is one of a few conversations
of at most three messages and three answers.
-/
import TwoSocks.Proofs.AuthMethod
import TwoSocks.Proofs.Operations
import TwoSocks.Proofs.Relay

namespace TwoSocks

open Server Prog

/-! ### Conversations -/

/-- How far a conversation has got. -/
inductive Phase
  | greeting
  /-- The client's greeting is to be answered. -/
  | greeted (buf : Bytes)
  | credentials
  /-- The client's credentials are to be answered. -/
  | presented (buf : Bytes)
  | request
  /-- The client's request is to be answered. -/
  | requested (buf : Bytes)
  /-- The request was granted. -/
  | relaying
  /-- Nothing more is to be said. -/
  | over

/-- A message of the client, empty at the end of the connection, or an answer. -/
inductive Utterance
  | heard (buf : Bytes)
  | said (buf : Bytes)

/-- The methods of a greeting of the right version. -/
def greetingMethods (buf : Bytes) : Bytes :=
  if buf.getD 0 0 = 5 then offeredMethods buf buf.length else []

/-- A greeting offers a method. -/
def Offers (buf : Bytes) (am : Authmethod) : Prop := am.code ∈ greetingMethods buf

/-- One turn in a conversation. -/
inductive Converses (inet : Inet) (cfg : Config) : Phase → Utterance → Phase → Prop
  | greet {buf : Bytes} (h : buf ≠ []) : Converses inet cfg .greeting (.heard buf) (.greeted buf)
  /-- No credentials are needed, or they were given before. -/
  | welcome {buf : Bytes} (h : Offers buf .noAuth) (hcfg : cfg.authUser = none ∨ cfg.authOnce) :
      Converses inet cfg (.greeted buf) (.said [5, 0]) .request
  | challenge {buf : Bytes} (h : Offers buf .username) (hcfg : cfg.authUser ≠ none) :
      Converses inet cfg (.greeted buf) (.said [5, 2]) .credentials
  /-- Nothing the greeting offers will do. -/
  | reject {buf : Bytes} (hno : Offers buf .noAuth → cfg.authUser ≠ none)
      (huser : Offers buf .username → cfg.authUser = none) :
      Converses inet cfg (.greeted buf) (.said [5, 0xFF]) .over
  | present {buf : Bytes} (h : buf ≠ []) :
      Converses inet cfg .credentials (.heard buf) (.presented buf)
  | accept {buf : Bytes}
      (h : checkCredentials cfg.authUser cfg.authPass buf buf.length = some .success) :
      Converses inet cfg (.presented buf) (.said [1, 0]) .request
  | deny {buf : Bytes} {ec : Errorcode} (hec : ec ≠ .success)
      (h : checkCredentials cfg.authUser cfg.authPass buf buf.length = some ec) :
      Converses inet cfg (.presented buf) (.said [1, ec.code]) .over
  | ask {buf : Bytes} (h : buf ≠ []) : Converses inet cfg .request (.heard buf) (.requested buf)
  | grant {buf : Bytes} {fields : Socks5Cmd × Socks5Addrport}
      (h : socksRequestFields inet buf buf.length = .ok fields) (addr : SockaddrUnion) :
      Converses inet cfg (.requested buf) (.said (responseBytes .success addr)) .relaying
  | refuse {buf : Bytes} {fields : Socks5Cmd × Socks5Addrport} {ec : Errorcode}
      (hec : ec ≠ .success) (h : socksRequestFields inet buf buf.length = .ok fields) :
      Converses inet cfg (.requested buf) (.said (errorBytes ec)) .over
  | hangUp {p : Phase} (h : p = .greeting ∨ p = .credentials ∨ p = .request) :
      Converses inet cfg p (.heard []) .over

/-- What may have been said when a phase is reached. -/
inductive Conversation (inet : Inet) (cfg : Config) : List Utterance → Phase → Prop
  | begin : Conversation inet cfg [] .greeting
  | turn {us : List Utterance} {u : Utterance} {p p' : Phase} (h : Conversation inet cfg us p)
      (hu : Converses inet cfg p u p') : Conversation inet cfg (us ++ [u]) p'

/-- How much may have been said. -/
def Phase.rank : Phase → Nat
  | .greeting => 0
  | .greeted _ => 1
  | .credentials => 2
  | .presented _ => 3
  | .request => 4
  | .requested _ => 5
  | .relaying | .over => 6

section Conversations

variable {inet : Inet} {cfg : Config} {us : List Utterance} {u : Utterance} {p p' : Phase}

theorem Converses.rank_lt (h : Converses inet cfg p u p') : p.rank < p'.rank := by
  cases h with
  | hangUp h => rcases h with rfl | rfl | rfl <;> simp [Phase.rank]
  | _ => simp [Phase.rank]

theorem Phase.rank_le (p : Phase) : p.rank ≤ 6 := by
  cases p <;> simp [Phase.rank]

/-- At most three messages, and three answers. -/
theorem Conversation.length_le (h : Conversation inet cfg us p) : us.length ≤ p.rank := by
  induction h with
  | begin => exact Nat.zero_le _
  | turn _ hu ih =>
      have hlt := hu.rank_lt
      rw [List.length_append]
      exact Nat.lt_of_le_of_lt ih hlt

/-- Where an utterance leads, if it is allowed. -/
def Phase.after : Phase → Utterance → Phase
  | .greeting, .heard buf => if buf = [] then .over else .greeted buf
  | .greeted _, .said buf =>
      if buf = [5, 0] then .request else if buf = [5, 2] then .credentials else .over
  | .credentials, .heard buf => if buf = [] then .over else .presented buf
  | .presented _, .said buf => if buf = [1, 0] then .request else .over
  | .request, .heard buf => if buf = [] then .over else .requested buf
  | .requested _, .said buf => if buf.getD 1 0 = 0 then .relaying else .over
  | p, _ => p

theorem Converses.after (h : Converses inet cfg p u p') : p.after u = p' := by
  cases h with
  | greet h => exact if_neg h
  | welcome | challenge | reject => rfl
  | present h => exact if_neg h
  | accept => rfl
  | deny hec =>
      refine if_neg fun heq => hec (Errorcode.code_eq_zero.mp ?_)
      simpa using heq
  | ask h => exact if_neg h
  | grant => rfl
  | refuse hec => exact if_neg fun heq => hec (Errorcode.code_eq_zero.mp heq)
  | hangUp h => rcases h with rfl | rfl | rfl <;> rfl

end Conversations

/-! ### What a thread has to do with it -/

/-- The phase, and what `t->state` was set to last. -/
structure Talk where
  phase : Phase
  state : Socksstate

/-- The client may go on. -/
def Phase.Listens (p : Phase) : Prop :=
  p = .greeting ∨ p = .credentials ∨ p = .request ∨ p = .relaying

/-- `socket` returns a descriptor above zero, and `t->state` is what it was set to. -/
def Talk.rely (g : Talk) : (o : Op) → o.Ret → Prop
  | .socket _ _, .ok fd => 0 < fd
  | .loadState, s => s = g.state
  | _, _ => True

/-- Messages are taken in turn, what is said is an answer, and nothing is relayed before it was
granted. -/
def Talk.guar (inet : Inet) (cfg : Config) (client : Client) (g : Talk) : Op → Prop
  | .recv fd _ => if fd = client.fd then g.phase.Listens else g.phase = .relaying
  | .write fd buf =>
      if fd = client.fd then g.phase = .relaying ∨ ∃ p, Converses inet cfg g.phase (.said buf) p
      else g.phase = .relaying
  | .poll _ _ | .read _ _ | .send _ _ | .recvfrom _ _ | .abort => g.phase = .relaying
  | _ => True

def Talk.next (client : Client) (g : Talk) : (o : Op) → o.Ret → Talk
  | .recv fd _, .ok buf =>
      if fd = client.fd then { g with phase := g.phase.after (.heard buf) } else g
  | .write fd buf, _ =>
      if fd = client.fd then { g with phase := g.phase.after (.said buf) } else g
  | .storeState s, _ => { g with state := s }
  | _, _ => g

def talkSpec (inet : Inet) (cfg : Config) (client : Client) : Spec sys Talk where
  rely := Talk.rely
  guar := Talk.guar inet cfg client
  next := Talk.next client

/-- A relay stays one. -/
theorem Talk.next_relaying {client : Client} {g : Talk} (h : g.phase = .relaying) (o : Op)
    (r : o.Ret) : (g.next client o r).phase = .relaying := by
  have hstays : ∀ {c : Prop} [Decidable c] {u : Utterance},
      (if c then { g with phase := g.phase.after u } else g).phase = .relaying := by
    intro c _ u
    rw [h]
    split
    · rfl
    · exact h
  cases o with
  | recv fd len =>
      rcases r with e | buf
      · exact h
      · exact hstays
  | write fd buf => exact hstays
  | _ => exact h

/-- What an event has to do with the conversation on `fd`. -/
def utteredBy (fd : Fd) : Event sys → List Utterance
  | ⟨.recv fd' _, .ok buf⟩ => if fd' = fd then [.heard buf] else []
  | ⟨.write fd' buf, _⟩ => if fd' = fd then [.said buf] else []
  | _ => []

/-- What was said so far: a conversation, and after it what was relayed. -/
def Conversed (inet : Inet) (cfg : Config) (us : List Utterance) (p : Phase) : Prop :=
  ∃ handshake relayed, us = handshake ++ relayed ∧ Conversation inet cfg handshake p ∧
    (relayed ≠ [] → p = .relaying)

section Talking

variable {inet : Inet} {cfg : Config} {client : Client} {us : List Utterance} {g : Talk}
  {tr : Trace sys}

theorem Conversed.silent {p : Phase} (h : Conversed inet cfg us p) :
    Conversed inet cfg (us ++ []) p := by
  rwa [List.append_nil]

/-- Somebody says something, which is allowed or part of what is relayed. -/
theorem Conversed.utter {p : Phase} {u : Utterance} (h : Conversed inet cfg us p)
    (hu : p = .relaying ∨ ∃ p', Converses inet cfg p u p') :
    Conversed inet cfg (us ++ [u]) (p.after u) := by
  obtain ⟨handshake, relayed, rfl, hconv, hrelayed⟩ := h
  by_cases hp : p = .relaying
  · subst hp
    exact ⟨handshake, relayed ++ [u], by rw [List.append_assoc], hconv, fun _ => rfl⟩
  · obtain ⟨p', hu⟩ := hu.resolve_left hp
    obtain rfl : relayed = [] := not_not.mp (mt hrelayed hp)
    refine ⟨handshake ++ [u], [], by simp, ?_, fun h => absurd rfl h⟩
    rw [hu.after]
    exact hconv.turn hu

/-- Whoever may go on may say anything, or leave. -/
theorem Phase.Listens.heard {p : Phase} (h : p.Listens) (buf : Bytes) :
    p = .relaying ∨ ∃ p', Converses inet cfg p (.heard buf) p' := by
  by_cases hbuf : buf = []
  · subst hbuf
    rcases h with rfl | rfl | rfl | rfl
    · exact .inr ⟨_, .hangUp (.inl rfl)⟩
    · exact .inr ⟨_, .hangUp (.inr (.inl rfl))⟩
    · exact .inr ⟨_, .hangUp (.inr (.inr rfl))⟩
    · exact .inl rfl
  · rcases h with rfl | rfl | rfl | rfl
    · exact .inr ⟨_, .greet hbuf⟩
    · exact .inr ⟨_, .present hbuf⟩
    · exact .inr ⟨_, .ask hbuf⟩
    · exact .inl rfl

theorem Conversed.event {e : Event sys} (h : Conversed inet cfg us g.phase)
    (hg : (talkSpec inet cfg client).guar g e.op) :
    Conversed inet cfg (us ++ utteredBy client.fd e)
      ((talkSpec inet cfg client).next g e.op e.ret).phase := by
  obtain ⟨o, r⟩ := e
  cases o
  case recv fd len =>
    rcases r with e | buf
    · exact h.silent
    · by_cases hfd : fd = client.fd
      · simp only [talkSpec, Talk.next, utteredBy, if_pos hfd]
        exact h.utter (Phase.Listens.heard ((if_pos hfd).mp hg) buf)
      · simp only [talkSpec, Talk.next, utteredBy, if_neg hfd]
        exact h.silent
  case write fd buf =>
    by_cases hfd : fd = client.fd
    · simp only [talkSpec, Talk.next, utteredBy, if_pos hfd]
      exact h.utter ((if_pos hfd).mp hg)
    · simp only [talkSpec, Talk.next, utteredBy, if_neg hfd]
      exact h.silent
  all_goals exact h.silent

/-- **A trace that keeps to the spec is a conversation, and what is relayed after it.** -/
theorem conversed_guaranteed : ∀ {us : List Utterance} {g : Talk},
    Conversed inet cfg us g.phase → (talkSpec inet cfg client).Guaranteed g tr →
      Conversed inet cfg (us ++ tr.flatMap (utteredBy client.fd))
        ((talkSpec inet cfg client).run g tr).phase := by
  induction tr with
  | nil => exact fun h _ => h.silent
  | cons e tr ih =>
      intro us g h hg
      rw [List.flatMap_cons, ← List.append_assoc]
      exact ih (h.event hg.1) hg.2

end Talking

/-! ### The method -/

/-- What the scan over some methods may come back with. -/
def Chosen (cfg : Config) (offered : Bytes) : Authmethod → Prop
  | .noAuth => Authmethod.noAuth.code ∈ offered ∧ (cfg.authUser = none ∨ cfg.authOnce)
  | .username => Authmethod.username.code ∈ offered ∧ cfg.authUser ≠ none
  | .invalid => (Authmethod.noAuth.code ∈ offered → cfg.authUser ≠ none) ∧
      (Authmethod.username.code ∈ offered → cfg.authUser = none)
  | .gssapi => False

section Thread

variable {inet : Inet} {cfg : Config} {client : Client} {g : Talk}

/-- A method that is passed over. -/
def PassedOver (cfg : Config) (method : UInt8) : Prop :=
  (method = Authmethod.noAuth.code → cfg.authUser ≠ none) ∧
    (method = Authmethod.username.code → cfg.authUser = none)

theorem considerAuthMethod_returns (method : UInt8) : Returns (fun
    | some am => Chosen cfg [method] am ∧ am ≠ .invalid
    | none => PassedOver cfg method) (considerAuthMethod cfg method client) := by
  have hcodes : Authmethod.noAuth.code ≠ Authmethod.username.code := by decide
  unfold considerAuthMethod
  by_cases hno : method = Authmethod.noAuth.code
  · rw [if_pos hno]
    subst hno
    by_cases huser : cfg.authUser = none
    · rw [if_pos (by simp [huser])]
      exact ⟨⟨by simp, .inl huser⟩, by decide⟩
    · have hpassed : PassedOver cfg Authmethod.noAuth.code :=
        ⟨fun _ => huser, fun h => absurd h hcodes⟩
      rw [if_neg (by simpa using huser)]
      by_cases honce : cfg.authOnce = true
      · rw [if_pos honce]
        refine .bind (.any _) fun r _ => ?_
        cases r with
        | true => exact ⟨⟨by simp, .inr honce⟩, by decide⟩
        | false => exact hpassed
      · rw [if_neg honce]
        exact hpassed
  · rw [if_neg hno]
    by_cases hname : method = Authmethod.username.code
    · rw [if_pos hname]
      subst hname
      by_cases huser : cfg.authUser = none
      · rw [if_neg (by simp [huser])]
        exact ⟨fun h => absurd h hno, fun _ => huser⟩
      · rw [if_pos (by simpa [Option.isSome_iff_ne_none] using huser)]
        exact ⟨⟨by simp, huser⟩, by decide⟩
    · rw [if_neg hname]
      exact ⟨fun h => absurd h hno, fun h => absurd h hname⟩

theorem scanOffered_returns (offered : Bytes) :
    Returns (Chosen cfg offered) (scanOffered cfg client offered) := by
  induction offered with
  | nil => exact ⟨fun h => absurd h List.not_mem_nil, fun h => absurd h List.not_mem_nil⟩
  | cons method later ih =>
      refine .bind (considerAuthMethod_returns method) fun r hr => ?_
      rcases r with _ | am
      · refine Returns.mono (fun am ham => ?_) ih
        cases am with
        | noAuth => exact ⟨List.mem_cons_of_mem _ ham.1, ham.2⟩
        | username => exact ⟨List.mem_cons_of_mem _ ham.1, ham.2⟩
        | gssapi => exact ham
        | invalid =>
            refine ⟨fun hm => ?_, fun hm => ?_⟩
            · exact (List.mem_cons.mp hm).elim (fun h => hr.1 h.symm) ham.1
            · exact (List.mem_cons.mp hm).elim (fun h => hr.2 h.symm) ham.2
      · have hsub : [method] ⊆ method :: later := by simp
        obtain ⟨ham, hvalid⟩ := hr
        cases am with
        | noAuth => exact ⟨hsub ham.1, ham.2⟩
        | username => exact ⟨hsub ham.1, ham.2⟩
        | gssapi => exact ham
        | invalid => exact absurd rfl hvalid

/-- `check_auth_method` is that scan. -/
theorem checkAuthMethod_scan (buf : Bytes) :
    checkAuthMethod cfg buf buf.length client = scanOffered cfg client (greetingMethods buf) := by
  rw [checkAuthMethod_eq le_rfl]
  unfold greetingMethods
  by_cases hversion : buf.getD 0 0 = 5
  · rw [if_pos hversion]
    split
    · rename_i hshort
      have hnil : offeredMethods buf buf.length = [] := by
        apply List.eq_nil_of_length_eq_zero
        rw [offeredMethods_length le_rfl]
        have := hshort.resolve_left (not_not.mpr hversion)
        omega
      rw [hnil]
      rfl
    · rfl
  · rw [if_neg hversion, if_pos (.inl hversion)]
    rfl

theorem checkAuthMethod_returns (buf : Bytes) :
    Returns (Chosen cfg (greetingMethods buf)) (checkAuthMethod cfg buf buf.length client) := by
  rw [checkAuthMethod_scan]
  exact scanOffered_returns _

/-! ### A thread -/

/-- What has no part in the conversation. -/
def Op.wordless : Op → Prop
  | .recv _ _ | .recvfrom _ _ | .read _ _ | .write _ _ | .send _ _ | .poll _ _ => False
  | .abort | .storeState _ => False
  | _ => True

theorem Op.consulting.wordless : ∀ o : Op, o.consulting → o.wordless := by
  intro o h
  cases o <;> trivial

theorem Op.opening.wordless : ∀ o : Op, o.opening → o.wordless := by
  intro o h
  cases o <;> trivial

theorem wlp_wordless {α : Type} {p : Server α} (h : Uses Op.wordless p) :
    wlp (talkSpec inet cfg client) p (fun _ g' => g' = g) g := by
  refine wlp_of_uses (J := fun g' => g' = g) (fun _ _ => trivial) (fun g' o _ ho => ?_)
    (fun g' o r hg ho _ => ?_) h rfl
  · cases o with
    | recv | recvfrom | read | write | send | poll | abort => cases ho
    | _ => trivial
  · cases o with
    | recv | write | storeState => cases ho
    | _ => exact hg

/-- An answer. -/
theorem wlp_answer {buf : Bytes} {p p' : Phase} (hg : g.phase = p)
    (hp : Converses inet cfg p (.said buf) p') {Q : Except Errno Nat → Talk → Prop}
    (hQ : ∀ r, Q r { g with phase := p' }) :
    wlp (talkSpec inet cfg client) (write client.fd buf) Q g := by
  subst hg
  refine ⟨trivial, (if_pos rfl).mpr (.inr ⟨p', hp⟩), fun r _ => ⟨trivial, ?_⟩⟩
  have hnext : (talkSpec inet cfg client).next g (.write client.fd buf) r
      = { g with phase := p' } := by
    show (if client.fd = client.fd then _ else _) = _
    rw [if_pos rfl, hp.after]
  rw [hnext]
  exact hQ r

/-- Whose turn it is at the head of the loop. -/
inductive Turn (cfg : Config) : Talk → Prop
  | greeting : Turn cfg ⟨.greeting, .ss1Connected⟩
  | credentials (h : cfg.authUser ≠ none) : Turn cfg ⟨.credentials, .ss2NeedAuth⟩
  | request : Turn cfg ⟨.request, .ss3Authed⟩

/-- A greeting or credentials are still to be answered. -/
def Phase.owes (p : Phase) : Prop := ∃ buf, p = .greeted buf ∨ p = .presented buf

theorem Turn.listens (h : Turn cfg g) : g.phase.Listens := by
  cases h with
  | greeting => exact .inl rfl
  | credentials _ => exact .inr (.inl rfl)
  | request => exact .inr (.inr (.inl rfl))

theorem Turn.not_owes (h : Turn cfg g) : ¬ g.phase.owes := by
  cases h <;> simp [Phase.owes]

/-- What an iteration leaves. -/
def Turned (cfg : Config) (r : Unit ⊕ Unit) (g : Talk) : Prop :=
  r.elim (fun _ => Turn cfg g) fun _ => ¬ g.phase.owes

theorem selectMethod_talks (buf : Bytes) (hg : g = ⟨.greeted buf, .ss1Connected⟩) :
    wlp (talkSpec inet cfg client) (selectMethod cfg client buf) (Turned cfg) g := by
  subst hg
  have hscan : wlp (talkSpec inet cfg client) (checkAuthMethod cfg buf buf.length client)
      (fun am g' => Chosen cfg (greetingMethods buf) am ∧ g' = ⟨.greeted buf, .ss1Connected⟩)
      ⟨.greeted buf, .ss1Connected⟩ :=
    wlp_returns (checkAuthMethod_returns buf)
      (wlp_wordless ((checkAuthMethod_uses _ _ _ _).mono Op.consulting.wordless))
  unfold selectMethod sendAuthResponse
  simp only [bind_eq, pure_eq, wlp_bind]
  refine wlp_mono _ ?_ hscan
  rintro am g' ⟨ham, rfl⟩
  cases am with
  | noAuth =>
      simp only [if_true, wlp_bind, wlp_storeState]
      refine ⟨trivial, trivial, fun _ => ⟨trivial, ?_⟩⟩
      exact wlp_answer rfl (.welcome ham.1 ham.2) fun r => ⟨trivial, trivial, .request⟩
  | username =>
      simp only [reduceCtorEq, if_false, if_true, wlp_bind, wlp_storeState]
      refine ⟨trivial, trivial, fun _ => ⟨trivial, ?_⟩⟩
      exact wlp_answer rfl (.challenge ham.1 ham.2) fun r =>
        ⟨trivial, trivial, .credentials ham.2⟩
  | gssapi => exact ham.elim
  | invalid =>
      simp only [reduceCtorEq, if_false, wlp_bind]
      exact wlp_answer rfl (.reject ham.1 ham.2) fun r =>
        ⟨trivial, trivial, by simp [Turned, Phase.owes]⟩

theorem authenticate_talks (hcfg : cfg.accepted = true) (huser : cfg.authUser ≠ none) (buf : Bytes)
    (hg : g = ⟨.presented buf, .ss2NeedAuth⟩) :
    wlp (talkSpec inet cfg client) (authenticate cfg client buf) (Turned cfg) g := by
  subst hg
  unfold authenticate sendAuthResponse
  split
  · rename_i hcheck
    have huser : cfg.authUser.isSome := Option.isSome_iff_ne_none.mpr huser
    exact absurd hcheck (checkCredentials_isSome (Config.accepted_hasCredentials hcfg huser) _ _)
  · rename_i ec hcheck
    simp only [bind_eq, pure_eq, wlp_bind]
    by_cases hec : ec = .success
    · subst hec
      refine wlp_answer rfl (.accept hcheck) fun r => ⟨trivial, ?_⟩
      simp only [ne_eq, not_true_eq_false, if_false, wlp_bind, wlp_storeState]
      refine ⟨trivial, trivial, fun _ => ⟨trivial, ?_⟩⟩
      split
      · refine (wlp_bind _).mpr (wlp_mono _ ?_
          (wlp_wordless ((rememberAuthIp_uses _).mono Op.consulting.wordless)))
        rintro _ g' rfl
        exact ⟨trivial, .request⟩
      · exact ⟨trivial, .request⟩
    · refine wlp_answer rfl (.deny hec hcheck) fun r => ⟨trivial, ?_⟩
      rw [if_pos hec]
      exact ⟨trivial, by simp [Turned, Phase.owes]⟩

/-! ### A request -/

/-- What a setup leaves: a relay only runs if the request was granted. -/
def SetUp (relay : Relay) (g : Talk) : Prop :=
  ¬ g.phase.owes ∧ (relay ≠ .none → g.phase = .relaying)

theorem setUp_none (h : ¬ g.phase.owes) : SetUp .none g := ⟨h, fun hr => absurd rfl hr⟩

theorem setupConnect_talks {buf : Bytes} {fields : Socks5Cmd × Socks5Addrport}
    (hf : socksRequestFields inet buf buf.length = .ok fields) (hg : g.phase = .requested buf)
    (address : SockaddrUnion) (requestedAddr : Socks5Addrport) :
    wlp (talkSpec inet cfg client) (setupConnect client address requestedAddr) SetUp g := by
  have hrequested : ¬ g.phase.owes := by simp [hg, Phase.owes]
  unfold setupConnect sendError sendResponse
  simp only [bind_eq, pure_eq, wlp_bind]
  refine ⟨trivial, trivial, fun id _ => ⟨trivial, ?_⟩⟩
  refine wlp_mono _ ?_ (wlp_returns (connectSocksTarget_returns _)
    (wlp_wordless ((connectSocksTarget_uses _).mono Op.opening.wordless)))
  rintro (ec | remotefd) g' ⟨hec, rfl⟩
  · simp only [wlp_bind]
    refine ⟨trivial, trivial, fun _ _ => ⟨trivial, ?_⟩⟩
    exact wlp_answer hg (.refuse (hec ec rfl) hf) fun r =>
      ⟨trivial, trivial, setUp_none (by simp [Phase.owes])⟩
  · simp only [wlp_bind]
    refine ⟨trivial, trivial, fun r _ => ⟨trivial, ?_⟩⟩
    rcases r with e | localAddr
    · simp only [wlp_bind]
      exact ⟨trivial, trivial, fun _ _ => ⟨trivial, trivial, trivial, fun _ _ =>
        ⟨trivial, trivial, setUp_none hrequested⟩⟩⟩
    · simp only [wlp_bind]
      refine wlp_answer hg (.grant hf localAddr) fun r => ?_
      rcases r with e | n
      · simp only [wlp_bind]
        exact ⟨trivial, trivial, fun _ _ => ⟨trivial, trivial, trivial, fun _ _ =>
          ⟨trivial, trivial, setUp_none (by simp [Talk.next, talkSpec, Phase.owes])⟩⟩⟩
      · exact ⟨trivial, by simp [Phase.owes], fun _ => rfl⟩

/-- A relay socket that was opened is above zero, and one that was not has a code. -/
theorem udpSvcSetup_talks (clientAddr : SockaddrUnion) :
    wlp (talkSpec inet cfg client) (udpSvcSetup clientAddr) (fun r g' => g' = g ∧
      match r with
      | .error ec => ec ≠ .success
      | .ok fd => 0 < fd) g := by
  unfold udpSvcSetup
  simp only [pure_eq, bind_eq, wlp_bind, wlp_socket]
  refine ⟨trivial, trivial, fun fd hfd => ⟨trivial, ?_⟩⟩
  rcases fd with e | fd
  · exact ⟨trivial, rfl, socketErrorCodeFromErrno_ne_success e⟩
  · simp only
    split
    · simp only [wlp_bind, wlp_connect]
      refine ⟨trivial, trivial, fun r _ => ⟨trivial, ?_⟩⟩
      rcases r with e | ⟨⟩
      · simp only [wlp_bind, wlp_close]
        exact ⟨trivial, trivial, fun _ => ⟨trivial, trivial, rfl,
          socketErrorCodeFromErrno_ne_success e⟩⟩
      · exact ⟨trivial, rfl, hfd⟩
    · simp only [wlp_bind, wlp_getaddrinfoPassive]
      refine ⟨trivial, trivial, fun r _ => ⟨trivial, ?_⟩⟩
      rcases r with _ | addr
      · simp only [wlp_bind, wlp_close]
        exact ⟨trivial, trivial, fun _ => ⟨trivial, trivial, rfl, by decide⟩⟩
      · simp only [wlp_bind, wlp_bindCall]
        refine ⟨trivial, trivial, fun r _ => ⟨trivial, ?_⟩⟩
        rcases r with e | ⟨⟩
        · simp only [wlp_bind, wlp_close]
          exact ⟨trivial, trivial, fun _ => ⟨trivial, trivial, rfl, by decide⟩⟩
        · exact ⟨trivial, rfl, hfd⟩

theorem setupUdpAssociate_talks {buf : Bytes} {fields : Socks5Cmd × Socks5Addrport}
    (hf : socksRequestFields inet buf buf.length = .ok fields) (hg : g.phase = .requested buf)
    (address : SockaddrUnion) :
    wlp (talkSpec inet cfg client) (setupUdpAssociate client address) SetUp g := by
  have hrequested : ¬ g.phase.owes := by simp [hg, Phase.owes]
  unfold setupUdpAssociate sendError sendResponse
  simp only [bind_eq, pure_eq, wlp_bind]
  refine wlp_mono _ ?_ (udpSvcSetup_talks address)
  rintro (ec | fd) g' ⟨rfl, hr⟩
  · simp only [wlp_bind]
    exact wlp_answer hg (.refuse hr hf) fun r =>
      ⟨trivial, trivial, setUp_none (by simp [Phase.owes])⟩
  · obtain ⟨n, rfl⟩ := Nat.exists_eq_succ_of_ne_zero (Nat.pos_iff_ne_zero.mp hr)
    simp only [wlp_bind]
    refine wlp_mono _ ?_ (wlp_wordless ((populateUdpResponseAddr_uses _ _).mono fun o ho =>
      Op.opening.wordless o (Op.binding.opening o (Op.lookup.binding o ho))))
    rintro (_ | localAddr) g'' rfl
    · simp only [wlp_bind, wlp_close]
      exact ⟨trivial, trivial, fun _ => ⟨trivial, trivial, setUp_none hrequested⟩⟩
    · simp only [wlp_bind]
      refine wlp_answer hg (.grant hf localAddr) fun r => ?_
      rcases r with e | k
      · simp only [wlp_bind, wlp_close]
        exact ⟨trivial, trivial, fun _ => ⟨trivial, trivial,
          setUp_none (by simp [Talk.next, talkSpec, Phase.owes])⟩⟩
      · exact ⟨trivial, by simp [Phase.owes], fun _ => rfl⟩

theorem setupRequest_talks {buf : Bytes} (hg : g.phase = .requested buf) :
    wlp (talkSpec inet cfg client) (setupRequest inet client buf) SetUp g := by
  have hrequested : ¬ g.phase.owes := by simp [hg, Phase.owes]
  unfold setupRequest parseSocksRequestHeader resolveSocks5Addrport
  cases hf : socksRequestFields inet buf buf.length with
  | error ec => exact ⟨trivial, setUp_none hrequested⟩
  | ok fields =>
      obtain ⟨cmd, addrport⟩ := fields
      simp only [pure_eq, bind_eq, wlp_bind, wlp_getaddrinfo]
      refine ⟨trivial, trivial, fun addr _ => ⟨trivial, ?_⟩⟩
      rcases addr with _ | address
      · exact ⟨trivial, trivial, trivial, setUp_none hrequested⟩
      · cases cmd with
        | connect => exact ⟨trivial, trivial, setupConnect_talks hf hg _ _⟩
        | udpAssociate => exact ⟨trivial, trivial, setupUdpAssociate_talks hf hg _⟩

/-- A relay may do anything, and stays one. -/
theorem runRelay_talks (relay : Relay) (hs : SetUp relay g) :
    wlp (talkSpec inet cfg client) (runRelay inet client relay) (fun _ g' => ¬ g'.phase.owes)
      g := by
  by_cases hr : relay = .none
  · subst hr
    exact ⟨trivial, hs.1⟩
  · refine wlp_mono _ ?_ (wlp_of_uses (J := fun g' : Talk => g'.phase = .relaying)
      (fun _ _ => trivial) (fun g' o hg' _ => ?_) (fun g' o r hg' _ _ => ?_)
      (runRelay_uses inet client relay) (hs.2 hr))
    · rintro _ g' hg'
      simp [hg', Phase.owes]
    · cases o with
      | recv fd len =>
          by_cases hfd : fd = client.fd
          · exact (if_pos hfd).mpr (.inr (.inr (.inr hg')))
          · exact (if_neg hfd).mpr hg'
      | write fd buf =>
          by_cases hfd : fd = client.fd
          · exact (if_pos hfd).mpr (.inl hg')
          · exact (if_neg hfd).mpr hg'
      | poll | read | send | recvfrom | abort => exact hg'
      | _ => trivial
    · exact Talk.next_relaying hg' o r

/-! ### The loop -/

theorem clientthreadBody_talks (hcfg : cfg.accepted = true) (hturn : Turn cfg g) :
    wlp (talkSpec inet cfg client) (clientthreadBody inet cfg client ()) (Turned cfg) g := by
  unfold clientthreadBody
  simp only [bind_eq, pure_eq, wlp_bind, wlp_recv]
  refine ⟨trivial, (if_pos rfl).mpr hturn.listens, fun r _ => ⟨trivial, ?_⟩⟩
  rcases r with e | buf
  · exact ⟨trivial, hturn.not_owes⟩
  have hnext : (talkSpec inet cfg client).next g (.recv client.fd CLIENT_BUFFER_SIZE) (.ok buf)
      = { g with phase := g.phase.after (.heard buf) } := if_pos rfl
  rw [hnext]
  dsimp only
  by_cases hbuf : buf = []
  · subst hbuf
    rw [if_pos rfl]
    refine ⟨trivial, ?_⟩
    cases hturn <;> simp [Turned, Phase.after, Phase.owes]
  · rw [if_neg hbuf]
    simp only [wlp_bind, wlp_loadState]
    refine ⟨trivial, trivial, ?_⟩
    rintro s rfl
    refine ⟨trivial, ?_⟩
    cases hturn with
    | greeting => exact selectMethod_talks buf (by simp [talkSpec, Talk.next, Phase.after, hbuf])
    | credentials huser =>
        exact authenticate_talks hcfg huser buf (by simp [talkSpec, Talk.next, Phase.after, hbuf])
    | request =>
        unfold serveRequest
        simp only [bind_eq, wlp_bind]
        refine wlp_mono _ (fun relay g' hs => ?_)
          (setupRequest_talks (by simp [talkSpec, Talk.next, Phase.after, hbuf]))
        exact wlp_mono _ (fun _ g'' h => ⟨trivial, h⟩) (runRelay_talks relay hs)

/-- **A thread keeps to the conversation.** -/
theorem clientthread_talks (hcfg : cfg.accepted = true) :
    wlp (talkSpec inet cfg client) (clientthread inet cfg client) (fun _ g => ¬ g.phase.owes)
      ⟨.greeting, .ss1Connected⟩ := by
  unfold clientthread
  simp only [bind_eq, wlp_bind, wlp_storeState, wlp_close, wlp_storeDone]
  refine ⟨trivial, trivial, fun _ => ⟨trivial, ?_⟩⟩
  refine wlp_iterate (fun _ g => Turn cfg g) .greeting fun _ g hturn => ?_
  refine wlp_mono _ ?_ (clientthreadBody_talks hcfg hturn)
  rintro (_ | _) g' hr
  · exact hr
  · exact ⟨trivial, trivial, fun _ => ⟨trivial, trivial, trivial, fun _ => ⟨trivial, hr⟩⟩⟩

end Thread

/-! ### Runs -/

/-- What is done for a relay: there is something to wait for, or it is not the client that is read
from or written to. -/
def Relays (clientFd : Fd) : Event sys → Prop
  | ⟨.poll _ _, _⟩ | ⟨.read _ _, _⟩ | ⟨.send _ _, _⟩ | ⟨.recvfrom _ _, _⟩ => True
  | ⟨.recv fd _, _⟩ | ⟨.write fd _, _⟩ => fd ≠ clientFd
  | _ => False

/-- The client's request was granted. -/
def Granted (inet : Inet) (cfg : Config) (client : Client) (tr : Trace sys) : Prop :=
  ∃ handshake relayed, tr.flatMap (utteredBy client.fd) = handshake ++ relayed ∧
    Conversation inet cfg handshake .relaying

section Runs

variable {inet : Inet} {cfg : Config} {client : Client} {g : Talk} {tr : Trace sys}

theorem talk_relaying : ∀ {g : Talk}, g.phase = .relaying →
    ((talkSpec inet cfg client).run g tr).phase = .relaying := by
  induction tr with
  | nil => exact fun h => h
  | cons e tr ih => exact fun h => ih (Talk.next_relaying h e.op e.ret)

/-- Where something is relayed, the request was granted. -/
theorem relays_granted {e : Event sys} (he : Relays client.fd e)
    (hg : (talkSpec inet cfg client).guar g e.op) : g.phase = .relaying := by
  obtain ⟨o, r⟩ := e
  cases o with
  | poll | read | send | recvfrom => exact hg
  | recv | write => exact (if_neg he).mp hg
  | _ => exact he.elim

/-- What was said so far, where every operation keeps to the spec. -/
theorem conversed_so_far
    (hg : (talkSpec inet cfg client).Guaranteed ⟨.greeting, .ss1Connected⟩ tr) :
    Conversed inet cfg (tr.flatMap (utteredBy client.fd))
      ((talkSpec inet cfg client).run ⟨.greeting, .ss1Connected⟩ tr).phase := by
  have hbegin : Conversed inet cfg [] Phase.greeting :=
    ⟨[], [], rfl, .begin, fun h => absurd rfl h⟩
  exact conversed_guaranteed hbegin hg

/-- What is done for a relay comes after the request was granted. -/
theorem relays_after {pre post : Trace sys} {e : Event sys}
    (hg : (talkSpec inet cfg client).Guaranteed ⟨.greeting, .ss1Connected⟩ (pre ++ e :: post))
    (he : Relays client.fd e) : Granted inet cfg client pre := by
  have hphase := relays_granted he hg.at
  obtain ⟨handshake, relayed, heq, hconv, -⟩ := conversed_so_far (Spec.guaranteed_append.mp hg).1
  exact ⟨handshake, relayed, heq, hphase ▸ hconv⟩

/--
**What client and server say to each other is a conversation.**

In any run of a thread, as far as it has come, what was received from the client and
sent to it is a conversation and, if its request was granted, what was relayed after it.
That is at most three messages and three answers.  Nothing is done for a relay before the request
was granted, and the thread does not abort before that.  When the thread is done, no greeting and
no credentials are unanswered.
-/
theorem session_conversation (hcfg : cfg.accepted = true) {whole : Block → Prop}
    {rest : Server Unit} (h : Steps whole (clientthread inet cfg client) tr rest)
    (hl : (talkSpec inet cfg client).Legal ⟨.greeting, .ss1Connected⟩ tr) :
    ∃ handshake relayed p, tr.flatMap (utteredBy client.fd) = handshake ++ relayed ∧
      Conversation inet cfg handshake p ∧ handshake.length ≤ 6 ∧
      (relayed ≠ [] → p = .relaying) ∧
      (∀ pre e post, tr = pre ++ e :: post → Relays client.fd e →
        p = .relaying ∧ Granted inet cfg client pre) ∧
      (∀ k, rest = .call .abort k → p = .relaying) ∧ (rest = .ret () → ¬ p.owes) := by
  have htalks : wlp (talkSpec inet cfg client) (clientthread inet cfg client)
      (fun _ g => ¬ g.phase.owes) ⟨.greeting, .ss1Connected⟩ := clientthread_talks hcfg
  obtain ⟨hg, hrest⟩ := (wlp_steps h (fun _ _ _ _ => trivial) htalks).elim hl
  obtain ⟨handshake, relayed, heq, hconv, hrelayed⟩ := conversed_so_far hg
  refine ⟨handshake, relayed, _, heq, hconv, ?_, hrelayed, ?_, ?_, ?_⟩
  · exact hconv.length_le.trans (Phase.rank_le _)
  · rintro pre e post rfl hrelays
    refine ⟨?_, relays_after hg hrelays⟩
    rw [Spec.run_append]
    exact talk_relaying (relays_granted hrelays hg.at)
  · rintro k rfl
    exact hrest.2.1
  · rintro rfl
    exact hrest.2

end Runs

/-- The client asks for a connection to `webTarget` and gets it. -/
def grantedTrace : Trace sys :=
  [⟨.storeState .ss1Connected, ()⟩,
    ⟨.recv 4 1024, .ok [5, 1, 0]⟩, ⟨.loadState, .ss1Connected⟩, ⟨.storeState .ss3Authed, ()⟩,
    ⟨.write 4 [5, 0], .ok 2⟩,
    ⟨.recv 4 1024, .ok [5, 1, 0, 1, 192, 0, 2, 1, 0, 80]⟩, ⟨.loadState, .ss3Authed⟩,
    ⟨.getaddrinfo webTarget.addr 80 .stream, some (.v4 (hostAddress 1) 80)⟩,
    ⟨.nextConnectionIdentifier, (1 : Int)⟩,
    ⟨.socket .inet .stream, .ok 7⟩, ⟨.connect 7 (.v4 (hostAddress 1) 80), .ok ()⟩,
    ⟨.getsockname 7, .ok (.v4 (hostAddress 9) 50000)⟩,
    ⟨.write 4 [5, 0, 0, 1, 192, 0, 2, 9, 195, 80], .ok 10⟩,
    ⟨.handler ⟨1, .tcp, .opened, webTarget.addr, 80, .success⟩, ()⟩,
    ⟨.storePending .downloaded 0, ()⟩, ⟨.storePending .uploaded 0, ()⟩]

/-- Something is relayed both ways, and the client leaves. -/
def relayingTrace : Trace sys :=
  uploadTurn ++ downloadTurn ++ closingTurn ++
    [⟨.handler ⟨1, .tcp, .closed, webTarget.addr, 80, .success⟩, ()⟩,
      ⟨.close 7, ()⟩, ⟨.close 4, ()⟩, ⟨.storeDone, ()⟩]

/-- What is relayed comes after the request was granted. -/
theorem session_conversation_granted : ∃ handshake relayed,
    (grantedTrace ++ relayingTrace).flatMap (utteredBy 4) = handshake ++ relayed ∧
      Conversation Inet.plain ⟨none, none, false⟩ handshake .relaying ∧
      Granted Inet.plain ⟨none, none, false⟩ webClient grantedTrace := by
  have hsteps : Steps (fun _ => False) (clientthread Inet.plain ⟨none, none, false⟩ webClient)
      (grantedTrace ++ relayingTrace) (.ret ()) := Eval.steps (eval_of_replay 60 _ rfl)
  have hlegal : (talkSpec Inet.plain ⟨none, none, false⟩ webClient).Legal
      ⟨.greeting, .ss1Connected⟩ (grantedTrace ++ relayingTrace) := by
    simp [Spec.Legal, grantedTrace, relayingTrace, uploadTurn, downloadTurn, closingTurn, talkSpec,
      Talk.rely, Talk.next, Phase.after, webClient]
  obtain ⟨handshake, relayed, p, heq, hconv, -, -, hrelays, -, -⟩ :=
    session_conversation rfl hsteps hlegal
  obtain ⟨rfl, hgranted⟩ := hrelays grantedTrace _ _ rfl trivial
  exact ⟨handshake, relayed, heq, hconv, hgranted⟩

end TwoSocks
