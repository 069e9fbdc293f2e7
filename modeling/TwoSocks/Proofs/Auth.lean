/-
Who is let in.

A connection gets to `SS_3_AUTHED` by credentials that were accepted on it, or by an
address in the list of authenticated addresses.  The list is shared, so the second way
is about all connections at once: an address is in the list because some connection
put it there after its own credentials had been accepted.

`Login` is what one thread's past says about it, `loginSpec` what it may do at each
point, and `Whitelist` the relation between the list and the pasts of all threads.  The
sections under the lock are one step each; between them nobody has the list open.
-/
import TwoSocks.Proofs.InetText
import TwoSocks.Proofs.Operations

namespace TwoSocks

open Server Prog

/-! ### Addresses -/

/-- The same host: family and address bytes, whatever the port. -/
def SameAddress (a b : SockaddrUnion) : Prop := a.af = b.af ∧ a.addressBytes = b.addressBytes

theorem SameAddress.symm {a b : SockaddrUnion} (h : SameAddress a b) : SameAddress b a :=
  ⟨h.1.symm, h.2.symm⟩

/-- `is_authed` compares the whole address. -/
theorem isAuthed_iff {client authedip : SockaddrUnion} :
    isAuthed client authedip = true ↔ SameAddress client authedip := by
  have htake : ∀ a : SockaddrUnion,
      a.addressBytes.take (if a.af = .inet then 4 else 16) = a.addressBytes := by
    intro a
    cases a <;> simp [SockaddrUnion.af, SockaddrUnion.addressBytes]
  unfold isAuthed SameAddress
  by_cases haf : authedip.af = client.af
  · have hclient := htake client
    rw [← haf] at hclient
    simp only [if_pos haf, hclient, htake authedip, beq_iff_eq]
    exact ⟨fun h => ⟨haf.symm, h⟩, fun h => h.2⟩
  · simp only [if_neg haf, Bool.false_eq_true, false_iff, not_and]
    exact fun h => absurd h.symm haf

theorem isInAuthedList_iff {l : Sblist SockaddrUnion} {caddr : SockaddrUnion} :
    isInAuthedList l caddr = true ↔ ∃ a ∈ l.items, SameAddress caddr a := by
  simp only [isInAuthedList, List.any_eq_true, isAuthed_iff]

/-! ### The configuration -/

/-- Both `auth_user` and `auth_pass` are there. -/
def Config.hasCredentials (cfg : Config) : Prop := cfg.authUser.isSome ∧ cfg.authPass.isSome

theorem Config.accepted_hasCredentials {cfg : Config} (h : cfg.accepted = true)
    (hu : cfg.authUser.isSome = true) : cfg.hasCredentials := by
  refine ⟨hu, ?_⟩
  unfold accepted at h
  cases hp : cfg.authPass with
  | none => simp [hu, hp] at h
  | some p => rfl

/-- With both there, `check_credentials` compares with neither of them missing. -/
theorem checkCredentials_isSome {cfg : Config} (h : cfg.hasCredentials) (buf : Bytes) (n : Nat) :
    checkCredentials cfg.authUser cfg.authPass buf n ≠ none := by
  obtain ⟨user, hu⟩ := Option.isSome_iff_exists.mp h.1
  obtain ⟨pass, hp⟩ := Option.isSome_iff_exists.mp h.2
  rw [hu, hp]
  simp only [checkCredentials, Option.bind_some]
  split_ifs <;> simp

/-! ### What a past says -/

/-- `check_credentials` was called on `buf`: the thread received it and then found its
state to be `SS_2_NEED_AUTH`. -/
def ChecksCredentials (client : Client) (tr : Trace sys) (buf : Bytes) : Prop :=
  ∃ pre post, tr = pre ++ ⟨.recv client.fd CLIENT_BUFFER_SIZE, .ok buf⟩ ::
    ⟨.loadState, .ss2NeedAuth⟩ :: post

/-- `check_credentials` returned `EC_SUCCESS` on this connection. -/
def Succeeded (cfg : Config) (client : Client) (tr : Trace sys) : Prop :=
  ∃ buf, ChecksCredentials client tr buf ∧
    checkCredentials cfg.authUser cfg.authPass buf buf.length = some .success

theorem Succeeded.append {cfg : Config} {client : Client} {tr : Trace sys}
    (h : Succeeded cfg client tr) (tr' : Trace sys) : Succeeded cfg client (tr ++ tr') := by
  obtain ⟨buf, ⟨pre, post, rfl⟩, hok⟩ := h
  exact ⟨buf, ⟨pre, post ++ tr', by simp⟩, hok⟩

/-- The connection may be let in, given the pasts of all: its own credentials were
accepted, or in auth-once mode those of a connection from the same address. -/
def Admitted (cfg : Config) (ts : List (Thread sys Client ThreadMem)) (client : Client)
    (tr : Trace sys) : Prop :=
  Succeeded cfg client tr ∨ cfg.authOnce = true ∧
    ∃ t ∈ ts, Succeeded cfg t.id t.trace ∧ SameAddress client.addr t.id.addr

/-- What only the handling of a request asks for. -/
def Op.requested : Op → Prop
  | .recv _ _ | .write _ _ | .close _ | .realloc _ | .storeDone => False
  | .rdlock | .wrlock | .unlock | .loadAuthIps | .storeAuthIps _ => False
  | .loadState | .storeState _ => False
  | _ => True

/-- An event of a request: the state is found to be `SS_3_AUTHED`, so that the message
goes to the request parser, or something only requests ask for. -/
def ServesRequest : Event sys → Prop
  | ⟨.loadState, s⟩ => s = .ss3Authed
  | ⟨o, _⟩ => o.requested

/-- The values a thread has stored in `t->state`, the first one first. -/
def storedStates (tr : Trace sys) : List Socksstate :=
  tr.filterMap fun e => match e.op with
    | .storeState s => some s
    | _ => none

/-! ### One thread -/

/-- What a thread's past comes to. -/
structure Login where
  state : Socksstate
  /-- The message received last, if nothing has happened since. -/
  received : Option Bytes
  /-- Its credentials were accepted. -/
  succeeded : Bool
  /-- Its address was found in the list. -/
  listed : Bool
  /-- The list as it was last seen, while the lock is held. -/
  locked : Option (List SockaddrUnion)

/-- A thread that has done nothing. -/
def Login.initial : Login := ⟨.ss1Connected, none, false, false, none⟩

/-- A message is taken for credentials that are right. -/
def Login.accepts (cfg : Config) (g : Login) (s : Socksstate) : Bool :=
  s == .ss2NeedAuth && g.received.any fun buf =>
    checkCredentials cfg.authUser cfg.authPass buf buf.length == some .success

def Login.next (cfg : Config) (client : Client) (g : Login) (o : Op) (r : o.Ret) : Login :=
  match o, r with
  | .recv fd len, .ok buf =>
      { g with received := if fd = client.fd ∧ len = CLIENT_BUFFER_SIZE then some buf else none }
  | .loadState, s =>
      { g with received := none, succeeded := g.succeeded || g.accepts cfg s }
  | .storeState s, _ => { g with received := none, state := s }
  | .loadAuthIps, l =>
      { g with
        received := none, locked := some l.items
        listed := g.listed || isInAuthedList l client.addr }
  | .storeAuthIps l, _ => { g with received := none, locked := some l.items }
  | .unlock, _ => { g with received := none, locked := none }
  | _, _ => { g with received := none }

/-- The thread may be let in. -/
def Login.admitted (cfg : Config) (g : Login) : Prop :=
  cfg.authUser.isSome = true → g.succeeded = true ∨ cfg.authOnce = true ∧ g.listed = true

/-- The state of the connection is one its past allows. -/
def Login.sound (cfg : Config) (g : Login) : Prop :=
  (g.state = .ss3Authed → g.admitted cfg) ∧ (g.state = .ss2NeedAuth → cfg.hasCredentials)

/-- What a thread may do. -/
def loginSpec (cfg : Config) (client : Client) : Spec sys Login where
  rely g o r := match o, r with
    | .loadState, r => r = g.state
    | _, _ => True
  guar g o := match o with
    | .loadState => g.sound cfg
    | .storeState s => g.state.rank ≤ s.rank ∧ Login.sound cfg { g with state := s }
    | .storeAuthIps l => g.succeeded = true ∧ ∃ items, g.locked = some items ∧
        l.items = items ++ [client.addr] ∧ ∀ a ∈ items, ¬ SameAddress client.addr a
    | o => o.requested → g.admitted cfg
  next := Login.next cfg client
  inv g := g.locked = none ∧ g.sound cfg
  atomic t := t = .locked

section Past

variable {cfg : Config} {client : Client}

theorem login_received {tr : Trace sys} {buf : Bytes}
    (h : ((loginSpec cfg client).run .initial tr).received = some buf) :
    ∃ pre, tr = pre ++ [⟨.recv client.fd CLIENT_BUFFER_SIZE, .ok buf⟩] := by
  rcases List.eq_nil_or_concat tr with rfl | ⟨pre, ⟨o, r⟩, rfl⟩
  · simp [Login.initial] at h
  · rw [List.concat_eq_append, Spec.run_append] at h
    cases o with
    | recv fd len =>
        rcases r with e | b
        · simp [loginSpec, Login.next] at h
        · simp only [Spec.run_cons, Spec.run_nil, loginSpec, Login.next,
            Option.ite_none_right_eq_some, Option.some.injEq] at h
          obtain ⟨⟨rfl, rfl⟩, rfl⟩ := h
          exact ⟨pre, List.concat_eq_append ..⟩
    | _ => simp [loginSpec, Login.next] at h

theorem login_succeeded {tr : Trace sys}
    (h : ((loginSpec cfg client).run .initial tr).succeeded = true) :
    Succeeded cfg client tr := by
  induction tr using List.reverseRecOn with
  | nil => simp [Login.initial] at h
  | append_singleton tr e ih =>
      obtain ⟨o, r⟩ := e
      rw [Spec.run_append] at h
      cases o with
      | loadState =>
          simp only [Spec.run_cons, Spec.run_nil, loginSpec, Login.next, Bool.or_eq_true,
            Login.accepts, Bool.and_eq_true, beq_iff_eq, Option.any_eq_true] at h
          rcases h with h | ⟨rfl, buf, hbuf, hok⟩
          · exact (ih h).append _
          · obtain ⟨pre, rfl⟩ := login_received hbuf
            exact ⟨buf, ⟨pre, [], by simp⟩, hok⟩
      | recv fd len => rcases r with e | b <;> exact (ih h).append _
      | _ => exact (ih h).append _

theorem login_listed {tr : Trace sys} : ∀ {g : Login}, g.listed = true →
    ((loginSpec cfg client).run g tr).listed = true := by
  induction tr with
  | nil => intro g h; exact h
  | cons e tr ih =>
      obtain ⟨o, r⟩ := e
      intro g h
      refine ih ?_
      cases o with
      | loadAuthIps =>
          show (g.listed || isInAuthedList r client.addr) = true
          rw [h, Bool.true_or]
      | recv fd len => rcases r with e | b <;> exact h
      | _ => exact h

theorem login_state {tr : Trace sys} : ∀ {g : Login},
    ((loginSpec cfg client).run g tr).state = (storedStates tr).getLastD g.state := by
  induction tr with
  | nil => intro g; rfl
  | cons e tr ih =>
      obtain ⟨o, r⟩ := e
      intro g
      rw [Spec.run_cons, ih]
      cases o with
      | storeState s => exact (List.getLastD_cons ..).symm
      | recv fd len => rcases r with e | b <;> rfl
      | _ => rfl

/-- A request is served by a thread that may be let in. -/
theorem admitted_of_serves {g : Login} {e : Event sys}
    (hguar : (loginSpec cfg client).guar g e.op) (hrely : (loginSpec cfg client).rely g e.op e.ret)
    (he : ServesRequest e) : g.admitted cfg := by
  obtain ⟨o, r⟩ := e
  cases o with
  | loadState => exact hguar.1 (hrely.symm.trans he)
  | storeState | storeAuthIps => cases he
  | _ => exact hguar he

/-- The states stored are in order, and none is below the one the thread is in. -/
theorem storedStates_sorted {tr : Trace sys} : ∀ {g : Login},
    (loginSpec cfg client).Guaranteed g tr →
      (∀ s ∈ storedStates tr, g.state.rank ≤ s.rank) ∧
        (storedStates tr).Pairwise fun s s' => s.rank ≤ s'.rank := by
  induction tr with
  | nil => intro g _; exact ⟨by simp [storedStates], .nil⟩
  | cons e tr ih =>
      obtain ⟨o, r⟩ := e
      intro g h
      obtain ⟨hlow, hsorted⟩ := ih h.2
      cases o with
      | storeState s =>
          have hs : g.state.rank ≤ s.rank := h.1.1
          refine ⟨fun s' hs' => ?_, .cons (fun s' hs' => hlow s' hs') hsorted⟩
          rcases List.mem_cons.mp hs' with rfl | hs'
          · exact hs
          · exact hs.trans (hlow s' hs')
      | recv fd len => rcases r with e | b <;> exact ⟨hlow, hsorted⟩
      | _ => exact ⟨hlow, hsorted⟩

end Past

section Handshake

variable {cfg : Config} {client : Client} {g : Login}

/-- Nothing the handshake may rely on is lost. -/
def Login.Stays (g g' : Login) : Prop :=
  g'.state = g.state ∧ (g.succeeded = true → g'.succeeded = true) ∧
    (g.listed = true → g'.listed = true) ∧ g'.locked = none

theorem Login.Stays.trans {g g' g'' : Login} (h : g.Stays g') (h' : g'.Stays g'') :
    g.Stays g'' :=
  ⟨h'.1.trans h.1, h'.2.1 ∘ h.2.1, h'.2.2.1 ∘ h.2.2.1, h'.2.2.2⟩

theorem Login.admitted.mono {g g' : Login} (h : g.admitted cfg)
    (hs : g.succeeded = true → g'.succeeded = true)
    (hl : g.listed = true → g'.listed = true) : g'.admitted cfg :=
  fun hu => (h hu).imp hs (And.imp_right hl)

theorem Login.Stays.sound {g g' : Login} (h : g.Stays g') (hg : g.sound cfg) : g'.sound cfg := by
  obtain ⟨hstate, hs, hl, _⟩ := h
  unfold Login.sound
  rw [hstate]
  exact ⟨fun h3 => (hg.1 h3).mono hs hl, hg.2⟩

theorem Login.Stays.inv {g g' : Login} (h : g.Stays g') (hg : (loginSpec cfg client).inv g) :
    (loginSpec cfg client).inv g' := ⟨h.2.2.2, h.sound hg.2⟩

/-- Looking the address up changes nothing, and says whether it was there. -/
theorem lookupAuthIp_spec (hinv : (loginSpec cfg client).inv g) :
    wlp (loginSpec cfg client) (lookupAuthIp client.addr)
      (fun b g' => g.Stays g' ∧ (b = true → g'.listed = true)) g := by
  unfold lookupAuthIp
  refine wlp_atomically hinv ?_
  simp only [bind_eq, pure_eq, wlp_bind, wlp_rdlock]
  refine ⟨.inl rfl, False.elim, fun r _ => ⟨.inl rfl, ?_⟩⟩
  cases r with
  | false =>
      have hstays : g.Stays ((loginSpec cfg client).next g .rdlock false) :=
        ⟨rfl, id, id, hinv.1⟩
      exact ⟨.inl rfl, hstays.inv hinv, hstays, by simp⟩
  | true =>
      simp only [if_true, wlp_bind, wlp_loadAuthIps, wlp_unlock, wlp_ret]
      refine ⟨.inl rfl, False.elim, fun l _ => ⟨.inl rfl, .inl rfl, False.elim, fun _ =>
        ⟨.inl rfl, .inl rfl, ?_⟩⟩⟩
      generalize hg' : ((loginSpec cfg client).within Block.locked).next _ _ _ = g'
      have hlisted : g'.listed = (g.listed || isInAuthedList l client.addr) := by rw [← hg']; rfl
      have hstays : g.Stays g' := by
        refine ⟨by rw [← hg']; rfl, fun h => by rw [← hg']; exact h, fun h => ?_,
          by rw [← hg']; rfl⟩
        rw [hlisted, h, Bool.true_or]
      exact ⟨hstays.inv hinv, hstays, fun hb => by rw [hlisted, hb, Bool.or_true]⟩

/-- Storing an address is done by a connection whose credentials were accepted, and only
if no entry has that address. -/
theorem rememberAuthIp_spec (hinv : (loginSpec cfg client).inv g) (hs : g.succeeded = true) :
    wlp (loginSpec cfg client) (rememberAuthIp client.addr) (fun _ g' => g.Stays g') g := by
  unfold rememberAuthIp
  refine wlp_atomically hinv ?_
  have hunlock : ∀ g' : Login, g'.state = g.state → g'.succeeded = true →
      (g.listed = true → g'.listed = true) → wlp ((loginSpec cfg client).within Block.locked) unlock
        (fun _ g'' => (loginSpec cfg client).inv g'' ∧ g.Stays g'') g' := by
    intro g' hstate hsucc hlist
    rw [wlp_unlock]
    refine ⟨.inl rfl, False.elim, fun _ => ⟨.inl rfl, ?_⟩⟩
    have hstays : g.Stays ((loginSpec cfg client).next g' .unlock ()) :=
      ⟨hstate, fun _ => hsucc, hlist, rfl⟩
    exact ⟨hstays.inv hinv, hstays⟩
  simp only [bind_eq, pure_eq, wlp_bind, wlp_wrlock]
  refine ⟨.inl rfl, False.elim, fun r _ => ⟨.inl rfl, ?_⟩⟩
  cases r with
  | false =>
      have hstays : g.Stays ((loginSpec cfg client).next g .wrlock false) :=
        ⟨rfl, id, id, hinv.1⟩
      exact ⟨.inl rfl, hstays.inv hinv, hstays⟩
  | true =>
      simp only [if_true, wlp_bind, wlp_loadAuthIps]
      refine ⟨.inl rfl, False.elim, fun l _ => ⟨.inl rfl, ?_⟩⟩
      have hlist : g.listed = true → (g.listed || isInAuthedList l client.addr) = true :=
        fun h => by rw [h, Bool.true_or]
      split
      · rename_i hfresh
        have hnew : ∀ a ∈ l.items, ¬ SameAddress client.addr a := by
          intro a ha hsame
          simp [isInAuthedList_iff.mpr ⟨a, ha, hsame⟩] at hfresh
        refine (wlp_bind _).mpr ((wlp_bind _).mpr (wlp_sblistAdd l client.addr (.inl rfl)
          (fun _ => False.elim) (fun _ _ => .inl rfl) (fun l' hl' => ?_) (fun n => ?_)
          (fun n l' hl' => ?_)))
        · exact ⟨.inl rfl, ⟨hs, _, rfl, hl', hnew⟩, fun _ _ => ⟨.inl rfl, hunlock _ rfl hs hlist⟩⟩
        · exact ⟨.inl rfl, hunlock _ rfl hs hlist⟩
        · exact ⟨.inl rfl, ⟨hs, _, rfl, hl', hnew⟩, fun _ _ => ⟨.inl rfl, hunlock _ rfl hs hlist⟩⟩
      · exact hunlock _ rfl hs hlist

/-- What choosing a method says about the thread. -/
def Login.allows (cfg : Config) (g : Login) : Authmethod → Prop
  | .noAuth => g.admitted cfg
  | .username => cfg.authUser.isSome = true
  | _ => True

theorem considerAuthMethod_spec (hinv : (loginSpec cfg client).inv g) (method : UInt8) :
    wlp (loginSpec cfg client) (considerAuthMethod cfg method client)
      (fun r g' => g.Stays g' ∧ ∀ am, r = some am → g'.allows cfg am) g := by
  have hself : g.Stays g := ⟨rfl, id, id, hinv.1⟩
  have hnone : wlp (loginSpec cfg client) (.ret none)
      (fun r g' => g.Stays g' ∧ ∀ am, r = some am → g'.allows cfg am) g :=
    ⟨hinv, hself, by simp⟩
  unfold considerAuthMethod
  split
  · split
    · rename_i hno
      refine ⟨hinv, hself, ?_⟩
      rintro am ⟨⟩
      exact fun hu => by simp [Option.isNone_iff_eq_none.mp hno] at hu
    · split
      · rename_i honce
        refine (wlp_bind _).mpr (wlp_mono _ ?_ (lookupAuthIp_spec hinv))
        rintro b g' ⟨hstays, hb⟩
        cases b with
        | false => exact ⟨hstays.inv hinv, hstays, by simp⟩
        | true =>
            refine ⟨hstays.inv hinv, hstays, ?_⟩
            rintro am ⟨⟩
            exact fun _ => .inr ⟨honce, hb rfl⟩
      · exact hnone
  · split
    · split
      · rename_i huser
        refine ⟨hinv, hself, ?_⟩
        rintro am ⟨⟩
        exact huser
      · exact hnone
    · exact hnone

theorem checkAuthMethods_spec (buf : Bytes) (n nMethods : Nat) : ∀ {g : Login} (idx : Nat),
    (loginSpec cfg client).inv g →
      wlp (loginSpec cfg client) (checkAuthMethods cfg buf n client idx nMethods)
        (fun am g' => g.Stays g' ∧ g'.allows cfg am) g := by
  induction nMethods with
  | zero => intro g idx hinv; exact ⟨hinv, ⟨rfl, id, id, hinv.1⟩, trivial⟩
  | succ nMethods ih =>
      intro g idx hinv
      unfold checkAuthMethods
      split
      · refine (wlp_bind _).mpr (wlp_mono _ ?_ (considerAuthMethod_spec hinv _))
        rintro r g' ⟨hstays, hr⟩
        cases r with
        | some am => exact ⟨hstays.inv hinv, hstays, hr am rfl⟩
        | none =>
            refine wlp_mono _ ?_ (ih (idx + 1) (hstays.inv hinv))
            rintro am g'' ⟨hstays', hallows⟩
            exact ⟨hstays.trans hstays', hallows⟩
      · exact ⟨hinv, ⟨rfl, id, id, hinv.1⟩, trivial⟩

theorem checkAuthMethod_spec (hinv : (loginSpec cfg client).inv g) (buf : Bytes) (n : Nat) :
    wlp (loginSpec cfg client) (checkAuthMethod cfg buf n client)
      (fun am g' => g.Stays g' ∧ g'.allows cfg am) g := by
  unfold checkAuthMethod
  split
  · exact ⟨hinv, ⟨rfl, id, id, hinv.1⟩, trivial⟩
  · split
    · exact ⟨hinv, ⟨rfl, id, id, hinv.1⟩, trivial⟩
    · exact checkAuthMethods_spec buf n _ 2 hinv

/-- Answering the client changes nothing. -/
theorem sendAuthResponse_spec (hinv : (loginSpec cfg client).inv g) (fd : Fd)
    (version meth : UInt8) :
    wlp (loginSpec cfg client) (sendAuthResponse fd version meth) (fun _ g' => g.Stays g') g := by
  have hstays : ∀ r, g.Stays ((loginSpec cfg client).next g (.write fd [version, meth]) r) :=
    fun r => ⟨rfl, id, id, hinv.1⟩
  unfold sendAuthResponse
  simp only [bind_eq, pure_eq, wlp_bind, wlp_write, wlp_ret]
  exact ⟨hinv, False.elim, fun r _ => ⟨(hstays r).inv hinv, (hstays r).inv hinv, hstays r⟩⟩

theorem selectMethod_spec (hcfg : cfg.accepted = true) (hinv : (loginSpec cfg client).inv g)
    (hstate : g.state = .ss1Connected) (buf : Bytes) :
    wlp (loginSpec cfg client) (selectMethod cfg client buf)
      (fun _ g' => (loginSpec cfg client).inv g') g := by
  unfold selectMethod
  simp only [bind_eq, pure_eq, wlp_bind]
  refine wlp_mono _ ?_ (checkAuthMethod_spec hinv buf _)
  rintro am g₁ ⟨hstays, hallows⟩
  have hinv₁ := hstays.inv hinv
  have hrank : ∀ s : Socksstate, g₁.state.rank ≤ s.rank := by
    intro s
    rw [hstays.1, hstate]
    exact Nat.zero_le _
  have hrest : ∀ {g' : Login}, (loginSpec cfg client).inv g' →
      wlp (loginSpec cfg client) (sendAuthResponse client.fd 5 am.code) (fun _ g'' =>
        wlp (loginSpec cfg client) (if am = .invalid then .ret (.inr ()) else .ret (.inl ()))
          (fun (_ : Unit ⊕ Unit) g''' => (loginSpec cfg client).inv g''') g'') g' := by
    intro g' hinv'
    refine wlp_mono _ (fun _ g'' hg'' => ?_) (sendAuthResponse_spec hinv' _ _ _)
    have hinv'' := hg''.inv hinv'
    split <;> exact ⟨hinv'', hinv''⟩
  split
  · rename_i ham
    subst ham
    have hsound : Login.sound cfg { g₁ with state := .ss3Authed } := ⟨fun _ => hallows, by simp⟩
    simp only [wlp_bind, wlp_storeState]
    exact ⟨hinv₁, ⟨hrank _, hsound⟩, fun _ => ⟨⟨hinv₁.1, hsound⟩, hrest ⟨hinv₁.1, hsound⟩⟩⟩
  · split
    · rename_i ham
      subst ham
      have hsound : Login.sound cfg { g₁ with state := .ss2NeedAuth } :=
        ⟨by simp, fun _ => Config.accepted_hasCredentials hcfg hallows⟩
      simp only [wlp_bind, wlp_storeState]
      exact ⟨hinv₁, ⟨hrank _, hsound⟩, fun _ => ⟨⟨hinv₁.1, hsound⟩, hrest ⟨hinv₁.1, hsound⟩⟩⟩
    · simp only [wlp_bind]
      exact hrest hinv₁

theorem authenticate_spec (hinv : (loginSpec cfg client).inv g) (hstate : g.state = .ss2NeedAuth)
    {buf : Bytes} (hs : checkCredentials cfg.authUser cfg.authPass buf buf.length = some .success →
      g.succeeded = true) :
    wlp (loginSpec cfg client) (authenticate cfg client buf)
      (fun _ g' => (loginSpec cfg client).inv g') g := by
  unfold authenticate
  split
  · rename_i hcheck
    exact absurd hcheck (checkCredentials_isSome (hinv.2.2 hstate) _ _)
  · rename_i ec hcheck
    simp only [bind_eq, pure_eq, wlp_bind]
    refine wlp_mono _ (fun _ g₁ hstays => ?_) (sendAuthResponse_spec hinv _ _ _)
    have hinv₁ := hstays.inv hinv
    split
    · exact ⟨hinv₁, hinv₁⟩
    · rename_i hec
      have hs₁ : g₁.succeeded = true := hstays.2.1 (hs (by rw [hcheck, not_not.mp hec]))
      have hsound : Login.sound cfg { g₁ with state := .ss3Authed } :=
        ⟨fun _ _ => .inl hs₁, by simp⟩
      have hrank : g₁.state.rank ≤ Socksstate.ss3Authed.rank := by
        rw [hstays.1, hstate]
        decide
      simp only [wlp_bind, wlp_storeState]
      refine ⟨hinv₁, ⟨hrank, hsound⟩, fun _ => ⟨⟨hinv₁.1, hsound⟩, ?_⟩⟩
      split
      · refine (wlp_bind _).mpr (wlp_mono _ (fun _ g₂ hstays' => ?_) (rememberAuthIp_spec
          (g := (loginSpec cfg client).next g₁ (.storeState .ss3Authed) ()) ⟨hinv₁.1, hsound⟩ hs₁))
        have hinv₂ : (loginSpec cfg client).inv g₂ := hstays'.inv ⟨hinv₁.1, hsound⟩
        exact ⟨hinv₂, hinv₂⟩
      · exact ⟨⟨hinv₁.1, hsound⟩, hinv₁.1, hsound⟩

/-- Serving a request leaves the thread as it is, once it has been let in. -/
theorem serveRequest_spec (hinv : (loginSpec cfg client).inv g) (hadm : g.admitted cfg)
    (inet : Inet) (buf : Bytes) :
    wlp (loginSpec cfg client) (serveRequest inet client buf)
      (fun _ g' => (loginSpec cfg client).inv g') g := by
  have hkept : ∀ g' (o : Op) (r : o.Ret), g.Stays g' → o.serving →
      g.Stays ((loginSpec cfg client).next g' o r) := by
    intro g' o r h ho
    cases o with
    | recv fd len => rcases r with e | b <;> exact h
    | rdlock | wrlock | unlock | loadAuthIps | storeAuthIps | loadState | storeState => cases ho
    | _ => exact h
  refine wlp_mono _ (fun _ g' h => h.inv hinv) (wlp_of_uses (J := g.Stays) (fun g' h => h.inv hinv)
    (fun g' o h ho => ?_) (fun g' o r h ho _ => hkept g' o r h ho) (serveRequest_uses _ _ _)
    ⟨rfl, id, id, hinv.1⟩)
  cases o with
  | unlock | loadAuthIps | storeAuthIps | loadState | storeState => cases ho
  | _ => exact fun _ => hadm.mono h.2.1 h.2.2.1

theorem clientthreadBody_spec (hcfg : cfg.accepted = true) (inet : Inet)
    (hinv : (loginSpec cfg client).inv g) :
    wlp (loginSpec cfg client) (clientthreadBody inet cfg client ())
      (fun _ g' => (loginSpec cfg client).inv g') g := by
  unfold clientthreadBody
  simp only [bind_eq, pure_eq, wlp_bind, wlp_recv]
  refine ⟨hinv, False.elim, fun r _ => ?_⟩
  rcases r with e | buf
  · exact ⟨hinv, hinv, hinv⟩
  refine ⟨hinv, ?_⟩
  dsimp only
  split
  · exact ⟨hinv, hinv⟩
  simp only [wlp_bind, wlp_loadState]
  refine ⟨hinv, hinv.2, fun s hs => ?_⟩
  generalize hg' : (loginSpec cfg client).next _ .loadState s = g'
  have hreceived : ((loginSpec cfg client).next g (.recv client.fd CLIENT_BUFFER_SIZE)
      (.ok buf)).received = some buf := by simp [loginSpec, Login.next]
  have hstays : g.Stays g' := by
    refine ⟨by rw [← hg']; rfl, fun h => ?_, fun h => by rw [← hg']; exact h,
      by rw [← hg']; exact hinv.1⟩
    rw [← hg']
    show (g.succeeded || _) = true
    rw [h, Bool.true_or]
  have hinv' := hstays.inv hinv
  have hstate : g'.state = s := hstays.1.trans hs.symm
  refine ⟨hinv', ?_⟩
  cases s with
  | ss1Connected => exact selectMethod_spec hcfg hinv' hstate buf
  | ss2NeedAuth =>
      refine authenticate_spec hinv' hstate fun hok => ?_
      rw [← hg']
      show (g.succeeded || Login.accepts cfg _ .ss2NeedAuth) = true
      simp [Login.accepts, hreceived, hok]
  | ss3Authed =>
      simp only [wlp_bind]
      refine wlp_mono _ (fun _ g'' h => ⟨h, h⟩)
        (serveRequest_spec hinv' (hinv'.2.1 hstate) inet buf)

/-- **No thread does what its past does not allow.** -/
theorem clientthread_spec (hcfg : cfg.accepted = true) (inet : Inet) :
    wlp (loginSpec cfg client) (clientthread inet cfg client) (fun _ _ => True) .initial := by
  have hsound : Login.sound cfg .initial := ⟨by simp [Login.initial], by simp [Login.initial]⟩
  unfold clientthread
  simp only [bind_eq, wlp_bind, wlp_storeState, wlp_close, wlp_storeDone]
  refine ⟨⟨rfl, hsound⟩, ⟨Nat.le_refl _, hsound⟩, fun _ => ⟨⟨rfl, hsound⟩, ?_⟩⟩
  refine wlp_iterate (fun _ g => (loginSpec cfg client).inv g) ⟨rfl, hsound⟩ fun _ g hinv => ?_
  refine wlp_mono _ ?_ (clientthreadBody_spec hcfg inet hinv)
  rintro (_ | _) g' hinv'
  · exact hinv'
  · exact ⟨hinv', False.elim, fun _ => ⟨hinv', hinv', False.elim, fun _ => ⟨hinv', trivial⟩⟩⟩

end Handshake

/-! ### All threads -/

/-- The threads as the authentication sees them. -/
abbrev Logins := List (Pool.View Client ThreadMem Login)

/-- Some thread in `p` had its credentials accepted. -/
def Logins.Accepted (vs : Logins) (p : Client → Prop) : Prop :=
  ∃ v ∈ vs, v.2.2.succeeded = true ∧ p v.1

/-- The list holds what the threads put there, and nobody reads anything else. -/
structure Whitelist (w : Shared) (vs : Logins) : Prop where
  state : ∀ v ∈ vs, v.2.1.state = v.2.2.state
  locked : ∀ v ∈ vs, ∀ items, v.2.2.locked = some items → items = w.authIps.items
  distinct : w.authIps.items.Pairwise fun a b => ¬ SameAddress a b
  earned : ∀ a ∈ w.authIps.items, vs.Accepted (·.addr = a)
  listed : ∀ v ∈ vs, v.2.2.listed = true → vs.Accepted fun c => SameAddress v.1.addr c.addr

section Whitelist

variable {w w' : Shared} {pre post : Logins} {i : Client} {m m' : ThreadMem} {g g' : Login}

theorem mem_middle {α : Type} {a b : α} {l l' : List α} :
    a ∈ l ++ b :: l' ↔ a = b ∨ a ∈ l ++ l' :=
  List.perm_middle.mem_iff.trans List.mem_cons

theorem Logins.Accepted.mono {p : Client → Prop}
    (h : Logins.Accepted (pre ++ (i, m, g) :: post) p)
    (hs : g.succeeded = true → g'.succeeded = true) :
    Logins.Accepted (pre ++ (i, m', g') :: post) p := by
  obtain ⟨v, hv, hsv, hp⟩ := h
  rcases mem_middle.mp hv with rfl | hv
  · exact ⟨_, mem_middle.mpr (.inl rfl), hs hsv, hp⟩
  · exact ⟨v, mem_middle.mpr (.inr hv), hsv, hp⟩

/-- A thread moves on and leaves the list alone. -/
theorem Whitelist.change (h : Whitelist w (pre ++ (i, m, g) :: post))
    (hw : w'.authIps = w.authIps) (hstate : m'.state = g'.state)
    (hs : g.succeeded = true → g'.succeeded = true)
    (hl : g'.listed = true → g.listed = true ∨ ∃ a ∈ w.authIps.items, SameAddress i.addr a)
    (hlocked : ∀ items, g'.locked = some items → items = w.authIps.items) :
    Whitelist w' (pre ++ (i, m', g') :: post) where
  state v hv := by
    rcases mem_middle.mp hv with rfl | hv
    · exact hstate
    · exact h.state v (mem_middle.mpr (.inr hv))
  locked v hv items hitems := by
    rw [hw]
    rcases mem_middle.mp hv with rfl | hv
    · exact hlocked items hitems
    · exact h.locked v (mem_middle.mpr (.inr hv)) items hitems
  distinct := by
    rw [hw]
    exact h.distinct
  earned a ha := by
    rw [hw] at ha
    exact (h.earned a ha).mono hs
  listed v hv hlv := by
    rcases mem_middle.mp hv with rfl | hv
    · rcases hl hlv with hold | ⟨a, ha, hsame⟩
      · exact (h.listed _ (mem_middle.mpr (.inl rfl)) hold).mono hs
      · obtain ⟨v', hv', hsv', rfl⟩ := h.earned a ha
        exact Logins.Accepted.mono ⟨v', hv', hsv', hsame⟩ hs
    · exact (h.listed v (mem_middle.mpr (.inr hv)) hlv).mono hs

/-- A thread whose credentials were accepted adds its address, and nobody else has the
list open. -/
theorem Whitelist.store (h : Whitelist w (pre ++ (i, m, g) :: post))
    (hrest : ∀ v ∈ pre ++ post, v.2.2.locked = none) {l : Sblist SockaddrUnion}
    (hl : l.items = w.authIps.items ++ [i.addr])
    (hfresh : ∀ a ∈ w.authIps.items, ¬ SameAddress i.addr a) (hstate : m'.state = g'.state)
    (hs' : g'.succeeded = true) (hlisted : g'.listed = g.listed)
    (hlocked : g'.locked = some l.items) :
    Whitelist { w with authIps := l } (pre ++ (i, m', g') :: post) where
  state v hv := by
    rcases mem_middle.mp hv with rfl | hv
    · exact hstate
    · exact h.state v (mem_middle.mpr (.inr hv))
  locked v hv items hitems := by
    rcases mem_middle.mp hv with rfl | hv
    · exact (Option.some.inj (hlocked.symm.trans hitems)).symm
    · rw [hrest v hv] at hitems
      cases hitems
  distinct := by
    show l.items.Pairwise _
    rw [hl, List.pairwise_append]
    refine ⟨h.distinct, List.pairwise_singleton _ _, fun a ha b hb hab => ?_⟩
    rw [List.mem_singleton.mp hb] at hab
    exact hfresh a ha hab.symm
  earned a ha := by
    rw [hl] at ha
    rcases List.mem_append.mp ha with ha | ha
    · exact (h.earned a ha).mono fun _ => hs'
    · exact ⟨_, mem_middle.mpr (.inl rfl), hs', (List.mem_singleton.mp ha).symm⟩
  listed v hv hlv := by
    rcases mem_middle.mp hv with rfl | hv
    · rw [hlisted] at hlv
      exact (h.listed _ (mem_middle.mpr (.inl rfl)) hlv).mono fun _ => hs'
    · exact (h.listed v (mem_middle.mpr (.inr hv)) hlv).mono fun _ => hs'

end Whitelist

/-- Every event a thread may perform keeps the relation. -/
theorem whitelist_keeps (inet : Inet) (cfg : Config) :
    Pool.Keeps (machine anyAnswer) (accepted inet cfg) (loginSpec cfg) (fun _ => .initial)
      Whitelist where
  start w vs i h := by
    have hlast : ∀ v, v ∈ vs ++ [(i, ThreadMem.initial i, Login.initial)] ↔
        v ∈ vs ∨ v = (i, ThreadMem.initial i, Login.initial) := by simp
    refine ⟨fun v hv => ?_, fun v hv items hitems => ?_, h.distinct, fun a ha => ?_,
      fun v hv hlv => ?_⟩
    · rcases (hlast v).mp hv with hv | rfl
      · exact h.state v hv
      · rfl
    · rcases (hlast v).mp hv with hv | rfl
      · exact h.locked v hv items hitems
      · cases hitems
    · obtain ⟨v, hv, hp⟩ := h.earned a ha
      exact ⟨v, (hlast v).mpr (.inl hv), hp⟩
    · rcases (hlast v).mp hv with hv | rfl
      · obtain ⟨v', hv', hp⟩ := h.listed v hv hlv
        exact ⟨v', (hlast v').mpr (.inl hv'), hp⟩
      · cases hlv
  rely w pre post i m g o r _ h hcan := by
    have hstate : m.state = g.state := h.state (i, m, g) (mem_middle.mpr (.inl rfl))
    cases o with
    | loadState => exact hcan.trans hstate
    | _ => trivial
  event w pre post i m g o r hrest h hcan hguar := by
    have hstate : m.state = g.state := h.state (i, m, g) (mem_middle.mpr (.inl rfl))
    have hlocked := h.locked (i, m, g) (mem_middle.mpr (.inl rfl))
    cases o with
    | storeAuthIps l =>
        obtain ⟨hs, items, hitems, hl, hfresh⟩ := hguar
        obtain rfl := hlocked items hitems
        exact h.store (fun v hv => (hrest v hv).1) hl hfresh hstate hs rfl rfl
    | loadAuthIps =>
        obtain rfl : r = w.authIps := hcan
        refine h.change rfl hstate id (fun hl => ?_)
          (fun items hitems => (Option.some.inj hitems).symm)
        rcases Bool.or_eq_true_iff.mp hl with hl | hl
        · exact .inl hl
        · exact .inr (isInAuthedList_iff.mp hl)
    | loadState =>
        exact h.change rfl hstate (fun hs => by simp [loginSpec, Login.next, hs]) .inl hlocked
    | storeState s => exact h.change rfl rfl id .inl hlocked
    | unlock => exact h.change rfl hstate id .inl nofun
    | recv fd len => rcases r with e | b <;> exact h.change rfl hstate id .inl hlocked
    | socket af type => rcases r with e | fd <;> exact h.change rfl hstate id .inl hlocked
    | _ => exact h.change rfl hstate id .inl hlocked

/-! ### The process -/

/-- What holds of every state of the process.  It is said of each state some schedule
leads to, so an acceptance it asks for is one that came before. -/
structure AuthGate (cfg : Config) (c : Pool sys Client Shared ThreadMem) : Prop where
  /-- Nobody is authenticated without having been admitted. -/
  authed : cfg.authUser.isSome = true → ∀ t ∈ c.threads, t.mem.state = .ss3Authed →
    Admitted cfg c.threads t.id t.trace
  /-- No request is looked at or served before that. -/
  served : cfg.authUser.isSome = true → ∀ t ∈ c.threads, ∀ pre e post,
    t.trace = pre ++ e :: post → ServesRequest e → Admitted cfg c.threads t.id pre
  /-- The list holds addresses of connections whose credentials were accepted. -/
  earned : ∀ a ∈ c.world.authIps.items, ∃ t ∈ c.threads, Succeeded cfg t.id t.trace ∧ t.id.addr = a
  /-- No two entries have the same address. -/
  distinct : c.world.authIps.items.Pairwise fun a b => ¬ SameAddress a b
  /-- A connection's state is the last one stored, and no store has gone back. -/
  forward : ∀ t ∈ c.threads, t.mem.state = (storedStates t.trace).getLastD .ss1Connected ∧
    (storedStates t.trace).Pairwise fun s s' => s.rank ≤ s'.rank
  /-- `check_credentials` has both strings to compare with. -/
  checked : ∀ t ∈ c.threads, ∀ buf, ChecksCredentials t.id t.trace buf → cfg.hasCredentials

section Process

variable {cfg : Config} {inet : Inet} {c : Pool sys Client Shared ThreadMem}

/-- An accepted login of the process is one of some thread's past. -/
theorem accepted_succeeded {p : Client → Prop}
    (h : Logins.Accepted (c.threads.map (Pool.Thread.view (loginSpec cfg) fun _ => .initial)) p) :
    ∃ t ∈ c.threads, Succeeded cfg t.id t.trace ∧ p t.id := by
  obtain ⟨v, hv, hs, hp⟩ := h
  obtain ⟨t, ht, rfl⟩ := List.mem_map.mp hv
  exact ⟨t, ht, login_succeeded hs, hp⟩

/-- What the spec calls admitted has been admitted. -/
theorem admitted_of_login (hw : Whitelist c.world
      (c.threads.map (Pool.Thread.view (loginSpec cfg) fun _ => .initial)))
    {t : Thread sys Client ThreadMem} (ht : t ∈ c.threads) (hu : cfg.authUser.isSome = true)
    {pre post : Trace sys} (htr : t.trace = pre ++ post)
    (h : ((loginSpec cfg t.id).run .initial pre).admitted cfg) :
    Admitted cfg c.threads t.id pre := by
  rcases h hu with hs | ⟨honce, hl⟩
  · exact .inl (login_succeeded hs)
  · have hl' : ((loginSpec cfg t.id).run .initial t.trace).listed = true := by
      rw [htr, Spec.run_append]
      exact login_listed hl
    exact .inr ⟨honce, accepted_succeeded (hw.listed _ (List.mem_map.mpr ⟨t, ht, rfl⟩) hl')⟩

/-- **The authentication gate holds in every state of the process.** -/
theorem authentication_gate (hcfg : cfg.accepted = true)
    (hc : Process anyAnswer inet cfg lockedWhole c) : AuthGate cfg c := by
  obtain ⟨hw, hb⟩ := Pool.Reachable.invariant (whitelist_keeps inet cfg)
    (Q := fun _ _ => True) ⟨by simp, by simp, .nil, by simp [Shared.initial, Sblist.new], by simp⟩
    (fun i t ht hatomic => absurd (hatomic ▸ trivial : lockedWhole t) ht)
    (fun i => clientthread_spec hcfg inet) hc
  refine ⟨fun hu t ht h3 => ?_, fun hu t ht pre e post htr he => ?_, fun a ha => ?_,
    hw.distinct, fun t ht => ?_, fun t ht buf h => ?_⟩
  · have hstate := hw.state _ (List.mem_map.mpr ⟨t, ht, rfl⟩)
    exact admitted_of_login hw ht hu (List.append_nil _).symm
      ((hb t ht).inv.2.1 (hstate.symm.trans h3))
  · have hguar := (htr ▸ (hb t ht).guaranteed).at
    have hrely := (htr ▸ (hb t ht).legal).at
    exact admitted_of_login hw ht hu htr (admitted_of_serves hguar hrely he)
  · exact accepted_succeeded (hw.earned a ha)
  · have hstate := hw.state _ (List.mem_map.mpr ⟨t, ht, rfl⟩)
    exact ⟨hstate.trans login_state, (storedStates_sorted (hb t ht).guaranteed).2⟩
  · obtain ⟨pre, post, htr⟩ := h
    rw [← List.singleton_append, ← List.append_assoc] at htr
    have hguar := (htr ▸ (hb t ht).guaranteed).at
    have hrely := (htr ▸ (hb t ht).legal).at
    exact hguar.2 hrely.symm

end Process

/-- Auth-once mode with the user `u` and the password `p`. -/
def onceConfig : Config := ⟨some userName, some userPassword, true⟩

/-- A client on `192.0.2.9`. -/
def homeClient (fd : Fd) : Client := ⟨.v4 (hostAddress 9) 40000, fd⟩

/-- The client logs in and leaves. -/
def loginTrace (fd : Fd) : Trace sys :=
  [⟨.storeState .ss1Connected, ()⟩,
    ⟨.recv fd 1024, .ok [5, 1, 2]⟩, ⟨.loadState, .ss1Connected⟩,
    ⟨.storeState .ss2NeedAuth, ()⟩, ⟨.write fd [5, 2], .ok 2⟩,
    ⟨.recv fd 1024, .ok [1, 1, 117, 1, 112]⟩, ⟨.loadState, .ss2NeedAuth⟩,
    ⟨.write fd [1, 0], .ok 2⟩, ⟨.storeState .ss3Authed, ()⟩,
    ⟨.wrlock, true⟩, ⟨.loadAuthIps, (.new 8 : Sblist SockaddrUnion)⟩, ⟨.realloc 8, true⟩,
    ⟨.storeAuthIps ⟨8, 8, [.v4 (hostAddress 9) 40000]⟩, ()⟩, ⟨.unlock, ()⟩,
    ⟨.recv fd 1024, .ok []⟩, ⟨.close fd, ()⟩, ⟨.storeDone, ()⟩]

/-- The client comes back without credentials, and leaves. -/
def returnTrace (fd : Fd) : Trace sys :=
  [⟨.storeState .ss1Connected, ()⟩,
    ⟨.recv fd 1024, .ok [5, 1, 0]⟩, ⟨.loadState, .ss1Connected⟩,
    ⟨.rdlock, true⟩,
    ⟨.loadAuthIps, (⟨8, 8, [.v4 (hostAddress 9) 40000]⟩ : Sblist SockaddrUnion)⟩, ⟨.unlock, ()⟩,
    ⟨.storeState .ss3Authed, ()⟩, ⟨.write fd [5, 0], .ok 2⟩,
    ⟨.recv fd 1024, .ok []⟩, ⟨.close fd, ()⟩, ⟨.storeDone, ()⟩]

/-- One login lets a later connection from the same address in. -/
theorem authentication_gate_once : ∃ c, c.threads.map (·.mem.state) = [.ss3Authed, .ss3Authed] ∧
    Process anyAnswer Inet.plain onceConfig lockedWhole c ∧ AuthGate onceConfig c := by
  have hfirst : Process anyAnswer Inet.plain onceConfig lockedWhole
      ⟨_, [⟨homeClient 4, _, _, _⟩]⟩ :=
    Pool.Reachable.session (homeClient 4) .init
      (eval_of_replay 60 (loginTrace 4) rfl) (by repeat constructor)
  have hsecond := hfirst.session (homeClient 5)
    (eval_of_replay 60 (returnTrace 5) rfl) (by repeat constructor)
  exact ⟨_, rfl, hsecond, authentication_gate rfl hsecond⟩

end TwoSocks
