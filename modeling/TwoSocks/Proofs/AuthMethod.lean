/-
Which method `check_auth_method` selects.

A greeting says how many methods it offers and then lists them, and both the count and what
was received bound the list: `offeredMethods` is what is left of it.  The scan goes through
it in the client's order, passes over what the server does not accept and takes the first
method it does.  `NO_AUTH` is accepted from anybody while no user is configured, and later
from an address in `auth_ips` only, so the scan may look into the list for each `NO_AUTH` it
meets.  Another thread may have changed the list in between; `FirstAccepted` therefore lets
every look have its own answer, and the answers are what the trace of the scan consists of.
`Steady` is the case in which all of them agree.
-/
import TwoSocks.Server.Memory
import TwoSocks.Proofs.AddressParser
import TwoSocks.Proofs.Auth

namespace TwoSocks

open Server Prog

/-- The methods of a greeting: `NMETHODS` of them, as far as they were received. -/
def offeredMethods (buf : Bytes) (n : Nat) : Bytes :=
  ((buf.take n).drop 2).take (buf.getD 1 0).toNat

theorem offeredMethods_length {buf : Bytes} {n : Nat} (h : n ≤ buf.length) :
    (offeredMethods buf n).length = min (buf.getD 1 0).toNat (n - 2) := by
  unfold offeredMethods
  rw [List.length_take, List.length_drop, List.length_take_of_le h]

/-! ### One method -/

/-- The server accepts an offered method as `am`, where `authIps` is the list as it can be
read: not at all if there is none or its lock is not acquired. -/
def AcceptsMethod (cfg : Config) (caddr : SockaddrUnion) (authIps : Option (Sblist SockaddrUnion))
    (method : UInt8) (am : Authmethod) : Prop :=
  (method = Authmethod.noAuth.code ∧ am = .noAuth ∧
    (cfg.authUser = none ∨ ∃ l ∈ authIps, ∃ a ∈ l.items, SameAddress caddr a)) ∨
  (method = Authmethod.username.code ∧ am = .username ∧ cfg.authUser ≠ none)

/-- A method is accepted as one thing only. -/
theorem AcceptsMethod.unique {cfg : Config} {caddr : SockaddrUnion}
    {authIps : Option (Sblist SockaddrUnion)} {method : UInt8} {am am' : Authmethod}
    (h : AcceptsMethod cfg caddr authIps method am)
    (h' : AcceptsMethod cfg caddr authIps method am') :
    am = am' := by
  have hcode : Authmethod.noAuth.code ≠ Authmethod.username.code := by decide
  rcases h with ⟨hm, rfl, -⟩ | ⟨hm, rfl, -⟩ <;> rcases h' with ⟨hm', rfl, -⟩ | ⟨hm', rfl, -⟩
  · rfl
  · exact absurd (hm.symm.trans hm') hcode
  · exact absurd (hm'.symm.trans hm) hcode
  · rfl

/-- The list matters for this method. -/
def LooksUp (cfg : Config) (method : UInt8) : Prop :=
  method = Authmethod.noAuth.code ∧ cfg.authUser ≠ none ∧ cfg.authOnce = true

/-- What the scan does to see the list for one method, and what it sees. -/
inductive Sees (cfg : Config) (method : UInt8) :
    Trace sys → Option (Sblist SockaddrUnion) → Prop
  | nothing (h : ¬ LooksUp cfg method) : Sees cfg method [] none
  | list (h : LooksUp cfg method) (l : Sblist SockaddrUnion) :
      Sees cfg method [⟨.rdlock, true⟩, ⟨.loadAuthIps, l⟩, ⟨.unlock, ()⟩] (some l)
  | busy (h : LooksUp cfg method) : Sees cfg method [⟨.rdlock, false⟩] none

/-- The scan over the offered methods: one that is accepted ends it. -/
inductive FirstAccepted (cfg : Config) (caddr : SockaddrUnion) :
    Bytes → Trace sys → Authmethod → Prop
  | noneLeft : FirstAccepted cfg caddr [] [] .invalid
  | accepted {method : UInt8} {later : Bytes} {tr : Trace sys}
      {authIps : Option (Sblist SockaddrUnion)} {am : Authmethod}
      (hsees : Sees cfg method tr authIps) (h : AcceptsMethod cfg caddr authIps method am) :
      FirstAccepted cfg caddr (method :: later) tr am
  | refused {method : UInt8} {later : Bytes} {tr tr' : Trace sys}
      {authIps : Option (Sblist SockaddrUnion)} {am : Authmethod}
      (hsees : Sees cfg method tr authIps) (h : ∀ am', ¬ AcceptsMethod cfg caddr authIps method am')
      (hlater : FirstAccepted cfg caddr later tr' am) :
      FirstAccepted cfg caddr (method :: later) (tr ++ tr') am

section Methods

variable {cfg : Config} {client : Client}

theorem lookupAuthIp_eval {caddr : SockaddrUnion} {tr : Trace sys} {b : Bool} :
    Eval (lookupAuthIp caddr) tr b ↔
      (∃ l, tr = [⟨.rdlock, true⟩, ⟨.loadAuthIps, l⟩, ⟨.unlock, ()⟩] ∧
        b = isInAuthedList l caddr) ∨ (tr = [⟨.rdlock, false⟩] ∧ b = false) := by
  constructor
  · intro h
    cases h with
    | block h h' =>
        cases h'
        cases h with
        | @call _ _ _ locked _ _ h =>
            cases locked with
            | false =>
                cases h
                exact .inr ⟨rfl, rfl⟩
            | true =>
                cases h with
                | @call _ _ _ l _ _ h =>
                    cases h with
                    | call h =>
                        cases h
                        exact .inl ⟨l, rfl, rfl⟩
  · rintro (⟨l, rfl, rfl⟩ | ⟨rfl, rfl⟩)
    · exact eval_of_replay 5 _ rfl
    · exact eval_of_replay 3 _ rfl

/-- A method whose fate needs no look into the list. -/
theorem consider_unseen {method : UInt8} {tr : Trace sys} {r r' : Option Authmethod}
    (hlooks : ¬ LooksUp cfg method)
    (hr : ∀ am, r' = some am ↔ AcceptsMethod cfg client.addr none method am) :
    Eval (.ret r') tr r ↔ ∃ authIps, Sees cfg method tr authIps ∧
      ∀ am, r = some am ↔ AcceptsMethod cfg client.addr authIps method am := by
  rw [eval_ret]
  constructor
  · rintro ⟨rfl, rfl⟩
    exact ⟨none, .nothing hlooks, hr⟩
  · rintro ⟨authIps, hsees, hacc⟩
    cases hsees with
    | nothing _ => exact ⟨rfl, Option.ext fun am => (hacc am).trans (hr am).symm⟩
    | list h => exact absurd h hlooks
    | busy h => exact absurd h hlooks

/-- `NO_AUTH` when it is up to the list. -/
theorem accepts_noAuth {authIps : Option (Sblist SockaddrUnion)} {caddr : SockaddrUnion}
    (huser : cfg.authUser ≠ none) {b : Bool}
    (hb : b = true ↔ ∃ l ∈ authIps, ∃ a ∈ l.items, SameAddress caddr a) (am : Authmethod) :
    (if b then some Authmethod.noAuth else none) = some am ↔
      AcceptsMethod cfg caddr authIps Authmethod.noAuth.code am := by
  have hcode : Authmethod.noAuth.code ≠ Authmethod.username.code := by decide
  unfold AcceptsMethod
  rw [Option.ite_none_right_eq_some, hb, Option.some.injEq]
  constructor
  · rintro ⟨hlisted, rfl⟩
    exact .inl ⟨rfl, rfl, .inr hlisted⟩
  · rintro (⟨-, rfl, hfree | hlisted⟩ | ⟨hc, -⟩)
    · exact absurd hfree huser
    · exact ⟨hlisted, rfl⟩
    · exact absurd hc hcode

/-- What becomes of one offered method. -/
theorem considerAuthMethod_eval {method : UInt8} {tr : Trace sys} {r : Option Authmethod} :
    Eval (considerAuthMethod cfg method client) tr r ↔
      ∃ authIps, Sees cfg method tr authIps ∧
        ∀ am, r = some am ↔ AcceptsMethod cfg client.addr authIps method am := by
  unfold considerAuthMethod
  by_cases hnoAuth : method = Authmethod.noAuth.code
  · subst hnoAuth
    rw [if_pos rfl]
    by_cases huser : cfg.authUser = none
    · rw [if_pos (by rw [huser]; rfl)]
      refine consider_unseen (fun h => h.2.1 huser) fun am => ?_
      unfold AcceptsMethod
      simp [huser, Authmethod.code, eq_comm]
    rw [if_neg (by simpa using huser)]
    by_cases honce : cfg.authOnce = true
    swap
    · rw [if_neg honce]
      exact consider_unseen (fun h => honce h.2.2) (accepts_noAuth huser (b := false) (by simp))
    rw [if_pos honce]
    have hlooks : LooksUp cfg Authmethod.noAuth.code := ⟨rfl, huser, honce⟩
    have hseen : ∀ l : Sblist SockaddrUnion, isInAuthedList l client.addr = true ↔
        ∃ l' ∈ some l, ∃ a ∈ l'.items, SameAddress client.addr a := by
      intro l
      simp [isInAuthedList_iff]
    have hbusy : (false = true) ↔
        ∃ l ∈ (none : Option (Sblist SockaddrUnion)), ∃ a ∈ l.items, SameAddress client.addr a := by
      simp
    constructor
    · intro h
      obtain ⟨tr₁, b, tr₂, rfl, hlookup, hret⟩ := eval_bind (lookupAuthIp client.addr) h
      have hr : tr₂ = [] ∧ r = if b then some .noAuth else none := by
        cases b <;> exact eval_ret.mp hret
      obtain ⟨rfl, rfl⟩ := hr
      rw [List.append_nil]
      rcases lookupAuthIp_eval.mp hlookup with ⟨l, rfl, rfl⟩ | ⟨rfl, rfl⟩
      · exact ⟨some l, .list hlooks l, accepts_noAuth huser (hseen l)⟩
      · exact ⟨none, .busy hlooks, accepts_noAuth huser hbusy⟩
    · rintro ⟨authIps, hsees, hacc⟩
      have hrun : ∀ b, Eval (lookupAuthIp client.addr) tr b →
          (b = true ↔ ∃ l ∈ authIps, ∃ a ∈ l.items, SameAddress client.addr a) →
          Eval (Prog.bind (lookupAuthIp client.addr) fun b =>
            if b then .ret (some .noAuth) else .ret none) tr r := by
        intro b hlookup hb
        have hr : (if b then some .noAuth else none) = r :=
          Option.ext fun am => (accepts_noAuth huser hb am).trans (hacc am).symm
        rw [← hr, ← List.append_nil tr]
        refine hlookup.bind ?_
        cases b <;> exact .ret _
      cases hsees with
      | nothing h => exact absurd hlooks h
      | list _ l => exact hrun _ (lookupAuthIp_eval.mpr (.inl ⟨l, rfl, rfl⟩)) (hseen l)
      | busy _ => exact hrun _ (lookupAuthIp_eval.mpr (.inr ⟨rfl, rfl⟩)) hbusy
  · rw [if_neg hnoAuth]
    by_cases hname : method = Authmethod.username.code
    · subst hname
      rw [if_pos rfl]
      by_cases huser : cfg.authUser = none
      · rw [if_neg (by rw [huser]; decide)]
        refine consider_unseen (fun h => hnoAuth h.1) fun am => ?_
        simp [AcceptsMethod, hnoAuth, huser]
      · rw [if_pos (Option.isSome_iff_ne_none.mpr huser)]
        refine consider_unseen (fun h => hnoAuth h.1) fun am => ?_
        simp [AcceptsMethod, hnoAuth, huser, eq_comm]
    · rw [if_neg hname]
      refine consider_unseen (fun h => hnoAuth h.1) fun am => ?_
      simp [AcceptsMethod, hnoAuth, hname]

/-! ### The scan -/

/-- The scan over the methods as a list. -/
def scanOffered (cfg : Config) (client : Client) : Bytes → Server Authmethod
  | [] => .ret .invalid
  | method :: later => Prog.bind (considerAuthMethod cfg method client) fun
      | some am => .ret am
      | none => scanOffered cfg client later

/-- The loop looks at the methods that were received and at nothing else. -/
theorem checkAuthMethods_eq {buf : Bytes} {n : Nat} (hbuf : n ≤ buf.length) :
    ∀ {nMethods idx : Nat}, checkAuthMethods cfg buf n client idx nMethods =
      scanOffered cfg client (((buf.take n).drop idx).take nMethods) := by
  intro nMethods
  induction nMethods with
  | zero => intro idx; rfl
  | succ nMethods ih =>
      intro idx
      unfold checkAuthMethods
      by_cases hidx : idx < n
      · have hlt : idx < (buf.take n).length := by
          rw [List.length_take_of_le hbuf]
          exact hidx
        rw [if_pos hidx, List.drop_eq_getElem_cons hlt, List.take_succ_cons, List.getElem_take,
          List.getD_eq_getElem _ _ (by omega)]
        unfold scanOffered
        rw [← ih]
        rfl
      · rw [if_neg hidx, List.drop_eq_nil_of_le (by rw [List.length_take]; omega), List.take_nil]
        rfl

/-- **The scan takes the first method that is accepted.** -/
theorem scanOffered_eval {offered : Bytes} : ∀ {tr : Trace sys} {am : Authmethod},
    Eval (scanOffered cfg client offered) tr am ↔
      FirstAccepted cfg client.addr offered tr am := by
  induction offered with
  | nil =>
      intro tr am
      refine eval_ret.trans ⟨?_, ?_⟩
      · rintro ⟨rfl, rfl⟩
        exact .noneLeft
      · intro h
        cases h
        exact ⟨rfl, rfl⟩
  | cons method later ih =>
      intro tr am
      constructor
      · intro h
        obtain ⟨tr₁, r, tr₂, rfl, hconsider, hrest⟩ := eval_bind _ h
        obtain ⟨authIps, hsees, hacc⟩ := considerAuthMethod_eval.mp hconsider
        cases r with
        | some am' =>
            obtain ⟨rfl, rfl⟩ := eval_ret.mp hrest
            rw [List.append_nil]
            exact .accepted hsees ((hacc _).mp rfl)
        | none =>
            refine .refused hsees (fun am' hacc' => ?_) (ih.mp hrest)
            cases (hacc am').mpr hacc'
      · intro h
        cases h with
        | accepted hsees hacc =>
            rw [← List.append_nil tr]
            have hconsider := considerAuthMethod_eval.mpr ⟨_, hsees, fun am' =>
              ⟨fun h => Option.some.inj h ▸ hacc, fun h => congrArg some (hacc.unique h)⟩⟩
            exact hconsider.bind (.ret _)
        | refused hsees hnone hlater =>
            have hacc : ∀ am', none = some am' ↔ AcceptsMethod cfg client.addr _ method am' :=
              fun am' => iff_of_false (Option.some_ne_none am').symm (hnone am')
            exact (considerAuthMethod_eval.mpr ⟨_, hsees, hacc⟩).bind (ih.mpr hlater)

/-- The whole of `check_auth_method`. -/
theorem checkAuthMethod_eq {buf : Bytes} {n : Nat} (hbuf : n ≤ buf.length) :
    checkAuthMethod cfg buf n client =
      if buf.getD 0 0 ≠ 5 ∨ n < 2 then .ret .invalid
      else scanOffered cfg client (offeredMethods buf n) := by
  unfold checkAuthMethod
  by_cases hversion : buf.getD 0 0 ≠ 5
  · rw [if_pos hversion, if_pos (.inl hversion)]
    rfl
  rw [if_neg hversion]
  by_cases hshort : n < 2
  · rw [if_pos (show 1 ≥ n by omega), if_pos (.inr hshort)]
    rfl
  · rw [if_neg (show ¬ 1 ≥ n by omega), if_neg (not_or.mpr ⟨hversion, hshort⟩)]
    exact checkAuthMethods_eq hbuf

/-! ### Accesses -/

theorem checkAuthMethodsMem_eq (cfg : Config) (buf : Bytes) (n : Nat) (client : Client) :
    ∀ (nMethods idx : Nat), checkAuthMethodsMem cfg buf n client idx nMethods =
      ExceptT.lift (checkAuthMethods cfg buf n client idx nMethods) := by
  intro nMethods
  induction nMethods with
  | zero => intro idx; rfl
  | succ nMethods ih =>
      intro idx
      unfold checkAuthMethodsMem checkAuthMethods
      by_cases hidx : idx < n
      · rw [if_pos hidx, if_pos hidx, readByte_of_lt hidx]
        show Prog.bind (Prog.bind (considerAuthMethod cfg (buf.getD idx 0) client) _) _ =
          Prog.bind (Prog.bind (considerAuthMethod cfg (buf.getD idx 0) client) _) _
        rw [bind_assoc, bind_assoc]
        congr 1
        funext r
        cases r with
        | some am => rfl
        | none => exact ih (idx + 1)
      · rw [if_neg hidx, if_neg hidx]
        rfl

/-- **No byte past the ones received is read.** -/
theorem checkAuthMethodMem_eq {n : Nat} (hn : 1 ≤ n) (cfg : Config) (buf : Bytes)
    (client : Client) :
    checkAuthMethodMem cfg buf n client = ExceptT.lift (checkAuthMethod cfg buf n client) := by
  unfold checkAuthMethodMem checkAuthMethod
  rw [readByte_of_lt (show 0 < n by omega)]
  show (if buf.getD 0 0 ≠ 5 then _ else _) = _
  by_cases hversion : buf.getD 0 0 ≠ 5
  · rw [if_pos hversion, if_pos hversion]
    rfl
  rw [if_neg hversion, if_neg hversion]
  by_cases hshort : 1 ≥ n
  · rw [if_pos hshort, if_pos hshort]
    rfl
  · rw [if_neg hshort, if_neg hshort, readByte_of_lt (show 1 < n by omega)]
    exact checkAuthMethodsMem_eq cfg buf n client _ 2

/-! ### Steady answers -/

/-- An event of a scan that finds the list to be `authIps`. -/
def Shows (authIps : Option (Sblist SockaddrUnion)) : Event sys → Prop
  | ⟨.rdlock, locked⟩ => locked = authIps.isSome
  | ⟨.loadAuthIps, l⟩ => authIps = some l
  | _ => True

/-- The selection when the list stays as it is. -/
def Selects (cfg : Config) (caddr : SockaddrUnion) (authIps : Option (Sblist SockaddrUnion))
    (offered : Bytes) (am : Authmethod) : Prop :=
  (∃ earlier method later, offered = earlier ++ method :: later ∧
      AcceptsMethod cfg caddr authIps method am ∧
      ∀ m ∈ earlier, ∀ am', ¬ AcceptsMethod cfg caddr authIps m am') ∨
    (am = .invalid ∧ ∀ m ∈ offered, ∀ am', ¬ AcceptsMethod cfg caddr authIps m am')

/-- What was seen for one method is as good as the list. -/
theorem accepts_of_sees {authIps seen : Option (Sblist SockaddrUnion)} {caddr : SockaddrUnion}
    (honce : authIps.isSome = true → cfg.authOnce = true) {method : UInt8} {tr : Trace sys}
    (hsees : Sees cfg method tr seen) (hshows : ∀ e ∈ tr, Shows authIps e) (am : Authmethod) :
    AcceptsMethod cfg caddr seen method am ↔ AcceptsMethod cfg caddr authIps method am := by
  cases hsees with
  | nothing hlooks =>
      unfold AcceptsMethod
      by_cases hnoAuth : method = Authmethod.noAuth.code
      · by_cases huser : cfg.authUser = none
        · simp only [huser, true_or]
        · have hnone : authIps = none := by
            by_contra hsome
            exact hlooks ⟨hnoAuth, huser, honce (Option.isSome_iff_ne_none.mpr hsome)⟩
          rw [hnone]
      · simp only [hnoAuth, false_and]
  | list _ l =>
      have hl : authIps = some l := hshows ⟨.loadAuthIps, l⟩ (by simp)
      rw [hl]
  | busy _ =>
      have hlocked : false = authIps.isSome := hshows ⟨.rdlock, false⟩ (by simp)
      rw [Option.isSome_eq_false_iff.mp hlocked.symm |> Option.isNone_iff_eq_none.mp]

theorem selects_of_first {authIps : Option (Sblist SockaddrUnion)} {caddr : SockaddrUnion}
    (honce : authIps.isSome = true → cfg.authOnce = true) {offered : Bytes} {tr : Trace sys}
    {am : Authmethod} (h : FirstAccepted cfg caddr offered tr am) :
    (∀ e ∈ tr, Shows authIps e) → Selects cfg caddr authIps offered am := by
  induction h with
  | noneLeft => exact fun _ => .inr ⟨rfl, fun m hm => nomatch hm⟩
  | accepted hsees hacc =>
      intro hshows
      exact .inl ⟨[], _, _, rfl, (accepts_of_sees honce hsees hshows _).mp hacc,
        fun m hm => nomatch hm⟩
  | refused hsees hnone _ ih =>
      intro hshows
      rw [List.forall_mem_append] at hshows
      have hfirst := fun am' => mt (accepts_of_sees honce hsees hshows.1 am').mpr (hnone am')
      rcases ih hshows.2 with ⟨earlier, method, later, rfl, hacc, hearlier⟩ | ⟨rfl, hlater⟩
      · exact .inl ⟨_ :: earlier, method, later, rfl, hacc,
          List.forall_mem_cons.mpr ⟨hfirst, hearlier⟩⟩
      · exact .inr ⟨rfl, List.forall_mem_cons.mpr ⟨hfirst, hlater⟩⟩

/-- Whatever the list is, there is a scan that finds it so. -/
theorem first_exists (cfg : Config) (authIps : Option (Sblist SockaddrUnion))
    (caddr : SockaddrUnion) (offered : Bytes) :
    ∃ tr am, FirstAccepted cfg caddr offered tr am ∧ ∀ e ∈ tr, Shows authIps e := by
  induction offered with
  | nil => exact ⟨[], .invalid, .noneLeft, fun e he => nomatch he⟩
  | cons method later ih =>
      obtain ⟨tr, am, hlater, hshows⟩ := ih
      have hsees : ∃ tr' seen, Sees cfg method tr' seen ∧ ∀ e ∈ tr', Shows authIps e := by
        by_cases hlooks : LooksUp cfg method
        · cases authIps with
          | none => exact ⟨_, _, .busy hlooks, by simp [Shows]⟩
          | some l => exact ⟨_, _, .list hlooks l, by simp [Shows]⟩
        · exact ⟨_, _, .nothing hlooks, fun e he => nomatch he⟩
      obtain ⟨tr', seen, hsees, hshows'⟩ := hsees
      by_cases hacc : ∃ am', AcceptsMethod cfg caddr seen method am'
      · obtain ⟨am', hacc⟩ := hacc
        exact ⟨tr', am', .accepted hsees hacc, hshows'⟩
      · exact ⟨tr' ++ tr, am, .refused hsees (fun am' h => hacc ⟨am', h⟩) hlater,
          List.forall_mem_append.mpr ⟨hshows', hshows⟩⟩

end Methods

/-! ### Exactness -/

/-- What `check_auth_method` is to do with a greeting. -/
structure AuthMethodExact (cfg : Config) (buf : Bytes) (n : Nat) (client : Client) : Prop where
  /-- No access is past the `n` bytes. -/
  reads : checkAuthMethodMem cfg buf n client = ExceptT.lift (checkAuthMethod cfg buf n client)
  /-- A greeting of another version, or without a count, is turned down at once. -/
  invalid : buf.getD 0 0 ≠ 5 ∨ n < 2 → ∀ tr am,
    Eval (checkAuthMethod cfg buf n client) tr am ↔ tr = [] ∧ am = .invalid
  /-- Otherwise the runs are the scans of the methods offered. -/
  selected : ¬ (buf.getD 0 0 ≠ 5 ∨ n < 2) → ∀ tr am,
    Eval (checkAuthMethod cfg buf n client) tr am ↔
      FirstAccepted cfg client.addr (offeredMethods buf n) tr am
  /-- There are `min NMETHODS (n - 2)` of these. -/
  offered : (offeredMethods buf n).length = min (buf.getD 1 0).toNat (n - 2)
  /-- With one list throughout, the first method accepted under it is what comes back, and
  something does. -/
  steady : ¬ (buf.getD 0 0 ≠ 5 ∨ n < 2) → ∀ authIps : Option (Sblist SockaddrUnion),
    (authIps.isSome = true → cfg.authOnce = true) →
    (∃ tr am, Eval (checkAuthMethod cfg buf n client) tr am ∧ ∀ e ∈ tr, Shows authIps e) ∧
      ∀ tr am, Eval (checkAuthMethod cfg buf n client) tr am → (∀ e ∈ tr, Shows authIps e) →
        Selects cfg client.addr authIps (offeredMethods buf n) am
  /-- No other byte has any influence. -/
  unaffected : ∀ buf' n', n' ≤ buf'.length →
    (buf'.getD 0 0 ≠ 5 ∨ n' < 2 ↔ buf.getD 0 0 ≠ 5 ∨ n < 2) →
    offeredMethods buf' n' = offeredMethods buf n →
    checkAuthMethod cfg buf' n' client = checkAuthMethod cfg buf n client

/-- **`check_auth_method` selects the first method of the greeting that the server
accepts.** -/
theorem authMethod_exact (cfg : Config) {buf : Bytes} {n : Nat} (hn : 1 ≤ n)
    (hbuf : n ≤ buf.length) (client : Client) : AuthMethodExact cfg buf n client where
  reads := checkAuthMethodMem_eq hn cfg buf client
  invalid h tr am := by
    rw [checkAuthMethod_eq hbuf, if_pos h]
    exact eval_ret
  selected h tr am := by
    rw [checkAuthMethod_eq hbuf, if_neg h]
    exact scanOffered_eval
  offered := offeredMethods_length hbuf
  steady h authIps honce := by
    rw [checkAuthMethod_eq hbuf, if_neg h]
    constructor
    · obtain ⟨tr, am, hfirst, hshows⟩ := first_exists cfg authIps client.addr
        (offeredMethods buf n)
      exact ⟨tr, am, scanOffered_eval.mpr hfirst, hshows⟩
    · intro tr am hrun hshows
      exact selects_of_first honce (scanOffered_eval.mp hrun) hshows
  unaffected buf' n' hbuf' hstart hoffered := by
    rw [checkAuthMethod_eq hbuf, checkAuthMethod_eq hbuf', hoffered, if_congr hstart rfl rfl]

/-- The greeting that offers both methods, in auth-once mode. -/
theorem authMethod_exact_both :
    AuthMethodExact onceConfig [5, 2, 0, 2] 4 (homeClient 4) :=
  authMethod_exact onceConfig (by decide) (by decide) (homeClient 4)

end TwoSocks
