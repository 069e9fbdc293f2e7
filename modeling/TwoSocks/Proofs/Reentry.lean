/-
A call of `socks_main` after others.

`quiet` and the variables of `getopt` are statics that a call sets anew before it looks at its
arguments, so it reads the options it would have read as the first call of the process
(`next_reset`).  `auth_user`, `auth_pass` and `auth_ips` are statics too, and are only ever set by
an option.  What an earlier call set one of them to is still there, unless the call has that option
itself, and so a call may be rejected, or serve with credentials it was not given.

Two runs of the option loop are compared step by step.  They read the same options; a static that
was different stays so until an option sets it, and is the same from then on.

That the loop has turns enough is a measure: each turn takes a byte off what `getopt` has left.
-/
import TwoSocks.Server.Main

namespace TwoSocks

/-! ### The options of a call -/

/-- The letters `getopt` delivers, in so many turns. -/
def letters (argv : List CString) : Nat → Getopt → List UInt8
  | 0, _ => []
  | fuel + 1, g =>
      match g.next argv with
      | (.letter c _, g) => c :: letters argv fuel g
      | _ => []

/-- The option is among those the call reads. -/
def SocksCall.Gives (call : SocksCall) (c : Char) : Prop :=
  ascii c ∈ letters call.argv call.turns ⟨1, true, []⟩

instance (call : SocksCall) (c : Char) : Decidable (call.Gives c) :=
  inferInstanceAs (Decidable (_ ∈ _))

/-- After a reset nothing is left of an earlier call. -/
theorem next_reset (argv : List CString) (optind : Nat) (place : Bytes) :
    Getopt.next ⟨optind, true, place⟩ argv = Getopt.next ⟨optind, true, []⟩ argv := by
  unfold Getopt.next
  rw [if_pos (.inl rfl), if_pos (.inl rfl)]

/-! ### The loop ends -/

/-- The bytes of the arguments from one on, and one for each. -/
def bytesFrom (argv : List CString) (i : Nat) : Nat :=
  ((argv.drop i).map fun a => a.bytes.length + 1).sum

/-- What `getopt` has not looked at. -/
def Getopt.left (g : Getopt) (argv : List CString) : Nat :=
  if g.optreset ∨ g.place = [] then bytesFrom argv g.optind
  else g.place.length + bytesFrom argv (g.optind + 1)

section Left

variable {argv : List CString} {i : Nat}

theorem bytesFrom_of_some {a : CString} (h : argv[i]? = some a) :
    bytesFrom argv i = a.bytes.length + 1 + bytesFrom argv (i + 1) := by
  obtain ⟨hi, rfl⟩ := List.getElem?_eq_some_iff.mp h
  unfold bytesFrom
  rw [List.drop_eq_getElem_cons hi, List.map_cons, List.sum_cons]

theorem bytesFrom_succ_le (argv : List CString) (i : Nat) :
    bytesFrom argv (i + 1) ≤ bytesFrom argv i := by
  cases h : argv[i]? with
  | none =>
      have hlen := List.getElem?_eq_none_iff.mp h
      unfold bytesFrom
      rw [List.drop_eq_nil_of_le hlen, List.drop_eq_nil_of_le (by omega)]
  | some a =>
      rw [bytesFrom_of_some h]
      exact Nat.le_add_left ..

/-- Behind a letter there is at most the rest of its argument. -/
theorem atLetter_left {c c' : UInt8} {place : Bytes} {optarg : CString} {g : Getopt}
    (h : Getopt.atLetter i argv c place = (.letter c' optarg, g)) :
    g.left argv ≤ place.length + bytesFrom argv (i + 1) := by
  unfold Getopt.atLetter at h
  cases htakes : optionTakes c with
  | none =>
      simp only [htakes] at h
      cases h
  | some takes =>
      cases takes with
      | false =>
          simp only [htakes] at h
          obtain rfl := (Prod.mk.inj h).2
          by_cases hplace : place = []
          · simp [Getopt.left, hplace]
          · simp [Getopt.left, hplace]
      | true =>
          simp only [htakes] at h
          by_cases hplace : place = []
          · rw [if_neg (not_not_intro hplace)] at h
            split at h
            · obtain rfl := (Prod.mk.inj h).2
              have hless : bytesFrom argv (i + 2) ≤ bytesFrom argv (i + 1) :=
                bytesFrom_succ_le argv (i + 1)
              simp only [Getopt.left, or_true, if_true]
              omega
            · cases h
          · rw [if_pos hplace] at h
            obtain rfl := (Prod.mk.inj h).2
            simp only [Getopt.left, or_true, if_true]
            omega

/-- **A letter is a byte less.** -/
theorem next_left {g g' : Getopt} {c : UInt8} {optarg : CString}
    (h : g.next argv = (.letter c optarg, g')) : g'.left argv < g.left argv := by
  unfold Getopt.next at h
  split at h
  · rename_i hfresh
    have hleft : g.left argv = bytesFrom argv g.optind := if_pos hfresh
    split at h
    · rename_i dash c' place hbytes
      obtain ⟨a, ha, hbytes⟩ := Option.map_eq_some_iff.mp hbytes
      have hlen := congrArg List.length hbytes
      rw [List.length_cons, List.length_cons] at hlen
      rw [hleft, bytesFrom_of_some ha]
      split at h
      · cases h
      split at h
      · cases h
      have := atLetter_left h
      omega
    · cases h
  · rename_i hinside
    have hleft : g.left argv = g.place.length + bytesFrom argv (g.optind + 1) := if_neg hinside
    split at h
    · rename_i c' place hplace
      have hlen := congrArg List.length hplace
      rw [List.length_cons] at hlen
      have := atLetter_left h
      omega
    · cases h

end Left

/-- No option changes the variables of `getopt`. -/
theorem applyOption_getopt {c : UInt8} {optarg : CString} {ok : Bool} {st : Statics}
    {loc : Locals} : (applyOption c optarg ok st loc).1.getopt = st.getopt := by
  unfold applyOption
  split_ifs <;> rfl

/-- One turn of the loop. -/
theorem options_letter {call : SocksCall} {fuel k : Nat} {st : Statics} {loc : Locals} {c : UInt8}
    {optarg : CString} {g : Getopt} (h : st.getopt.next call.argv = (.letter c optarg, g)) :
    options call (fuel + 1) k st loc =
      options call fuel (k + 1)
        (applyOption c optarg (call.memory k) { st with getopt := g } loc).1
        (applyOption c optarg (call.memory k) { st with getopt := g } loc).2 := by
  rw [options, h]

/-- The loop comes to an end. -/
theorem options_ends {call : SocksCall} : ∀ {fuel k : Nat} {st : Statics} {loc : Locals},
    st.getopt.left call.argv < fuel → ∃ r, options call fuel k st loc = some r := by
  intro fuel
  induction fuel with
  | zero => intro k st loc h; omega
  | succ fuel ih =>
      intro k st loc h
      rcases hnext : st.getopt.next call.argv with ⟨opt, g⟩
      cases opt with
      | letter c optarg =>
          have hless := next_left hnext
          rw [options_letter hnext]
          refine ih ?_
          rw [applyOption_getopt]
          show g.left call.argv < fuel
          omega
      | _ =>
          rw [options, hnext]
          exact ⟨_, rfl⟩

/-! ### Two runs -/

/-- How far the statics after two runs agree, where both have read the options `ls`. -/
structure Twins (ls : List UInt8) (st st' st₁ st₁' : Statics) : Prop where
  quiet : st.quiet = st'.quiet → st₁.quiet = st₁'.quiet
  authUser : st₁.authUser = st₁'.authUser ↔ st.authUser = st'.authUser ∨ ascii 'u' ∈ ls
  authPass : st₁.authPass = st₁'.authPass ↔ st.authPass = st'.authPass ∨ ascii 'P' ∈ ls
  authIps : st₁.authIps = st₁'.authIps ↔ st.authIps = st'.authIps ∨ ascii '1' ∈ ls

theorem Twins.refl {st st' : Statics} {g g' : Getopt} :
    Twins [] st st' { st with getopt := g } { st' with getopt := g' } :=
  ⟨id, by simp, by simp, by simp⟩

section Twins

variable {st st' : Statics} {c : UInt8}

/-- A static that an option with the letter `l` sets, and no other does. -/
theorem twins_static {α : Type} {x x' y y' : α} {l : UInt8} (hkept : c ≠ l → y = x ∧ y' = x')
    (hset : c = l → y = y') : y = y' ↔ x = x' ∨ l ∈ [c] := by
  by_cases hl : c = l
  · exact iff_of_true (hset hl) (.inr (List.mem_singleton.mpr hl.symm))
  · obtain ⟨rfl, rfl⟩ := hkept hl
    exact ⟨.inl, fun h => h.resolve_right fun hm => hl (List.mem_singleton.mp hm).symm⟩

/-- An option is dealt with alike, and makes the static it sets the same. -/
theorem applyOption_twins (c : UInt8) (optarg : CString) (ok : Bool) (st st' : Statics)
    (loc : Locals) :
    (applyOption c optarg ok st loc).2 = (applyOption c optarg ok st' loc).2 ∧
      Twins [c] st st' (applyOption c optarg ok st loc).1 (applyOption c optarg ok st' loc).1 := by
  refine ⟨?_, ?_, twins_static ?_ ?_, twins_static ?_ ?_, twins_static ?_ ?_⟩
  · unfold applyOption
    split_ifs <;> rfl
  · intro hquiet
    unfold applyOption
    split_ifs <;> first | exact hquiet | rfl
  · intro hc
    unfold applyOption
    split_ifs <;> exact ⟨rfl, rfl⟩
  · rintro rfl
    rfl
  · intro hc
    unfold applyOption
    split_ifs <;> exact ⟨rfl, rfl⟩
  · rintro rfl
    rfl
  · intro hc
    unfold applyOption
    split_ifs <;> first | exact ⟨rfl, rfl⟩ | contradiction
  · rintro rfl
    rfl

theorem Twins.trans {ls ls' : List UInt8} {st₁ st₁' st₂ st₂' : Statics}
    (h : Twins ls st st' st₁ st₁') (h' : Twins ls' st₁ st₁' st₂ st₂') :
    Twins (ls ++ ls') st st' st₂ st₂' where
  quiet hq := h'.quiet (h.quiet hq)
  authUser := by rw [h'.authUser, h.authUser, or_assoc, List.mem_append]
  authPass := by rw [h'.authPass, h.authPass, or_assoc, List.mem_append]
  authIps := by rw [h'.authIps, h.authIps, or_assoc, List.mem_append]

/-- **The loop reads the same options and makes the statics the same that these set.** -/
theorem options_twins {call : SocksCall} : ∀ {fuel k : Nat} {st st' st₁ : Statics}
    {loc loc₁ : Locals} {usage : Bool}, st.getopt.next call.argv = st'.getopt.next call.argv →
      options call fuel k st loc = some (usage, st₁, loc₁) →
      ∃ st₁', options call fuel k st' loc = some (usage, st₁', loc₁) ∧
        Twins (letters call.argv fuel st.getopt) st st' st₁ st₁' := by
  intro fuel
  induction fuel with
  | zero => intro k st st' st₁ loc loc₁ usage _ h; cases h
  | succ fuel ih =>
      intro k st st' st₁ loc loc₁ usage hsame h
      rcases hnext : st.getopt.next call.argv with ⟨opt, g⟩
      have hnext' := hsame.symm.trans hnext
      unfold letters
      rw [hnext]
      cases opt with
      | letter c optarg =>
          rw [options_letter hnext] at h
          rw [options_letter hnext']
          obtain ⟨hloc, htwins⟩ := applyOption_twins c optarg (call.memory k)
            { st with getopt := g } { st' with getopt := g } loc
          rw [← hloc]
          have hgetopt : ∀ st' : Statics, (applyOption c optarg (call.memory k)
              { st' with getopt := g } loc).1.getopt = g := fun st' => applyOption_getopt
          have hnext₁ : (applyOption c optarg (call.memory k)
              { st with getopt := g } loc).1.getopt.next call.argv = (applyOption c optarg
                (call.memory k) { st' with getopt := g } loc).1.getopt.next call.argv := by
            rw [hgetopt, hgetopt]
          obtain ⟨st₁', hrun, htwins'⟩ := ih hnext₁ h
          rw [hgetopt] at htwins'
          exact ⟨st₁', hrun, ⟨fun hq => htwins'.quiet (htwins.quiet hq),
            (htwins.trans htwins').authUser, (htwins.trans htwins').authPass,
            (htwins.trans htwins').authIps⟩⟩
      | _ =>
          rw [options, hnext] at h
          rw [options, hnext']
          obtain ⟨rfl, hrest⟩ := Prod.mk.inj (Option.some.inj h)
          obtain ⟨rfl, rfl⟩ := Prod.mk.inj hrest
          exact ⟨_, rfl, .refl⟩

end Twins

/-! ### Calls -/

/-- The statics as the loop starts. -/
def Statics.started (st : Statics) : Statics := { st with quiet := false }.resetArgumentParser

/-- The outcome from what the loop leaves. -/
def outcomeOf (usage : Bool) (st : Statics) (loc : Locals) : Outcome :=
  ⟨st.quiet, st.authUser, st.authPass, st.authIps, loc.listenip, loc.port,
    usage || !Config.accepted ⟨st.authUser, st.authPass, st.authIps.isSome⟩⟩

section Calls

variable {call : SocksCall} {st : Statics}

/-- The loop finds the same arguments whatever was before. -/
theorem started_next (st : Statics) (argv : List CString) :
    st.started.getopt.next argv = Getopt.next ⟨1, true, []⟩ argv := next_reset argv 1 _

theorem letters_congr {argv : List CString} {g g' : Getopt} (h : g.next argv = g'.next argv)
    (fuel : Nat) : letters argv fuel g = letters argv fuel g' := by
  cases fuel with
  | zero => rfl
  | succ fuel =>
      unfold letters
      rw [h]

theorem socksMain_of_options {usage : Bool} {st₁ : Statics} {loc : Locals}
    (h : options call call.turns 0 st.started .initial = some (usage, st₁, loc)) :
    socksMain call st = some (outcomeOf usage st₁ loc, st₁) := by
  unfold Statics.started at h
  unfold socksMain
  simp only [h]
  rfl

/-- The loop of a call comes to an end. -/
theorem started_ends (call : SocksCall) (st : Statics) :
    ∃ usage st₁ loc, options call call.turns 0 st.started .initial = some (usage, st₁, loc) := by
  have hleft : st.started.getopt.left call.argv < call.turns := by
    have hreset : st.started.getopt.left call.argv = bytesFrom call.argv 1 := if_pos (.inl rfl)
    rw [hreset]
    exact Nat.lt_succ_of_le (bytesFrom_succ_le call.argv 0)
  obtain ⟨⟨usage, st₁, loc⟩, hr⟩ := options_ends hleft
  exact ⟨usage, st₁, loc, hr⟩

/-- **A call after others has the outcome it has as the first one, if and only if each static that
an option sets is unset before it or set by it.** -/
theorem socksMain_twins :
    (socksMain call st).map Prod.fst = (socksMain call .initial).map Prod.fst ↔
      (st.authUser = none ∨ call.Gives 'u') ∧ (st.authPass = none ∨ call.Gives 'P') ∧
        (st.authIps = none ∨ call.Gives '1') := by
  obtain ⟨usage, st₁, loc, hrun⟩ := started_ends call st
  have hnext : st.started.getopt.next call.argv = Statics.initial.started.getopt.next call.argv :=
    (started_next st _).trans (started_next .initial _).symm
  obtain ⟨st₁', hrun', htwins⟩ := options_twins hnext hrun
  rw [letters_congr (started_next st call.argv)] at htwins
  rw [socksMain_of_options hrun, socksMain_of_options hrun', Option.map_some, Option.map_some,
    Option.some.injEq]
  have hstatics : (outcomeOf usage st₁ loc = outcomeOf usage st₁' loc) ↔
      st₁.authUser = st₁'.authUser ∧ st₁.authPass = st₁'.authPass ∧ st₁.authIps = st₁'.authIps := by
    constructor
    · intro h
      exact ⟨congrArg Outcome.authUser h, congrArg Outcome.authPass h, congrArg Outcome.authIps h⟩
    · rintro ⟨huser, hpass, hips⟩
      unfold outcomeOf
      rw [huser, hpass, hips, htwins.quiet rfl]
  rw [hstatics, htwins.authUser, htwins.authPass, htwins.authIps]
  rfl

/-- Calls that have returned leave some statics. -/
theorem afterCalls_some (calls : List SocksCall) : ∃ st, afterCalls calls = some st := by
  induction calls using List.reverseRecOn with
  | nil => exact ⟨_, rfl⟩
  | append_singleton calls call ih =>
      obtain ⟨st, hst⟩ := ih
      obtain ⟨usage, st₁, loc, hrun⟩ := started_ends call st
      refine ⟨st₁, ?_⟩
      unfold afterCalls at hst ⊢
      rw [List.foldlM_append, hst]
      simp only [Option.bind_eq_bind, Option.bind_some, List.foldlM_cons, List.foldlM_nil,
        socksMain_of_options hrun, Option.map_some]
      rfl

end Calls

/-! ### The result -/

/--
**`socks_main` is re-entrant for exactly the calls that set what earlier ones have set.**

Every call comes to its decision.  It is the one the same call comes to in a process that has just
started if and only if each of `auth_user`, `auth_pass` and `auth_ips` is unset when it is called or
assigned by an option it reads.
-/
theorem reentrant_iff (earlier : List SocksCall) (call : SocksCall) :
    ∃ st out, afterCalls earlier = some st ∧ outcomeAfter earlier call = some out ∧
      (outcomeAfter earlier call = outcomeAfter [] call ↔
        (st.authUser = none ∨ call.Gives 'u') ∧ (st.authPass = none ∨ call.Gives 'P') ∧
          (st.authIps = none ∨ call.Gives '1')) := by
  obtain ⟨st, hst⟩ := afterCalls_some earlier
  obtain ⟨usage, st₁, loc, hrun⟩ := started_ends call st
  have hafter : outcomeAfter earlier call = (socksMain call st).map Prod.fst := by
    unfold outcomeAfter
    rw [hst]
    rfl
  refine ⟨st, outcomeOf usage st₁ loc, hst, ?_, ?_⟩
  · rw [hafter, socksMain_of_options hrun]
    rfl
  · rw [hafter]
    exact socksMain_twins

/-- A call with these arguments, while there is memory. -/
def SocksCall.of (args : List String) : SocksCall := ⟨args.map cstring, fun _ => true⟩

/-- A call with a user name and no password leaves the name behind, and the next one, without
either, is rejected for it. -/
theorem not_reentrant : ¬ ∀ (earlier : List SocksCall) (call : SocksCall),
    outcomeAfter earlier call = outcomeAfter [] call := by
  intro h
  exact absurd (h [.of ["microsocks", "-u", "x"]] (.of ["microsocks", "-p", "4884"]))
    (by decide +kernel)

end TwoSocks
