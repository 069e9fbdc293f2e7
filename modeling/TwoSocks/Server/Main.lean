/-
What `socks_main` makes of its arguments.

The options it reads end up in two places.  The address and the port to listen on are locals.
`quiet`, `auth_user`, `auth_pass` and `auth_ips` are statics, and so are the variables of `getopt`,
which is called until the arguments are used up.  `Statics` is all that outlives a call.

`getopt` is the one of the systems on which `reset_argument_parser` sets `optreset`.  It stops at
the first argument that is no option, and keeps what is left of an argument with several options
in `place` until the next call.

A call is its arguments and whether there is memory when an option asks for some.  Its outcome is
the configuration at the point where `server_setup` is called, or would be if the call were not
rejected.  If `server_setup` succeeds then `socks_main` does not return; a call that has returned
has left the statics as they were at that point.
-/
import TwoSocks.Server.Client

namespace TwoSocks

def ascii (c : Char) : UInt8 := UInt8.ofNat c.toNat

/-- The bytes of a string of the source. -/
def cstring (s : String) : CString := .ofBuffer (s.toList.map ascii)

/-! ### The C library -/

/-- `atoi`: what `strtol` reads, which stays in the range of a `long`, as an `int`.  It is given
here as the `unsigned` it is stored in. -/
def atoi (s : CString) : UInt32 :=
  let text := s.bytes.dropWhile fun b => b = ascii ' ' ∨ 9 ≤ b ∧ b ≤ 13
  let (negative, text) := match text with
    | b :: rest => if b = ascii '-' then (true, rest) else if b = ascii '+' then (false, rest)
        else (false, text)
    | [] => (false, [])
  let digits := text.takeWhile fun b => ascii '0' ≤ b ∧ b ≤ ascii '9'
  let value : Int := digits.foldl (fun n b => 10 * n + (b - ascii '0').toNat) 0
  UInt32.ofInt (if negative then max (-value) (-2 ^ 63) else min value (2 ^ 63 - 1))

/-- `strdup`. -/
def strdup (ok : Bool) (s : CString) : Option CString := if ok then some s else none

/-- `optstring`: a letter with a colon after it takes an argument, and a colon in front makes
`getopt` tell a missing argument from an unknown option. -/
def optstring : Bytes := ":1qi:p:u:P:".toList.map ascii

/-- Whether a letter is an option, and if so whether it takes an argument. -/
def optionTakes (c : UInt8) : Option Bool :=
  if c = ascii ':' then none
  else match optstring.dropWhile (· ≠ c) with
    | [] => none
    | _ :: rest => some (rest.head? == some (ascii ':'))

/-- What `getopt` comes back with: `-1`, a letter with its `optarg`, `'?'` or `':'`. -/
inductive Opt
  | done
  | letter (c : UInt8) (optarg : CString)
  | unknown
  | missing

/-- The variables of `getopt`. -/
structure Getopt where
  optind : Nat
  optreset : Bool
  /-- What is left of the argument it is in. -/
  place : Bytes

namespace Getopt

/-- As they are when a process starts. -/
def initial : Getopt := ⟨1, false, []⟩

/-- `getopt` at a letter, with `place` after it. -/
def atLetter (optind : Nat) (argv : List CString) (c : UInt8) (place : Bytes) : Opt × Getopt :=
  let next := if place = [] then optind + 1 else optind
  match optionTakes c with
  | none => (.unknown, ⟨next, false, place⟩)
  | some false => (.letter c (.ofBuffer []), ⟨next, false, place⟩)
  | some true =>
      if place ≠ [] then (.letter c (.ofBuffer place), ⟨optind + 1, false, []⟩)
      else match argv[optind + 1]? with
        | some optarg => (.letter c optarg, ⟨optind + 2, false, []⟩)
        | none => (.missing, ⟨optind + 1, false, []⟩)

/-- `getopt`. -/
def next (g : Getopt) (argv : List CString) : Opt × Getopt :=
  if g.optreset ∨ g.place = [] then
    match argv[g.optind]?.map CString.bytes with
    | some (dash :: c :: place) =>
        if dash ≠ ascii '-' then (.done, ⟨g.optind, false, []⟩)
        else if c = ascii '-' ∧ place = [] then (.done, ⟨g.optind + 1, false, []⟩)
        else atLetter g.optind argv c place
    | _ => (.done, ⟨g.optind, false, []⟩)  -- no argument, or no letter in it
  else match g.place with
    | c :: place => atLetter g.optind argv c place
    | [] => (.done, ⟨g.optind, false, []⟩)

end Getopt

/-! ### `socks_main` -/

/-- What outlives a call. -/
structure Statics where
  quiet : Bool
  authUser : Option CString
  authPass : Option CString
  authIps : Option (Sblist SockaddrUnion)
  getopt : Getopt

/-- As they are when a process starts. -/
def Statics.initial : Statics := ⟨false, none, none, none, .initial⟩

/-- `reset_argument_parser`. -/
def Statics.resetArgumentParser (st : Statics) : Statics :=
  { st with getopt := { st.getopt with optreset := true, optind := 1 } }

/-- `listenip` and `port`. -/
structure Locals where
  listenip : CString
  port : UInt32

def Locals.initial : Locals := ⟨cstring "0.0.0.0", 1080⟩

/-- The arguments, and whether there is memory at the `k`-th option. -/
structure SocksCall where
  argv : List CString
  memory : Nat → Bool

/-- The `switch` on an option. -/
def applyOption (c : UInt8) (optarg : CString) (ok : Bool) (st : Statics) (loc : Locals) :
    Statics × Locals :=
  if c = ascii '1' then ({ st with authIps := if ok then some (.new 8) else none }, loc)
  else if c = ascii 'q' then ({ st with quiet := true }, loc)
  else if c = ascii 'u' then ({ st with authUser := strdup ok optarg }, loc)
  else if c = ascii 'P' then ({ st with authPass := strdup ok optarg }, loc)
  else if c = ascii 'i' then (st, { loc with listenip := optarg })
  else if c = ascii 'p' then (st, { loc with port := atoi optarg })
  else (st, loc)

/-- The loop over the options, from the `k`-th on, and whether it ends with the usage message. -/
def options (call : SocksCall) : Nat → Nat → Statics → Locals → Option (Bool × Statics × Locals)
  | 0, _, _, _ => none
  | fuel + 1, k, st, loc =>
      let (opt, getopt) := st.getopt.next call.argv
      let st := { st with getopt }
      match opt with
      | .done => some (false, st, loc)
      | .unknown | .missing => some (true, st, loc)
      | .letter c optarg =>
          let (st, loc) := applyOption c optarg (call.memory k) st loc
          options call fuel (k + 1) st loc

/-- As many turns as there are bytes in the arguments are enough for the loop. -/
def SocksCall.turns (call : SocksCall) : Nat := (call.argv.map fun a => a.bytes.length + 1).sum + 1

/-- The configuration of a call, and whether it is rejected before `server_setup`. -/
structure Outcome where
  quiet : Bool
  authUser : Option CString
  authPass : Option CString
  authIps : Option (Sblist SockaddrUnion)
  listenip : CString
  port : UInt32
  rejected : Bool
  deriving DecidableEq

/-- `socks_main`, up to `server_setup`. -/
def socksMain (call : SocksCall) (st : Statics) : Option (Outcome × Statics) := do
  let st := { st with quiet := false }.resetArgumentParser
  let (usage, st, loc) ← options call call.turns 0 st .initial
  let accepted := Config.accepted ⟨st.authUser, st.authPass, st.authIps.isSome⟩
  return (⟨st.quiet, st.authUser, st.authPass, st.authIps, loc.listenip, loc.port,
    usage || !accepted⟩, st)

/-- What calls that have returned leave behind. -/
def afterCalls (calls : List SocksCall) : Option Statics :=
  calls.foldlM (fun st call => (socksMain call st).map Prod.snd) .initial

/-- The outcome of a call after others. -/
def outcomeAfter (earlier : List SocksCall) (call : SocksCall) : Option Outcome :=
  (afterCalls earlier).bind fun st => (socksMain call st).map Prod.fst

end TwoSocks
