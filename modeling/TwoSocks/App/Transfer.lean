/-
The transfer totals of the app.

The server counts the bytes of each direction for as long as the process runs.  A view model polls
these counters.  What they grew by since its last poll it holds back as pending, and some seconds
later it adds that to the totals it shows: those of its own session, and those of a lifetime, which
it loaded from `UserDefaults` when it was created and which it stores there again.

Where the source has two variables or two keys, one for each direction, there is one function of
the direction here.  Swift traps when `+=` overflows; that is `none`, and the process is gone.

A `TransferApp` is one process: the counters, the stored values, and the view models there are.
View models run on the main actor, one poll after the other, but the server does not wait for them:
the counters may go up between the two loads of a poll.
-/
import Mathlib.Data.Rat.Defs
import Mathlib.Logic.Function.Basic
import TwoSocks.Server.Sys

namespace TwoSocks

/-- A `Date`, in seconds. -/
abbrev Date := ℚ

/-- `transferPublishInterval`. -/
def transferPublishInterval : ℚ := 3

instance Direction.decidableForall {p : Direction → Prop} [DecidablePred p] :
    Decidable (∀ d, p d) :=
  decidable_of_iff (p .downloaded ∧ p .uploaded)
    ⟨fun h d => by cases d <;> simp [h], fun h => ⟨h _, h _⟩⟩

instance Direction.decidableExists {p : Direction → Prop} [DecidablePred p] :
    Decidable (∃ d, p d) :=
  decidable_of_iff (p .downloaded ∨ p .uploaded)
    ⟨fun h => h.elim (⟨_, ·⟩) (⟨_, ·⟩), fun ⟨d, h⟩ => by cases d <;> simp [h]⟩

/-- A counter for each direction. -/
abbrev Totals := Direction → UInt64

/-- `+=` for each direction. -/
def Totals.adding (totals more : Totals) : Option Totals :=
  if ∀ d, (totals d).toNat + (more d).toNat < 2 ^ 64 then some fun d => totals d + more d else none

/-- `lifetimeDownloadedBytesKey` and `lifetimeUploadedBytesKey`. -/
def lifetimeBytesKey : Direction → String
  | .downloaded => "lifetimeDownloadedBytes"
  | .uploaded => "lifetimeUploadedBytes"

/-- `UserDefaults`, as far as numbers are stored there. -/
abbrev UserDefaults := String → Option UInt64

def persistedByteCount (key : String) (defaults : UserDefaults) : UInt64 :=
  (defaults key).getD 0

/-- What is stored as the lifetime total of a direction. -/
def UserDefaults.lifetime (defaults : UserDefaults) : Totals := fun d =>
  persistedByteCount (lifetimeBytesKey d) defaults

/-- What of `ContentViewVM` is about transfer totals. -/
structure TransferVM where
  sessionBytes : Totals
  lifetimeBytes : Totals
  lastNativeBytes : Totals
  pendingBytes : Totals
  nextTransferPublishAt : Option Date

namespace TransferVM

/-- A new view model, with `loadLifetimeTransferTotals`. -/
def load (defaults : UserDefaults) : TransferVM :=
  ⟨fun _ => 0, defaults.lifetime, fun _ => 0, fun _ => 0, none⟩

def persistLifetimeTransferTotals (vm : TransferVM) (defaults : UserDefaults) : UserDefaults :=
  Function.update
    (Function.update defaults (lifetimeBytesKey .downloaded) (some (vm.lifetimeBytes .downloaded)))
    (lifetimeBytesKey .uploaded) (some (vm.lifetimeBytes .uploaded))

def commitPendingTransferTotalsIfNeeded (vm : TransferVM) (defaults : UserDefaults) :
    Option (TransferVM × UserDefaults) :=
  if ∃ d, 0 < vm.pendingBytes d then do
    let sessionBytes ← vm.sessionBytes.adding vm.pendingBytes
    let lifetimeBytes ← vm.lifetimeBytes.adding vm.pendingBytes
    let vm := ⟨sessionBytes, lifetimeBytes, vm.lastNativeBytes, fun _ => 0, none⟩
    return (vm, vm.persistLifetimeTransferTotals defaults)
  else
    return ({ vm with nextTransferPublishAt := none }, defaults)

/-- How much a counter grew since the last poll. -/
def delta (vm : TransferVM) (totals : Totals) : Totals := fun d =>
  if totals d ≥ vm.lastNativeBytes d then totals d - vm.lastNativeBytes d else totals d

/-- The first half of `applyTransferTotals`: what is new becomes pending. -/
def holdBack (vm : TransferVM) (now : Date) (totals : Totals) : Option TransferVM :=
  if ∃ d, 0 < vm.delta totals d then do
    let pendingBytes ← vm.pendingBytes.adding (vm.delta totals)
    return { vm with
      lastNativeBytes := totals
      pendingBytes
      nextTransferPublishAt :=
        vm.nextTransferPublishAt.getD (now + transferPublishInterval) }
  else
    return { vm with lastNativeBytes := totals }

/-- What is pending is due to be published. -/
def due (vm : TransferVM) (now : Date) : Bool :=
  match vm.nextTransferPublishAt with
  | some nextTransferPublishAt => (∃ d, 0 < vm.pendingBytes d) ∧ now ≥ nextTransferPublishAt
  | none => false

def applyTransferTotals (vm : TransferVM) (defaults : UserDefaults) (now : Date) (totals : Totals) :
    Option (TransferVM × UserDefaults) := do
  let vm ← vm.holdBack now totals
  if vm.due now then vm.commitPendingTransferTotalsIfNeeded defaults
  else return (vm, defaults)

/-- The poll publishes what the view model has pending. -/
def Publishes (vm : TransferVM) (now : Date) (totals : Totals) : Prop :=
  ∃ vm' ∈ vm.holdBack now totals, vm'.due now

end TransferVM

/-! ### The process -/

structure TransferApp where
  /-- The counters of the server. -/
  native : Totals
  defaults : UserDefaults
  /-- The view models there are. -/
  views : Nat → Option TransferVM

/-- What can happen.  A poll ends with the counters at `native`. -/
inductive TransferEvent
  | record (native : Totals)
  | create (view : Nat) (now : Date) (native : Totals)
  | poll (view : Nat) (now : Date) (native : Totals)
  | destroy (view : Nat)

namespace TransferApp

/-- A process that has just started. -/
def initial (defaults : UserDefaults) : TransferApp := ⟨fun _ => 0, defaults, fun _ => none⟩

/-- The loads of a poll, the downloads first. -/
def loads (a : TransferApp) (native : Totals) : Totals
  | .downloaded => a.native .downloaded
  | .uploaded => native .uploaded

/-- `refreshTransferTotals` of one view model. -/
def refreshTransferTotals (a : TransferApp) (view : Nat) (vm : TransferVM) (now : Date)
    (native : Totals) : Option TransferApp := do
  let (vm, defaults) ← vm.applyTransferTotals a.defaults now (a.loads native)
  return ⟨native, defaults, Function.update a.views view (some vm)⟩

/-- One event, if it can happen.  The counters only go up. -/
def step (a : TransferApp) : TransferEvent → Option TransferApp
  | .record native => if ∀ d, a.native d ≤ native d then some { a with native } else none
  | .create view now native =>
      if (∀ d, a.native d ≤ native d) ∧ a.views view = none then
        a.refreshTransferTotals view (.load a.defaults) now native
      else none
  | .poll view now native =>
      if ∀ d, a.native d ≤ native d then do
        let vm ← a.views view
        a.refreshTransferTotals view vm now native
      else none
  | .destroy view => some { a with views := Function.update a.views view none }

end TransferApp

end TwoSocks
