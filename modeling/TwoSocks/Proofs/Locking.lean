/-
What is under the lock might as well be one step.

`Server/Process.lean` lets a schedule take each section under `auth_ips_lock` as one step.  The
source does no such thing: it takes the lock, and between the operations of a section
other threads run.  Here the process with its lock is followed by the process without.  What a
thread has done of the section it is in is held back, and the section happens at once when the
lock is given back.

`LockBehind` is the relation between the two.  A reader has seen the list as it is in the process
that is behind, since nobody could write to it meanwhile.  A writer has the only list there is.  So
whenever nobody writes, the two processes share the same list.  Who holds the lock never waits for
it, so the lock always comes free again.
-/
import TwoSocks.Proofs.Sections
import TwoSocks.Proofs.Auth

namespace TwoSocks

open Prog

/-! ### What a section does to the list -/

/-- The same with another list. -/
def Shared.withAuthIps (w : Shared) (l : Sblist SockaddrUnion) : Shared := { w with authIps := l }

@[simp] theorem Shared.withAuthIps_authIps (w : Shared) (l : Sblist SockaddrUnion) :
    (w.withAuthIps l).authIps = l := rfl

/-- The list after a trace. -/
def listAfter (l : Sblist SockaddrUnion) (tr : Trace sys) : Sblist SockaddrUnion :=
  tr.foldl (fun l e => match e.op with
    | .storeAuthIps l' => l'
    | _ => l) l

@[simp] theorem listAfter_nil (l : Sblist SockaddrUnion) : listAfter l [] = l := rfl

theorem listAfter_concat (l : Sblist SockaddrUnion) (tr : Trace sys) (e : Event sys) :
    listAfter l (tr ++ [e]) = match e.op with
      | .storeAuthIps l' => l'
      | _ => listAfter l tr := by
  simp [listAfter]

/-- What may be asked for under the lock. -/
def Op.locked : Op → Prop
  | .rdlock | .wrlock | .unlock | .loadAuthIps | .storeAuthIps _ | .realloc _ => True
  | _ => False

/-- A section that has given the lock back asks for nothing more. -/
theorem underLock_over {done : Trace sys} {o : Op} (hnone : heldAfter done = .none)
    (hdone : done ≠ []) : ¬ underLock.guar done o := by
  intro h
  cases o with
  | rdlock | wrlock => exact hdone h
  | loadAuthIps | unlock => exact h hnone
  | realloc | storeAuthIps => exact absurd (hnone.symm.trans h) nofun
  | _ => exact h

/-- An answer that is possible under the lock, the list being `l`. -/
def AnsweredUnder (contract : Contract) (m : ThreadMem) (l : Sblist SockaddrUnion) (e : Event sys) :
    Prop :=
  e.op.locked ∧ ∀ w : Shared, w.authIps = l → answers contract w m e.op e.ret

/-- The answers a section has been given are possible from `l` on, all at once. -/
def Catches (contract : Contract) (m : ThreadMem) : Sblist SockaddrUnion → Trace sys → Prop
  | _, [] => True
  | l, e :: tr => AnsweredUnder contract m l e ∧ Catches contract m (listAfter l [e]) tr

theorem catches_concat {contract : Contract} {m : ThreadMem} {tr : Trace sys} {e : Event sys} :
    ∀ {l : Sblist SockaddrUnion}, Catches contract m l (tr ++ [e]) ↔
      Catches contract m l tr ∧ AnsweredUnder contract m (listAfter l tr) e := by
  induction tr with
  | nil => intro l; simp [Catches]
  | cons e' tr ih =>
      intro l
      have hcons : listAfter l (e' :: tr) = listAfter (listAfter l [e']) tr := rfl
      simp only [List.cons_append, Catches, ih, hcons, and_assoc]

/-- Only the list matters to what happens under the lock. -/
theorem answeredUnder {contract : Contract} {w : Shared} {m : ThreadMem} {o : Op} {r : o.Ret}
    (ho : o.locked) (h : answers contract w m o r) : AnsweredUnder contract m w.authIps ⟨o, r⟩ := by
  refine ⟨ho, fun w' hw => ?_⟩
  cases o with
  | loadAuthIps => exact h.trans hw.symm
  | rdlock | wrlock | unlock | storeAuthIps | realloc => exact h
  | _ => exact ho.elim

theorem update_locked {w : Shared} {m : ThreadMem} {o : Op} {r : o.Ret} (ho : o.locked) :
    update w m o r = (w.withAuthIps (listAfter w.authIps [⟨o, r⟩]), m) := by
  cases o with
  | rdlock | wrlock | unlock | storeAuthIps | realloc | loadAuthIps => rfl
  | _ => exact ho.elim

/-- What was held back can happen. -/
theorem Catches.performs {contract : Contract} {m : ThreadMem} {tr : Trace sys} :
    ∀ {w : Shared}, Catches contract m w.authIps tr →
      Pool.Performs (machine contract) w m tr (w.withAuthIps (listAfter w.authIps tr)) m := by
  induction tr with
  | nil => intro w _; exact .nil
  | cons e tr ih =>
      rintro w ⟨⟨ho, hr⟩, htr⟩
      obtain ⟨o, r⟩ := e
      have hupd : (machine contract).upd w m o r
          = (w.withAuthIps (listAfter w.authIps [⟨o, r⟩]), m) := update_locked ho
      refine .cons (hr w rfl) ?_
      rw [hupd]
      exact ih (w := w.withAuthIps (listAfter w.authIps [⟨o, r⟩])) htr

/-- Outside the sections the list does not matter. -/
theorem answers_unlocked {contract : Contract} {w : Shared} {l : Sblist SockaddrUnion}
    {m : ThreadMem} {o : Op} {r : o.Ret} (ho : o.unlocked)
    (h : answers contract (w.withAuthIps l) m o r) : answers contract w m o r := by
  cases o with
  | loadAuthIps => exact ho.elim
  | _ => exact h

theorem update_unlocked {w : Shared} {l : Sblist SockaddrUnion} {m : ThreadMem} {o : Op}
    {r : o.Ret} (ho : o.unlocked) :
    update (w.withAuthIps l) m o r = ((update w m o r).1.withAuthIps l, (update w m o r).2) ∧
      (update w m o r).1.authIps = w.authIps := by
  cases o with
  | storeAuthIps l => exact ho.elim
  | socket af type => cases r <;> exact ⟨rfl, rfl⟩
  | _ => exact ⟨rfl, rfl⟩

theorem granted_unlocked {lock : RwLock} {hold : Hold} {o : Op} {r : o.Ret} (ho : o.unlocked) :
    nextLock lock hold o r = lock ∧ nextHold hold o r = hold := by
  cases o with
  | rdlock | wrlock | unlock => exact ho.elim
  | _ => exact ⟨rfl, rfl⟩

/-! ### The process that is behind -/

/-- A thread of the process with the lock and the same thread in the one that is behind. -/
abbrev LockLag := Pool.Lag sys Client ThreadMem LockedMem

/-- One thread, where `l` is the list in the process that is behind and `l'` the one there is. -/
structure Caught (contract : Contract) (l l' : Sblist SockaddrUnion) (v : LockLag) : Prop where
  ahead : v.ahead = ⟨v.mem, heldAfter v.kept⟩
  legal : Catches contract v.mem l v.kept
  begun : heldAfter v.kept = .none → v.kept = []
  reads : heldAfter v.kept = .shared → listAfter l v.kept = l
  writes : heldAfter v.kept = .exclusive → listAfter l v.kept = l'

/-- The process that is behind and the one with the lock. -/
structure LockBehind (contract : Contract) (w : Shared) (w' : LockedShared) (vs : List LockLag) :
    Prop where
  threads : ∀ v ∈ vs, Caught contract w.authIps w'.shared.authIps v
  fits : w'.authIpsLock.Fits (vs.map fun v => v.ahead.hold)
  list : w'.authIpsLock.writer = false → w'.shared.authIps = w.authIps
  shared : w'.shared = w.withAuthIps w'.shared.authIps

section Following

variable {contract : Contract} {w w₁ : Shared} {w' w₁' : LockedShared} {pre post : List LockLag}
  {i : Client} {m : ThreadMem} {m' : LockedMem} {done : Trace sys} {o : Op} {r : o.Ret}

/-- A thread that is in no section. -/
theorem Caught.idle {l l' : Sblist SockaddrUnion} {v : LockLag} (hk : v.kept = [])
    (ha : v.ahead = ⟨v.mem, .none⟩) : Caught contract l l' v where
  ahead := by rw [ha, hk, heldAfter_nil]
  legal := by rw [hk]; trivial
  begun _ := hk
  reads h := by rw [hk] at h; cases h
  writes h := by rw [hk] at h; cases h

theorem Caught.hold {l l' : Sblist SockaddrUnion} {v : LockLag} (h : Caught contract l l' v) :
    v.ahead.hold = heldAfter v.kept := by
  rw [h.ahead]

namespace LockBehind

theorem thread (h : LockBehind contract w w' (pre ++ ⟨i, m, done, m'⟩ :: post)) :
    Caught contract w.authIps w'.shared.authIps ⟨i, m, done, m'⟩ :=
  h.threads _ (mem_middle.mpr (.inl rfl))

theorem holds (h : LockBehind contract w w' (pre ++ ⟨i, m, done, m'⟩ :: post)) :
    w'.authIpsLock.Fits ((pre.map fun v => v.ahead.hold) ++ heldAfter done ::
      post.map fun v => v.ahead.hold) := by
  have hfits := h.fits
  rw [List.map_append, List.map_cons, h.thread.hold] at hfits
  exact hfits

/-- Beside a writer nobody is in a section. -/
theorem idle (h : LockBehind contract w w' (pre ++ ⟨i, m, done, m'⟩ :: post))
    (hdone : heldAfter done = .exclusive) :
    ∀ v ∈ pre ++ post, v.kept = [] ∧ v.ahead = ⟨v.mem, .none⟩ := by
  intro v hv
  have hall := (hdone ▸ h.holds).alone v.ahead.hold (by
    rw [← List.map_append]
    exact List.mem_map_of_mem hv)
  have hcaught := h.threads v (mem_middle.mpr (.inr hv))
  have hnone : heldAfter v.kept = .none := hcaught.hold.symm.trans hall
  exact ⟨hcaught.begun hnone, by rw [hcaught.ahead, hnone]⟩

/-- Under the lock a thread sees the list that it will have seen when the lock is given back. -/
theorem sees (h : LockBehind contract w w' (pre ++ ⟨i, m, done, m'⟩ :: post))
    (hdone : heldAfter done ≠ .none) : listAfter w.authIps done = w'.shared.authIps := by
  cases hhold : heldAfter done with
  | none => exact absurd hhold hdone
  | shared =>
      rw [h.thread.reads hhold]
      exact (h.list (hhold ▸ h.holds).shared_writer).symm
  | exclusive => exact h.thread.writes hhold

/-- A thread moves on and leaves the list alone. -/
theorem change (h : LockBehind contract w w' (pre ++ ⟨i, m, done, m'⟩ :: post))
    {v : LockLag} {lock : RwLock} (hcaught : Caught contract w.authIps w'.shared.authIps v)
    (hfits : lock.Fits ((pre.map fun v => v.ahead.hold) ++ v.ahead.hold ::
      post.map fun v => v.ahead.hold))
    (hlist : lock.writer = false → w'.shared.authIps = w.authIps) :
    LockBehind contract w ⟨w'.shared, lock⟩ (pre ++ v :: post) where
  threads u hu := by
    rcases mem_middle.mp hu with rfl | hu
    · exact hcaught
    · exact h.threads u (mem_middle.mpr (.inr hu))
  fits := by
    rw [List.map_append, List.map_cons]
    exact hfits
  list := hlist
  shared := h.shared

/-- Nothing a thread does outside its sections is about the list. -/
theorem event (h : LockBehind contract w w' (pre ++ ⟨i, m, [], m'⟩ :: post))
    (hc : (lockMachine contract).can w' m' o r) (ho : o.unlocked) :
    (machine contract).can w m o r ∧
      LockBehind contract ((machine contract).upd w m o r).1
        ((lockMachine contract).upd w' m' o r).1 (pre ++ ⟨i, ((machine contract).upd w m o r).2, [],
          ((lockMachine contract).upd w' m' o r).2⟩ :: post) := by
  obtain ⟨hthreads, hfits, hlist, hshared⟩ := h
  obtain rfl : m' = ⟨m, .none⟩ := (hthreads _ (mem_middle.mpr (.inl rfl))).ahead
  obtain ⟨hcan, -⟩ := hc
  obtain ⟨shared, lock⟩ := w'
  obtain ⟨l, rfl⟩ : ∃ l, shared = w.withAuthIps l := ⟨_, hshared⟩
  refine ⟨answers_unlocked ho hcan, ?_⟩
  obtain ⟨hupd, hkept⟩ := update_unlocked (l := l) (m := m) (r := r) (w := w) ho
  obtain ⟨hlock, hhold⟩ : nextLock lock .none o r = lock ∧ nextHold .none o r = .none :=
    granted_unlocked ho
  have hupd' : (lockMachine contract).upd ⟨w.withAuthIps l, lock⟩ ⟨m, .none⟩ o r
      = (⟨(update w m o r).1.withAuthIps l, lock⟩, ⟨(update w m o r).2, .none⟩) := by
    show ((⟨(update _ m o r).1, nextLock lock .none o r⟩,
      ⟨(update _ m o r).2, nextHold .none o r⟩) : LockedShared × LockedMem) = _
    rw [hupd, hlock, hhold]
  rw [hupd']
  refine ⟨fun v hv => ?_, ?_, fun hw => (hlist hw).trans hkept.symm, rfl⟩
  · rcases mem_middle.mp hv with rfl | hv
    · exact .idle rfl rfl
    · have hcaught := hthreads v (mem_middle.mpr (.inr hv))
      rwa [← hkept] at hcaught
  · simpa only [List.map_append, List.map_cons] using hfits

/-- Under the lock a thread has looked at the list, or asked for memory. -/
theorem stay (h : LockBehind contract w w' (pre ++ ⟨i, m, done, m'⟩ :: post))
    (hdone : heldAfter done ≠ .none) (hans : AnsweredUnder contract m w'.shared.authIps ⟨o, r⟩)
    (hhold : nextHold (heldAfter done) o r = heldAfter done)
    (hlist : ∀ l, listAfter l (done ++ [⟨o, r⟩]) = listAfter l done) :
    LockBehind contract w w' (pre ++ ⟨i, m, done ++ [⟨o, r⟩], ⟨m, heldAfter done⟩⟩ :: post) := by
  have hconcat : heldAfter (done ++ [⟨o, r⟩]) = heldAfter done :=
    (heldAfter_concat done ⟨o, r⟩).trans hhold
  refine h.change ⟨by rw [hconcat], ?_, fun hn => ?_, fun hs => ?_, fun hx => ?_⟩ h.holds h.list
  · exact catches_concat.mpr ⟨h.thread.legal, by rw [h.sees hdone]; exact hans⟩
  · exact absurd (hconcat.symm.trans hn) hdone
  · exact (hlist _).trans (h.thread.reads (hconcat.symm.trans hs))
  · exact (hlist _).trans (h.thread.writes (hconcat.symm.trans hx))

/-- A section goes on. -/
theorem inside (h : LockBehind contract w w' (pre ++ ⟨i, m, done, m'⟩ :: post))
    (hguar : underLock.guar done o) (hnext : ∃ o', underLock.guar (done ++ [⟨o, r⟩]) o')
    (hc : (lockMachine contract).can w' m' o r) :
    LockBehind contract w ((lockMachine contract).upd w' m' o r).1
      (pre ++ ⟨i, m, done ++ [⟨o, r⟩], ((lockMachine contract).upd w' m' o r).2⟩ :: post) := by
  obtain rfl : m' = ⟨m, heldAfter done⟩ := h.thread.ahead
  obtain ⟨hcan, hgranted⟩ := hc
  have hheld : heldAfter (done ++ [⟨o, r⟩]) ≠ .none := by
    intro hnone
    obtain ⟨o', ho'⟩ := hnext
    exact underLock_over hnone (by simp) ho'
  cases o with
  | rdlock =>
      obtain rfl : done = [] := hguar
      cases r with
      | false => exact absurd rfl hheld
      | true =>
          refine h.change ⟨rfl, ⟨⟨trivial, fun _ _ => hcan⟩, trivial⟩, nofun, fun _ => rfl, nofun⟩
            (h.holds.share hgranted) h.list
  | wrlock =>
      obtain rfl : done = [] := hguar
      cases r with
      | false => exact absurd rfl hheld
      | true =>
          obtain ⟨hw, hn⟩ := hgranted
          exact h.change ⟨rfl, ⟨⟨trivial, fun _ _ => hcan⟩, trivial⟩, nofun, nofun,
            fun _ => (h.list hw).symm⟩ (h.holds.exclude hw hn) nofun
  | loadAuthIps =>
      exact h.stay hguar (answeredUnder trivial hcan) rfl fun l => listAfter_concat l done _
  | realloc n =>
      have hdone : heldAfter done = .exclusive := hguar
      exact h.stay (by rw [hdone]; exact nofun) (answeredUnder trivial hcan) rfl
        fun l => listAfter_concat l done _
  | storeAuthIps l =>
      have hdone : heldAfter done = .exclusive := hguar
      have hconcat : heldAfter (done ++ [⟨.storeAuthIps l, r⟩]) = .exclusive :=
        (heldAfter_concat done _).trans hdone
      have hafter : listAfter w.authIps (done ++ [⟨.storeAuthIps l, r⟩]) = l :=
        listAfter_concat w.authIps done _
      have hidle := h.idle hdone
      have hholds := h.holds
      refine ⟨fun v hv => ?_, ?_, fun hw => ?_, ?_⟩
      · rcases mem_middle.mp hv with rfl | hv
        · refine ⟨by rw [hconcat]; exact congrArg _ hdone, catches_concat.mpr
            ⟨h.thread.legal, trivial, fun _ _ => hcan⟩, fun hn => absurd hn hheld, ?_,
            fun _ => hafter⟩
          rw [hconcat]
          exact nofun
        · exact .idle (hidle v hv).1 (hidle v hv).2
      · rw [List.map_append, List.map_cons]
        exact hholds
      · exact absurd ((hdone ▸ hholds).exclusive_writer.symm.trans hw) nofun
      · show Shared.withAuthIps w'.shared l = _
        rw [h.shared]
        rfl
  | unlock => exact absurd (heldAfter_concat done ⟨.unlock, r⟩) hheld
  | _ => exact hguar.elim

/-- A section ends, and has happened. -/
theorem finish (h : LockBehind contract w w' (pre ++ ⟨i, m, done, m'⟩ :: post))
    (hguar : underLock.guar done o) (hends : underLock.ends (done ++ [⟨o, r⟩]))
    (hc : (lockMachine contract).can w' m' o r) :
    ∃ w₁ m₁, Pool.Performs (machine contract) w m (done ++ [⟨o, r⟩]) w₁ m₁ ∧
      LockBehind contract w₁ ((lockMachine contract).upd w' m' o r).1
        (pre ++ ⟨i, m₁, [], ((lockMachine contract).upd w' m' o r).2⟩ :: post) := by
  obtain rfl : m' = ⟨m, heldAfter done⟩ := h.thread.ahead
  obtain ⟨hcan, hgranted⟩ := hc
  have hnone : nextHold (heldAfter done) o r = .none :=
    (heldAfter_concat done ⟨o, r⟩).symm.trans hends
  cases o with
  | rdlock =>
      obtain rfl : done = [] := hguar
      cases r with
      | false =>
          have hperf : Pool.Performs (machine contract) w m [⟨.rdlock, false⟩] w m :=
            .cons hcan .nil
          exact ⟨w, m, hperf, h.change (.idle rfl rfl) h.holds h.list⟩
      | true => cases hnone
  | wrlock =>
      obtain rfl : done = [] := hguar
      cases r with
      | false =>
          have hperf : Pool.Performs (machine contract) w m [⟨.wrlock, false⟩] w m :=
            .cons hcan .nil
          exact ⟨w, m, hperf, h.change (.idle rfl rfl) h.holds h.list⟩
      | true => cases hnone
  | loadAuthIps => exact absurd hnone hguar
  | realloc n => exact absurd (hnone.symm.trans hguar) nofun
  | storeAuthIps l => exact absurd (hnone.symm.trans hguar) nofun
  | unlock =>
      have hsees := h.sees hguar
      have hlegal : Catches contract m w.authIps (done ++ [⟨.unlock, r⟩]) :=
        catches_concat.mpr ⟨h.thread.legal, trivial, fun _ _ => hcan⟩
      have hperf := hlegal.performs
      have hw₁ : w.withAuthIps (listAfter w.authIps (done ++ [⟨.unlock, r⟩])) = w'.shared := by
        rw [listAfter_concat, h.shared]
        exact congrArg _ hsees
      rw [hw₁] at hperf
      refine ⟨w'.shared, m, hperf, fun v hv => ?_, ?_, fun _ => rfl, rfl⟩
      · rcases mem_middle.mp hv with rfl | hv
        · exact .idle rfl rfl
        · cases hhold : heldAfter done with
          | none => exact absurd hhold hguar
          | shared =>
              have hcaught := h.threads v (mem_middle.mpr (.inr hv))
              rw [← h.list (hhold ▸ h.holds).shared_writer] at hcaught
              exact hcaught
          | exclusive => exact .idle (h.idle hhold v hv).1 (h.idle hhold v hv).2
      · rw [List.map_append, List.map_cons]
        exact h.holds.release
  | _ => exact hguar.elim

end LockBehind

/-- The process without the lock can follow the one with it. -/
theorem behind_defers (contract : Contract) (inet : Inet) (cfg : Config) :
    Pool.Defers (machine contract) (lockMachine contract) (accepted inet cfg)
      (acceptedUnlocked inet cfg) Op.unlocked underLock (LockBehind contract) where
  start w w' vs i h := by
    refine ⟨fun v hv => ?_, ?_, h.list, h.shared⟩
    · rcases List.mem_append.mp hv with hv | hv
      · exact h.threads v hv
      · rw [List.mem_singleton.mp hv]
        exact .idle rfl rfl
    · rw [List.map_append]
      exact h.fits.join
  event _ _ _ _ _ _ _ _ _ h hc ho := h.event hc ho
  inside _ _ _ _ _ _ _ _ _ _ h hguar hnext hc := h.inside hguar hnext hc
  finish _ _ _ _ _ _ _ _ _ _ h hguar hends hc := h.finish hguar hends hc

end Following

/-! ### The process with its lock -/

/-- The two processes differ in the sections alone. -/
theorem locked_same (t : Block) (ht : ¬ Locked t) : noneWhole t ↔ lockedWhole t := by
  cases t with
  | locked => exact absurd rfl ht
  | accounted => exact Iff.rfl

/-- A thread of the process that is behind and the same thread of the one with the lock: what the
one has done beyond the other is of the section it is in. -/
structure SameThread (t : Thread sys Client ThreadMem) (t' : Thread sys Client LockedMem) :
    Prop where
  id : t'.id = t.id
  mem : t'.mem.mem = t.mem
  trace : ∃ kept, t'.trace = t.trace ++ kept ∧ (∀ e ∈ kept, e.op.locked) ∧
    t'.mem.hold = heldAfter kept ∧ (t'.mem.hold = .none → kept = [])
  returned : t'.prog = .ret () → t.prog = .ret () ∧ t'.mem.hold = .none

/-- The process with its lock, and one without it that has done all but the sections somebody
is in. -/
structure Serialised (c : Pool sys Client Shared ThreadMem)
    (c' : Pool sys Client LockedShared LockedMem) : Prop where
  threads : List.Forall₂ SameThread c.threads c'.threads
  /-- The lock knows who holds it, and a writer holds it alone. -/
  lock : c'.world.authIpsLock.Fits (c'.threads.map fun t => t.mem.hold)
  /-- At most the list differs, and only while somebody writes to it. -/
  shared : c'.world.shared = c.world.withAuthIps c'.world.shared.authIps
  list : (∀ t ∈ c'.threads, t.mem.hold ≠ .exclusive) → c'.world.shared = c.world

section Process

variable {contract : Contract} {inet : Inet} {cfg : Config}
  {c : Pool sys Client LockedShared LockedMem} {w : Shared}
  {xs : Pool.Pairing sys Client ThreadMem LockedMem}

theorem Catches.locked {m : ThreadMem} {tr : Trace sys} : ∀ {l : Sblist SockaddrUnion},
    Catches contract m l tr → ∀ e ∈ tr, e.op.locked := by
  induction tr with
  | nil => intro l _ e he; cases he
  | cons e tr ih =>
      intro l h e' he'
      rcases List.mem_cons.mp he' with rfl | he'
      · exact h.1.1
      · exact ih h.2 e' he'

/-- A thread that is behind has done the same as the other, up to the section that one is in. -/
theorem sameThread {t : Thread sys Client ThreadMem} {kept : Trace sys}
    {t' : Thread sys Client LockedMem} {l l' : Sblist SockaddrUnion}
    (htrails : Pool.Trails Locked Op.unlocked underLock noneWhole t kept t')
    (hcaught : Caught contract l l' ⟨t.id, t.mem, kept, t'.mem⟩) : SameThread t t' := by
  have hmem : t'.mem = ⟨t.mem, heldAfter kept⟩ := hcaught.ahead
  have hbegun : t'.mem.hold = .none → kept = [] :=
    fun h => hcaught.begun (hcaught.hold.symm.trans h)
  cases htrails with
  | level hsec =>
      exact ⟨rfl, congrArg LockedMem.mem hmem, ⟨[], (List.append_nil _).symm, by simp,
        hcaught.hold, fun _ => rfl⟩, fun hr => ⟨hr, hcaught.hold⟩⟩
  | @inside β i tag p q k m m' past _ ht hsteps hobeys hq hk =>
      refine ⟨rfl, congrArg LockedMem.mem hmem, ⟨kept, rfl, hcaught.legal.locked, hcaught.hold,
        hbegun⟩, fun hr => ?_⟩
      cases q with
      | ret b => exact absurd rfl (hq b)
      | call o k' => cases hr
      | loop body s k' => cases hr
      | block tag p k' => cases hr

/-- The threads of the two processes, one beside the other. -/
structure Beside (contract : Contract) (inet : Inet) (cfg : Config)
    (c : Pool sys Client LockedShared LockedMem) (w : Shared)
    (xs : Pool.Pairing sys Client ThreadMem LockedMem) : Prop where
  reach : Process contract inet cfg lockedWhole ⟨w, xs.behind⟩
  ahead : c.threads = xs.ahead
  trails : ∀ x ∈ xs, Pool.Trails Locked Op.unlocked underLock noneWhole x.1 x.2.1 x.2.2
  behind : LockBehind contract w c.world xs.lags

namespace Beside

theorem caught (h : Beside contract inet cfg c w xs) {x} (hx : x ∈ xs) :
    Caught contract w.authIps c.world.shared.authIps ⟨x.1.id, x.1.mem, x.2.1, x.2.2.mem⟩ :=
  h.behind.threads _ (List.mem_map_of_mem hx)

theorem same (h : Beside contract inet cfg c w xs) {x} (hx : x ∈ xs) : SameThread x.1 x.2.2 :=
  sameThread (h.trails x hx) (h.caught hx)

theorem mem (h : Beside contract inet cfg c w xs) {x} (hx : x ∈ xs) : x.2.2 ∈ c.threads := by
  rw [h.ahead]
  exact List.mem_map_of_mem hx

theorem exists_of_mem (h : Beside contract inet cfg c w xs) {t} (ht : t ∈ c.threads) :
    ∃ x ∈ xs, x.2.2 = t := by
  rw [h.ahead] at ht
  exact List.mem_map.mp ht

/-- The lock knows who holds it. -/
theorem fits (h : Beside contract inet cfg c w xs) :
    c.world.authIpsLock.Fits (c.threads.map fun t => t.mem.hold) := by
  rw [h.ahead]
  simpa only [Pool.Pairing.lags, Pool.Pairing.ahead, List.map_map, Function.comp_def] using
    h.behind.fits

/-- Of a thread that holds the lock the process behind has the thread at the head of its
section. -/
theorem holder (h : Beside contract inet cfg c w xs) {x} (hx : x ∈ xs)
    (hhold : x.2.2.mem.hold ≠ .none) : ∃ (β : Type) (p q : Prog sys β) (k : β → Server Unit),
      x.1 = ⟨x.1.id, .block .locked p k, x.1.mem, x.1.trace⟩ ∧ x.2.2.prog = q.bind k ∧
        (∀ b, q ≠ .ret b) ∧ Steps noneWhole p x.2.1 q ∧ Obeys underLock x.2.1 q := by
  have hheld := (h.caught hx).hold
  have htrails := h.trails x hx
  obtain ⟨t, kept, t'⟩ := x
  dsimp only at htrails hheld hhold
  cases htrails with
  | level => exact absurd hheld hhold
  | @inside β i tag p q k m m' past _ ht hsteps hobeys hq hk =>
      obtain rfl : tag = .locked := ht
      exact ⟨β, p, q, k, rfl, rfl, hq, hsteps, hobeys⟩

end Beside

/-- A process without the lock can be beside the one with it. -/
theorem interleaved_beside (hc : Interleaved contract inet cfg c) :
    ∃ w xs, Beside contract inet cfg c w xs := by
  have hfollows : Pool.Follows (machine contract) (accepted inet cfg) Locked Op.unlocked underLock
      lockedWhole noneWhole (LockBehind contract) .initial c := by
    refine Pool.Reachable.follows (behind_defers contract inet cfg) rfl
      (clientthread_sectioned inet cfg) ⟨by simp, .free, fun _ => rfl, rfl⟩ ?_ locked_same hc
    rintro t rfl
    exact ⟨trivial, id⟩
  obtain ⟨w, xs, hreach, hahead, htrails, hbehind⟩ := hfollows
  exact ⟨w, xs, hreach, hahead, htrails, hbehind⟩

/-- **Threads that change at every operation do nothing that they could not do with each section
under the lock as one step.** -/
theorem interleaved_serialised (hc : Interleaved contract inet cfg c) :
    ∃ c₀, Process contract inet cfg lockedWhole c₀ ∧ Serialised c₀ c := by
  obtain ⟨w, xs, h⟩ := interleaved_beside hc
  have hfits := h.fits
  refine ⟨_, h.reach, ?_, hfits, h.behind.shared, fun hnone => ?_⟩
  · rw [h.ahead]
    exact List.forall₂_map_left_iff.mpr (List.forall₂_map_right_iff.mpr
      (List.forall₂_same.mpr fun x hx => h.same hx))
  · have hw : c.world.authIpsLock.writer = false := hfits.no_writer (by
      intro hmem
      obtain ⟨t, ht, hhold⟩ := List.mem_map.mp hmem
      exact hnone t ht hhold)
    rw [h.behind.shared, h.behind.list hw]
    rfl

/-! ### Giving the lock back -/

/-- The operations that may have to wait. -/
def Op.asksLock : Op → Prop
  | .rdlock | .wrlock => True
  | _ => False

/-- A thread asks for something that it need not wait for, and can be answered. -/
def GoesOn (w : LockedShared) (t : Thread sys Client LockedMem) : Prop :=
  ∃ (o : Op) (k : o.Ret → Server Unit) (r : o.Ret), t.prog = .call o k ∧ ¬ o.asksLock ∧
    (lockMachine anyAnswer).can w t.mem o r

/-- A step of a thread that holds the lock. -/
inductive HolderStep :
    Pool sys Client LockedShared LockedMem → Pool sys Client LockedShared LockedMem → Prop
  | thread {w w' : LockedShared} {pre post : List (Thread sys Client LockedMem)} {i : Client}
      {p p' : Server Unit} {m m' : LockedMem} {past tr : Trace sys} (hheld : m.hold ≠ .none)
      (h : Step noneWhole p tr p') (hp : Pool.Performs (lockMachine anyAnswer) w m tr w' m') :
      HolderStep ⟨w, pre ++ ⟨i, p, m, past⟩ :: post⟩ ⟨w', pre ++ ⟨i, p', m', past ++ tr⟩ :: post⟩

theorem HolderStep.interleaved {c c' : Pool sys Client LockedShared LockedMem}
    (h : HolderStep c c') : InterleavedStep anyAnswer inet cfg c c' := by
  cases h with
  | thread hheld h hp => exact .thread h hp

theorem forall₂_trans {α : Type*} {R : α → α → Prop} (hR : ∀ a b c, R a b → R b c → R a c)
    {l l' : List α} (h : List.Forall₂ R l l') :
    ∀ {l'' : List α}, List.Forall₂ R l' l'' → List.Forall₂ R l l'' := by
  induction h with
  | nil => intro l'' h'; exact h'
  | cons hab _ ih =>
      intro l'' h'
      cases h' with
      | cons hbc h' => exact .cons (hR _ _ _ hab hbc) (ih h')

/-- What becomes of a thread while those that hold the lock go on: nothing, if it does not. -/
structure Continues (t t' : Thread sys Client LockedMem) : Prop where
  id : t'.id = t.id
  trace : t.trace <+: t'.trace
  idle : t.mem.hold = .none → t' = t

theorem Continues.refl (t : Thread sys Client LockedMem) : Continues t t :=
  ⟨rfl, List.prefix_rfl, fun _ => rfl⟩

theorem Continues.trans {t t' t'' : Thread sys Client LockedMem} (h : Continues t t')
    (h' : Continues t' t'') : Continues t t'' := by
  refine ⟨h'.id.trans h.id, h.trace.trans h'.trace, fun hnone => ?_⟩
  obtain rfl := h.idle hnone
  exact h'.idle hnone

theorem HolderStep.continues {c c' : Pool sys Client LockedShared LockedMem} (h : HolderStep c c') :
    List.Forall₂ Continues c.threads c'.threads := by
  cases h with
  | thread hheld h hp =>
      refine List.rel_append (List.forall₂_same.mpr fun t _ => .refl t) (.cons ?_
        (List.forall₂_same.mpr fun t _ => .refl t))
      exact ⟨rfl, List.prefix_append _ _, fun hnone => absurd hnone hheld⟩

theorem holders_interleaved {c c' : Pool sys Client LockedShared LockedMem}
    (h : Relation.ReflTransGen HolderStep c c') :
    Relation.ReflTransGen (InterleavedStep anyAnswer inet cfg) c c' := by
  induction h with
  | refl => exact .refl
  | tail _ hs ih => exact .tail ih hs.interleaved

/-- The holders go on, and all others stay where they are. -/
theorem holders_continue {c c' : Pool sys Client LockedShared LockedMem}
    (h : Relation.ReflTransGen HolderStep c c') : List.Forall₂ Continues c.threads c'.threads := by
  induction h with
  | refl => exact List.forall₂_same.mpr fun t _ => .refl t
  | tail _ hs ih => exact forall₂_trans (fun _ _ _ h h' => h.trans h') ih hs.continues

/-- Under the lock a thread asks for something else than the lock, and can have it. -/
theorem under_lock_asks {β : Type} {q : Prog sys β} {done : Trace sys}
    (hobeys : Obeys underLock done q) (hheld : heldAfter done ≠ .none) (w : LockedShared)
    (m : LockedMem) : ∃ (o : Op) (k : o.Ret → Prog sys β) (r : o.Ret), q = .call o k ∧
      ¬ o.asksLock ∧ (lockMachine anyAnswer).can w m o r := by
  cases q with
  | ret b => exact absurd hobeys.2.2 hheld
  | call o k =>
      have hguar := hobeys.2.2.1
      cases o with
      | rdlock | wrlock =>
          obtain rfl : done = [] := hguar
          exact absurd rfl hheld
      | loadAuthIps => exact ⟨.loadAuthIps, k, w.shared.authIps, rfl, id, rfl, trivial⟩
      | realloc n => exact ⟨.realloc n, k, true, rfl, id, trivial, trivial⟩
      | storeAuthIps l => exact ⟨.storeAuthIps l, k, (), rfl, id, trivial, trivial⟩
      | unlock => exact ⟨.unlock, k, (), rfl, id, trivial, trivial⟩
      | _ => exact hguar.elim
  | loop body s k => exact hobeys.1.elim
  | block t p k => exact hobeys.1.elim

/-- A thread that holds the lock goes on alone until it has given it back. -/
theorem gives_back {pre post : List (Thread sys Client LockedMem)} {i : Client} {β : Type}
    {q : Prog sys β} : ∀ {k : β → Server Unit} {done past : Trace sys} {w : LockedShared}
      {m : LockedMem}, Obeys underLock done q →
      m.hold = heldAfter done → heldAfter done ≠ .none →
        ∃ w' t', Relation.ReflTransGen HolderStep
            ⟨w, pre ++ ⟨i, q.bind k, m, past⟩ :: post⟩ ⟨w', pre ++ t' :: post⟩ ∧
          t'.mem.hold = .none := by
  induction q with
  | ret b => intro k done past w m hobeys _ hheld; exact absurd hobeys.2.2 hheld
  | @call β o k' ih =>
      intro k done past w m hobeys hhold hheld
      obtain ⟨_, _, r, hcall, -, hcan⟩ := under_lock_asks hobeys hheld w m
      cases hcall
      have hstep : Step noneWhole (.call o k' : Prog sys β) [⟨o, r⟩] (k' r) :=
        Step.call (S := sys) r
      obtain ⟨-, -, htr, -, hobeys'⟩ := hobeys.step hstep
      have hpool : HolderStep ⟨w, pre ++ ⟨i, (Prog.call o k').bind k, m, past⟩ :: post⟩
          ⟨((lockMachine anyAnswer).upd w m o r).1, pre ++ ⟨i, (k' r).bind k,
            ((lockMachine anyAnswer).upd w m o r).2, past ++ [⟨o, r⟩]⟩ :: post⟩ :=
        .thread (hhold ▸ hheld) hstep.bind (.cons hcan .nil)
      have hhold' : ((lockMachine anyAnswer).upd w m o r).2.hold
          = heldAfter (done ++ [⟨o, r⟩]) := by
        rw [heldAfter_concat, ← hhold]
        rfl
      by_cases hover : heldAfter (done ++ [⟨o, r⟩]) = .none
      · exact ⟨_, _, .single hpool, hhold'.trans hover⟩
      · obtain ⟨w', t', hrun, ht'⟩ := ih r hobeys' hhold' hover
        exact ⟨w', t', .head hpool hrun, ht'⟩
  | loop body s k' => intro k done past w m hobeys; exact hobeys.1.elim
  | block t p k' => intro k done past w m hobeys; exact hobeys.1.elim

/-- Who holds the lock goes on. -/
theorem Beside.goes_on (h : Beside anyAnswer inet cfg c w xs) {t : Thread sys Client LockedMem}
    (ht : t ∈ c.threads) (hheld : t.mem.hold ≠ .none) : GoesOn c.world t := by
  obtain ⟨x, hx, rfl⟩ := h.exists_of_mem ht
  obtain ⟨β, p, q, k, -, hprog, -, -, hobeys⟩ := h.holder hx hheld
  obtain ⟨o, k', r, rfl, hasks, hcan⟩ :=
    under_lock_asks hobeys ((h.caught hx).hold ▸ hheld) c.world x.2.2.mem
  exact ⟨o, fun r => (k' r).bind k, r, hprog, hasks, hcan⟩

/-- The holders go on until there are none. -/
theorem holders_give_back (hc : Interleaved anyAnswer inet cfg c) :
    ∃ c', Relation.ReflTransGen HolderStep c c' ∧ ∀ t ∈ c'.threads, t.mem.hold = .none := by
  generalize hn : (c.threads.countP fun t => t.mem.hold ≠ .none) = n
  induction n generalizing c with
  | zero =>
      refine ⟨c, .refl, fun t ht => ?_⟩
      simpa using List.countP_eq_zero.mp hn t ht
  | succ n ih =>
      obtain ⟨w, xs, h⟩ := interleaved_beside hc
      obtain ⟨t, ht, hhold⟩ := List.countP_pos_iff.mp (Nat.lt_of_lt_of_eq n.succ_pos hn.symm)
      obtain ⟨x, hx, rfl⟩ := h.exists_of_mem ht
      have hheld : x.2.2.mem.hold ≠ .none := of_decide_eq_true hhold
      obtain ⟨β, p, q, k, -, hprog, -, -, hobeys⟩ := h.holder hx hheld
      have hafter := (h.caught hx).hold
      obtain ⟨pre, post, hthreads⟩ := List.append_of_mem ht
      obtain ⟨w', t', hrun, ht'⟩ : ∃ w' t', Relation.ReflTransGen HolderStep
          ⟨c.world, pre ++ ⟨x.2.2.id, q.bind k, x.2.2.mem, x.2.2.trace⟩ :: post⟩
          ⟨w', pre ++ t' :: post⟩ ∧ t'.mem.hold = .none :=
        gives_back hobeys hafter (hafter ▸ hheld)
      rw [← hprog, ← hthreads] at hrun
      have hless : ((pre ++ t' :: post).countP fun t => t.mem.hold ≠ .none) = n := by
        rw [hthreads, List.countP_append, List.countP_cons, if_pos hhold] at hn
        rw [List.countP_append, List.countP_cons, if_neg (by simp [ht'])]
        omega
      obtain ⟨c', hrun', hnone⟩ := ih (hc.further (holders_interleaved hrun)) hless
      exact ⟨c', hrun.trans hrun', hnone⟩

/-- **Whatever has happened, no thread that holds the lock waits, and when those threads alone go
on they can give it back, and then it is free.** -/
theorem lock_comes_free (hc : Interleaved anyAnswer inet cfg c) :
    (∀ t ∈ c.threads, t.mem.hold ≠ .none → GoesOn c.world t) ∧
      ∃ c', Relation.ReflTransGen HolderStep c c' ∧
        List.Forall₂ Continues c.threads c'.threads ∧ (∀ t ∈ c'.threads, t.mem.hold = .none) ∧
        c'.world.authIpsLock = .free := by
  refine ⟨fun t ht hheld => ?_, ?_⟩
  · obtain ⟨w, xs, h⟩ := interleaved_beside hc
    exact h.goes_on ht hheld
  · obtain ⟨c', hrun, hnone⟩ := holders_give_back hc
    obtain ⟨w, xs, h⟩ := interleaved_beside (hc.further (holders_interleaved hrun))
    refine ⟨c', hrun, holders_continue hrun, hnone, h.fits.is_free fun hold hmem => ?_⟩
    obtain ⟨t, ht, rfl⟩ := List.mem_map.mp hmem
    exact hnone t ht

end Process

/-- A client on `192.0.2.8`. -/
def neighbour (fd : Fd) : Client := ⟨.v4 (hostAddress 8) 40001, fd⟩

/-- A client without credentials, whom the server does not know. -/
def strangerTrace (fd : Fd) : Trace sys :=
  [⟨.storeState .ss1Connected, ()⟩,
    ⟨.recv fd 1024, .ok [5, 1, 0]⟩, ⟨.loadState, .ss1Connected⟩,
    ⟨.rdlock, true⟩, ⟨.loadAuthIps, (.new 8 : Sblist SockaddrUnion)⟩, ⟨.unlock, ()⟩,
    ⟨.write fd [5, 0xFF], .ok 2⟩, ⟨.close fd, ()⟩, ⟨.storeDone, ()⟩]

/-- A login stops after some of its operations, and then a client without credentials comes, up to
where it asks for the lock. -/
theorem login_stopped (n : Nat) {w : LockedShared} {m : LockedMem}
    (hp : Pool.Performs (lockMachine anyAnswer) ⟨.initial, .free⟩
      ⟨.initial (homeClient 4), .none⟩ ((loginTrace 4).take n) w m) :
    ∃ p q, Interleaved anyAnswer Inet.plain onceConfig
      ⟨w, [⟨homeClient 4, p, m, (loginTrace 4).take n⟩,
        ⟨neighbour 5, q, ⟨.initial (neighbour 5), .none⟩, (strangerTrace 5).take 3⟩]⟩ := by
  have hlogin : Eval (clientthread Inet.plain onceConfig (homeClient 4)) (loginTrace 4) () :=
    eval_of_replay 60 _ rfl
  rw [← List.take_append_drop n (loginTrace 4)] at hlogin
  obtain ⟨p, -, hfirst⟩ : ∃ p, _ ∧ Interleaved anyAnswer Inet.plain onceConfig
      ⟨w, [⟨homeClient 4, p, m, (loginTrace 4).take n⟩]⟩ :=
    Pool.Reachable.stopped (homeClient 4) .init hlogin hp
  obtain ⟨q, -, hboth⟩ := hfirst.stopped (neighbour 5)
    (eval_of_replay 60 ((strangerTrace 5).take 3 ++ (strangerTrace 5).drop 3) rfl)
    (by repeat constructor)
  exact ⟨p, q, hboth⟩

/-- One client has the lock and has not looked at the list yet, and another waits. -/
theorem interleaved_locked : ∃ c, Interleaved anyAnswer Inet.plain onceConfig c ∧
    c.threads.map (fun t => (t.id, t.mem.hold)) =
      [(homeClient 4, .exclusive), (neighbour 5, .none)] := by
  obtain ⟨p, q, hboth⟩ := login_stopped 10 (by repeat constructor)
  exact ⟨_, hboth, rfl⟩

/-- One client has stored the list with its address and has the lock still, and another waits. -/
theorem interleaved_stored : ∃ c, Interleaved anyAnswer Inet.plain onceConfig c ∧
    c.threads.map (fun t => (t.id, t.mem.hold)) =
      [(homeClient 4, .exclusive), (neighbour 5, .none)] ∧
    c.world.shared.authIps.items = [(homeClient 4).addr] := by
  obtain ⟨p, q, hboth⟩ := login_stopped 13 (by repeat constructor)
  exact ⟨_, hboth, rfl, rfl⟩

/-- With a list stored that the process without the lock does not have yet, and somebody
waiting. -/
theorem interleaved_serialised_login : ∃ c c₀,
    c.threads.map (fun t => (t.id, t.mem.hold)) =
        [(homeClient 4, .exclusive), (neighbour 5, .none)] ∧
      c.world.shared.authIps.items = [(homeClient 4).addr] ∧
      Process anyAnswer Inet.plain onceConfig lockedWhole c₀ ∧ Serialised c₀ c := by
  obtain ⟨c, hc, hthreads, hitems⟩ := interleaved_stored
  obtain ⟨c₀, hc₀, hserial⟩ := interleaved_serialised hc
  exact ⟨c, c₀, hthreads, hitems, hc₀, hserial⟩

/-- The client that has the lock gives it back while the other waits. -/
theorem lock_comes_free_login : ∃ c c',
    c.threads.map (fun t => (t.id, t.mem.hold)) =
        [(homeClient 4, .exclusive), (neighbour 5, .none)] ∧
      (∀ t ∈ c.threads, t.mem.hold ≠ .none → GoesOn c.world t) ∧
      Relation.ReflTransGen HolderStep c c' ∧ List.Forall₂ Continues c.threads c'.threads ∧
      (∀ t ∈ c'.threads, t.mem.hold = .none) ∧ c'.world.authIpsLock = .free := by
  obtain ⟨c, hc, hthreads⟩ := interleaved_locked
  obtain ⟨hgoes, c', hrun⟩ := lock_comes_free hc
  exact ⟨c, c', hthreads, hgoes, hrun⟩

end TwoSocks
