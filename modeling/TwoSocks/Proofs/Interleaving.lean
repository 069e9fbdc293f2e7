/-
The list of authenticated addresses when threads change at every operation.

`Proofs/Auth.lean` has the authentication gate for schedules that take the sections under the lock
as one step.  Here the sections are opened and the lock is there.  `Proofs/Locking.lean` says that
such a process trails one of the other kind, thread by thread, by what each thread has done of
its section.  That is about addresses and not about requests, so everything that was said of
requests stays true.

Of the list there is one thing more to say.  A writer is in the middle of its section and has
stored a list that the process behind does not have yet.  `writer_opens` lets that one thread go
on alone, and the relation between list and pasts is kept by what it does.  What a writer stores
is the list there is with its own address at the end, so no address is ever lost.
-/
import TwoSocks.Proofs.Locking

namespace TwoSocks

open Prog

/-- The process as it looks without its lock. -/
def withoutLock (c : Pool sys Client LockedShared LockedMem) : Pool sys Client Shared ThreadMem :=
  ⟨c.world.shared, c.threads.map fun t => ⟨t.id, t.prog, t.mem.mem, t.trace⟩⟩

/-! ### What a section is not about -/

/-- What is done under the lock is no part of a request. -/
theorem locked_serves {e : Event sys} (he : e.op.locked) : ¬ ServesRequest e := by
  obtain ⟨o, r⟩ := e
  cases o <;> first | exact he.elim | exact id

theorem storedStates_locked {past kept : Trace sys} (hkept : ∀ e ∈ kept, e.op.locked) :
    storedStates (past ++ kept) = storedStates past := by
  have hnone : storedStates kept = [] := by
    refine List.filterMap_eq_nil_iff.mpr fun e he => ?_
    have := hkept e he
    obtain ⟨o, r⟩ := e
    cases o <;> first | exact this.elim | rfl
  rw [storedStates, List.filterMap_append]
  exact (congrArg _ hnone).trans (List.append_nil _)

/-- An event that is not of the section is of the past before it. -/
theorem split_past {past kept pre post : Trace sys} {e : Event sys}
    (hkept : ∀ e ∈ kept, e.op.locked) (he : ¬ e.op.locked) (h : past ++ kept = pre ++ e :: post) :
    ∃ post₁, past = pre ++ e :: post₁ ∧ post = post₁ ++ kept := by
  rcases List.append_eq_append_iff.mp h with ⟨more, rfl, hmore⟩ | ⟨more, rfl, hmore⟩
  · exact absurd (hkept e (by simp [hmore])) he
  · cases more with
    | nil =>
        rw [List.nil_append] at hmore
        exact absurd (hkept e (hmore ▸ List.mem_cons_self)) he
    | cons e' more =>
        rw [List.cons_append, List.cons.injEq] at hmore
        obtain ⟨rfl, rfl⟩ := hmore
        exact ⟨more, rfl, rfl⟩

theorem checksCredentials_past {client : Client} {past kept : Trace sys} {buf : Bytes}
    (hkept : ∀ e ∈ kept, e.op.locked) (h : ChecksCredentials client (past ++ kept) buf) :
    ChecksCredentials client past buf := by
  obtain ⟨pre, post, htr⟩ := h
  obtain ⟨post₁, hpast, hpost⟩ := split_past hkept id htr
  cases post₁ with
  | nil =>
      rw [List.nil_append] at hpost
      exact absurd (hkept _ (hpost ▸ List.mem_cons_self)) id
  | cons e post₁ =>
      rw [List.cons_append, List.cons.injEq] at hpost
      exact ⟨pre, post₁, by rw [hpast, ← hpost.1]⟩

/-! ### The process that is behind -/

section LockBehind

variable {inet : Inet} {cfg : Config} {c : Pool sys Client Shared ThreadMem}

/-- What the authentication says of a thread. -/
abbrev loginView (cfg : Config) : Thread sys Client ThreadMem → Pool.View Client ThreadMem Login :=
  Pool.Thread.view (loginSpec cfg) fun _ => .initial

theorem process_logins (hcfg : cfg.accepted = true)
    (hc : Process anyAnswer inet cfg lockedWhole c) :
    Whitelist c.world (c.threads.map (loginView cfg)) ∧
      ∀ t ∈ c.threads, Pool.Behaves (loginSpec cfg) (fun _ => .initial) (fun _ _ => True) t :=
  Pool.Reachable.invariant (whitelist_keeps inet cfg)
    ⟨by simp, by simp, .nil, by simp [Shared.initial, Sblist.new], by simp⟩
    (fun _ _ ht hatomic => absurd (hatomic ▸ trivial) ht)
    (fun _ => clientthread_spec hcfg inet) hc

/-- A thread goes on alone in its section, as far as it has got in the process with the lock. -/
theorem writer_opens (hcfg : cfg.accepted = true) {w : Shared}
    {pre post : List (Thread sys Client ThreadMem)} {i : Client} {β : Type} {p q : Server β}
    {k : β → Server Unit} {m : ThreadMem} {past done : Trace sys}
    (hc : Process anyAnswer inet cfg lockedWhole
      ⟨w, pre ++ ⟨i, .block .locked p k, m, past⟩ :: post⟩)
    (hsteps : Steps noneWhole p done q) (hcatch : Catches anyAnswer m w.authIps done) :
    Whitelist (w.withAuthIps (listAfter w.authIps done))
        (pre.map (loginView cfg) ++ (i, m, (loginSpec cfg i).run .initial (past ++ done)) ::
          post.map (loginView cfg)) ∧
      ∃ Q, wlp ((loginSpec cfg i).within .locked) q Q
        ((loginSpec cfg i).run .initial (past ++ done)) := by
  obtain ⟨hlist, hb⟩ := process_logins hcfg hc
  have hwlp := (hb ⟨i, .block .locked p k, m, past⟩ (by simp)).wlp
  have hrest : Pool.Resting (loginSpec cfg)
      (pre.map (loginView cfg) ++ post.map (loginView cfg)) := by
    intro v hv
    rw [← List.map_append] at hv
    obtain ⟨t, ht, rfl⟩ := List.mem_map.mp hv
    exact (hb t (List.perm_middle.mem_iff.mpr (List.mem_cons_of_mem _ ht))).inv
  have hfollows := Spec.follows_within.mp (wlp_steps hsteps
    (P := (loginSpec cfg i).within Block.locked) (fun _ _ _ _ => Or.inl rfl) hwlp.2)
  simp only [List.map_append, List.map_cons] at hlist
  obtain ⟨hlist', -, -, hq⟩ := Pool.performs_keeps (whitelist_keeps inet cfg) hrest
    hcatch.performs hlist hfollows
  rw [Spec.run_append]
  exact ⟨hlist', _, hq⟩

/-- The authentication gate, where each section is one step. -/
theorem logins_gate (hcfg : cfg.accepted = true)
    (hc : Process anyAnswer inet cfg lockedWhole c) : AuthGate cfg c := by
  obtain ⟨hlist, hb⟩ := process_logins hcfg hc
  refine ⟨fun hu t ht h3 => ?_, fun hu t ht pre e post htr he => ?_,
    fun a ha => accepted_succeeded (hlist.earned a ha), hlist.distinct, fun t ht => ?_,
    fun t ht buf h => ?_⟩
  · have hstate := hlist.state _ (List.mem_map_of_mem ht)
    exact admitted_of_login hlist ht hu (List.append_nil _).symm
      ((hb t ht).inv.2.1 (hstate.symm.trans h3))
  · have hserves := admitted_of_serves (htr ▸ (hb t ht).guaranteed).at (htr ▸ (hb t ht).legal).at he
    exact admitted_of_login hlist ht hu htr hserves
  · exact ⟨(hlist.state _ (List.mem_map_of_mem ht)).trans login_state,
      (storedStates_sorted (hb t ht).guaranteed).2⟩
  · obtain ⟨pre, post, htr⟩ := h
    rw [← List.singleton_append, ← List.append_assoc] at htr
    have hguar := (htr ▸ (hb t ht).guaranteed).at
    have hrely := (htr ▸ (hb t ht).legal).at
    exact hguar.2 hrely.symm

end LockBehind

/-! ### The process with its lock -/

section Interleaved

variable {inet : Inet} {cfg : Config} {c c' : Pool sys Client LockedShared LockedMem} {w : Shared}
  {xs : Pool.Pairing sys Client ThreadMem LockedMem}

namespace Beside

variable {contract : Contract}

/-- Credentials that were accepted behind were accepted. -/
theorem succeeded (h : Beside contract inet cfg c w xs) {t} (ht : t ∈ xs.behind)
    (hs : Succeeded cfg t.id t.trace) :
    ∃ t' ∈ c.threads, Succeeded cfg t'.id t'.trace ∧ t'.id = t.id := by
  obtain ⟨x, hx, rfl⟩ := List.mem_map.mp ht
  obtain ⟨hid, htrace⟩ := (h.trails x hx).past
  refine ⟨x.2.2, h.mem hx, ?_, hid⟩
  rw [hid, htrace]
  exact hs.append _

theorem admitted (h : Beside contract inet cfg c w xs) {client : Client} {tr : Trace sys}
    (ha : Admitted cfg xs.behind client tr) : Admitted cfg (withoutLock c).threads client tr := by
  refine ha.imp id fun ⟨honce, t, ht, hs, hsame⟩ => ⟨honce, ?_⟩
  obtain ⟨t', ht', hs', hid⟩ := h.succeeded ht hs
  exact ⟨_, List.mem_map_of_mem ht', hs', hid ▸ hsame⟩

end Beside

/-- What is true of the list while a thread writes to it, and of that thread. -/
theorem writing (hcfg : cfg.accepted = true)
    {pre post : Pool.Pairing sys Client ThreadMem LockedMem}
    {x : Thread sys Client ThreadMem × Trace sys × Thread sys Client LockedMem}
    (h : Beside anyAnswer inet cfg c w (pre ++ x :: post))
    (hhold : x.2.2.mem.hold = .exclusive) :
    Whitelist c.world.shared (pre.behind.map (loginView cfg) ++
      (x.1.id, x.1.mem, (loginSpec cfg x.1.id).run .initial x.2.2.trace) ::
        post.behind.map (loginView cfg)) ∧
      ∃ (β : Type) (q : Prog sys β) (k : β → Server Unit) (Q : β → Login → Prop),
        x.2.2.prog = q.bind k ∧ (∀ b, q ≠ .ret b) ∧
        wlp ((loginSpec cfg x.1.id).within .locked) q Q
          ((loginSpec cfg x.1.id).run .initial x.2.2.trace) := by
  have hx : x ∈ pre ++ x :: post := by simp
  have hcaught := h.caught hx
  obtain ⟨β, p, q, k, hblock, hprog, hq, hsteps, -⟩ := h.holder hx (by rw [hhold]; exact nofun)
  have hreach := h.reach
  simp only [Pool.Pairing.behind, List.map_append, List.map_cons] at hreach
  rw [hblock] at hreach
  obtain ⟨hlist, Q, hQ⟩ := writer_opens hcfg hreach hsteps hcaught.legal
  rw [(h.trails x hx).past.2]
  rw [hcaught.writes (hcaught.hold.symm.trans hhold), ← h.behind.shared] at hlist
  exact ⟨hlist, β, q, k, Q, hprog, hq, hQ⟩

/-- The list holds different addresses, each of a connection whose credentials were accepted. -/
theorem interleaved_list (hcfg : cfg.accepted = true) (h : Beside anyAnswer inet cfg c w xs) :
    (c.world.shared.authIps.items.Pairwise fun a b => ¬ SameAddress a b) ∧
      ∀ a ∈ c.world.shared.authIps.items,
        ∃ t ∈ c.threads, Succeeded cfg t.id t.trace ∧ t.id.addr = a := by
  cases hwriter : c.world.authIpsLock.writer with
  | false =>
      have hgate := logins_gate hcfg h.reach
      rw [h.behind.list hwriter]
      refine ⟨hgate.distinct, fun a ha => ?_⟩
      obtain ⟨t, ht, hs, haddr⟩ := hgate.earned a ha
      obtain ⟨t', ht', hs', hid⟩ := h.succeeded ht hs
      exact ⟨t', ht', hs', by rw [hid]; exact haddr⟩
  | true =>
      -- somebody is writing, so what is in the list is what that thread has made of it
      have hcount : 0 < (xs.lags.map fun v => v.ahead.hold).count .exclusive := by
        rw [h.behind.fits.writer, hwriter]
        exact Nat.one_pos
      obtain ⟨v, hv, hhold⟩ := List.mem_map.mp (List.count_pos_iff.mp hcount)
      obtain ⟨x, hx, rfl⟩ := List.mem_map.mp hv
      obtain ⟨pre, post, rfl⟩ := List.append_of_mem hx
      obtain ⟨hlist, -⟩ := writing hcfg h hhold
      refine ⟨hlist.distinct, fun a ha => ?_⟩
      obtain ⟨v, hv, hs, haddr⟩ := hlist.earned a ha
      rcases mem_middle.mp hv with rfl | hv
      · exact ⟨x.2.2, h.mem hx, by rw [(h.trails x hx).past.1]; exact login_succeeded hs,
          by rw [(h.trails x hx).past.1]; exact haddr⟩
      · rw [← List.map_append] at hv
        obtain ⟨t, ht, rfl⟩ := List.mem_map.mp hv
        obtain ⟨t', ht', hs', hid⟩ := h.succeeded (t := t) (by
          simp only [Pool.Pairing.behind, List.map_append, List.map_cons] at ht ⊢
          exact List.perm_middle.mem_iff.mpr (List.mem_cons_of_mem _ ht)) (login_succeeded hs)
        exact ⟨t', ht', hs', by rw [hid]; exact haddr⟩

/-- **The authentication gate holds whatever the threads do between two operations of a section
under the lock.** -/
theorem interleaved_gate (hcfg : cfg.accepted = true) (hc : Interleaved anyAnswer inet cfg c) :
    AuthGate cfg (withoutLock c) := by
  obtain ⟨w, xs, h⟩ := interleaved_beside hc
  have hgate := logins_gate hcfg h.reach
  obtain ⟨hdistinct, hearned⟩ := interleaved_list hcfg h
  have hthreads : ∀ t ∈ (withoutLock c).threads, ∃ u ∈ xs.behind, t.id = u.id ∧ t.mem = u.mem ∧
      ∃ kept, t.trace = u.trace ++ kept ∧ ∀ e ∈ kept, e.op.locked := by
    intro t ht
    obtain ⟨t', ht', rfl⟩ := List.mem_map.mp ht
    obtain ⟨x, hx, rfl⟩ := h.exists_of_mem ht'
    have hsame := h.same hx
    obtain ⟨kept, htrace, hkept, -⟩ := hsame.trace
    exact ⟨x.1, List.mem_map_of_mem hx, hsame.id, hsame.mem, kept, htrace, hkept⟩
  refine ⟨fun hu t ht h3 => ?_, fun hu t ht pre e post htr he => ?_, fun a ha => ?_, hdistinct,
    fun t ht => ?_, fun t ht buf hchecks => ?_⟩
  · obtain ⟨u, hu', hid, hmem, kept, htrace, -⟩ := hthreads t ht
    have hadm := h.admitted (hgate.authed hu u hu' (hmem ▸ h3))
    rw [hid, htrace]
    exact hadm.imp (fun hs => hs.append kept) id
  · obtain ⟨u, hu', hid, -, kept, htrace, hkept⟩ := hthreads t ht
    rw [htrace] at htr
    obtain ⟨post₁, hpast, -⟩ := split_past hkept (fun he' => locked_serves he' he) htr
    rw [hid]
    exact h.admitted (hgate.served hu u hu' pre e post₁ hpast he)
  · obtain ⟨t, ht, hs, haddr⟩ := hearned a ha
    exact ⟨_, List.mem_map_of_mem ht, hs, haddr⟩
  · obtain ⟨u, hu', -, hmem, kept, htrace, hkept⟩ := hthreads t ht
    rw [hmem, htrace, storedStates_locked hkept]
    exact hgate.forward u hu'
  · obtain ⟨u, hu', hid, -, kept, htrace, hkept⟩ := hthreads t ht
    rw [hid, htrace] at hchecks
    exact hgate.checked u hu' buf (checksCredentials_past hkept hchecks)

/-! ### What is remembered -/

theorem update_authIps (w : Shared) (m : ThreadMem) (o : Op) (r : o.Ret) :
    (update w m o r).1.authIps = listAfter w.authIps [⟨o, r⟩] := by
  cases o with
  | socket af type => cases r <;> rfl
  | _ => rfl

/-- Whoever stores a list holds the lock for itself. -/
theorem stores_exclusively
    {x : Thread sys Client ThreadMem × Trace sys × Thread sys Client LockedMem}
    (h : Beside anyAnswer inet cfg c w xs) (hx : x ∈ xs) {p : Server Unit}
    {l : Sblist SockaddrUnion} {r : Op.Ret (.storeAuthIps l)}
    (hstep : Step noneWhole x.2.2.prog [⟨.storeAuthIps l, r⟩] p) :
    x.2.2.mem.hold = .exclusive := by
  have hhold := (h.caught hx).hold
  have htrails := h.trails x hx
  obtain ⟨t, kept, t'⟩ := x
  dsimp only at htrails hhold hstep ⊢
  cases htrails with
  | level hsec =>
      rcases hsec.step locked_same (fun _ _ => id) hstep with
        ⟨-, hout, -⟩ | ⟨_, _, _, _, -, -, htr, -⟩
      · exact absurd (hout _ List.mem_cons_self) id
      · cases htr
  | inside ht hsteps hobeys hq hk =>
      obtain ⟨q', hs, -⟩ := hstep.of_bind hq
      obtain ⟨o, r', htr, hguar, -⟩ := hobeys.step hs
      cases htr
      exact hhold.trans hguar

/-- One step leaves the list as it is, or adds an address that was not in it. -/
theorem step_extends (hcfg : cfg.accepted = true) (hc : Interleaved anyAnswer inet cfg c)
    (hs : InterleavedStep anyAnswer inet cfg c c') :
    c.world.shared.authIps.items <+: c'.world.shared.authIps.items := by
  obtain ⟨w, xs, h⟩ := interleaved_beside hc
  cases hs with
  | start i => exact List.prefix_rfl
  | @thread w' w₁' pre' post' i p' p₁' m' m₁' past' tr hstep hperf =>
      rcases hstep.opened with rfl | ⟨o, r, rfl⟩
      · cases hperf
        exact List.prefix_rfl
      obtain ⟨-, rfl, -⟩ := Pool.performs_single hperf
      show _ <+: (update w'.shared m'.mem o r).1.authIps.items
      rw [update_authIps]
      cases o with
      | storeAuthIps l =>
          obtain ⟨pre, rest, rfl, -, hrest⟩ := List.map_eq_append_iff.mp h.ahead.symm
          obtain ⟨x, post, rfl, hx, -⟩ := List.map_eq_cons_iff.mp hrest
          have hmem : x ∈ pre ++ x :: post := by simp
          have hstep : Step noneWhole x.2.2.prog [⟨.storeAuthIps l, r⟩] p₁' := by
            rw [hx]
            exact hstep
          obtain ⟨hlist, β, q, k, Q, hprog, hq, hwlp⟩ :=
            writing hcfg h (stores_exclusively h hmem hstep)
          rw [hprog] at hstep
          obtain ⟨q', hs, -⟩ := hstep.of_bind hq
          obtain ⟨⟨-, items, hlocked, hl, -⟩, -⟩ := wlp_step hs
            (P := (loginSpec cfg x.1.id).within Block.locked) (fun _ _ _ _ => Or.inl rfl) hwlp
          have hitems := hlist.locked _ (mem_middle.mpr (.inl rfl)) items hlocked
          refine ⟨[x.1.id.addr], ?_⟩
          show _ = l.items
          rw [hl, hitems]
      | _ => exact List.prefix_rfl

/-- **Whatever the threads do between the operations of their sections, no address that was
remembered is lost.** -/
theorem interleaved_remembers (hcfg : cfg.accepted = true) (hc : Interleaved anyAnswer inet cfg c)
    (hrun : Relation.ReflTransGen (InterleavedStep anyAnswer inet cfg) c c') :
    c.world.shared.authIps.items <+: c'.world.shared.authIps.items := by
  induction hrun with
  | refl => exact List.prefix_rfl
  | tail hrun hs ih => exact ih.trans (step_extends hcfg (hc.further hrun) hs)

end Interleaved

/-- In the middle of a section, with another thread waiting. -/
theorem interleaved_gate_login : ∃ c,
    c.threads.map (fun t => (t.id, t.mem.hold)) =
        [(homeClient 4, .exclusive), (neighbour 5, .none)] ∧
      c.world.shared.authIps.items = [(homeClient 4).addr] ∧
      Interleaved anyAnswer Inet.plain onceConfig c ∧ AuthGate onceConfig (withoutLock c) := by
  obtain ⟨c, hc, hthreads, hitems⟩ := interleaved_stored
  exact ⟨c, hthreads, hitems, hc, interleaved_gate rfl hc⟩

/-- A second client logs in and leaves. -/
def secondTrace (fd : Fd) : Trace sys :=
  (loginTrace fd).take 10 ++
    [⟨.loadAuthIps, (⟨8, 8, [(homeClient 4).addr]⟩ : Sblist SockaddrUnion)⟩,
      ⟨.storeAuthIps ⟨8, 8, [(homeClient 4).addr, (neighbour fd).addr]⟩, ()⟩, ⟨.unlock, ()⟩,
      ⟨.recv fd 1024, .ok []⟩, ⟨.close fd, ()⟩, ⟨.storeDone, ()⟩]

/-- One client has logged in, and a second one has the lock; it goes on and adds its address. -/
theorem interleaved_second : ∃ c c', Interleaved anyAnswer Inet.plain onceConfig c ∧
    Relation.ReflTransGen (InterleavedStep anyAnswer Inet.plain onceConfig) c c' ∧
    c.world.shared.authIps.items = [(homeClient 4).addr] ∧
    c'.world.shared.authIps.items = [(homeClient 4).addr, (neighbour 5).addr] := by
  have hfirst : Interleaved anyAnswer Inet.plain onceConfig ⟨_, [⟨homeClient 4, _, _, _⟩]⟩ :=
    Pool.Reachable.session (homeClient 4) .init
      (eval_of_replay 60 (loginTrace 4) rfl) (by repeat constructor)
  obtain ⟨p, hrest, hsecond⟩ := hfirst.stopped (neighbour 5)
    (eval_of_replay 60 ((secondTrace 5).take 10 ++ (secondTrace 5).drop 10) rfl)
    (by repeat constructor)
  exact ⟨_, _, hsecond, Pool.runs_on hrest (by repeat constructor), rfl, rfl⟩

/-- What the first login put there stays when a second address is added. -/
theorem interleaved_remembers_login : ∃ c c' : Pool sys Client LockedShared LockedMem,
    c.world.shared.authIps.items = [(homeClient 4).addr] ∧
      c'.world.shared.authIps.items = [(homeClient 4).addr, (neighbour 5).addr] ∧
      c.world.shared.authIps.items <+: c'.world.shared.authIps.items := by
  obtain ⟨c, c', hc, hrun, hitems, hitems'⟩ := interleaved_second
  exact ⟨c, c', hitems, hitems', interleaved_remembers rfl hc hrun⟩

end TwoSocks
