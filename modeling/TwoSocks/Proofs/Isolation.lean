/-
No session touches another one's sockets.

`Proofs/Descriptors.lean` is about one session, and reads off its past which descriptors it has
open.  `FdLedger` says that this is what the table of descriptors has for the session.  The two
agree at every point of a run, and a session names nothing but what it has open.  Since the system
gives no descriptor that is open anywhere, the tables of two sessions have nothing in common: what
one session reads, writes, connects, polls or closes is never another one's.
-/
import TwoSocks.Server.Serving
import TwoSocks.Proofs.Descriptors

namespace TwoSocks

open Prog

/-! ### One session -/

/-- The table has for a session what its past says is open. -/
structure FdLedger (clientFd : Fd) (tr : Trace sys) (m : ThreadMem) : Prop where
  distinct : m.opened.Nodup
  tallied : ∀ fd, timesObtained clientFd fd tr =
    timesClosed fd tr + if fd ∈ m.opened then 1 else 0

section Session

variable {clientFd : Fd} {tr past : Trace sys} {w w' : Shared} {m m' : ThreadMem} {o : Op}
  {r : o.Ret}

theorem FdLedger.start (client : Client) : FdLedger client.fd [] (.initial client) where
  distinct := List.nodup_singleton _
  tallied fd := by
    simp only [timesObtained, timesClosed, ThreadMem.initial, ThreadMem.opened]
    simp

theorem FdLedger.mem (l : FdLedger clientFd tr m) {fd : Fd}
    (h : timesObtained clientFd fd tr = timesClosed fd tr + 1) : fd ∈ m.opened := by
  have := l.tallied fd
  by_contra hmem
  rw [if_neg hmem] at this
  omega

theorem FdLedger.notMem (l : FdLedger clientFd tr m) {fd : Fd} (h : fd ∉ m.opened) :
    timesObtained clientFd fd tr = timesClosed fd tr := by
  rw [l.tallied, if_neg h, Nat.add_zero]

/-- What is neither a `socket` nor a `close` leaves the table as it is. -/
theorem FdLedger.other (l : FdLedger clientFd tr m) (hm : m'.held = m.held)
    (hobtains : ∀ fd, Obtains fd ⟨o, r⟩ = false) (hcloses : ∀ fd, Closes fd ⟨o, r⟩ = false) :
    FdLedger clientFd (tr ++ [⟨o, r⟩]) m' := by
  have hopened : m'.opened = m.opened := congrArg (List.map Prod.fst) hm
  refine ⟨hopened ▸ l.distinct, fun fd => ?_⟩
  rw [timesObtained_concat, timesClosed_concat, hobtains, hcloses, hopened]
  exact l.tallied fd

theorem FdLedger.socket (l : FdLedger clientFd tr m) {af : Af} {type : SockType} {fd : Fd}
    (hnew : fd ∉ m.opened) : FdLedger clientFd (tr ++ [⟨.socket af type, .ok fd⟩])
      { m with held := (fd, type) :: m.held } := by
  refine ⟨List.nodup_cons.mpr ⟨hnew, l.distinct⟩, fun fd' => ?_⟩
  have hopened : ThreadMem.opened { m with held := (fd, type) :: m.held } = fd :: m.opened := rfl
  rw [timesObtained_concat, timesClosed_concat, hopened, l.tallied]
  by_cases hfd : fd' = fd
  · subst hfd
    simp [Obtains, Closes, hnew]
  · simp [Obtains, Closes, hfd, Ne.symm hfd]

theorem FdLedger.close (l : FdLedger clientFd tr m) {fd : Fd} {r : Op.Ret (.close fd)}
    (hmem : fd ∈ m.opened) : FdLedger clientFd (tr ++ [⟨.close fd, r⟩])
      { m with held := m.held.filter (fun h => h.1 ≠ fd) } := by
  have hopened : ThreadMem.opened { m with held := m.held.filter (fun h => h.1 ≠ fd) }
      = m.opened.filter (fun fd' => fd' ≠ fd) := by
    simp only [ThreadMem.opened, List.filter_map]
    rfl
  refine ⟨by rw [hopened]; exact l.distinct.filter _, fun fd' => ?_⟩
  rw [timesObtained_concat, timesClosed_concat, hopened, l.tallied]
  by_cases hfd : fd' = fd
  · subst hfd
    simp [Obtains, Closes, hmem]
  · simp [Obtains, Closes, hfd, Ne.symm hfd]

/-- One event of a session that names only what it has open. -/
theorem FdLedger.event (l : FdLedger clientFd tr m) (hcan : (machine documented).can w m o r)
    (hown : Owning clientFd tr o) (hpos : ∀ fd, Obtains fd ⟨o, r⟩ = true → 0 < fd) :
    NotOpen clientFd tr ⟨o, r⟩ ∧
      FdLedger clientFd (tr ++ [⟨o, r⟩]) ((machine documented).upd w m o r).2 := by
  cases o with
  | socket af type =>
      rcases r with e | fd
      · exact ⟨trivial, l.other rfl (fun _ => rfl) fun _ => rfl⟩
      · have hnew : fd ∉ m.opened := by
          intro hmem
          obtain ⟨⟨fd', t⟩, hh, rfl⟩ := List.mem_map.mp hmem
          exact hcan t hh
        exact ⟨⟨hpos fd (by simp [Obtains]), l.notMem hnew⟩, l.socket hnew⟩
  | close fd =>
      exact ⟨trivial, l.close (l.mem (hown.1 fd (List.mem_singleton.mpr rfl)))⟩
  | _ => exact ⟨trivial, l.other rfl (fun _ => rfl) fun _ => rfl⟩

/-- A descriptor that a trace got from `socket`. -/
def Got (tr : Trace sys) (fd : Fd) : Prop := ∃ af type, ⟨.socket af type, .ok fd⟩ ∈ tr

theorem got_of_obtains {e : Event sys} {fd : Fd} (h : Obtains fd e = true) (he : e ∈ tr) :
    Got tr fd := by
  obtain ⟨o, r⟩ := e
  cases o with
  | socket af type =>
      rcases r with e | fd'
      · cases h
      · have : fd' = fd := by simpa [Obtains] using h
        exact ⟨af, type, this ▸ he⟩
  | _ => cases h

/-- What an event leaves open was open, or is what it got. -/
theorem opened_after {w : Shared} {m : ThreadMem} {o : Op} {r : o.Ret} {fd : Fd}
    (h : fd ∈ (update w m o r).2.opened) : fd ∈ m.opened ∨ Got [⟨o, r⟩] fd := by
  cases o with
  | socket af type =>
      rcases r with e | fd'
      · exact .inl h
      · rcases List.mem_cons.mp h with rfl | h
        · exact .inr ⟨af, type, List.mem_singleton.mpr rfl⟩
        · exact .inl h
  | close fd' =>
      obtain ⟨p, hp, rfl⟩ := List.mem_map.mp h
      exact .inl (List.mem_map_of_mem (List.mem_filter.mp hp).1)
  | _ => exact .inl h

/-- A step of a session keeps its ledger, names what it had open or has got, and leaves nothing
else open. -/
theorem FdLedger.performs (hp : Pool.Performs (machine documented) w m tr w' m') :
    ∀ {past : Trace sys} {R : Trace sys → Prop}, FdLedger clientFd past m →
      (∀ fd, Got tr fd → 0 < fd) → (ownSpec clientFd).Follows past tr R →
        FdLedger clientFd (past ++ tr) m' ∧ R (past ++ tr) ∧
          (∀ fd ∈ m'.opened, fd ∈ m.opened ∨ Got tr fd) ∧
          ∀ e ∈ tr, ∀ fd ∈ e.op.descriptors, fd ∈ m.opened ∨ Got tr fd := by
  induction hp with
  | nil =>
      intro past R l _ hf
      exact ⟨by rwa [List.append_nil], by rwa [List.append_nil], fun fd h => .inl h, by simp⟩
  | @cons w w' m m' o r tr hcan _ ih =>
      intro past R l hpos hf
      obtain ⟨hown, hnext⟩ := hf
      obtain ⟨hfresh, l₁⟩ := l.event hcan hown fun fd hobt =>
        hpos fd (got_of_obtains hobt List.mem_cons_self)
      have hlater : ∀ {fd}, Got tr fd → Got (⟨o, r⟩ :: tr) fd :=
        fun ⟨af, type, h⟩ => ⟨af, type, List.mem_cons_of_mem _ h⟩
      have hfirst : ∀ {fd}, fd ∈ (update w m o r).2.opened →
          fd ∈ m.opened ∨ Got (⟨o, r⟩ :: tr) fd := by
        intro fd h
        refine (opened_after h).imp id fun ⟨af, type, hmem⟩ => ⟨af, type, ?_⟩
        rw [List.mem_singleton.mp hmem]
        exact List.mem_cons_self
      obtain ⟨l₂, hR, hopened, hnamed⟩ := ih l₁ (fun fd h => hpos fd (hlater h)) (hnext hfresh)
      rw [← List.singleton_append, ← List.append_assoc]
      refine ⟨l₂, hR, fun fd h => ?_, fun e he fd hfd => ?_⟩
      · exact (hopened fd h).elim hfirst fun h => .inr (hlater h)
      · rcases List.mem_cons.mp he with rfl | he
        · exact .inl (l.mem (hown.1 fd hfd))
        · exact (hnamed e he fd hfd).elim hfirst fun h => .inr (hlater h)

/-- A thread that has come to its end has closed everything. -/
theorem clientthread_closes (inet : Inet) (cfg : Config) (client : Client) :
    wlp (ownSpec client.fd) (clientthread inet cfg client)
      (fun _ h => ∀ fd, timesObtained client.fd fd h = timesClosed fd h) [] := by
  unfold clientthread
  refine (wlp_bind _).mpr (wlp_mono _ (fun _ h₁ h₁' => ?_)
    (wlp_within (uses_perform (by simp [Op.within, Op.descriptors]))
      (Holds.start : Holds client.fd [] [])))
  refine (wlp_bind _).mpr (wlp_mono _ (fun _ h₂ h₂' => ?_)
    (wlp_iterate (fun _ h' => Holds client.fd [] h') h₁'
      fun _ h' hh' => clientthreadBody_own inet cfg hh'))
  refine ⟨trivial, h₂'.guar_close List.mem_cons_self, fun _ _ =>
    ⟨trivial, h₂'.finish, fun _ _ => ⟨trivial, fun fd => ?_⟩⟩⟩
  have hclosed := (h₂'.finish.2.1 rfl).2 fd
  rw [Spec.watching_next, timesObtained_concat, timesClosed_concat]
  exact hclosed

end Session

/-! ### All sessions -/

/-- What holds of a session between two steps. -/
structure Tidy (t : Thread sys Client ThreadMem) : Prop where
  ledger : FdLedger t.id.fd t.trace t.mem
  wlp : wlp (ownSpec t.id.fd) t.prog
    (fun _ h => ∀ fd, timesObtained t.id.fd fd h = timesClosed fd h) t.trace

/-- The sessions have nothing open in common. -/
def Apart (t u : Thread sys Client ThreadMem) : Prop := ∀ fd ∈ t.mem.opened, fd ∉ u.mem.opened

theorem Apart.symm {t u : Thread sys Client ThreadMem} (h : Apart t u) : Apart u t :=
  fun fd hu ht => h fd ht hu

section Sessions

variable {inet : Inet} {cfg : Config} {whole : Block → Prop}
  {c c' : Pool sys Client Shared ThreadMem} {k : Nat} {tr : Trace sys}

/-- What a thread does and what becomes of its ledger, if it was tidy. -/
theorem Tidy.step {t : Thread sys Client ThreadMem} {w w' : Shared} {p' : Server Unit}
    {m' : ThreadMem} (h : Tidy t) (hs : Prog.Step whole t.prog tr p')
    (hp : Pool.Performs (machine documented) w t.mem tr w' m') (hpos : ∀ fd, Got tr fd → 0 < fd) :
    Tidy ⟨t.id, p', m', t.trace ++ tr⟩ ∧ (∀ fd ∈ m'.opened, fd ∈ t.mem.opened ∨ Got tr fd) ∧
      ∀ e ∈ tr, ∀ fd ∈ e.op.descriptors, fd ∈ t.mem.opened ∨ Got tr fd := by
  obtain ⟨l, hwlp, hopened, hnamed⟩ :=
    FdLedger.performs hp h.ledger hpos (wlp_step hs (fun _ _ _ _ => trivial) h.wlp)
  exact ⟨⟨l, hwlp⟩, hopened, hnamed⟩

theorem serving_tidy (hc : Serving documented inet cfg whole c) :
    (∀ t ∈ c.threads, Tidy t) ∧ c.threads.Pairwise Apart := by
  induction hc with
  | init => exact ⟨by simp, .nil⟩
  | @accept c client _ _ hnew ih =>
      obtain ⟨htidy, hapart⟩ := ih
      refine ⟨fun t ht => ?_, List.pairwise_append.mpr ⟨hapart, List.pairwise_singleton _ _, ?_⟩⟩
      · rcases List.mem_append.mp ht with ht | ht
        · exact htidy t ht
        · rw [List.mem_singleton.mp ht]
          exact ⟨.start client, clientthread_closes inet cfg client⟩
      · intro t ht u hu fd hfd hu'
        rw [List.mem_singleton.mp hu] at hu'
        obtain rfl : fd = client.fd := List.mem_singleton.mp hu'
        exact hnew t ht hfd
  | @step _ _ _ tr _ hs ih =>
      obtain ⟨htidy, hapart⟩ := ih
      cases hs with
      | @thread w w' pre post client p p' m m' past _ hstep hperf hnew =>
          have hgot : ∀ fd, Got tr fd → 0 < fd ∧ ∀ u ∈ pre ++ post, fd ∉ u.mem.opened :=
            fun fd ⟨af, type, he⟩ => hnew af type fd he
          obtain ⟨htidy', hopened, -⟩ := (htidy ⟨client, p, m, past⟩ (by simp)).step hstep hperf
            fun fd h => (hgot fd h).1
          refine ⟨fun t ht => ?_, ?_⟩
          · rcases List.mem_cons.mp (List.perm_middle.mem_iff.mp ht) with rfl | ht
            · exact htidy'
            · exact htidy t (List.perm_middle.mem_iff.mpr (List.mem_cons_of_mem _ ht))
          · obtain ⟨hfirst, hrest⟩ :=
              List.pairwise_cons.mp ((List.pairwise_middle Apart.symm).mp hapart)
            refine (List.pairwise_middle Apart.symm).mpr (List.pairwise_cons.mpr ⟨?_, hrest⟩)
            intro u hu fd hfd
            rcases hopened fd hfd with hold | hg
            · exact hfirst u hu fd hold
            · exact (hgot fd hg).2 u hu

theorem mem_others {α : Type*} {pre post : List α} {x y : α} {j : Nat} (hj : j ≠ pre.length)
    (h : (pre ++ x :: post)[j]? = some y) : y ∈ pre ++ post := by
  rcases Nat.lt_or_gt_of_ne hj with hlt | hgt
  · rw [List.getElem?_append_left hlt] at h
    exact List.mem_append_left _ (List.mem_of_getElem? h)
  · rw [List.getElem?_append_right hgt.le, List.getElem?_cons, if_neg (by omega)] at h
    exact List.mem_append_right _ (List.mem_of_getElem? h)

/-- What the sessions of a process have open, and what a step names. -/
structure SessionsIsolated (whole : Block → Prop) (c : Pool sys Client Shared ThreadMem) :
    Prop where
  /-- No descriptor is open in two sessions. -/
  apart : ∀ (j k : Nat) t u, j ≠ k → c.threads[j]? = some t → c.threads[k]? = some u → Apart t u
  /-- None is open twice in one. -/
  once : ∀ t ∈ c.threads, t.mem.opened.Nodup
  /-- A session that is over has nothing open. -/
  ended : ∀ t ∈ c.threads, t.prog = .ret () → t.mem.opened = []
  /-- Whatever a session does next, it names no descriptor that another one has open. -/
  named : ∀ k tr c', ServeStep documented whole c k tr c' → ∀ e ∈ tr, ∀ fd ∈ e.op.descriptors,
    ∀ (j : Nat) t, j ≠ k → c.threads[j]? = some t → fd ∉ t.mem.opened

/-- **No session touches another one's sockets.** -/
theorem sessions_isolated (hc : Serving documented inet cfg whole c) :
    SessionsIsolated whole c := by
  obtain ⟨htidy, hapart⟩ := serving_tidy hc
  have hpairs : ∀ (j k : Nat) t u, j ≠ k → c.threads[j]? = some t → c.threads[k]? = some u →
      Apart t u := by
    intro j k t u hjk ht hu
    obtain ⟨hj, rfl⟩ := List.getElem?_eq_some_iff.mp ht
    obtain ⟨hk, rfl⟩ := List.getElem?_eq_some_iff.mp hu
    rw [List.pairwise_iff_getElem] at hapart
    rcases Nat.lt_or_gt_of_ne hjk with hlt | hgt
    · exact hapart j k hj hk hlt
    · exact (hapart k j hk hj hgt).symm
  refine ⟨hpairs, fun t ht => (htidy t ht).ledger.distinct, fun t ht hret => ?_, ?_⟩
  · have hwlp := (htidy t ht).wlp
    rw [hret] at hwlp
    refine List.eq_nil_iff_forall_not_mem.mpr fun fd hfd => ?_
    have hopen := (htidy t ht).ledger.tallied fd
    rw [if_pos hfd, hwlp.2 fd] at hopen
    omega
  · intro k tr c' hs e he fd hfd j t hj ht
    cases hs with
    | @thread w w' pre post client p p' m m' past _ hstep hperf hnew =>
        have hmem : t ∈ pre ++ post := mem_others hj ht
        have hself : (pre ++ (⟨client, p, m, past⟩ : Thread sys Client ThreadMem) ::
            post)[pre.length]? = some ⟨client, p, m, past⟩ := by simp
        obtain ⟨-, -, hnamed⟩ := (htidy ⟨client, p, m, past⟩ (by simp)).step hstep hperf
          fun fd ⟨af, type, he⟩ => (hnew af type fd he).1
        rcases hnamed e he fd hfd with hold | ⟨af, type, hg⟩
        · exact hpairs _ _ _ _ (Ne.symm hj) hself ht fd hold
        · exact (hnew af type fd hg).2 t hmem

end Sessions

/-- The last session runs on alone. -/
theorem Serving.advance {contract : Contract} {inet : Inet} {cfg : Config} {whole : Block → Prop}
    {ts : List (Thread sys Client ThreadMem)} {client : Client} {p p' : Server Unit}
    {past tr : Trace sys} (h : Steps whole p tr p') :
    ∀ {w w' : Shared} {m m' : ThreadMem}, Pool.Performs (machine contract) w m tr w' m' →
      (∀ fd, Got tr fd → 0 < fd ∧ ∀ t ∈ ts, fd ∉ t.mem.opened) →
      Serving contract inet cfg whole ⟨w, ts ++ [⟨client, p, m, past⟩]⟩ →
        Serving contract inet cfg whole ⟨w', ts ++ [⟨client, p', m', past ++ tr⟩]⟩ := by
  induction h with
  | refl =>
      intro w w' m m' hp _ hc
      cases hp
      simpa using hc
  | tail _ hs ih =>
      intro w w' m m' hp hnew hc
      obtain ⟨w₁, m₁, h₁, h₂⟩ := hp.split
      rw [← List.append_assoc]
      refine .step (ih h₁ (fun fd ⟨af, type, he⟩ =>
        hnew fd ⟨af, type, List.mem_append_left _ he⟩) hc) (.thread hs h₂ fun af type fd he => ?_)
      rw [List.append_nil]
      exact hnew fd ⟨af, type, List.mem_append_right _ he⟩

/-- Beside a session that is waiting, another one opens a socket, closes it and leaves. -/
theorem sessions_isolated_refused : ∃ c, c.threads.map (·.mem.opened) = [[5], []] ∧
    Serving documented .plain ⟨none, none, false⟩ (fun _ => True) c ∧
      SessionsIsolated (fun _ => True) c := by
  have hwaits : Serving documented .plain ⟨none, none, false⟩ (fun _ => True)
      ⟨.initial, [⟨⟨webClient.addr, 5⟩, _, _, _⟩]⟩ := .accept _ .init (by decide) (by simp)
  have hboth := Serving.accept webClient hwaits (by decide) (by
    simp [ThreadMem.opened, ThreadMem.initial, webClient])
  have hrun : Steps (fun _ => True) (clientthread .plain ⟨none, none, false⟩ webClient)
      refusedTrace (.ret ()) := Eval.steps (eval_of_replay 60 refusedTrace rfl)
  have hgot : ∀ fd, Got refusedTrace fd → fd = 7 := by
    rintro fd ⟨af, type, he⟩
    have heq : (af = .inet ∧ type = .stream) ∧ fd = 7 := by simpa [refusedTrace] using he
    exact heq.2
  have hended : Serving documented .plain ⟨none, none, false⟩ (fun _ => True)
      ⟨_, [⟨⟨webClient.addr, 5⟩, _, _, _⟩] ++ [⟨webClient, _, _, _⟩]⟩ :=
    Serving.advance hrun (by
      repeat' first | apply Pool.Performs.nil | apply Pool.Performs.cons
      all_goals first | trivial | rfl | decide | skip
      -- what is left is the new descriptor
      intro t
      cases t <;> decide) (fun fd h => by
        rw [hgot fd h]
        simp [ThreadMem.opened, ThreadMem.initial]) hboth
  exact ⟨_, rfl, hended, sessions_isolated hended⟩

end TwoSocks
