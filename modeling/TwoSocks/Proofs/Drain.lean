/-
What an orderly close leaves behind.

`copyloop` serves the client's socket first and the target's second, and returns as soon as
one of the two reads reports the end.  Of the two ways to end on `CLOSED` with bits
from `poll`, the hangup is only looked at when neither socket was readable, so nothing is
lost there.  The end of the client's stream is: the target may have been readable in the
same poll, and it is not read any more.

The argument takes a run apart at its last poll.  `Relayed` says what one call of
`relay_data` did, read off its trace.
-/
import TwoSocks.Proofs.Relay
import TwoSocks.Proofs.Operations

namespace TwoSocks

open Server Prog

/-! ### What a trace has in it -/

/-- `fd` was read from. -/
def ReadsFrom (fd : Fd) (tr : Trace sys) : Prop :=
  ∃ len answer, (⟨.read fd len, answer⟩ : Event sys) ∈ tr

/-- A read of `fd` reported the end of the stream. -/
def ReadsEof (fd : Fd) (tr : Trace sys) : Prop :=
  ∃ len, (⟨.read fd len, .ok []⟩ : Event sys) ∈ tr

/-- There was no poll. -/
def NoPoll (tr : Trace sys) : Prop := ∀ e ∈ tr, ∀ fds timeout, e.op ≠ .poll fds timeout

/-- The last poll was answered with `answer`, and `last` is what came after it. -/
def LastPoll (tr : Trace sys) (answer : PollResult) (last : Trace sys) : Prop :=
  ∃ before fds timeout,
    tr = before ++ (⟨.poll fds timeout, answer⟩ : Event sys) :: last ∧ NoPoll last

/-- What `poll` reported readable was read, and what was read was written. -/
structure Drained (fd1 fd2 : Fd) (revents1 revents2 : UInt16) (last : Trace sys) : Prop where
  first : pollReventsHaveInput revents1 = true → ReadsFrom fd1 last
  second : pollReventsHaveInput revents2 = true → ReadsFrom fd2 last
  written : Exact fd1 fd2 last

theorem ReadsFrom.append {fd : Fd} {tr tr' : Trace sys} :
    ReadsFrom fd (tr ++ tr') ↔ ReadsFrom fd tr ∨ ReadsFrom fd tr' := by
  unfold ReadsFrom
  simp only [List.mem_append, exists_or]

theorem ReadsEof.append {fd : Fd} {tr tr' : Trace sys} :
    ReadsEof fd (tr ++ tr') ↔ ReadsEof fd tr ∨ ReadsEof fd tr' := by
  unfold ReadsEof
  simp only [List.mem_append, exists_or]

theorem ReadsEof.readsFrom {fd : Fd} {tr : Trace sys} (h : ReadsEof fd tr) : ReadsFrom fd tr := by
  obtain ⟨len, hmem⟩ := h
  exact ⟨len, .ok [], hmem⟩

theorem NoPoll.append {tr tr' : Trace sys} (h : NoPoll tr) (h' : NoPoll tr') :
    NoPoll (tr ++ tr') := by
  intro e he
  rcases List.mem_append.mp he with he | he
  · exact h e he
  · exact h' e he

theorem Exact.append {fd1 fd2 : Fd} {tr tr' : Trace sys} (h : Exact fd1 fd2 tr)
    (h' : Exact fd1 fd2 tr') : Exact fd1 fd2 (tr ++ tr') := by
  refine ⟨?_, ?_⟩
  · rw [writtenTo_append, readFrom_append, h.1, h'.1]
  · rw [writtenTo_append, readFrom_append, h.2, h'.2]

/-- Passing on polls and reads nothing. -/
theorem passingOn_quiet {tr : Trace sys} (h : ∀ e ∈ tr, Op.passingOn e.op) :
    NoPoll tr ∧ ∀ fd, ¬ReadsFrom fd tr := by
  refine ⟨?_, ?_⟩
  · intro e he fds timeout hop
    have := h e he
    rw [hop] at this
    exact this
  · rintro fd ⟨len, answer, hmem⟩
    exact h _ hmem

/-- Counting neither reads nor writes. -/
theorem counting_exact {tr : Trace sys} (h : ∀ e ∈ tr, Op.counting e.op) (fd1 fd2 : Fd) :
    Exact fd1 fd2 tr := by
  have hquiet : ∀ fd, readFrom fd tr = [] ∧ writtenTo fd tr = [] := by
    intro fd
    refine ⟨List.flatMap_eq_nil_iff.mpr ?_, List.flatMap_eq_nil_iff.mpr ?_⟩
    · rintro ⟨o, r⟩ he
      have := h _ he
      cases o <;> first | rfl | exact this.elim
    · rintro ⟨o, r⟩ he
      have := h _ he
      cases o <;> first | rfl | exact this.elim
  refine ⟨?_, ?_⟩
  · rw [(hquiet fd2).2, (hquiet fd1).1]
  · rw [(hquiet fd1).2, (hquiet fd2).1]

/-! ### One socket -/

/-- What relaying from `infd`, or leaving it alone, did. -/
structure Relayed (readable : Bool) (infd outfd : Fd) (r : ConnectionState) (tr : Trace sys) :
    Prop where
  noPoll : NoPoll tr
  reads : readable = true → ReadsFrom infd tr
  only : ∀ fd, ReadsFrom fd tr → fd = infd
  eof : r = .closed ↔ ReadsEof infd tr
  exact : r ≠ .error → Exact infd outfd tr

/-- `relay_data` returns `CLOSED` when there was nothing to read, and only then. -/
theorem relayRead_closed {outfd : Fd} {buf : Bytes} {up : Bool} {tr : Trace sys}
    {r : ConnectionState}
    (he : Eval (if buf = [] then (return .closed : Server ConnectionState)
      else do
        if ← writeAll outfd buf then
          if up then accountPending .uploaded buf.length
          else accountPending .downloaded buf.length
          return .opened
        else return .error) tr r) : r = .closed ↔ buf = [] := by
  by_cases hbuf : buf = []
  · rw [if_pos hbuf] at he
    cases he
    simp [hbuf]
  · rw [if_neg hbuf] at he
    refine ⟨fun hr => ?_, fun h => absurd h hbuf⟩
    subst hr
    obtain ⟨_, ok, _, -, -, he⟩ := eval_bind _ he
    cases ok with
    | false => cases he
    | true =>
        cases up with
        | false =>
            obtain ⟨_, _, _, -, -, he⟩ := eval_bind _ he
            cases he
        | true =>
            obtain ⟨_, _, _, -, -, he⟩ := eval_bind _ he
            cases he

theorem relayData_eval {infd outfd : Fd} {size : Nat} {up : Bool} {tr : Trace sys}
    {r : ConnectionState} (he : Eval (relayData infd outfd size up) tr r)
    (hacc : ∀ e ∈ tr, AcceptsSome e) : Relayed true infd outfd r tr := by
  have hexact : r ≠ .error → Exact infd outfd tr := by
    intro hr
    have hf := wlp_eval he (relayData_exact (h := []) ⟨rfl, rfl⟩)
    have := (hf.elim (Spec.history_legal hacc)).2
    simpa using this.2 hr
  cases he with
  | block he hret =>
      cases hret
      rw [List.append_nil] at hexact ⊢
      cases he with
      | @call _ _ _ answer rest _ he =>
          have hrest : ∀ e ∈ rest, Op.passingOn e.op := by
            rcases answer with e | buf
            · cases he
              simp
            · exact (relayRead_uses Op.counting.passingOn (fun _ => trivial) buf up).eval he
          have hclosed : r = .closed ↔ answer = .ok [] := by
            rcases answer with e | buf
            · cases he
              simp
            · rw [relayRead_closed he, Except.ok.injEq]
          obtain ⟨hpoll, hread⟩ := passingOn_quiet hrest
          -- the first event is the only one that reads
          have honly : ∀ {fd len answer'},
              (⟨.read fd len, answer'⟩ : Event sys) ∈ ⟨.read infd size, answer⟩ :: rest →
              (⟨.read fd len, answer'⟩ : Event sys) = ⟨.read infd size, answer⟩ := by
            intro fd len answer' hmem
            rcases List.mem_cons.mp hmem with h | h
            · exact h
            · exact absurd ⟨len, answer', h⟩ (hread fd)
          refine ⟨?_, fun _ => ⟨size, answer, List.mem_cons_self⟩, ?_, ?_, hexact⟩
          · intro e he fds timeout
            rcases List.mem_cons.mp he with rfl | he
            · simp
            · exact hpoll e he fds timeout
          · rintro fd ⟨len, answer', hmem⟩
            have := honly hmem
            simp only [Event.mk.injEq, Op.read.injEq] at this
            exact this.1.1
          · rw [hclosed]
            refine ⟨fun h => ⟨size, h ▸ List.mem_cons_self⟩, ?_⟩
            rintro ⟨len, hmem⟩
            have := honly hmem
            simp only [Event.mk.injEq, Op.read.injEq, true_and] at this
            obtain ⟨rfl, hanswer⟩ := this
            exact (eq_of_heq hanswer).symm

theorem relayIfReadable_eval {revents : UInt16} {infd outfd : Fd} {up : Bool} {tr : Trace sys}
    {r : ConnectionState} (he : Eval (relayIfReadable revents infd outfd up) tr r)
    (hacc : ∀ e ∈ tr, AcceptsSome e) :
    Relayed (pollReventsHaveInput revents) infd outfd r tr ∧
      (pollReventsHaveInput revents = false → r = .opened) := by
  unfold relayIfReadable at he
  by_cases hin : pollReventsHaveInput revents = true
  · rw [if_pos hin] at he
    rw [hin]
    exact ⟨relayData_eval he hacc, by simp⟩
  · rw [if_neg hin] at he
    cases he
    refine ⟨⟨by simp [NoPoll], fun h => absurd h hin, ?_, ?_, fun _ => ⟨rfl, rfl⟩⟩, fun _ => rfl⟩
    · rintro fd ⟨len, answer, hmem⟩
      cases hmem
    · refine ⟨fun h => by simp at h, ?_⟩
      rintro ⟨len, hmem⟩
      cases hmem

theorem flushAndReturn_eval {state : ConnectionState} {tr : Trace sys}
    {x : Unit ⊕ ConnectionState} (he : Eval (flushAndReturn state) tr x) :
    x = .inr state ∧ ∀ e ∈ tr, Op.counting e.op := by
  refine ⟨?_, (flushAndReturn_uses state).eval he⟩
  obtain ⟨_, _, _, -, -, hret⟩ := eval_bind _ he
  cases hret
  rfl

/-! ### The last iteration -/

/-- Both sockets were readable, and the client's had come to its end. -/
structure EndsBeforeTarget (fd1 fd2 : Fd) (revents1 revents2 : UInt16) (last : Trace sys) :
    Prop where
  other : fd1 ≠ fd2
  first : pollReventsHaveInput revents1 = true
  second : pollReventsHaveInput revents2 = true
  eof : ReadsEof fd1 last

theorem copyloopReady_drains {fd1 fd2 : Fd} {revents1 revents2 : UInt16} {last : Trace sys}
    (he : Eval (copyloopReady fd1 fd2 revents1 revents2) last (.inr .closed))
    (hacc : ∀ e ∈ last, AcceptsSome e) :
    NoPoll last ∧ (Drained fd1 fd2 revents1 revents2 last ↔
      ¬EndsBeforeTarget fd1 fd2 revents1 revents2 last) := by
  unfold copyloopReady at he
  split at he
  · obtain ⟨hstate, -⟩ := flushAndReturn_eval he
    cases hstate
  obtain ⟨l₁, r₁, rest, rfl, he₁, he⟩ := eval_bind _ he
  obtain ⟨h₁, hskip₁⟩ := relayIfReadable_eval he₁
    (fun e he => hacc e (List.mem_append_left _ he))
  split at he
  · -- the client's socket was served last
    rename_i hr₁
    obtain ⟨hstate, hcounting⟩ := flushAndReturn_eval he
    obtain rfl : r₁ = .closed := by simpa using hstate.symm
    have hpassing := fun e he => Op.counting.passingOn _ (hcounting e he)
    obtain ⟨hpoll, hread⟩ := passingOn_quiet hpassing
    have heof := h₁.eof.mp rfl
    have hin : pollReventsHaveInput revents1 = true := by
      by_contra hno
      have := hskip₁ (by simpa using hno)
      cases this
    refine ⟨h₁.noPoll.append hpoll, fun hd hends => ?_, fun hends => ?_⟩
    · rcases ReadsFrom.append.mp (hd.second hends.second) with h | h
      · exact hends.other (h₁.only _ h).symm
      · exact hread _ h
    · refine ⟨fun _ => ReadsFrom.append.mpr (.inl heof.readsFrom), fun hin₂ => ?_,
        (h₁.exact (by simp)).append (counting_exact hcounting _ _)⟩
      by_cases hother : fd1 = fd2
      · rw [← hother]
        exact ReadsFrom.append.mpr (.inl heof.readsFrom)
      · exact absurd ⟨hother, hin, hin₂, ReadsEof.append.mpr (.inl heof)⟩ hends
  rename_i hr₁
  have hr₁ := not_not.mp hr₁
  have heof₁ : ¬ReadsEof fd1 l₁ := by
    rw [← h₁.eof, hr₁]
    simp
  obtain ⟨l₂, r₂, rest, rfl, he₂, he⟩ := eval_bind _ he
  obtain ⟨h₂, -⟩ := relayIfReadable_eval he₂
    (fun e he => hacc e (List.mem_append_right _ (List.mem_append_left _ he)))
  split at he
  · -- both were served
    obtain ⟨hstate, hcounting⟩ := flushAndReturn_eval he
    obtain rfl : r₂ = .closed := by simpa using hstate.symm
    have hpassing := fun e he => Op.counting.passingOn _ (hcounting e he)
    obtain ⟨hpoll, hread⟩ := passingOn_quiet hpassing
    have hdrained : Drained fd1 fd2 revents1 revents2 (l₁ ++ (l₂ ++ rest)) := by
      refine ⟨fun hin => ?_, fun hin => ?_, ?_⟩
      · exact ReadsFrom.append.mpr (.inl (h₁.reads hin))
      · exact ReadsFrom.append.mpr (.inr (ReadsFrom.append.mpr (.inl (h₂.reads hin))))
      · exact (h₁.exact (by rw [hr₁]; simp)).append
          ((h₂.exact (by simp)).symm.append (counting_exact hcounting _ _))
    refine ⟨h₁.noPoll.append (h₂.noPoll.append hpoll), fun _ hends => ?_, fun _ => hdrained⟩
    rcases ReadsEof.append.mp hends.eof with h | h
    · exact heof₁ h
    · rcases ReadsEof.append.mp h with h | h
      · exact hends.other (h₂.only _ h.readsFrom)
      · exact hread _ h.readsFrom
  rename_i hr₂
  have hr₂ := not_not.mp hr₂
  dsimp only at he
  split at he
  · -- neither was readable
    rename_i hhangup
    obtain ⟨-, hcounting⟩ := flushAndReturn_eval he
    have hpassing := fun e he => Op.counting.passingOn _ (hcounting e he)
    obtain ⟨hpoll, -⟩ := passingOn_quiet hpassing
    simp only [Bool.and_eq_true, Bool.not_eq_true', Bool.or_eq_false_iff] at hhangup
    obtain ⟨⟨hno₁, hno₂⟩, -⟩ := hhangup
    refine ⟨h₁.noPoll.append (h₂.noPoll.append hpoll), fun _ hends => ?_, fun _ => ?_⟩
    · have := hends.first
      rw [hno₁] at this
      cases this
    · refine ⟨fun hin => ?_, fun hin => ?_, ?_⟩
      · rw [hno₁] at hin
        cases hin
      · rw [hno₂] at hin
        cases hin
      · exact (h₁.exact (by rw [hr₁]; simp)).append
          ((h₂.exact (by rw [hr₂]; simp)).symm.append (counting_exact hcounting _ _))
  · cases he

theorem LastPoll.prepend {tr last : Trace sys} {answer : PollResult}
    (h : LastPoll tr answer last) (pre : Trace sys) : LastPoll (pre ++ tr) answer last := by
  obtain ⟨before, fds, timeout, rfl, hno⟩ := h
  exact ⟨pre ++ before, fds, timeout, by rw [List.append_assoc], hno⟩

/-- How a run that ends on `CLOSED` ends. -/
def ClosesDrained (fd1 fd2 : Fd) (tr : Trace sys) : Prop :=
  ∃ answer last, LastPoll tr answer last ∧ (answer = .timeout ∨
    ∃ revents, answer = .ready revents ∧
      (Drained fd1 fd2 (revents.getD 0 0) (revents.getD 1 0) last ↔
        ¬EndsBeforeTarget fd1 fd2 (revents.getD 0 0) (revents.getD 1 0) last))

theorem copyloopBody_drains {fd1 fd2 : Fd} {tr : Trace sys}
    (he : Eval (copyloopBody fd1 fd2 ()) tr (.inr .closed)) (hacc : ∀ e ∈ tr, AcceptsSome e) :
    ClosesDrained fd1 fd2 tr := by
  cases he with
  | @call _ _ _ answer last _ hlast =>
      have hmem : ∀ e ∈ last, AcceptsSome e := fun e he => hacc e (List.mem_cons_of_mem _ he)
      cases answer with
      | timeout =>
          obtain ⟨-, hcounting⟩ := flushAndReturn_eval hlast
          have hpassing := fun e he => Op.counting.passingOn _ (hcounting e he)
          exact ⟨_, last, ⟨[], _, _, rfl, (passingOn_quiet hpassing).1⟩, .inl rfl⟩
      | failed e =>
          dsimp only [ret_bind] at hlast
          split at hlast
          · cases hlast
          · obtain ⟨hstate, -⟩ := flushAndReturn_eval hlast
            cases hstate
      | ready revents =>
          obtain ⟨hnopoll, hiff⟩ := copyloopReady_drains hlast hmem
          exact ⟨_, last, ⟨[], _, _, rfl, hnopoll⟩, .inr ⟨revents, rfl, hiff⟩⟩

/--
**What a close leaves behind.**

A run of `copyloop` that returns `CLOSED` ends after a poll that timed out or reported its
sockets.  In the second case everything reported readable was read and written on, unless
the client's stream came to its end while the target was readable too.
-/
theorem copyloop_closesDrained {fd1 fd2 : Fd} {tr : Trace sys}
    (he : Eval (copyloop fd1 fd2) tr .closed) (hacc : ∀ e ∈ tr, AcceptsSome e) :
    ClosesDrained fd1 fd2 tr := by
  cases he with
  | @call _ _ _ r₁ _ _ he =>
  cases he with
  | @call _ _ _ r₂ _ _ he =>
  obtain ⟨tr₁, _, tr₂, state, tr₃, rfl, -, hbody, hret⟩ := eval_loop he
  cases hret
  rw [List.append_nil] at hacc ⊢
  have hdrains := copyloopBody_drains hbody fun e he =>
    hacc e (List.mem_cons_of_mem _ (List.mem_cons_of_mem _ (List.mem_append_right _ he)))
  obtain ⟨answer, last, hlast, hcases⟩ := hdrains
  exact ⟨answer, last,
    hlast.prepend (⟨.storePending .downloaded 0, r₁⟩ :: ⟨.storePending .uploaded 0, r₂⟩ :: tr₁),
    hcases⟩

/-! ### Runs -/

/-- The client closes after the target has answered: both are readable, and the answer is
not read. -/
def halfClosed : Trace sys :=
  [⟨.storePending .downloaded 0, ()⟩, ⟨.storePending .uploaded 0, ()⟩,
    ⟨.poll [(4, POLLIN), (5, POLLIN)] IDLE_TIMEOUT, .ready [POLLIN, POLLIN]⟩,
    ⟨.read 4 TCP_COPY_BUFFER_SIZE, .ok []⟩,
    ⟨.loadPending .downloaded, (0 : Nat)⟩, ⟨.loadPending .uploaded, (0 : Nat)⟩]

theorem halfClosed_run : Eval (copyloop 4 5) halfClosed .closed :=
  eval_of_replay 60 _ rfl

theorem halfClosed_accepts : ∀ e ∈ halfClosed, AcceptsSome e := by
  intro e he
  simp only [halfClosed, List.mem_cons, List.not_mem_nil, or_false] at he
  rcases he with rfl | rfl | rfl | rfl | rfl | rfl <;> trivial

/-- The target's data was reported readable, and was left where it was. -/
theorem copyloop_drops_target :
    Eval (copyloop 4 5) halfClosed .closed ∧ (∀ e ∈ halfClosed, AcceptsSome e) ∧
      ∃ last, LastPoll halfClosed (.ready [POLLIN, POLLIN]) last ∧
        pollReventsHaveInput POLLIN = true ∧ ¬ReadsFrom 5 last := by
  refine ⟨halfClosed_run, halfClosed_accepts, halfClosed.drop 3,
    ⟨halfClosed.take 2, _, _, rfl, ?_⟩, rfl, ?_⟩
  · intro e he fds timeout
    simp only [halfClosed, List.drop_succ_cons, List.drop_zero, List.mem_cons, List.not_mem_nil,
      or_false] at he
    rcases he with rfl | rfl | rfl <;> simp
  · rintro ⟨len, answer, hmem⟩
    simp [halfClosed] at hmem

theorem closesDrained_halfClosed : ClosesDrained 4 5 halfClosed :=
  copyloop_closesDrained halfClosed_run halfClosed_accepts

end TwoSocks
