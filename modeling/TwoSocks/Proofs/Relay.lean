/-
The TCP relay copies exactly.

The ghost state is the history itself, and the two byte sequences are read off it:
what `read` returned on one descriptor, and the part of each `write` to another that
was accepted.  `Exact` says the two directions agree, `Behind` that each written
sequence is a prefix of what was read.

The argument follows the calls.  The write loop puts out a prefix of the chunk, all
of it unless a write failed; `relay_data` adds one chunk to both sides or leaves a
prefix; `copyloop` comes back to its head, or returns without an error, only when
every chunk went out whole.  Nothing here needs the two descriptors to differ.

The write loop ends because every write that succeeds takes at least one byte.
-/
import TwoSocks.Program.Termination
import TwoSocks.Server.Rules

namespace TwoSocks

open Server Prog

/-! ### What a history moved -/

/-- What one event reads from `fd`. -/
def readBy (fd : Fd) : Event sys → Bytes
  | ⟨.read fd' _, .ok buf⟩ => if fd' = fd then buf else []
  | _ => []

/-- What one event writes to `fd`: the part of the buffer that was accepted. -/
def writtenBy (fd : Fd) : Event sys → Bytes
  | ⟨.write fd' buf, .ok n⟩ => if fd' = fd then buf.take n else []
  | _ => []

/-- The bytes read from `fd` in a trace, in order. -/
def readFrom (fd : Fd) (tr : Trace sys) : Bytes := tr.flatMap (readBy fd)

/-- The bytes written to `fd` in a trace, in order. -/
def writtenTo (fd : Fd) (tr : Trace sys) : Bytes := tr.flatMap (writtenBy fd)

/-- A successful write accepts between one byte and all it was given. -/
def AcceptsSome : Event sys → Prop
  | ⟨.write _ buf, .ok n⟩ => 1 ≤ n ∧ n ≤ buf.length
  | _ => True

@[simp] theorem readFrom_append (fd : Fd) (tr tr' : Trace sys) :
    readFrom fd (tr ++ tr') = readFrom fd tr ++ readFrom fd tr' := List.flatMap_append ..

@[simp] theorem writtenTo_append (fd : Fd) (tr tr' : Trace sys) :
    writtenTo fd (tr ++ tr') = writtenTo fd tr ++ writtenTo fd tr' := List.flatMap_append ..

@[simp] theorem readFrom_singleton (fd : Fd) (e : Event sys) : readFrom fd [e] = readBy fd e := by
  simp [readFrom]

@[simp] theorem writtenTo_singleton (fd : Fd) (e : Event sys) :
    writtenTo fd [e] = writtenBy fd e := by
  simp [writtenTo]

/-- Each direction has written exactly what it read. -/
def Exact (fd1 fd2 : Fd) (h : Trace sys) : Prop :=
  writtenTo fd2 h = readFrom fd1 h ∧ writtenTo fd1 h = readFrom fd2 h

/-- Each direction has written a prefix of what it read. -/
def Behind (fd1 fd2 : Fd) (h : Trace sys) : Prop :=
  writtenTo fd2 h <+: readFrom fd1 h ∧ writtenTo fd1 h <+: readFrom fd2 h

theorem Exact.symm {fd1 fd2 : Fd} {h : Trace sys} (he : Exact fd1 fd2 h) : Exact fd2 fd1 h :=
  ⟨he.2, he.1⟩

theorem Behind.symm {fd1 fd2 : Fd} {h : Trace sys} (hb : Behind fd1 fd2 h) :
    Behind fd2 fd1 h := ⟨hb.2, hb.1⟩

theorem Exact.behind {fd1 fd2 : Fd} {h : Trace sys} (he : Exact fd1 fd2 h) :
    Behind fd1 fd2 h := ⟨by rw [he.1], by rw [he.2]⟩

/-- From `h` to `h'` exactly `inn` was read, from `infd`, and exactly `out` was
written, to `outfd`. -/
structure Moved (infd : Fd) (inn : Bytes) (outfd : Fd) (out : Bytes) (h h' : Trace sys) :
    Prop where
  read : ∀ fd, readFrom fd h' = readFrom fd h ++ if infd = fd then inn else []
  written : ∀ fd, writtenTo fd h' = writtenTo fd h ++ if outfd = fd then out else []

theorem Moved.nothing (infd outfd : Fd) (h : Trace sys) : Moved infd [] outfd [] h h :=
  ⟨by simp, by simp⟩

/-- An event that neither reads nor writes. -/
theorem Moved.quiet {infd outfd : Fd} {inn out : Bytes} {h h' : Trace sys} {e : Event sys}
    (hm : Moved infd inn outfd out h h') (hr : ∀ fd, readBy fd e = [])
    (hw : ∀ fd, writtenBy fd e = []) : Moved infd inn outfd out h (h' ++ [e]) :=
  ⟨fun fd => by simp [hm.read, hr], fun fd => by simp [hm.written, hw]⟩

theorem Moved.trans {infd outfd : Fd} {inn inn' out out' : Bytes} {h h' h'' : Trace sys}
    (hm : Moved infd inn outfd out h h') (hm' : Moved infd inn' outfd out' h' h'') :
    Moved infd (inn ++ inn') outfd (out ++ out') h h'' := by
  refine ⟨fun fd => ?_, fun fd => ?_⟩
  · rw [hm'.read, hm.read, List.append_assoc]
    split <;> rfl
  · rw [hm'.written, hm.written, List.append_assoc]
    split <;> rfl

theorem Exact.moved {infd outfd : Fd} {buf : Bytes} {h h' : Trace sys}
    (he : Exact infd outfd h) (hm : Moved infd buf outfd buf h h') : Exact infd outfd h' := by
  refine ⟨?_, ?_⟩
  · rw [hm.written, hm.read, he.1]
    simp
  · rw [hm.written, hm.read, he.2]
    simp only [eq_comm]

theorem Exact.moved_prefix {infd outfd : Fd} {buf out : Bytes} {h h' : Trace sys}
    (he : Exact infd outfd h) (hm : Moved infd buf outfd out h h') (hp : out <+: buf) :
    Behind infd outfd h' := by
  refine ⟨?_, ?_⟩
  · rw [hm.written, hm.read, he.1, if_pos rfl, if_pos rfl]
    exact (List.prefix_append_right_inj _).mpr hp
  · rw [hm.written, hm.read, he.2]
    by_cases hfd : infd = outfd
    · rw [if_pos hfd.symm, if_pos hfd]
      exact (List.prefix_append_right_inj _).mpr hp
    · rw [if_neg (Ne.symm hfd), if_neg hfd]

/-! ### The write loop -/

theorem writeAll_spec (infd outfd : Fd) (buf : Bytes) (h : Trace sys) :
    wlp (Spec.history AcceptsSome) (writeAll outfd buf) (fun ok h' => ∃ sent,
      Moved infd [] outfd (buf.take sent) h h' ∧ (ok = true → sent = buf.length)) h := by
  refine wlp_iterate
    (fun sent h' => sent ≤ buf.length ∧ Moved infd [] outfd (buf.take sent) h h')
    ⟨Nat.zero_le _, by simpa using Moved.nothing infd outfd h⟩ ?_
  rintro sent h' ⟨hle, hm⟩
  unfold writeRest
  split
  · simp only [pure_eq, bind_eq, wlp_bind, wlp_write, Spec.history_inv, Spec.history_guar,
      Spec.history_rely, Spec.history_next, true_and]
    rintro (e | m) hacc
    · refine ⟨trivial, sent, hm.quiet (fun _ => rfl) (fun _ => rfl), by simp⟩
    · simp only [AcceptsSome, List.length_drop] at hacc
      refine ⟨trivial, by omega, ?_⟩
      have hstep : Moved infd [] outfd ((buf.drop sent).take m) h'
          (h' ++ [⟨.write outfd (buf.drop sent), .ok m⟩]) :=
        ⟨by simp [readBy], by simp [writtenBy]⟩
      simpa [← List.take_add] using hm.trans hstep
  · exact ⟨trivial, sent, hm, fun _ => by omega⟩

/-! ### One chunk -/

section Quiet

variable {infd outfd : Fd} {inn out : Bytes} {h₀ : Trace sys}

theorem recordBytes_quiet (d : Direction) (n : Nat) {h : Trace sys}
    (hm : Moved infd inn outfd out h₀ h) : wlp (Spec.history AcceptsSome) (recordBytes d n)
      (fun _ h' => Moved infd inn outfd out h₀ h') h :=
  wlp_recordBytes d n trivial (fun _ => hm) trivial
    ⟨trivial, hm.quiet (fun _ => rfl) (fun _ => rfl)⟩

theorem accountPending_quiet (d : Direction) (n : Nat) {h : Trace sys}
    (hm : Moved infd inn outfd out h₀ h) : wlp (Spec.history AcceptsSome) (accountPending d n)
      (fun _ h' => Moved infd inn outfd out h₀ h') h := by
  unfold accountPending
  simp only [pure_eq, bind_eq, wlp_bind, wlp_loadPending, wlp_storePending, Spec.history_inv,
    Spec.history_guar, Spec.history_rely, Spec.history_next, true_and]
  intro p _ _ p' _
  have hm' := ((hm.quiet (e := ⟨.loadPending d, p⟩) (fun _ => rfl) (fun _ => rfl)).quiet
    (e := ⟨.storePending d (p + n), ()⟩) (fun _ => rfl) (fun _ => rfl)).quiet
    (e := ⟨.loadPending d, p'⟩) (fun _ => rfl) (fun _ => rfl)
  split
  · refine (wlp_bind _).mpr (wlp_mono _ (fun _ h' h'm => ?_) (recordBytes_quiet d p' hm'))
    exact ⟨trivial, trivial, fun _ _ => ⟨trivial, h'm.quiet (fun _ => rfl) (fun _ => rfl)⟩⟩
  · exact ⟨trivial, hm'⟩

theorem flushPending_quiet (d : Direction) {h : Trace sys}
    (hm : Moved infd inn outfd out h₀ h) : wlp (Spec.history AcceptsSome) (flushPending d)
      (fun _ h' => Moved infd inn outfd out h₀ h') h := by
  unfold flushPending
  simp only [pure_eq, bind_eq, wlp_bind, wlp_loadPending, Spec.history_inv, Spec.history_guar,
    Spec.history_rely, Spec.history_next, true_and]
  intro p _
  have hm' := hm.quiet (e := ⟨.loadPending d, p⟩) (fun _ => rfl) (fun _ => rfl)
  split
  · refine (wlp_bind _).mpr (wlp_mono _ (fun _ h' h'm => ?_) (recordBytes_quiet d p hm'))
    exact ⟨trivial, trivial, fun _ _ => ⟨trivial, h'm.quiet (fun _ => rfl) (fun _ => rfl)⟩⟩
  · exact ⟨trivial, hm'⟩

theorem flush_quiet {h : Trace sys} (hm : Moved infd inn outfd out h₀ h) :
    wlp (Spec.history AcceptsSome) flushPendingTransferTotals
      (fun _ h' => Moved infd inn outfd out h₀ h') h := by
  refine wlp_opened (fun _ _ => trivial) ?_
  simp only [bind_eq, wlp_bind]
  exact wlp_mono _ (fun _ h' hm' => flushPending_quiet _ hm') (flushPending_quiet _ hm)

end Quiet

/-- `relay_data` moves one chunk, or a prefix of it if it fails. -/
theorem relayData_spec (infd outfd : Fd) (size : Nat) (up : Bool) (h : Trace sys) :
    wlp (Spec.history AcceptsSome) (relayData infd outfd size up) (fun r h' => ∃ buf sent,
      Moved infd buf outfd (buf.take sent) h h' ∧ (r ≠ .error → sent = buf.length)) h := by
  refine wlp_opened (fun _ _ => trivial) ?_
  unfold relayChunk
  simp only [pure_eq, bind_eq, wlp_bind, wlp_read, Spec.history_inv, Spec.history_guar,
    Spec.history_rely, Spec.history_next, true_and]
  rintro (e | buf) _
  · exact ⟨trivial, [], 0, (Moved.nothing infd outfd h).quiet (fun _ => rfl) (fun _ => rfl),
      by simp⟩
  · by_cases hbuf : buf = []
    · subst hbuf
      exact ⟨trivial, [], 0, (Moved.nothing infd outfd h).quiet (fun _ => by simp [readBy])
        (fun _ => rfl), by simp⟩
    · simp only [if_neg hbuf, wlp_bind]
      have hread : Moved infd buf outfd [] h (h ++ [⟨.read infd size, .ok buf⟩]) :=
        ⟨by simp [readBy], by simp [writtenBy]⟩
      refine wlp_mono _ ?_ (writeAll_spec infd outfd buf _)
      rintro ok h' ⟨sent, hm, hok⟩
      have hm' : Moved infd buf outfd (buf.take sent) h h' := by simpa using hread.trans hm
      cases ok with
      | false => exact ⟨trivial, buf, sent, hm', by simp⟩
      | true =>
          have hsent := hok rfl
          simp only [if_true]
          split
          · refine (wlp_bind _).mpr (wlp_mono _ (fun _ h'' hm'' => ?_)
              (accountPending_quiet .uploaded buf.length hm'))
            exact ⟨trivial, buf, sent, hm'', fun _ => hsent⟩
          · refine (wlp_bind _).mpr (wlp_mono _ (fun _ h'' hm'' => ?_)
              (accountPending_quiet .downloaded buf.length hm'))
            exact ⟨trivial, buf, sent, hm'', fun _ => hsent⟩

/-- `relay_data` keeps the directions exact, and at least prefixes if it fails. -/
theorem relayData_exact {infd outfd : Fd} {size : Nat} {up : Bool} {h : Trace sys}
    (he : Exact infd outfd h) :
    wlp (Spec.history AcceptsSome) (relayData infd outfd size up) (fun r h' =>
      Behind infd outfd h' ∧ (r ≠ .error → Exact infd outfd h')) h := by
  refine wlp_mono _ ?_ (relayData_spec infd outfd size up h)
  rintro r h' ⟨buf, sent, hm, hr⟩
  refine ⟨he.moved_prefix hm (List.take_prefix ..), fun hne => ?_⟩
  rw [hr hne, List.take_length] at hm
  exact he.moved hm

/-! ### The loop -/

/-- What `copyloop` may return with. -/
def ReturnsExact (fd1 fd2 : Fd) (r : ConnectionState) (h : Trace sys) : Prop :=
  r ≠ .opened ∧ Behind fd1 fd2 h ∧ (r = .closed → Exact fd1 fd2 h)

theorem flush_exact {fd1 fd2 : Fd} {h : Trace sys} (he : Exact fd1 fd2 h) :
    wlp (Spec.history AcceptsSome) flushPendingTransferTotals (fun _ h' => Exact fd1 fd2 h') h :=
  wlp_mono _ (fun _ _ hm => he.moved hm) (flush_quiet (Moved.nothing fd1 fd2 h))

theorem flush_behind {fd1 fd2 : Fd} {h : Trace sys} (hb : Behind fd1 fd2 h) :
    wlp (Spec.history AcceptsSome) flushPendingTransferTotals
      (fun _ h' => Behind fd1 fd2 h') h := by
  refine wlp_mono _ (fun _ h' hm => ?_) (flush_quiet (Moved.nothing fd1 fd2 h))
  refine ⟨?_, ?_⟩ <;> rw [hm.written, hm.read] <;> simp [hb.1, hb.2]

theorem flushAndReturn_spec {fd1 fd2 : Fd} {r : ConnectionState} {h : Trace sys}
    (hr : r ≠ .opened) (hb : Behind fd1 fd2 h) (he : r ≠ .error → Exact fd1 fd2 h)
    {I : Unit → Trace sys → Prop} :
    wlp (Spec.history AcceptsSome) (flushAndReturn r) (Sum.elim I (ReturnsExact fd1 fd2)) h := by
  unfold flushAndReturn
  simp only [bind_eq, pure_eq, wlp_bind]
  by_cases herr : r = .error
  · subst herr
    exact wlp_mono _ (fun _ h' hb' => ⟨trivial, hr, hb', by simp⟩) (flush_behind hb)
  · exact wlp_mono _ (fun _ h' he' => ⟨trivial, hr, he'.behind, fun _ => he'⟩)
      (flush_exact (he herr))

theorem relayIfReadable_exact {revents : UInt16} {infd outfd : Fd} {up : Bool} {h : Trace sys}
    (he : Exact infd outfd h) :
    wlp (Spec.history AcceptsSome) (relayIfReadable revents infd outfd up)
      (fun r h' => Behind infd outfd h' ∧ (r ≠ .error → Exact infd outfd h')) h := by
  unfold relayIfReadable
  split
  · exact relayData_exact he
  · exact ⟨trivial, he.behind, fun _ => he⟩

theorem copyloopReady_spec {fd1 fd2 : Fd} {revents1 revents2 : UInt16} {h : Trace sys}
    (he : Exact fd1 fd2 h) :
    wlp (Spec.history AcceptsSome) (copyloopReady fd1 fd2 revents1 revents2)
      (Sum.elim (fun _ => Exact fd1 fd2) (ReturnsExact fd1 fd2)) h := by
  unfold copyloopReady
  split
  · exact flushAndReturn_spec (by simp) he.behind (by simp)
  · simp only [bind_eq, wlp_bind]
    refine wlp_mono _ ?_ (relayIfReadable_exact he)
    rintro r₁ h₁ ⟨hb₁, he₁⟩
    split
    · rename_i hr₁
      exact flushAndReturn_spec hr₁ hb₁ he₁
    · rename_i hr₁
      have he₁ := he₁ (by rw [not_not.mp hr₁]; simp)
      simp only [pure_eq, wlp_bind]
      refine wlp_mono _ ?_ (relayIfReadable_exact he₁.symm)
      rintro r₂ h₂ ⟨hb₂, he₂⟩
      split
      · rename_i hr₂
        exact flushAndReturn_spec hr₂ hb₂.symm (fun h => (he₂ h).symm)
      · rename_i hr₂
        have he₂ := (he₂ (by rw [not_not.mp hr₂]; simp)).symm
        split
        · exact flushAndReturn_spec (by simp) he₂.behind (fun _ => he₂)
        · exact ⟨trivial, he₂⟩

theorem copyloopBody_spec {fd1 fd2 : Fd} {h : Trace sys} (he : Exact fd1 fd2 h) :
    wlp (Spec.history AcceptsSome) (copyloopBody fd1 fd2 ())
      (Sum.elim (fun _ => Exact fd1 fd2) (ReturnsExact fd1 fd2)) h := by
  unfold copyloopBody
  simp only [bind_eq, pure_eq, wlp_bind, wlp_poll, Spec.history_inv, Spec.history_guar,
    Spec.history_rely, Spec.history_next, true_and]
  intro r _
  have he' : Exact fd1 fd2 (h ++ [⟨.poll [(fd1, POLLIN), (fd2, POLLIN)] IDLE_TIMEOUT, r⟩]) :=
    he.moved ((Moved.nothing fd1 fd2 h).quiet (fun _ => rfl) (fun _ => rfl))
  cases r with
  | timeout =>
      exact flushAndReturn_spec (by simp) he'.behind (fun _ => he')
  | failed e =>
      simp only
      split
      · exact ⟨trivial, he'⟩
      · exact flushAndReturn_spec (by simp) he'.behind (by simp)
  | ready revents => exact copyloopReady_spec he'

theorem copyloop_start {fd1 fd2 : Fd} {h : Trace sys} (he : Exact fd1 fd2 h) :
    wlp (Spec.history AcceptsSome) (copyloop fd1 fd2) (ReturnsExact fd1 fd2) h := by
  unfold copyloop
  simp only [bind_eq, wlp_bind, wlp_storePending, Spec.history_inv, Spec.history_guar,
    Spec.history_rely, Spec.history_next, true_and]
  intro _ _
  refine wlp_iterate (fun _ => Exact fd1 fd2) ?_ (fun s h' he' => copyloopBody_spec he')
  exact (he.moved ((Moved.nothing fd1 fd2 h).quiet (fun _ => rfl) (fun _ => rfl))).moved
    ((Moved.nothing fd1 fd2 _).quiet (fun _ => rfl) (fun _ => rfl))

/-! ### Termination of the write loop -/

/-- A write that comes back to the loop has got at least one byte out. -/
theorem writeRest_advances {outfd : Fd} {buf : Bytes} {sent sent' : Nat} {tr : Trace sys}
    (h : Eval (writeRest outfd buf sent) tr (.inl sent')) (hrely : ∀ e ∈ tr, AcceptsSome e) :
    sent < buf.length ∧ sent < sent' := by
  unfold writeRest at h
  by_cases hlt : sent < buf.length
  · rw [if_pos hlt] at h
    cases h with
    | @call _ _ _ r tr _ h =>
        cases r with
        | error e => cases h
        | ok m =>
            cases h
            have hm : 1 ≤ m ∧ m ≤ (buf.drop sent).length :=
              hrely ⟨.write outfd (buf.drop sent), .ok m⟩ (by simp)
            exact ⟨hlt, by omega⟩
  · rw [if_neg hlt] at h
    cases h

theorem writeRest_straight (outfd : Fd) (buf : Bytes) (sent : Nat) :
    Straight (writeRest outfd buf sent) := by
  unfold writeRest
  by_cases hlt : sent < buf.length
  · rw [if_pos hlt]
    intro r
    cases r <;> trivial
  · rw [if_neg hlt]
    trivial

/-- With `sent` bytes out, the loop ends after at most one write for each byte left. -/
theorem writeRest_terminates (outfd : Fd) (buf : Bytes) : ∀ (fuel sent : Nat),
    buf.length - sent ≤ fuel →
      Terminates AcceptsSome (iterate (writeRest outfd buf) sent) := by
  intro fuel
  induction fuel with
  | zero =>
      intro sent hle
      refine Terminates.loop (writeRest_straight ..).terminates (fun tr sent' h hrely => ?_)
        (fun _ b _ _ => terminates_ret b)
      have := writeRest_advances h hrely
      omega
  | succ fuel ih =>
      intro sent hle
      refine Terminates.loop (writeRest_straight ..).terminates (fun tr sent' h hrely => ?_)
        (fun _ b _ _ => terminates_ret b)
      have := writeRest_advances h hrely
      exact ih sent' (by omega)

/-! ### The result -/

/--
**The relay is exact.**

Whenever `copyloop` is at its head, each side has been sent exactly what was read from
the other.  That still holds when it returns `CLOSED`; when it returns `ERROR` each
side has been sent a prefix.  It does not return `OPEN`, and its write loops end.
-/
theorem copyloop_relays_exactly (fd1 fd2 : Fd) :
    (∀ tr, Iters (copyloopBody fd1 fd2) () tr () → (∀ e ∈ tr, AcceptsSome e) →
      Exact fd1 fd2 tr) ∧
    (∀ tr r, Eval (copyloop fd1 fd2) tr r → (∀ e ∈ tr, AcceptsSome e) →
      r ≠ .opened ∧ (r = .closed → Exact fd1 fd2 tr) ∧ (r = .error → Behind fd1 fd2 tr)) ∧
    (∀ outfd buf, Terminates AcceptsSome (writeAll outfd buf)) := by
  have hnil : Exact fd1 fd2 [] := ⟨rfl, rfl⟩
  refine ⟨fun tr hi hacc => ?_, fun tr r he hacc => ?_, fun outfd buf => ?_⟩
  · have hf := wlp_iters hi (fun _ => Exact fd1 fd2) (ReturnsExact fd1 fd2) hnil
      (fun _ _ he => copyloopBody_spec he)
    simpa using (hf.elim (Spec.history_legal hacc)).2
  · have hf := wlp_eval he (copyloop_start hnil)
    obtain ⟨hne, hb, hc⟩ : ReturnsExact fd1 fd2 r tr := by
      simpa using (hf.elim (Spec.history_legal hacc)).2
    exact ⟨hne, hc, fun _ => hb⟩
  · exact writeRest_terminates outfd buf buf.length 0 (by omega)

/-- The client's octets go out in two pieces. -/
def uploadTurn : Trace sys :=
  [⟨.poll [(4, POLLIN), (7, POLLIN)] IDLE_TIMEOUT, .ready [POLLIN, 0]⟩,
    ⟨.read 4 TCP_COPY_BUFFER_SIZE, .ok [71, 69, 84, 10]⟩,
    ⟨.write 7 [71, 69, 84, 10], .ok 3⟩, ⟨.write 7 [10], .ok 1⟩,
    ⟨.loadPending .uploaded, (0 : Nat)⟩, ⟨.storePending .uploaded 4, ()⟩,
    ⟨.loadPending .uploaded, (4 : Nat)⟩]

/-- The answer comes. -/
def downloadTurn : Trace sys :=
  [⟨.poll [(4, POLLIN), (7, POLLIN)] IDLE_TIMEOUT, .ready [0, POLLIN]⟩,
    ⟨.read 7 TCP_COPY_BUFFER_SIZE, .ok [79, 75]⟩, ⟨.write 4 [79, 75], .ok 2⟩,
    ⟨.loadPending .downloaded, (0 : Nat)⟩, ⟨.storePending .downloaded 2, ()⟩,
    ⟨.loadPending .downloaded, (2 : Nat)⟩]

/-- The client has nothing more to say. -/
def closingTurn : Trace sys :=
  [⟨.poll [(4, POLLIN), (7, POLLIN)] IDLE_TIMEOUT, .ready [POLLIN, 0]⟩,
    ⟨.read 4 TCP_COPY_BUFFER_SIZE, .ok []⟩,
    ⟨.loadPending .downloaded, (2 : Nat)⟩, ⟨.fetchAdd .downloaded 2, ()⟩,
    ⟨.storePending .downloaded 0, ()⟩,
    ⟨.loadPending .uploaded, (4 : Nat)⟩, ⟨.fetchAdd .uploaded 4, ()⟩,
    ⟨.storePending .uploaded 0, ()⟩]

/-- A call of `copyloop` with these turns. -/
def copiedTrace : Trace sys :=
  [⟨.storePending .downloaded 0, ()⟩, ⟨.storePending .uploaded 0, ()⟩] ++
    (uploadTurn ++ downloadTurn ++ closingTurn)

/-- Something goes out in two pieces, something comes back, and the client ends the connection. -/
theorem copyloop_relays_exactly_both :
    (∃ tr, Iters (copyloopBody 4 7) () tr () ∧ writtenTo 7 tr = [71, 69, 84, 10] ∧
      Exact 4 7 tr) ∧
    (∃ tr, Eval (copyloop 4 7) tr .closed ∧ writtenTo 7 tr = [71, 69, 84, 10] ∧
      writtenTo 4 tr = [79, 75] ∧ Exact 4 7 tr) ∧
    Terminates AcceptsSome (writeAll 7 [71, 69, 84, 10]) := by
  have hturns : Iters (copyloopBody 4 7) () (uploadTurn ++ downloadTurn) () :=
    .tail (.single (eval_of_replay 30 uploadTurn rfl)) (eval_of_replay 30 downloadTurn rfl)
  have hcall : Eval (copyloop 4 7) copiedTrace .closed := eval_of_replay 30 copiedTrace rfl
  have haccepted : ∀ e ∈ copiedTrace, AcceptsSome e := by
    simp [copiedTrace, uploadTurn, downloadTurn, closingTurn, AcceptsSome]
  obtain ⟨hheads, hreturns, hends⟩ := copyloop_relays_exactly 4 7
  refine ⟨⟨_, hturns, rfl, hheads _ hturns fun e he => haccepted e ?_⟩,
    ⟨_, hcall, rfl, rfl, (hreturns _ _ hcall haccepted).2.1 rfl⟩, hends _ _⟩
  exact List.mem_append_right _ (List.mem_append_left _ he)

end TwoSocks
