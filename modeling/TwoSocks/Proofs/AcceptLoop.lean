/-
What the accept loop owns.

The ghost state is a ledger of the loop: the threads that have been started and not joined, in
the order they were started; how far the loop has got with the struct it has in hand; and what
became of every client it accepted.  At the head of an iteration nothing is in hand and `threads`
is the first of these.

The ledger knows the loop's side only.  `Tied` ties it to the process: the struct of every thread
that has not been joined is allocated and says whether the thread is done, and a thread that has
been joined has returned.  That a thread closes its client's descriptor before it is done is a
fact about sessions and is taken from there.
-/
import TwoSocks.Program.Cells
import TwoSocks.Server.Accept
import TwoSocks.Proofs.Descriptors

namespace TwoSocks

open Prog Loop Cells

/-! ### The ledger -/

/-- How far the loop has got with a struct. -/
inductive Stage
  | idle
  /-- A thread's flag was read, and is set. -/
  | seen (thread : ThreadPtr)
  | joined (thread : ThreadPtr)
  | fresh (thread : ThreadPtr)
  | cleared (thread : ThreadPtr)
  | accepted (thread : ThreadPtr) (client : Client)
  | ready (thread : ThreadPtr) (client : Client)
  /-- The client was closed again. -/
  | rejected (thread : ThreadPtr) (client : Client)

/-- The client that was accepted and is neither closed nor given to a thread yet. -/
def Stage.pending : Stage → Option Client
  | .accepted _ client | .ready _ client => some client
  | _ => none

/-- The struct that belongs to no thread yet, and what has been written to it. -/
def Stage.made : Stage → Option (ThreadPtr × ThreadStruct)
  | .fresh thread => some (thread, ⟨none, none, none⟩)
  | .cleared thread | .accepted thread _ => some (thread, ⟨some false, none, none⟩)
  | .ready thread client | .rejected thread client =>
      some (thread, ⟨some false, some client, none⟩)
  | _ => none

structure Ledger where
  /-- The structs of the threads that were started and not joined. -/
  live : List ThreadPtr
  stage : Stage
  /-- The clients the loop is done with, and whether a thread was started for them. -/
  fates : List (Client × Bool)

namespace Ledger

def initial : Ledger := ⟨[], .idle, []⟩

def next (g : Ledger) : (o : LoopOp) → o.Ret → Ledger
  | .mallocThread, some thread => { g with stage := .fresh thread }
  | .clearDone thread, _ => { g with stage := .cleared thread }
  | .waitclient, some client =>
      match g.stage with
      | .cleared thread => { g with stage := .accepted thread client }
      | _ => g
  | .storeClient thread client, _ => { g with stage := .ready thread client }
  | .pthreadCreate thread, true =>
      match g.stage with
      | .ready _ client => ⟨g.live ++ [thread], .idle, g.fates ++ [(client, true)]⟩
      | _ => g
  | .close _, _ =>
      match g.stage with
      | .ready thread client => ⟨g.live, .rejected thread client, g.fates ++ [(client, false)]⟩
      | _ => g
  | .free _, _ => { g with stage := .idle }
  | .loadDone thread, true => { g with stage := .seen thread }
  | .pthreadJoin thread, _ => { g with live := g.live.erase thread, stage := .joined thread }
  | _, _ => g

/-- A struct that is handed out is not that of a thread which has not been joined. -/
def rely (g : Ledger) : (o : LoopOp) → o.Ret → Prop
  | .mallocThread, some thread => thread ∉ g.live
  | _, _ => True

/-- Every struct and descriptor is named only at the stage where it may be. -/
def guar (g : Ledger) : LoopOp → Prop
  | .mallocThread => g.stage = .idle
  | .clearDone thread => g.stage = .fresh thread
  | .waitclient => ∃ thread, g.stage = .cleared thread
  | .storeClient thread client => g.stage = .accepted thread client
  | .pthreadCreate thread => ∃ client, g.stage = .ready thread client
  | .close fd => ∃ thread client, g.stage = .ready thread client ∧ fd = client.fd
  | .free thread =>
      g.stage = .cleared thread ∨ (∃ client, g.stage = .rejected thread client) ∨
        g.stage = .joined thread
  | .loadDone thread => g.stage = .idle ∧ thread ∈ g.live
  | .pthreadJoin thread => g.stage = .seen thread ∧ thread ∈ g.live
  | _ => True

def spec : Spec loopSys Ledger where
  rely := rely
  guar := guar
  next := next

end Ledger

/-- The head of an iteration. -/
structure AtHead (threads : Sblist ThreadPtr) (g : Ledger) : Prop where
  idle : g.stage = .idle
  live : threads.items = g.live
  distinct : g.live.Nodup

section Iteration

variable {threads : Sblist ThreadPtr} {g : Ledger}

theorem collect_atHead (h : AtHead threads g) :
    wlp Ledger.spec (collect threads) AtHead g := by
  refine wlp_iterate (fun s g => AtHead s.1 g) h ?_
  rintro ⟨threads, i⟩ g h
  unfold collectBody
  dsimp only
  split
  · rename_i hi
    have hthread : threads.itemFromIndex i = threads.items[i] := List.getD_eq_getElem _ _ hi
    have hmem : threads.items[i] ∈ g.live := h.live ▸ List.getElem_mem hi
    rw [hthread]
    refine ⟨trivial, ⟨h.idle, hmem⟩, fun r _ => ?_⟩
    cases r with
    | false => exact ⟨trivial, h⟩
    | true =>
        refine ⟨trivial, ⟨rfl, hmem⟩, fun _ _ => ⟨trivial, .inr (.inr rfl), fun _ _ => ?_⟩⟩
        refine ⟨trivial, rfl, ?_, h.distinct.erase _⟩
        have hnodup : threads.items.Nodup := h.live ▸ h.distinct
        calc threads.items.eraseIdx i = threads.items.erase threads.items[i] :=
              (hnodup.erase_getElem i hi).symm
          _ = g.live.erase threads.items[i] := congrArg (List.erase · _) h.live
  · exact ⟨trivial, h⟩

/-- `addThread` has put the struct at the end, or has refused. -/
theorem addThread_spec (curr : ThreadPtr) :
    wlp Ledger.spec (addThread threads curr)
      (fun r g' => g = g' ∧ ∀ added ∈ r, added.items = threads.items ++ [curr]) g := by
  unfold addThread
  split
  · refine ⟨trivial, trivial, fun r _ => ?_⟩
    cases r with
    | true => exact ⟨trivial, rfl, by simp⟩
    | false => exact ⟨trivial, rfl, by simp⟩
  · exact ⟨trivial, rfl, by simp⟩

theorem eraseIdx_last (items : List ThreadPtr) (curr : ThreadPtr) :
    (items ++ [curr]).eraseIdx ((items ++ [curr]).length - 1) = items := by
  rw [List.length_append, List.length_singleton, Nat.add_sub_cancel,
    List.eraseIdx_append_of_length_le (le_refl _), Nat.sub_self, List.eraseIdx_cons_zero,
    List.append_nil]

variable {curr : ThreadPtr} {c : Client}

theorem createFailed_atHead (hitems : threads.items = g.live ++ [curr])
    (hstage : g.stage = .ready curr c) (hdistinct : g.live.Nodup) :
    wlp Ledger.spec (createFailed threads curr c) AtHead g := by
  obtain ⟨live, stage, fates⟩ := g
  obtain rfl := hstage
  refine ⟨trivial, ⟨curr, c, rfl, rfl⟩, fun _ _ => ⟨trivial, .inr (.inl ⟨_, rfl⟩), fun _ _ =>
    ⟨trivial, trivial, fun _ _ => ⟨trivial, rfl, ?_, hdistinct⟩⟩⟩⟩
  show threads.items.eraseIdx (threads.items.length - 1) = live
  rw [hitems, eraseIdx_last]

/-- Whether or not there is a thread now, what follows starts as at the head. -/
theorem created_atHead {k : Sblist ThreadPtr → Loop (Sblist ThreadPtr)}
    (hitems : threads.items = g.live ++ [curr]) (hstage : g.stage = .ready curr c)
    (hdistinct : (g.live ++ [curr]).Nodup)
    (hk : ∀ {threads g}, AtHead threads g → wlp Ledger.spec (k threads) AtHead g) :
    wlp Ledger.spec (do
      let created ← pthreadCreate curr
      let threads ← if created then pure threads else createFailed threads curr c
      k threads) AtHead g := by
  refine ⟨trivial, ⟨c, hstage⟩, fun r _ => ?_⟩
  cases r with
  | true =>
      obtain ⟨live, stage, fates⟩ := g
      obtain rfl := hstage
      exact hk ⟨rfl, hitems, hdistinct⟩
  | false =>
      refine (wlp_bind (createFailed threads curr c)).mpr (wlp_mono _ (fun _ _ => hk) ?_)
      exact createFailed_atHead hitems hstage hdistinct.of_append_left

theorem startThread_atHead (hitems : threads.items = g.live ++ [curr])
    (hstage : g.stage = .ready curr c) (hdistinct : (g.live ++ [curr]).Nodup) :
    wlp Ledger.spec (startThread threads curr c) AtHead g := by
  refine ⟨trivial, trivial, fun a _ => ?_⟩
  cases a with
  | true =>
      refine ⟨trivial, trivial, fun _ _ => created_atHead hitems hstage hdistinct fun h => ?_⟩
      exact ⟨trivial, trivial, fun _ _ => ⟨trivial, h⟩⟩
  | false => exact created_atHead hitems hstage hdistinct fun h => ⟨trivial, h⟩

theorem socksMainBody_atHead (h : AtHead threads g) :
    wlp Ledger.spec (socksMainBody threads) AtHead g := by
  refine (wlp_bind _).mpr (wlp_mono _ (fun threads g h => ?_) (collect_atHead h))
  refine ⟨trivial, h.idle, fun r hr => ?_⟩
  cases r with
  | none => exact ⟨trivial, trivial, fun _ _ => ⟨trivial, h⟩⟩
  | some curr =>
      refine ⟨trivial, rfl, fun _ _ => ⟨trivial, ⟨curr, rfl⟩, fun r _ => ?_⟩⟩
      cases r with
      | none =>
          exact ⟨trivial, .inl rfl, fun _ _ => ⟨trivial, trivial, fun _ _ =>
            ⟨trivial, rfl, h.live, h.distinct⟩⟩⟩
      | some c =>
          refine ⟨trivial, rfl, fun _ _ => ?_⟩
          refine (wlp_bind (addThread threads curr)).mpr (wlp_mono _ ?_ (addThread_spec curr))
          rintro added _ ⟨rfl, hadded⟩
          cases added with
          | none =>
              exact ⟨trivial, ⟨curr, c, rfl, rfl⟩, fun _ _ =>
                ⟨trivial, .inr (.inl ⟨_, rfl⟩), fun _ _ =>
                ⟨trivial, trivial, fun _ _ => ⟨trivial, rfl, h.live, h.distinct⟩⟩⟩⟩
          | some threads' =>
              have hitems : threads'.items = g.live ++ [curr] := by rw [hadded _ rfl, h.live]
              have hdistinct : (g.live ++ [curr]).Nodup :=
                List.concat_eq_append ▸ h.distinct.concat hr
              exact startThread_atHead hitems rfl hdistinct

end Iteration

/-! ### What became of every client -/

/-- The client an event accepts. -/
def Accepts : Event loopSys → Option Client
  | ⟨.waitclient, client⟩ => client
  | _ => none

/-- The descriptor an event closes. -/
def LoopCloses : Event loopSys → Option Fd
  | ⟨.close fd, _⟩ => some fd
  | _ => none

/-- The clients that were accepted, in order. -/
def acceptedClients (past : Trace loopSys) : List Client := past.filterMap Accepts

/-- The descriptors the loop itself closed, in order. -/
def closedByLoop (past : Trace loopSys) : List Fd := past.filterMap LoopCloses

/-- The clients with one fate, in order. -/
def Ledger.clients (g : Ledger) (given : Bool) : List Client :=
  (g.fates.filter (·.2 = given)).map Prod.fst

/-- The ledger has the clients that were accepted, and those that the loop closed. -/
structure Recorded (past : Trace loopSys) (g : Ledger) : Prop where
  accepted : acceptedClients past = g.fates.map Prod.fst ++ g.stage.pending.toList
  closed : closedByLoop past = (g.clients false).map (·.fd)

section Recorded

variable {past : Trace loopSys} {g : Ledger}

theorem acceptedClients_concat (e : Event loopSys) :
    acceptedClients (past ++ [e]) = acceptedClients past ++ (Accepts e).toList := by
  unfold acceptedClients
  rw [List.filterMap_append]
  cases h : Accepts e <;> simp [h]

theorem closedByLoop_concat (e : Event loopSys) :
    closedByLoop (past ++ [e]) = closedByLoop past ++ (LoopCloses e).toList := by
  unfold closedByLoop
  rw [List.filterMap_append]
  cases h : LoopCloses e <;> simp [h]

/-- Most operations have nothing to do with a client. -/
theorem Recorded.quiet (h : Recorded past g) {e : Event loopSys} {g' : Ledger}
    (ha : Accepts e = none) (hc : LoopCloses e = none) (hf : g'.fates = g.fates)
    (hp : g'.stage.pending = g.stage.pending) : Recorded (past ++ [e]) g' where
  accepted := by
    rw [acceptedClients_concat, ha, hf, hp, h.accepted]
    simp
  closed := by
    unfold Ledger.clients
    rw [closedByLoop_concat, hc, hf, h.closed]
    simp [Ledger.clients]

theorem Recorded.concat (h : Recorded past g) {o : LoopOp} (r : o.Ret) (hg : g.guar o) :
    Recorded (past ++ [⟨o, r⟩]) (g.next o r) := by
  obtain ⟨live, stage, fates⟩ := g
  cases o with
  | mallocThread =>
      obtain rfl : stage = .idle := hg
      cases r with
      | none => exact h.quiet rfl rfl rfl rfl
      | some thread => exact h.quiet rfl rfl rfl rfl
  | free thread =>
      obtain rfl | ⟨client, rfl⟩ | rfl := hg
      · exact h.quiet rfl rfl rfl rfl
      · exact h.quiet rfl rfl rfl rfl
      · exact h.quiet rfl rfl rfl rfl
  | clearDone thread =>
      obtain rfl : stage = .fresh thread := hg
      exact h.quiet rfl rfl rfl rfl
  | loadDone thread =>
      obtain rfl : stage = .idle := hg.1
      cases r with
      | false => exact h.quiet rfl rfl rfl rfl
      | true => exact h.quiet rfl rfl rfl rfl
  | storeClient thread client =>
      obtain rfl : stage = .accepted thread client := hg
      exact h.quiet rfl rfl rfl rfl
  | waitclient =>
      obtain ⟨thread, rfl⟩ := hg
      cases r with
      | none => exact h.quiet rfl rfl rfl rfl
      | some client =>
          refine ⟨?_, ?_⟩
          · rw [acceptedClients_concat, h.accepted]
            simp [Accepts, Ledger.next, Stage.pending]
          · rw [closedByLoop_concat, h.closed]
            simp [LoopCloses, Ledger.next, Ledger.clients]
  | close fd =>
      obtain ⟨thread, client, rfl, rfl⟩ := hg
      refine ⟨?_, ?_⟩
      · rw [acceptedClients_concat, h.accepted]
        simp [Accepts, Ledger.next, Stage.pending]
      · rw [closedByLoop_concat, h.closed]
        simp [LoopCloses, Ledger.next, Ledger.clients]
  | pthreadCreate thread =>
      obtain ⟨client, rfl⟩ := hg
      cases r with
      | false => exact h.quiet rfl rfl rfl rfl
      | true =>
          refine ⟨?_, ?_⟩
          · rw [acceptedClients_concat, h.accepted]
            simp [Accepts, Ledger.next, Stage.pending]
          · rw [closedByLoop_concat, h.closed]
            simp [LoopCloses, Ledger.next, Ledger.clients]
  | pthreadJoin thread =>
      obtain rfl : stage = .seen thread := hg.1
      exact h.quiet rfl rfl rfl rfl
  | realloc items => exact h.quiet rfl rfl rfl rfl
  | usleep usec => exact h.quiet rfl rfl rfl rfl
  | pthreadAttrInit => exact h.quiet rfl rfl rfl rfl
  | pthreadAttrSetstacksize size => exact h.quiet rfl rfl rfl rfl
  | pthreadAttrDestroy => exact h.quiet rfl rfl rfl rfl

end Recorded

/-! ### The loop and the process -/

/-- The thread has said that it is done. -/
def Worker.finished (w : Worker) : Bool := w.past.any fun e => e.op = .storeDone

/-- The thread has been joined, after it said that it is done and returned. -/
structure Worker.Ended (w : Worker) : Prop where
  once : w.joins = 1
  returned : w.prog = .ret ()
  finished : w.finished = true

/-- The structs of the threads that were started and not joined, in the order they were
started. -/
def unjoined (workers : List Worker) : List ThreadPtr :=
  (workers.filter fun w => w.joins = 0).map (·.self)

/-- The ledger is right about the process. -/
structure Tied (d : Daemon) (g : Ledger) : Prop where
  live : g.live = unjoined d.workers
  /-- Until it is freed, a thread's struct is allocated and knows whether the thread is done. -/
  struct : ∀ k w, d.workers[k]? = some w → w.frees = 0 →
    ∃ client, d.heap w.self = some ⟨some w.finished, client, some k⟩
  running : ∀ w ∈ d.workers, w.joins = 0 → w.frees = 0
  ended : ∀ w ∈ d.workers, w.joins ≠ 0 → w.Ended ∧
    (w.frees = 1 ∨ w.frees = 0 ∧ g.stage = .joined w.self)
  seen : ∀ thread, g.stage = .seen thread → (d.heap thread).bind (·.done) = some true
  joined : ∀ thread, g.stage = .joined thread →
    ∃ w ∈ d.workers, w.self = thread ∧ w.joins = 1 ∧ w.frees = 0
  made : ∀ thread s, g.stage.made = some (thread, s) → d.heap thread = some s
  /-- Nothing else is allocated. -/
  allocated : ∀ thread, d.heap thread ≠ none →
    (∃ w ∈ d.workers, w.self = thread ∧ w.frees = 0) ∨ ∃ s, g.stage.made = some (thread, s)
  given : d.workers.map (·.client) = g.clients true

theorem Stage.made_pt {stage : Stage} {thread : ThreadPtr} {s : ThreadStruct}
    (h : stage.made = some (thread, s)) : s.pt = none := by
  cases stage <;> simp only [Stage.made, Option.some.injEq, Prod.mk.injEq, reduceCtorEq] at h <;>
    exact h.2 ▸ rfl

section Workers

variable {workers : List Worker} {k : Nat} {w : Worker} {f : Worker → Worker}

/-- One thread changes, but neither its struct nor whether it was joined. -/
theorem unjoined_modify (hw : workers[k]? = some w) (hself : (f w).self = w.self)
    (hjoins : (f w).joins = w.joins) : unjoined (workers.modify k f) = unjoined workers := by
  induction workers generalizing k with
  | nil => simp at hw
  | cons v workers ih =>
      cases k with
      | zero =>
          obtain rfl : v = w := by simpa using hw
          simp only [List.modify_zero_cons, unjoined, List.filter_cons, hjoins]
          split <;> simp [hself]
      | succ k =>
          have := ih (k := k) (by simpa using hw)
          simp only [unjoined] at this
          simp only [List.modify_succ_cons, unjoined, List.filter_cons]
          split <;> simp [this]

/-- The only thread with that struct is joined. -/
theorem unjoined_join (hw : workers[k]? = some w) (hself : (f w).self = w.self)
    (hbefore : w.joins = 0) (hafter : (f w).joins ≠ 0)
    (hone : ∀ j v, workers[j]? = some v → v.joins = 0 → v.self = w.self → j = k) :
    unjoined (workers.modify k f) = (unjoined workers).erase w.self := by
  induction workers generalizing k with
  | nil => simp at hw
  | cons v workers ih =>
      cases k with
      | zero =>
          obtain rfl : v = w := by simpa using hw
          simp [unjoined, hbefore, hafter]
      | succ k =>
          have htail := ih (k := k) (by simpa using hw) fun j v hv hj he => by
            simpa using hone (j + 1) v (by simpa using hv) hj he
          simp only [unjoined] at htail
          simp only [List.modify_succ_cons, unjoined, List.filter_cons]
          split
          · rename_i hv
            have hne : v.self ≠ w.self := fun he => by
              simpa using hone 0 v (by simp) (by simpa using hv) he
            rw [List.map_cons, List.map_cons, List.erase_cons_tail (by simpa using hne), htail]
          · exact htail

theorem clients_modify (hw : workers[k]? = some w) (hclient : (f w).client = w.client) :
    (workers.modify k f).map (·.client) = workers.map (·.client) := by
  apply List.ext_getElem?
  intro j
  rw [List.getElem?_map, List.getElem?_map, List.getElem?_modify]
  split
  · rename_i hj
    rw [← hj, hw]
    simp [hclient]
  · simp

end Workers

section Tied

variable {d : Daemon} {g : Ledger}

/-- What the loop and the threads have left to do makes no difference. -/
theorem Tied.anyMain (h : Tied d g) (main : Loop (Sblist ThreadPtr)) (past : Trace loopSys) :
    Tied { d with main := main, past := past } g :=
  ⟨h.live, h.struct, h.running, h.ended, h.seen, h.joined, h.made, h.allocated, h.given⟩

/-- Two threads whose structs are not freed have different structs. -/
theorem Tied.distinct (h : Tied d g) {j k : Nat} {v w : Worker} (hv : d.workers[j]? = some v)
    (hw : d.workers[k]? = some w) (hv' : v.frees = 0) (hw' : w.frees = 0)
    (he : v.self = w.self) : j = k := by
  obtain ⟨_, hj⟩ := h.struct j v hv hv'
  obtain ⟨_, hk⟩ := h.struct k w hw hw'
  rw [he, hk] at hj
  injection hj with hj
  injection hj with _ _ hj
  injection hj with hj
  exact hj.symm

/-- A struct in the making is no thread's. -/
theorem Tied.made_fresh (h : Tied d g) {thread : ThreadPtr} {s : ThreadStruct}
    (hs : g.stage.made = some (thread, s)) {w : Worker} (hw : w ∈ d.workers) (hf : w.frees = 0) :
    w.self ≠ thread := by
  rintro rfl
  obtain ⟨k, hk⟩ := List.getElem?_of_mem hw
  obtain ⟨_, hheap⟩ := h.struct k w hk hf
  rw [h.made _ _ hs] at hheap
  injection hheap with hheap
  have hpt := Stage.made_pt hs
  rw [hheap] at hpt
  cases hpt

/-- A struct that is not allocated is no thread's. -/
theorem Tied.none_fresh (h : Tied d g) {thread : ThreadPtr} (hn : d.heap thread = none)
    {w : Worker} (hw : w ∈ d.workers) (hf : w.frees = 0) : w.self ≠ thread := by
  rintro rfl
  obtain ⟨k, hk⟩ := List.getElem?_of_mem hw
  obtain ⟨_, hheap⟩ := h.struct k w hk hf
  rw [hn] at hheap
  cases hheap

theorem Tied.mem_live (h : Tied d g) {thread : ThreadPtr} : thread ∈ g.live ↔
    ∃ w ∈ d.workers, w.joins = 0 ∧ w.self = thread := by
  rw [h.live]
  simp [unjoined, and_assoc]

/-- Whoever was joined has had its struct freed, unless that is in hand. -/
theorem Tied.freed (h : Tied d g) (hstage : ∀ thread, g.stage ≠ .joined thread) :
    ∀ w ∈ d.workers, w.joins ≠ 0 → w.Ended ∧ w.frees = 1 := by
  intro w hw hj
  obtain ⟨hended, hf | ⟨_, hf⟩⟩ := h.ended w hw hj
  · exact ⟨hended, hf⟩
  · exact absurd hf (hstage _)

/-- The struct in hand is written to. -/
theorem Tied.write (h : Tied d g) {thread : ThreadPtr} {s : ThreadStruct} {stage : Stage}
    (hothers : ∀ w ∈ d.workers, w.frees = 0 → w.self ≠ thread)
    (hjoined : ∀ p, g.stage ≠ .joined p)
    (hold : ∀ p s', g.stage.made = some (p, s') → p = thread)
    (hnew : stage.made = some (thread, s)) :
    Tied { d with heap := Function.update d.heap thread (some s) } { g with stage := stage } where
  live := h.live
  struct k w hw hf := by
    obtain ⟨client, hheap⟩ := h.struct k w hw hf
    refine ⟨client, ?_⟩
    dsimp only
    rw [Function.update_of_ne (hothers w (List.mem_of_getElem? hw) hf)]
    exact hheap
  running := h.running
  ended w hw hj := ⟨(h.freed hjoined w hw hj).1, .inl (h.freed hjoined w hw hj).2⟩
  seen p hp := by
    obtain rfl : stage = _ := hp
    cases hnew
  joined p hp := by
    obtain rfl : stage = _ := hp
    cases hnew
  made p s' hp := by
    obtain ⟨rfl, rfl⟩ : thread = p ∧ s = s' := by simpa [hnew] using hp
    exact Function.update_self ..
  allocated p hp := by
    by_cases he : p = thread
    · exact .inr ⟨s, he ▸ hnew⟩
    · dsimp only at hp
      rw [Function.update_of_ne he] at hp
      obtain hw | ⟨s', hs'⟩ := h.allocated p hp
      · exact .inl hw
      · exact absurd (hold p s' hs') he
  given := h.given

/-- Nothing is written, and what the loop has in hand is as before. -/
theorem Tied.keep (h : Tied d g) {stage : Stage} {fates : List (Client × Bool)}
    (hjoined : ∀ p, g.stage ≠ .joined p) (hstage : stage.made = g.stage.made)
    (hjoined' : ∀ p, stage ≠ .joined p)
    (hseen : ∀ p, stage = .seen p → (d.heap p).bind (·.done) = some true)
    (hgiven : d.workers.map (·.client) = (Ledger.mk g.live stage fates).clients true) :
    Tied d ⟨g.live, stage, fates⟩ where
  live := h.live
  struct := h.struct
  running := h.running
  ended w hw hj := ⟨(h.freed hjoined w hw hj).1, .inl (h.freed hjoined w hw hj).2⟩
  seen := hseen
  joined p hp := absurd hp (hjoined' p)
  made p s hp := h.made p s (hstage ▸ hp)
  allocated p hp := by
    dsimp only
    rw [hstage]
    exact h.allocated p hp
  given := hgiven

/-- The struct in hand is given up before there was a thread. -/
theorem Tied.giveUp (h : Tied d g) {thread : ThreadPtr} {s : ThreadStruct}
    (hs : g.stage.made = some (thread, s)) (hjoined : ∀ p, g.stage ≠ .joined p) :
    Tied { d with heap := Function.update d.heap thread none } { g with stage := .idle } where
  live := h.live
  struct k w hw hf := by
    obtain ⟨client, hheap⟩ := h.struct k w hw hf
    refine ⟨client, ?_⟩
    dsimp only
    rw [Function.update_of_ne (h.made_fresh hs (List.mem_of_getElem? hw) hf)]
    exact hheap
  running := h.running
  ended w hw hj := ⟨(h.freed hjoined w hw hj).1, .inl (h.freed hjoined w hw hj).2⟩
  seen p hp := by cases hp
  joined p hp := by cases hp
  made p s' hp := by cases hp
  allocated p hp := by
    dsimp only at hp
    have he : p ≠ thread := by
      rintro rfl
      exact hp (Function.update_self ..)
    rw [Function.update_of_ne he] at hp
    obtain hw | ⟨s', hs'⟩ := h.allocated p hp
    · exact .inl hw
    · rw [hs] at hs'
      injection hs' with hs'
      exact absurd (congrArg Prod.fst hs').symm he
  given := h.given

/-- A thread is started with the struct in hand. -/
theorem Tied.create (h : Tied d g) {thread : ThreadPtr} {client : Client} (prog : Server Unit)
    (hstage : g.stage = .ready thread client) :
    Tied { d with
        heap := Function.update d.heap thread
          (some ⟨some false, some client, some d.workers.length⟩)
        workers := d.workers ++ [⟨thread, client, prog, [], 0, 0⟩] }
      ⟨g.live ++ [thread], .idle, g.fates ++ [(client, true)]⟩ := by
  have hmade : g.stage.made = some (thread, ⟨some false, some client, none⟩) := by
    rw [hstage]
    rfl
  have hjoined : ∀ p, g.stage ≠ .joined p := by simp [hstage]
  refine ⟨?_, ?_, ?_, ?_, ?_, ?_, ?_, ?_, ?_⟩
  · simp [h.live, unjoined]
  · intro k w hw hf
    rw [List.getElem?_append] at hw
    split at hw
    · obtain ⟨client', hheap⟩ := h.struct k w hw hf
      refine ⟨client', ?_⟩
      dsimp only
      rw [Function.update_of_ne (h.made_fresh hmade (List.mem_of_getElem? hw) hf)]
      exact hheap
    · rename_i hk
      obtain ⟨hk', rfl⟩ := List.getElem?_eq_some_iff.mp hw
      obtain rfl : k = d.workers.length := by
        simp at hk'
        omega
      exact ⟨some client, by simp [Worker.finished]⟩
  · intro w hw hj
    rcases List.mem_append.mp hw with hw | hw
    · exact h.running w hw hj
    · rw [List.mem_singleton.mp hw]
  · intro w hw hj
    rcases List.mem_append.mp hw with hw | hw
    · exact ⟨(h.freed hjoined w hw hj).1, .inl (h.freed hjoined w hw hj).2⟩
    · rw [List.mem_singleton.mp hw] at hj
      exact absurd rfl hj
  · intro p hp
    cases hp
  · intro p hp
    cases hp
  · intro p s hp
    cases hp
  · intro p hp
    left
    by_cases he : p = thread
    · exact ⟨_, List.mem_append_right _ (List.mem_singleton_self _), he.symm, rfl⟩
    · dsimp only at hp
      rw [Function.update_of_ne he] at hp
      obtain ⟨w, hw, hself⟩ | ⟨s', hs'⟩ := h.allocated p hp
      · exact ⟨w, List.mem_append_left _ hw, hself⟩
      · rw [hmade] at hs'
        injection hs' with hs'
        exact absurd (congrArg Prod.fst hs').symm he
  · simp [Ledger.clients, h.given]

/-- A thread that was seen to be done is joined. -/
theorem Tied.join (h : Tied d g) {k : Nat} {w : Worker} (hstage : g.stage = .seen w.self)
    (hw : d.workers[k]? = some w) (hj : w.joins = 0) (hreturned : w.prog = .ret ()) :
    Tied { d with workers := d.workers.modify k fun w => { w with joins := w.joins + 1 } }
      { g with live := g.live.erase w.self, stage := .joined w.self } := by
  have hmem : w ∈ d.workers := List.mem_of_getElem? hw
  have hf : w.frees = 0 := h.running w hmem hj
  have hfinished : w.finished = true := by
    obtain ⟨client, hheap⟩ := h.struct k w hw hf
    have hseen := h.seen _ hstage
    rw [hheap] at hseen
    simpa using hseen
  have hjoined : ∀ p, g.stage ≠ .joined p := by simp [hstage]
  have hmade : g.stage.made = none := by rw [hstage]; rfl
  refine ⟨?_, ?_, ?_, ?_, ?_, ?_, ?_, ?_, ?_⟩
  · dsimp only
    rw [h.live]
    refine (unjoined_join hw rfl hj (by simp [hj]) fun j v hv hvj he => ?_).symm
    exact h.distinct hv hw (h.running v (List.mem_of_getElem? hv) hvj) hf he
  · intro j v hv hvf
    obtain ⟨rfl, rfl⟩ | ⟨_, hv⟩ := (getElem?_modify_iff hw).mp hv
    · exact h.struct j w hw hf
    · exact h.struct j v hv hvf
  · intro v hv hvj
    obtain rfl | ⟨j, _, hv⟩ := (mem_modify_iff hw).mp hv
    · exact hf
    · exact h.running v (List.mem_of_getElem? hv) hvj
  · intro v hv hvj
    obtain rfl | ⟨j, _, hv⟩ := (mem_modify_iff hw).mp hv
    · exact ⟨⟨by simp [hj], hreturned, hfinished⟩, .inr ⟨hf, rfl⟩⟩
    · have := h.freed hjoined v (List.mem_of_getElem? hv) hvj
      exact ⟨this.1, .inl this.2⟩
  · intro p hp
    cases hp
  · intro p hp
    injection hp with hp
    exact ⟨_, (mem_modify_iff hw).mpr (.inl rfl), hp, by simp [hj], hf⟩
  · intro p s hp
    cases hp
  · intro p hp
    obtain ⟨v, hv, hself, hvf⟩ | ⟨s', hs'⟩ := h.allocated p hp
    · obtain ⟨j, hv⟩ := List.getElem?_of_mem hv
      left
      by_cases hjk : j = k
      · subst hjk
        obtain rfl : v = w := by simpa [hv] using hw
        exact ⟨_, (mem_modify_iff hw).mpr (.inl rfl), hself, hvf⟩
      · exact ⟨v, (mem_modify_iff hw).mpr (.inr ⟨j, hjk, hv⟩), hself, hvf⟩
    · rw [hmade] at hs'
      cases hs'
  · exact (clients_modify hw rfl).trans h.given

/-- The struct of the thread that was just joined is freed. -/
theorem Tied.freeJoined (h : Tied d g) {k : Nat} {w : Worker} (hstage : g.stage = .joined w.self)
    (hw : d.workers[k]? = some w) (hj : w.joins = 1) (hf : w.frees = 0) :
    Tied { d with
        heap := Function.update d.heap w.self none
        workers := d.workers.modify k fun w => { w with frees := w.frees + 1 } }
      { g with stage := .idle } := by
  have hothers : ∀ {j v}, j ≠ k → d.workers[j]? = some v → v.frees = 0 → v.self ≠ w.self :=
    fun hjk hv hvf he => hjk (h.distinct hv hw hvf hf he)
  refine ⟨?_, ?_, ?_, ?_, ?_, ?_, ?_, ?_, ?_⟩
  · exact h.live.trans (unjoined_modify hw rfl rfl).symm
  · intro j v hv hvf
    obtain ⟨rfl, rfl⟩ | ⟨hjk, hv⟩ := (getElem?_modify_iff hw).mp hv
    · simp at hvf
    · obtain ⟨client, hheap⟩ := h.struct j v hv hvf
      refine ⟨client, ?_⟩
      dsimp only
      rw [Function.update_of_ne (hothers hjk hv hvf)]
      exact hheap
  · intro v hv hvj
    obtain rfl | ⟨j, _, hv⟩ := (mem_modify_iff hw).mp hv
    · simp [hj] at hvj
    · exact h.running v (List.mem_of_getElem? hv) hvj
  · intro v hv hvj
    obtain rfl | ⟨j, hjk, hv⟩ := (mem_modify_iff hw).mp hv
    · obtain ⟨⟨_, hreturned, hfinished⟩, _⟩ := h.ended w (List.mem_of_getElem? hw) (by simp [hj])
      exact ⟨⟨hj, hreturned, hfinished⟩, .inl (by simp [hf])⟩
    · obtain ⟨hended, hvf | ⟨hvf, he⟩⟩ := h.ended v (List.mem_of_getElem? hv) hvj
      · exact ⟨hended, .inl hvf⟩
      · rw [hstage] at he
        injection he with he
        exact absurd he.symm (hothers hjk hv hvf)
  · intro p hp
    cases hp
  · intro p hp
    cases hp
  · intro p s hp
    cases hp
  · intro p hp
    dsimp only at hp
    have hne : p ≠ w.self := by
      rintro rfl
      exact hp (Function.update_self ..)
    rw [Function.update_of_ne hne] at hp
    obtain ⟨v, hv, hself, hvf⟩ | ⟨s', hs'⟩ := h.allocated p hp
    · obtain ⟨j, hv⟩ := List.getElem?_of_mem hv
      have hjk : j ≠ k := by
        rintro rfl
        obtain rfl : v = w := by simpa [hv] using hw
        exact hne hself.symm
      exact .inl ⟨v, (mem_modify_iff hw).mpr (.inr ⟨j, hjk, hv⟩), hself, hvf⟩
    · rw [hstage] at hs'
      cases hs'
  · exact (clients_modify hw rfl).trans h.given

theorem finish_other {thread p : ThreadPtr} (tr : Trace sys) (hp : p ≠ thread) :
    (d.finish thread tr).heap p = d.heap p := by
  unfold Daemon.finish
  split
  · exact Function.update_of_ne hp _ _
  · rfl

theorem finish_self {thread : ThreadPtr} {finished : Bool} {client : Option Client}
    {pt : Option Nat} (tr : Trace sys) (hheap : d.heap thread = some ⟨some finished, client, pt⟩) :
    (d.finish thread tr).heap thread =
      some ⟨some (finished || tr.any fun e => e.op = .storeDone), client, pt⟩ := by
  unfold Daemon.finish
  split
  · rename_i hdone
    simp [Daemon.modify, hheap, hdone]
  · rename_i hdone
    rw [hheap, Bool.eq_false_of_not_eq_true hdone, Bool.or_false]

/-- A thread goes on. -/
theorem Tied.thread (h : Tied d g) {k : Nat} {w : Worker} (hw : d.workers[k]? = some w)
    (hj : w.joins = 0) (prog : Server Unit) (tr : Trace sys) :
    Tied { d.finish w.self tr with
        workers := d.workers.set k { w with prog := prog, past := w.past ++ tr } } g := by
  have hmem : w ∈ d.workers := List.mem_of_getElem? hw
  have hf : w.frees = 0 := h.running w hmem hj
  obtain ⟨client, hheap⟩ := h.struct k w hw hf
  rw [List.set_eq_modify]
  refine ⟨?_, ?_, ?_, ?_, ?_, ?_, ?_, ?_, ?_⟩
  · exact h.live.trans (unjoined_modify hw rfl rfl).symm
  · intro j v hv hvf
    obtain ⟨rfl, rfl⟩ | ⟨hjk, hv⟩ := (getElem?_modify_iff hw).mp hv
    · refine ⟨client, ?_⟩
      dsimp only [Worker.finished]
      rw [List.any_append]
      exact finish_self tr hheap
    · obtain ⟨client', hheap'⟩ := h.struct j v hv hvf
      exact ⟨client', (finish_other tr fun he => hjk (h.distinct hv hw hvf hf he)).trans hheap'⟩
  · intro v hv hvj
    obtain rfl | ⟨j, _, hv⟩ := (mem_modify_iff hw).mp hv
    · exact hf
    · exact h.running v (List.mem_of_getElem? hv) hvj
  · intro v hv hvj
    obtain rfl | ⟨j, _, hv⟩ := (mem_modify_iff hw).mp hv
    · exact absurd hj hvj
    · exact h.ended v (List.mem_of_getElem? hv) hvj
  · intro p hp
    have hseen := h.seen p hp
    by_cases he : p = w.self
    · subst he
      rw [hheap] at hseen
      obtain hfinished : w.finished = true := by simpa using hseen
      dsimp only
      rw [finish_self tr hheap, hfinished]
      rfl
    · dsimp only
      rw [finish_other tr he]
      exact hseen
  · intro p hp
    obtain ⟨v, hv, hself, hvj, hvf⟩ := h.joined p hp
    obtain ⟨j, hv⟩ := List.getElem?_of_mem hv
    have hjk : j ≠ k := by
      rintro rfl
      obtain rfl : v = w := by simpa [hv] using hw
      simp [hj] at hvj
    exact ⟨v, (mem_modify_iff hw).mpr (.inr ⟨j, hjk, hv⟩), hself, hvj, hvf⟩
  · intro p s hp
    exact (finish_other tr (h.made_fresh hp hmem hf).symm).trans (h.made p s hp)
  · intro p hp
    by_cases he : p = w.self
    · exact .inl ⟨_, (mem_modify_iff hw).mpr (.inl rfl), he.symm, hf⟩
    · obtain ⟨v, hv, hself, hvf⟩ | hs := h.allocated p (finish_other tr he ▸ hp)
      · obtain ⟨j, hv⟩ := List.getElem?_of_mem hv
        have hjk : j ≠ k := by
          rintro rfl
          obtain rfl : v = w := by simpa [hv] using hw
          exact he hself.symm
        exact .inl ⟨v, (mem_modify_iff hw).mpr (.inr ⟨j, hjk, hv⟩), hself, hvf⟩
      · exact .inr hs
  · exact (clients_modify hw rfl).trans h.given

/-- The struct of a thread that has not been joined. -/
theorem Tied.live_struct (h : Tied d g) {thread : ThreadPtr} (hp : thread ∈ g.live) :
    ∃ k w client, d.workers[k]? = some w ∧ w.self = thread ∧ w.joins = 0 ∧
      d.heap thread = some ⟨some w.finished, client, some k⟩ := by
  obtain ⟨w, hmem, hj, rfl⟩ := h.mem_live.mp hp
  obtain ⟨k, hw⟩ := List.getElem?_of_mem hmem
  obtain ⟨client, hheap⟩ := h.struct k w hw (h.running w hmem hj)
  exact ⟨k, w, client, hw, rfl, hj, hheap⟩

/-- What the ledger relies on is so. -/
theorem Tied.rely (h : Tied d g) {o : LoopOp} {r : o.Ret} (hc : d.can o r) : g.rely o r := by
  cases o with
  | mallocThread =>
      cases r with
      | none => trivial
      | some thread =>
          intro hp
          obtain ⟨k, w, client, _, _, _, hheap⟩ := h.live_struct hp
          rw [show d.heap thread = none from hc] at hheap
          cases hheap
  | _ => trivial

theorem Tied.mallocThread (h : Tied d g) {thread : ThreadPtr} (hg : g.stage = .idle)
    (hc : d.heap thread = none) :
    Tied { d with heap := Function.update d.heap thread (some ⟨none, none, none⟩) }
      { g with stage := .fresh thread } :=
  h.write (fun _ hw hf => h.none_fresh hc hw hf) (by simp [hg]) (by simp [hg, Stage.made]) rfl

/-- A field of the struct in hand is set. -/
theorem Tied.modify (h : Tied d g) {thread : ThreadPtr} {s : ThreadStruct} {stage : Stage}
    (hold : g.stage.made = some (thread, s)) (hjoined : ∀ p, g.stage ≠ .joined p)
    (f : ThreadStruct → ThreadStruct) (hnew : stage.made = some (thread, f s)) :
    Tied (d.modify thread f) { g with stage := stage } := by
  unfold Daemon.modify
  rw [h.made _ _ hold]
  refine h.write (fun _ hw hf => h.made_fresh hold hw hf) hjoined (fun p s' hs' => ?_) hnew
  rw [hold] at hs'
  injection hs' with hs'
  exact (congrArg Prod.fst hs').symm

/-- **One operation of the loop.** -/
theorem Tied.after (h : Tied d g) {inet : Inet} {cfg : Config} {o : LoopOp} {r : o.Ret}
    (hg : g.guar o) (hc : d.can o r) : Tied (d.after inet cfg o r) (g.next o r) := by
  cases o with
  | mallocThread =>
      cases r with
      | none => exact h
      | some thread => exact h.mallocThread hg hc
  | free thread =>
      obtain hs | ⟨client, hs⟩ | hs := hg
      · have hmade : g.stage.made = some (thread, ⟨some false, none, none⟩) := by rw [hs]; rfl
        have hworker : d.worker? thread = none := by simp [Daemon.worker?, h.made _ _ hmade]
        simp only [Daemon.after, hworker]
        exact h.giveUp hmade (by simp [hs])
      · have hmade : g.stage.made = some (thread, ⟨some false, some client, none⟩) := by
          rw [hs]
          rfl
        have hworker : d.worker? thread = none := by simp [Daemon.worker?, h.made _ _ hmade]
        simp only [Daemon.after, hworker]
        exact h.giveUp hmade (by simp [hs])
      · obtain ⟨w, hmem, rfl, hj, hf⟩ := h.joined _ hs
        obtain ⟨k, hw⟩ := List.getElem?_of_mem hmem
        obtain ⟨client, hheap⟩ := h.struct k w hw hf
        have hworker : d.worker? w.self = some k := by simp [Daemon.worker?, hheap]
        simp only [Daemon.after, hworker]
        exact h.freeJoined hs hw hj hf
  | clearDone thread =>
      have hs : g.stage = .fresh thread := hg
      exact h.modify (s := ⟨none, none, none⟩) (by rw [hs]; rfl) (by simp [hs]) _ rfl
  | loadDone thread =>
      cases r with
      | false => exact h
      | true =>
          refine h.keep (by simp [hg.1]) (by rw [hg.1]; rfl) (by simp) ?_ h.given
          rintro p hp
          injection hp with hp
          subst hp
          obtain ⟨k, w, client, _, _, _, hheap⟩ := h.live_struct hg.2
          rw [hheap, ← (show true = w.finished from hc _ (by rw [hheap]; rfl))]
          rfl
  | storeClient thread client =>
      have hs : g.stage = .accepted thread client := hg
      exact h.modify (s := ⟨some false, none, none⟩) (by rw [hs]; rfl) (by simp [hs]) _ rfl
  | waitclient =>
      obtain ⟨thread, hs⟩ := hg
      cases r with
      | none => exact h
      | some client =>
          simp only [Ledger.next, hs]
          exact h.keep (by simp [hs]) (by rw [hs]; rfl) (by simp) (by simp) h.given
  | close fd =>
      obtain ⟨thread, client, hs, _⟩ := hg
      simp only [Ledger.next, hs]
      refine h.keep (by simp [hs]) (by rw [hs]; rfl) (by simp) (by simp) ?_
      simp [Ledger.clients, h.given]
  | pthreadCreate thread =>
      obtain ⟨client, hs⟩ := hg
      cases r with
      | false => exact h
      | true =>
          have hheap : d.heap thread = some ⟨some false, some client, none⟩ :=
            h.made _ _ (by rw [hs]; rfl)
          have hcreated := h.create (clientthread inet cfg client) hs
          simp only [Daemon.after, Daemon.modify, Ledger.next, hs, hheap, Option.bind_some,
            Option.map_some]
          exact hcreated
  | pthreadJoin thread =>
      obtain ⟨k, w, client, hw, rfl, hj, hheap⟩ := h.live_struct hg.2
      have hworker : d.worker? w.self = some k := by simp [Daemon.worker?, hheap]
      simp only [Daemon.after, hworker]
      exact h.join hg.1 hw hj (hc k w hworker hw)
  | realloc items => exact h
  | usleep usec => exact h
  | pthreadAttrInit => exact h
  | pthreadAttrSetstacksize size => exact h
  | pthreadAttrDestroy => exact h

end Tied

/-! ### Every reachable state -/

/-- The ledger of what the loop has done. -/
def Daemon.ledger (d : Daemon) : Ledger := Ledger.spec.run .initial d.past

/-- The thread is in a session of its own, and was only given new descriptors. -/
structure Worker.InSession (inet : Inet) (cfg : Config) (whole : Block → Prop) (w : Worker) :
    Prop where
  steps : Steps whole (clientthread inet cfg w.client) w.past w.prog
  fresh : SocketsNotOpen w.client.fd w.past

/-- What holds of a process in every state. -/
structure Daemon.Sound (inet : Inet) (cfg : Config) (whole : Block → Prop) (d : Daemon) : Prop where
  tied : Tied d d.ledger
  recorded : Recorded d.past d.ledger
  /-- The loop will keep to the ledger. -/
  goesOn : wlp Ledger.spec d.main AtHead d.ledger
  session : ∀ w ∈ d.workers, w.InSession inet cfg whole

section Sound

variable {inet : Inet} {cfg : Config} {whole : Block → Prop} {d d' : Daemon}

theorem Daemon.initial_sound : Daemon.initial.Sound inet cfg whole where
  tied := {
    live := rfl
    struct := by simp [initial]
    running := by simp [initial]
    ended := by simp [initial]
    seen _ hp := nomatch hp
    joined _ hp := nomatch hp
    made _ _ hp := nomatch hp
    allocated _ hp := absurd rfl hp
    given := rfl }
  recorded := ⟨rfl, rfl⟩
  goesOn := ⟨trivial, rfl, rfl, List.nodup_nil⟩
  session := by simp [initial]

/-- An operation of the loop changes what is counted of a thread, or starts one. -/
theorem Daemon.after_session (h : ∀ w ∈ d.workers, w.InSession inet cfg whole) (o : LoopOp)
    (r : o.Ret) : ∀ w ∈ (d.after inet cfg o r).workers, w.InSession inet cfg whole := by
  have hmodify : ∀ (k : Nat) (f : Worker → Worker),
      (∀ w, w.InSession inet cfg whole → (f w).InSession inet cfg whole) →
        ∀ w ∈ d.workers.modify k f, w.InSession inet cfg whole := by
    intro k f hf w hw
    obtain hw | ⟨v, hv, rfl⟩ := mem_modify hw
    · exact h w hw
    · exact hf v (h v hv)
  unfold after
  split
  · exact h
  · exact h
  · exact h
  · dsimp only
    split
    · exact hmodify _ _ fun _ hv => ⟨hv.steps, hv.fresh⟩
    · exact h
  · split
    · intro w hw
      rcases List.mem_append.mp hw with hw | hw
      · exact h w hw
      · rw [List.mem_singleton.mp hw]
        exact ⟨.refl, socketsNotOpen_iff.mpr trivial⟩
    · exact h
  · split
    · exact hmodify _ _ fun _ hv => ⟨hv.steps, hv.fresh⟩
    · exact h
  · exact h

theorem Daemon.Sound.step (h : d.Sound inet cfg whole)
    (hs : Step inet cfg whole (fun client tr => SocketsNotOpen client.fd tr) d d') :
    d'.Sound inet cfg whole := by
  cases hs with
  | @iteration threads hmain =>
      have hhead : wlp Ledger.spec (.ret threads) AtHead d.ledger := hmain ▸ h.goesOn
      exact ⟨h.tied.anyMain _ _, h.recorded, socksMainBody_atHead hhead.2, h.session⟩
  | unfold hp =>
      have hfollows := wlp_step hp (fun _ _ _ _ => trivial) h.goesOn
      exact ⟨h.tied.anyMain _ _, h.recorded, hfollows, h.session⟩
  | loop o r hp hc =>
      obtain ⟨hg, hgoesOn⟩ := wlp_step hp (fun _ _ _ _ => trivial) h.goesOn
      have hledger : Ledger.spec.run .initial (d.past ++ [⟨o, r⟩]) = d.ledger.next o r := by
        rw [Spec.run_append]
        rfl
      refine ⟨?_, ?_, ?_, after_session h.session o r⟩
      · unfold ledger
        rw [hledger]
        exact (h.tied.after hg hc).anyMain _ _
      · unfold ledger
        rw [hledger]
        exact h.recorded.concat r hg
      · unfold ledger
        rw [hledger]
        exact hgoesOn (h.tied.rely hc)
  | @thread k w p tr hw hp hok =>
      have hmem : w ∈ d.workers := List.mem_of_getElem? hw
      have hj : w.joins = 0 := by
        by_contra hj
        rw [(h.tied.ended w hmem hj).1.returned] at hp
        cases hp
      have hmain : (d.finish w.self tr).main = d.main := by
        unfold finish
        split <;> rfl
      have hpast : (d.finish w.self tr).past = d.past := by
        unfold finish
        split <;> rfl
      have hsession : ∀ v ∈ d.workers.set k { w with prog := p, past := w.past ++ tr },
          v.InSession inet cfg whole := by
        intro v hv
        rw [List.set_eq_modify] at hv
        obtain rfl | ⟨j, _, hv⟩ := (mem_modify_iff hw).mp hv
        · exact ⟨(h.session w hmem).steps.tail hp, hok⟩
        · exact h.session v (List.mem_of_getElem? hv)
      refine ⟨?_, ?_, ?_, hsession⟩
      · unfold ledger
        rw [hpast]
        exact h.tied.thread hw hj p tr
      · unfold ledger
        rw [hpast]
        exact h.recorded
      · unfold ledger
        rw [hpast, hmain]
        exact h.goesOn

theorem Daemon.Reachable.sound
    (h : Reachable inet cfg whole (fun client tr => SocketsNotOpen client.fd tr) d) :
    d.Sound inet cfg whole := by
  induction h with
  | initial => exact initial_sound
  | step _ hs ih => exact ih.step hs

/-- The structs an operation of the loop is asked for on. -/
def LoopOp.structs : LoopOp → List ThreadPtr
  | .free thread | .clearDone thread | .loadDone thread | .storeClient thread _ => [thread]
  | .pthreadCreate thread | .pthreadJoin thread => [thread]
  | _ => []

theorem Tied.named {g : Ledger} (h : Tied d g) {o : LoopOp} (hg : g.guar o) :
    ∀ p ∈ o.structs, d.heap p ≠ none := by
  have hmade : ∀ {p s}, g.stage.made = some (p, s) → d.heap p ≠ none := fun hs => by
    simp [h.made _ _ hs]
  have hlive : ∀ {p}, p ∈ g.live → d.heap p ≠ none := fun hp => by
    obtain ⟨k, w, client, _, _, _, hheap⟩ := h.live_struct hp
    simp [hheap]
  intro p hp
  cases o with
  | free thread =>
      obtain rfl := List.mem_singleton.mp hp
      obtain hs | ⟨client, hs⟩ | hs := hg
      · exact hmade (by rw [hs]; rfl)
      · exact hmade (by rw [hs]; rfl)
      · obtain ⟨w, hmem, rfl, _, hf⟩ := h.joined _ hs
        obtain ⟨k, hw⟩ := List.getElem?_of_mem hmem
        obtain ⟨client, hheap⟩ := h.struct k w hw hf
        simp [hheap]
  | clearDone thread =>
      obtain rfl := List.mem_singleton.mp hp
      exact hmade (by rw [show g.stage = _ from hg]; rfl)
  | storeClient thread client =>
      obtain rfl := List.mem_singleton.mp hp
      exact hmade (by rw [show g.stage = _ from hg]; rfl)
  | pthreadCreate thread =>
      obtain rfl := List.mem_singleton.mp hp
      obtain ⟨client, hs⟩ := hg
      exact hmade (by rw [hs]; rfl)
  | loadDone thread =>
      obtain rfl := List.mem_singleton.mp hp
      exact hlive hg.2
  | pthreadJoin thread =>
      obtain rfl := List.mem_singleton.mp hp
      exact hlive hg.2
  | _ => cases hp

end Sound

/-! ### The scan -/

/-- What one scan makes of the list.  An entry that is seen to be done is joined, taken out and
freed there and then; every other entry stays where it is. -/
inductive Collected : List ThreadPtr → Trace loopSys → List ThreadPtr → Prop
  | nil : Collected [] [] []
  | done {thread : ThreadPtr} {threads threads' : List ThreadPtr} {tr : Trace loopSys}
      (h : Collected threads tr threads') :
      Collected (thread :: threads)
        (⟨.loadDone thread, true⟩ :: ⟨.pthreadJoin thread, ()⟩ :: ⟨.free thread, ()⟩ :: tr) threads'
  | kept {thread : ThreadPtr} {threads threads' : List ThreadPtr} {tr : Trace loopSys}
      (h : Collected threads tr threads') :
      Collected (thread :: threads) (⟨.loadDone thread, false⟩ :: tr) (thread :: threads')

/-- One round of the scan. -/
theorem collectBody_eval {threads : Sblist ThreadPtr} {i : Nat} (hi : i < threads.getsize)
    {tr : Trace loopSys} {x : (Sblist ThreadPtr × Nat) ⊕ Sblist ThreadPtr}
    (h : Eval (collectBody (threads, i)) tr x) :
    tr = [⟨.loadDone (threads.itemFromIndex i), true⟩,
        ⟨.pthreadJoin (threads.itemFromIndex i), ()⟩, ⟨.free (threads.itemFromIndex i), ()⟩] ∧
      x = .inl (threads.delete i, i) ∨
    tr = [⟨.loadDone (threads.itemFromIndex i), false⟩] ∧ x = .inl (threads, i + 1) := by
  unfold collectBody at h
  simp only [if_pos hi] at h
  obtain ⟨_, done, _, rfl, h₁, h₂⟩ := eval_bind (loadDone _) h
  obtain rfl := eval_perform h₁
  cases done with
  | true =>
      left
      obtain ⟨_, _, _, rfl, h₃, h₄⟩ := eval_bind (pthreadJoin _) h₂
      obtain ⟨_, _, _, rfl, h₅, h₆⟩ := eval_bind (Loop.free _) h₄
      obtain rfl := eval_perform h₃
      obtain rfl := eval_perform h₅
      cases h₆
      exact ⟨rfl, rfl⟩
  | false =>
      right
      cases h₂
      exact ⟨rfl, rfl⟩

theorem collectBody_end {threads : Sblist ThreadPtr} {i : Nat} (hi : ¬ i < threads.getsize)
    {tr : Trace loopSys} {x : (Sblist ThreadPtr × Nat) ⊕ Sblist ThreadPtr}
    (h : Eval (collectBody (threads, i)) tr x) : tr = [] ∧ x = .inr threads := by
  unfold collectBody at h
  simp only [if_neg hi] at h
  cases h
  exact ⟨rfl, rfl⟩

theorem collect_from {blockitems capa : Nat} {left : List ThreadPtr} :
    ∀ {kept : List ThreadPtr} {tr : Trace loopSys} {threads' : Sblist ThreadPtr},
      Eval (.loop collectBody (⟨blockitems, capa, kept ++ left⟩, kept.length) .ret) tr threads' →
        ∃ left', threads'.items = kept ++ left' ∧ Collected left tr left' := by
  induction left with
  | nil =>
      intro kept tr threads' h
      have hout : ¬ kept.length < (⟨blockitems, capa, kept ++ []⟩ : Sblist ThreadPtr).getsize := by
        simp [Sblist.getsize]
      cases h with
      | again hb hl => cases (collectBody_end hout hb).2
      | leave hb hk =>
          obtain ⟨rfl, hx⟩ := collectBody_end hout hb
          cases hx
          cases hk
          exact ⟨[], rfl, .nil⟩
  | cons thread left ih =>
      intro kept tr threads' h
      have hin : kept.length <
          (⟨blockitems, capa, kept ++ thread :: left⟩ : Sblist ThreadPtr).getsize := by
        simp [Sblist.getsize]
      have hitem : (⟨blockitems, capa, kept ++ thread :: left⟩ : Sblist ThreadPtr).itemFromIndex
          kept.length = thread := by
        simp [Sblist.itemFromIndex]
      cases h with
      | again hb hl =>
          obtain ⟨rfl, hx⟩ | ⟨rfl, hx⟩ := collectBody_eval hin hb
          · rw [hitem]
            injection hx with hx
            have hdelete : (kept ++ thread :: left).eraseIdx kept.length = kept ++ left := by
              rw [List.eraseIdx_append_of_length_le (le_refl _), Nat.sub_self,
                List.eraseIdx_cons_zero]
            rw [hx, Sblist.delete, hdelete] at hl
            obtain ⟨left', hitems, hc⟩ := ih hl
            exact ⟨left', hitems, .done hc⟩
          · rw [hitem]
            injection hx with hx
            have hlist : kept ++ thread :: left = (kept ++ [thread]) ++ left := by simp
            have hlength : kept.length + 1 = (kept ++ [thread]).length := by simp
            rw [hx, hlist, hlength] at hl
            obtain ⟨left', hitems, hc⟩ := ih hl
            exact ⟨thread :: left', by simp [hitems], .kept hc⟩
      | leave hb hk =>
          obtain ⟨_, hx⟩ | ⟨_, hx⟩ := collectBody_eval hin hb
          · cases hx
          · cases hx

/-- A scan goes over the whole list. -/
theorem collect_collected {threads threads' : Sblist ThreadPtr} {tr : Trace loopSys}
    (h : Eval (collect threads) tr threads') : Collected threads.items tr threads'.items := by
  obtain ⟨blockitems, capa, items⟩ := threads
  have hfrom : Eval (.loop collectBody (⟨blockitems, capa, [] ++ items⟩,
      ([] : List ThreadPtr).length) .ret) tr threads' := h
  obtain ⟨left', hitems, hc⟩ := collect_from hfrom
  rw [hitems]
  exact hc

/-! ### The result -/

/-- What the loop owns in one state of the process. -/
structure LoopOwns (d : Daemon) : Prop where
  /-- At the head of an iteration `threads` has one entry for each thread that was started and not
  joined, in the order they were started; nothing else is allocated, and every thread that was
  joined has had its struct freed. -/
  head : ∀ threads, d.main = .ret threads →
    threads.items = unjoined d.workers ∧ threads.items.Nodup ∧
      (∀ p, d.heap p ≠ none ↔ p ∈ threads.items) ∧ ∀ w ∈ d.workers, w.frees = w.joins
  /-- A thread is joined once at most, and then it has said that it is done and has returned. -/
  joined : ∀ w ∈ d.workers, w.joins ≤ 1 ∧ (w.joins = 1 → w.finished = true ∧ w.prog = .ret ())
  /-- A struct is freed once at most, and then its thread has been joined. -/
  freed : ∀ w ∈ d.workers, w.frees ≤ w.joins
  /-- The struct of a thread that has not returned is allocated, and that thread's. -/
  running : ∀ k w, d.workers[k]? = some w → w.prog ≠ .ret () →
    w.joins = 0 ∧ w.frees = 0 ∧ d.worker? w.self = some k
  /-- The loop reads, writes and frees only structs that are allocated. -/
  named : ∀ o k, d.main = .call o k → ∀ p ∈ o.structs, d.heap p ≠ none
  /-- A flag that the loop is about to read reads as whether the thread is done. -/
  flag : ∀ p k, d.main = .call (.loadDone p) k →
    ∃ w ∈ d.workers, w.self = p ∧ w.joins = 0 ∧ ∀ r, d.can (.loadDone p) r → r = w.finished
  /-- A thread that is done has closed its client's descriptor, once. -/
  closed : ∀ w ∈ d.workers, w.finished = true → timesClosed w.client.fd w.past = 1
  /-- Every client that was accepted either has its descriptor closed by the loop or has a thread
  started for it, in the order they were accepted.  At the head of an iteration that is all of
  them; otherwise the last may be yet to come. -/
  accounted : ∃ (fates : List (Client × Bool)) (pending : Option Client),
    acceptedClients d.past = fates.map Prod.fst ++ pending.toList ∧
      closedByLoop d.past = (fates.filter (·.2 = false)).map (·.1.fd) ∧
      d.workers.map (·.client) = (fates.filter (·.2 = true)).map Prod.fst ∧
      ∀ threads, d.main = .ret threads → pending = none

section Result

variable {inet : Inet} {cfg : Config} {whole : Block → Prop} {d : Daemon}

/-- A thread says that it is done last, after it closed its client's descriptor. -/
theorem Worker.InSession.closed {w : Worker} (h : w.InSession inet cfg whole)
    (hfinished : w.finished = true) : timesClosed w.client.fd w.past = 1 := by
  have howns := session_owns_descriptors inet cfg w.client h.steps h.fresh
  obtain ⟨e, he, hdone⟩ := List.any_eq_true.mp hfinished
  have hdone : e.op = .storeDone := by simpa using hdone
  obtain ⟨pre, post, hpast⟩ := List.append_of_mem he
  obtain rfl := howns.last hpast hdone
  have hquiet : Closes w.client.fd e = false := by
    obtain ⟨o, r⟩ := e
    obtain rfl : o = .storeDone := hdone
    rfl
  rw [hpast, timesClosed_concat, howns.client hpast hdone, hquiet]
  rfl

theorem Daemon.Sound.head (h : d.Sound inet cfg whole) {threads : Sblist ThreadPtr}
    (hmain : d.main = .ret threads) : AtHead threads d.ledger := by
  have hhead : wlp Ledger.spec (.ret threads) AtHead d.ledger := hmain ▸ h.goesOn
  exact hhead.2

theorem Daemon.Sound.owns (h : d.Sound inet cfg whole) : LoopOwns d where
  head threads hmain := by
    have hhead := h.head hmain
    have hjoined : ∀ p, d.ledger.stage ≠ .joined p := by simp [hhead.idle]
    refine ⟨hhead.live.trans h.tied.live, hhead.live ▸ hhead.distinct, fun p => ?_, fun w hw => ?_⟩
    · rw [hhead.live]
      constructor
      · intro hp
        obtain ⟨w, hw, hself, hf⟩ | ⟨s, hs⟩ := h.tied.allocated p hp
        · refine h.tied.mem_live.mpr ⟨w, hw, ?_, hself⟩
          by_contra hj
          have := (h.tied.freed hjoined w hw hj).2
          omega
        · rw [hhead.idle] at hs
          cases hs
      · intro hp
        obtain ⟨k, w, client, _, _, _, hheap⟩ := h.tied.live_struct hp
        simp [hheap]
    · by_cases hj : w.joins = 0
      · rw [h.tied.running w hw hj, hj]
      · obtain ⟨hended, hf⟩ := h.tied.freed hjoined w hw hj
        rw [hf, hended.once]
  joined w hw := by
    by_cases hj : w.joins = 0
    · exact ⟨by omega, fun he => by omega⟩
    · have hended := (h.tied.ended w hw hj).1
      exact ⟨hended.once.le, fun _ => ⟨hended.finished, hended.returned⟩⟩
  freed w hw := by
    by_cases hj : w.joins = 0
    · rw [h.tied.running w hw hj, hj]
    · obtain ⟨hended, hf | ⟨hf, _⟩⟩ := h.tied.ended w hw hj
      · rw [hf, hended.once]
      · omega
  running k w hw hprog := by
    have hmem : w ∈ d.workers := List.mem_of_getElem? hw
    have hj : w.joins = 0 := by
      by_contra hj
      exact hprog (h.tied.ended w hmem hj).1.returned
    have hf : w.frees = 0 := h.tied.running w hmem hj
    obtain ⟨client, hheap⟩ := h.tied.struct k w hw hf
    exact ⟨hj, hf, by simp [Daemon.worker?, hheap]⟩
  named o k hmain := by
    have hcall : wlp Ledger.spec (.call o k) AtHead d.ledger := hmain ▸ h.goesOn
    exact h.tied.named hcall.2.1
  flag p k hmain := by
    have hcall : wlp Ledger.spec (.call (.loadDone p) k) AtHead d.ledger := hmain ▸ h.goesOn
    obtain ⟨j, w, client, hw, hself, hj, hheap⟩ := h.tied.live_struct hcall.2.1.2
    exact ⟨w, List.mem_of_getElem? hw, hself, hj, fun r hr => hr _ (by rw [hheap]; rfl)⟩
  closed w hw hfinished := (h.session w hw).closed hfinished
  accounted := by
    refine ⟨d.ledger.fates, d.ledger.stage.pending, h.recorded.accepted, ?_, h.tied.given, ?_⟩
    · rw [h.recorded.closed, Ledger.clients, List.map_map]
      rfl
    · intro threads hmain
      rw [(h.head hmain).idle]
      rfl

/--
**The accept loop owns its threads and the clients it accepted.**

In every state that any schedule of the loop and its threads leads to, with anything allowed to
fail; and every scan of the list, whatever it reads.
-/
theorem accept_loop_owns
    (h : Daemon.Reachable inet cfg whole (fun client tr => SocketsNotOpen client.fd tr) d) :
    LoopOwns d ∧ ∀ threads tr threads', Eval (collect threads) tr threads' →
      Collected threads.items tr threads'.items :=
  ⟨h.sound.owns, fun _ _ _ => collect_collected⟩

end Result

/-- No socket is asked for. -/
theorem socketsNotOpen_of_all {clientFd : Fd} {tr : Trace sys}
    (h : tr.all (fun e => match e.op with
      | .socket _ _ => false
      | _ => true) = true) : SocketsNotOpen clientFd tr := by
  rintro pre ⟨o, r⟩ post rfl
  have he := List.all_eq_true.mp h ⟨o, r⟩ (by simp)
  cases o with
  | socket af type => cases he
  | _ => trivial

/-- A second client. -/
def nextClient : Client := ⟨.v4 (hostAddress 8) 40001, 6⟩

/-- A first client gets a thread.  There is none to be had for a second one.  Then the first thread
is done, and is joined and freed, and there is no memory for a third. -/
theorem accept_loop_owns_started : ∃ d : Daemon, d.main = .ret ⟨8, 8, []⟩ ∧
    d.workers.map (fun w => (w.client, w.joins, w.frees)) = [(webClient, 1, 1)] ∧
    acceptedClients d.past = [webClient, nextClient] ∧ closedByLoop d.past = [6] ∧
    LoopOwns d ∧
    Collected [5] [⟨.loadDone 5, true⟩, ⟨.pthreadJoin 5, ()⟩, ⟨.free 5, ()⟩] [] := by
  have hinitial : Daemon.Reachable .plain ⟨none, none, false⟩ (fun _ => True)
      (fun client tr => SocketsNotOpen client.fd tr) .initial := .initial
  have hstarted := hinitial
    |>.step (.iteration rfl)
    |>.step (.unfold .unfold)
    |>.step (.loop .mallocThread (some 5) (.call _) rfl)
    |>.step (.loop (.clearDone 5) () (.call _) trivial)
    |>.step (.loop .waitclient (some webClient) (.call _) trivial)
    |>.step (.loop (.storeClient 5 webClient) () (.call _) trivial)
    |>.step (.loop (.realloc 8) true (.call _) trivial)
    |>.step (.loop .pthreadAttrInit false (.call _) trivial)
    |>.step (.loop (.pthreadCreate 5) true (.call _) trivial)
  have hfailed := hstarted
    |>.step (.iteration rfl)
    |>.step (.unfold .unfold)
    |>.step (.loop (.loadDone 5) false (.call _) fun _ h => Option.some.inj h)
    |>.step (.unfold .unfold)
    |>.step (.loop .mallocThread (some 6) (.call _) rfl)
    |>.step (.loop (.clearDone 6) () (.call _) trivial)
    |>.step (.loop .waitclient (some nextClient) (.call _) trivial)
    |>.step (.loop (.storeClient 6 nextClient) () (.call _) trivial)
    |>.step (.loop .pthreadAttrInit false (.call _) trivial)
    |>.step (.loop (.pthreadCreate 6) false (.call _) trivial)
    |>.step (.loop (.close 6) () (.call _) trivial)
    |>.step (.loop (.free 6) () (.call _) trivial)
    |>.step (.loop (.usleep 64) () (.call _) trivial)
  have hdone := hfailed
    |>.step (.thread (k := 0) rfl (.call (S := sys) ()) (socketsNotOpen_of_all rfl))
    |>.step (.thread (k := 0) rfl .unfold (socketsNotOpen_of_all rfl))
    |>.step (.thread (k := 0) rfl (.call (S := sys) (Except.ok [] : Except Errno Bytes))
      (socketsNotOpen_of_all rfl))
    |>.step (.thread (k := 0) rfl (.call (S := sys) ()) (socketsNotOpen_of_all rfl))
    |>.step (.thread (k := 0) rfl (by exact .call (S := sys) (o := .storeDone) ())
      (by exact socketsNotOpen_of_all rfl))
  have hjoined := hdone
    |>.step (.iteration rfl)
    |>.step (.unfold .unfold)
    |>.step (.loop (.loadDone 5) true (.call _) fun _ h => Option.some.inj h)
    |>.step (.loop (.pthreadJoin 5) () (.call _) (by rintro k w ⟨⟩ ⟨⟩; rfl))
    |>.step (.loop (.free 5) () (.call _) trivial)
    |>.step (.unfold .unfold)
    |>.step (.loop .mallocThread none (.call _) trivial)
    |>.step (.loop (.usleep 64) () (.call _) trivial)
  have hscan : Eval (collect ⟨8, 8, [5]⟩)
      [⟨.loadDone 5, true⟩, ⟨.pthreadJoin 5, ()⟩, ⟨.free 5, ()⟩] ⟨8, 8, []⟩ :=
    eval_of_replay 10 _ rfl
  obtain ⟨howns, hcollected⟩ := accept_loop_owns hjoined
  exact ⟨_, rfl, rfl, rfl, rfl, howns, hcollected _ _ _ hscan⟩

end TwoSocks
