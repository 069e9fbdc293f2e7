/-
The rows of the app are the connections of the server.

What the server reports of a connection reaches the view model late, and not in the order in which
it was reported, but for each identifier in that order.  So what a view model has heard of an
identifier is the beginning of what was reported of it, which is the beginning of one connection's
life.  A row is open if what was heard is the opening alone.  Then the connection is open, or its
end is on its way.

An identifier is an `int64_t`, and `Int` here, so all of this is for the first `2 ^ 63` of them.
-/
import TwoSocks.App.Bridge
import TwoSocks.Proofs.ConnectionTable
import TwoSocks.Proofs.Lifecycle

namespace TwoSocks

open Server Prog Recency ContentViewVM

/-! ### What the server reports -/

/-- What the handler has been called with, in any state of the process. -/
structure Told (c : Pool sys Client Shared ThreadMem) : Prop where
  lawful : ∀ id, Lawful (eventsOf c.world.events id)
  numbered : ∀ e ∈ c.world.events, 0 < e.identifier ∧
    e.identifier < c.world.nextConnectionIdentifierValue
  owned : ∀ e ∈ c.world.events, ∃ t ∈ c.threads, e.identifier ∈ identifiers t.trace
  complete : ∀ t ∈ c.threads, t.prog = .ret () → ∀ id ∈ identifiers t.trace,
    Complete (eventsOf c.world.events id)

section Told

variable {inet : Inet} {cfg : Config} {whole : Block → Prop}
  {c c' : Pool sys Client Shared ThreadMem}

/-- The identifiers are counted from one on. -/
def Numbered (w : Shared) (vs : List Reporter) : Prop :=
  Reported w vs ∧ 0 < w.nextConnectionIdentifierValue ∧ ∀ v ∈ vs, ∀ id ∈ v.2.2.issued, 0 < id

theorem numbered_keeps (inet : Inet) (cfg : Config) :
    Pool.Keeps (machine anyAnswer) (accepted inet cfg) (fun _ => reportSpec) (fun _ => ⟨[], []⟩)
      Numbered where
  start w vs i h := by
    refine ⟨(reported_keeps inet cfg).start w vs i h.1, h.2.1, fun v hv => ?_⟩
    rcases List.mem_append.mp hv with hv | hv
    · exact h.2.2 v hv
    · rw [List.mem_singleton.mp hv]
      exact nofun
  rely w pre post i m g o r hrest h hcan :=
    (reported_keeps inet cfg).rely w pre post i m g o r hrest h.1 hcan
  event w pre post i m g o r hrest h hcan hguar := by
    refine ⟨(reported_keeps inet cfg).event w pre post i m g o r hrest h.1 hcan hguar, ?_⟩
    obtain ⟨-, hnext, hissued⟩ := h
    have hself := hissued (i, m, g) (List.mem_append_right _ List.mem_cons_self)
    have hothers : ∀ g', (∀ id ∈ g'.issued, 0 < id) → ∀ m',
        ∀ v ∈ pre ++ (i, m', g') :: post, ∀ id ∈ v.2.2.issued, 0 < id := by
      intro g' hg' m' v hv
      rcases List.mem_append.mp hv with hv | hv
      · exact hissued v (List.mem_append_left _ hv)
      · rcases List.mem_cons.mp hv with rfl | hv
        · exact hg'
        · exact hissued v (List.mem_append_right _ (List.mem_cons_of_mem _ hv))
    cases o with
    | nextConnectionIdentifier =>
        obtain rfl : r = w.nextConnectionIdentifierValue := hcan
        refine ⟨Int.lt_add_one_of_le hnext.le, hothers _ (fun id hid => ?_) _⟩
        rcases List.mem_append.mp hid with hid | hid
        · exact hself id hid
        · rw [List.mem_singleton.mp hid]
          exact hnext
    | handler e => exact ⟨hnext, hothers { g with log := g.log ++ [e] } hself _⟩
    | socket af type => rcases r with e | fd <;> exact ⟨hnext, hothers g hself _⟩
    | abort => exact nomatch r
    | _ => exact ⟨hnext, hothers g hself _⟩

theorem process_told (hc : Process anyAnswer inet cfg whole c) : Told c := by
  obtain ⟨⟨hr, -, hpos⟩, hb⟩ := Pool.Reachable.invariant (numbered_keeps inet cfg)
    (Q := fun _ g => Outstanding [] [] g)
    ⟨⟨nofun, .nil, nofun, nofun, nofun, by simp [Shared.initial]⟩, by decide, nofun⟩
    (fun _ _ _ _ _ => trivial) (clientthread_reports inet cfg) hc
  have hissued : ∀ t : Thread sys Client ThreadMem,
      (reportSpec.run ⟨[], []⟩ t.trace).issued = identifiers t.trace := fun t => reports_issued
  refine ⟨fun id => ?_, fun e he => ?_, fun e he => ?_, fun t ht hret id hid => ?_⟩
  · by_cases hid : ∃ e ∈ c.world.events, e.identifier = id
    · obtain ⟨e, he, rfl⟩ := hid
      obtain ⟨v, hv, hid⟩ := hr.owned e he
      rw [hr.own v hv _ hid]
      exact hr.lawful v hv _ hid
    · rw [eventsOf_eq_nil fun e he heq => hid ⟨e, he, heq⟩]
      exact lawful_nil
  · obtain ⟨v, hv, hid⟩ := hr.owned e he
    exact ⟨hpos v hv _ hid, hr.below v hv _ hid⟩
  · obtain ⟨v, hv, hid⟩ := hr.owned e he
    obtain ⟨t, ht, rfl⟩ := List.mem_map.mp hv
    exact ⟨t, ht, hissued t ▸ hid⟩
  · have hid' := (hissued t).symm ▸ hid
    rw [hr.own _ (List.mem_map.mpr ⟨t, ht, rfl⟩) id hid']
    exact ((hb t ht).returned hret).done id hid' (by simp)

/-- Nothing that was reported is taken back. -/
theorem events_grow (h : Pool.Step (machine anyAnswer) (accepted inet cfg) whole c c') :
    ∃ new, c'.world.events = c.world.events ++ new := by
  have hperforms : ∀ {w w' : Shared} {m m' : ThreadMem} {tr : Trace sys},
      Pool.Performs (machine anyAnswer) w m tr w' m' → ∃ new, w'.events = w.events ++ new := by
    intro w w' m m' tr hp
    induction hp with
    | nil => exact ⟨[], (List.append_nil _).symm⟩
    | @cons w w' m m' o r tr hcan _ ih =>
        obtain ⟨new, hnew⟩ := ih
        rw [hnew]
        cases o with
        | handler e => exact ⟨e :: new, List.append_assoc ..⟩
        | socket af type => rcases r with e | fd <;> exact ⟨new, rfl⟩
        | abort => exact nomatch r
        | _ => exact ⟨new, rfl⟩
  cases h with
  | start i => exact ⟨[], (List.append_nil _).symm⟩
  | thread hs hp => exact hperforms hp

end Told

/-! ### What reaches the view model -/

section Bridge

variable {Date : Type} {inet : Inet} {cfg : Config} {whole : Block → Prop} {b b' : Bridge Date}

theorem eventsOf_append_log (log log' : List ConnectionEvent) (id : Int) :
    eventsOf (log ++ log') id = eventsOf log id ++ eventsOf log' id := List.filter_append ..

/-- Of each identifier, what was heard and what is on its way is what was reported. -/
structure Bridged (inet : Inet) (cfg : Config) (whole : Block → Prop) (b : Bridge Date) :
    Prop where
  process : Process anyAnswer inet cfg whole b.server
  parts : ∀ id, eventsOf b.heard id ++ eventsOf b.tasks id = eventsOf b.server.world.events id

theorem initial_bridged : Bridged inet cfg whole (Bridge.initial : Bridge Date) :=
  ⟨.init, fun _ => rfl⟩

theorem Bridged.step (h : Bridged inet cfg whole b) (hs : BridgeStep inet cfg whole b b') :
    Bridged inet cfg whole b' := by
  cases hs with
  | @serve b c hs =>
      obtain ⟨new, hnew⟩ := events_grow hs
      refine ⟨.step h.process hs, fun id => ?_⟩
      show eventsOf b.heard id ++ eventsOf (b.tasks ++ c.world.events.drop _) id = _
      rw [hnew, List.drop_left, eventsOf_append_log, eventsOf_append_log, ← h.parts,
        List.append_assoc]
  | @run server pre post e calls now hfirst =>
      refine ⟨h.process, fun id => ?_⟩
      have hparts := h.parts id
      rw [eventsOf_append_log] at hparts
      show eventsOf (List.map Prod.fst (calls ++ [(e, now)])) id ++ eventsOf (pre ++ post) id = _
      rw [List.map_append, eventsOf_append_log, eventsOf_append_log, ← hparts]
      by_cases hid : e.identifier = id
      · have hnone : eventsOf pre id = [] := eventsOf_eq_nil fun e' he' => hid ▸ hfirst e' he'
        rw [hnone]
        simp [eventsOf, hid, Bridge.heard]
      · simp [eventsOf, hid, Bridge.heard]

/-- Any number of steps. -/
abbrev BridgeRun (inet : Inet) (cfg : Config) (whole : Block → Prop) :
    Bridge Date → Bridge Date → Prop := Relation.ReflTransGen (BridgeStep inet cfg whole)

theorem Bridged.run (h : Bridged inet cfg whole b) (hrun : BridgeRun inet cfg whole b b') :
    Bridged inet cfg whole b' := by
  induction hrun with
  | refl => exact h
  | tail _ hs ih => exact ih.step hs

/-- What was heard stays heard. -/
theorem heard_grow (hrun : BridgeRun inet cfg whole b b') : b.calls <+: b'.calls := by
  induction hrun with
  | refl => exact List.prefix_rfl
  | tail _ hs ih =>
      cases hs with
      | serve => exact ih
      | run => exact ih.trans (List.prefix_append ..)

/-! ### Rows -/

/-- The state of a row. -/
def ConnectionState.shown : ConnectionState → ProxyConnectionState
  | .opened => .opened
  | .closed => .closed
  | .error => .error

def ConnectionProtocol.shown : ConnectionProtocol → ProxyConnectionProtocol
  | .tcp => .tcp
  | .udp => .udp

/-- The row an event asks for. -/
def ConnectionEvent.row (e : ConnectionEvent) (now : Date) : TrackedConnection Date where
  id := .ofInt e.identifier
  title := connectionTitle e.host.string e.port
  protocolType := e.protocol.shown
  state := e.state.shown
  updatedAt := now
  errorCode := if e.state = .error then some (.ofNat e.errorCode.code.toNat) else none

theorem ConnectionEvent.row_state {e : ConnectionEvent} {now : Date} :
    (e.row now).state = .opened ↔ e.state = .opened := by
  show e.state.shown = _ ↔ _
  cases e.state <;> simp [ConnectionState.shown]

/-- Every event is a valid call. -/
theorem delivery_row (e : ConnectionEvent) (now : Date) :
    (e.delivery now).row = some (e.row now) := by
  unfold Delivery.row ConnectionEvent.delivery ConnectionEvent.row
  cases e.protocol <;> cases e.state <;> rfl

/-- The rows that were asked for. -/
theorem history_calls (calls : List (ConnectionEvent × Date)) :
    history (calls.map fun call => call.1.delivery call.2) =
      calls.map fun call => call.1.row call.2 := by
  unfold history
  rw [List.filterMap_map, ← List.filterMap_eq_map]
  exact List.filterMap_congr fun call _ => delivery_row call.1 call.2

/-- An `int64_t` that was counted up to. -/
def Counted (id : Int) : Prop := 0 < id ∧ id < 2 ^ 63

theorem Counted.inj {id id' : Int} (h : Counted id) (h' : Counted id')
    (heq : Int64.ofInt id = Int64.ofInt id') : id = id' := by
  obtain ⟨hpos, hlt⟩ := h
  obtain ⟨hpos', hlt'⟩ := h'
  calc id
    _ = (Int64.ofInt id).toInt := (Int64.toInt_ofInt_of_le (by omega) hlt).symm
    _ = (Int64.ofInt id').toInt := by rw [heq]
    _ = id' := Int64.toInt_ofInt_of_le (by omega) hlt'

/-- The last row asked for under an identifier is that of the last event heard of it. -/
theorem latestRow_calls {calls : List (ConnectionEvent × Date)}
    (hcalls : ∀ call ∈ calls, Counted call.1.identifier) {id : Int} (hid : Counted id) :
    latestRow (calls.map fun call => call.1.delivery call.2) (.ofInt id) =
      (calls.filter fun call => call.1.identifier = id).getLast?.map
        fun call => call.1.row call.2 := by
  unfold latestRow latest
  rw [history_calls, List.filter_map, List.getLast?_map]
  have hsame : calls.filter ((fun r => decide (r.id = Int64.ofInt id)) ∘
      fun call : ConnectionEvent × Date => call.1.row call.2) =
        calls.filter fun call => call.1.identifier = id := by
    refine List.filter_congr fun call hcall => decide_eq_decide.mpr ⟨fun heq => ?_, fun heq => ?_⟩
    · exact (hcalls call hcall).inj hid heq
    · exact congrArg Int64.ofInt heq
  rw [hsame]

theorem heard_filter (calls : List (ConnectionEvent × Date)) (id : Int) :
    eventsOf (calls.map Prod.fst) id =
      (calls.filter fun call => call.1.identifier = id).map Prod.fst := by
  unfold eventsOf
  rw [List.filter_map]
  rfl

theorem latestRow_heard {calls : List (ConnectionEvent × Date)}
    (hcalls : ∀ call ∈ calls, Counted call.1.identifier) {id : Int} (hid : Counted id)
    {c : TrackedConnection Date} :
    latestRow (calls.map fun call => call.1.delivery call.2) (.ofInt id) = some c ↔
      ∃ call, (calls.filter fun call => call.1.identifier = id).getLast? = some call ∧
        c = call.1.row call.2 := by
  rw [latestRow_calls hcalls hid, Option.map_eq_some_iff]
  exact exists_congr fun call => and_congr_right' eq_comm

/-- A connection that was opened last has only been opened. -/
theorem opened_alone {es : List ConnectionEvent} {full : List ConnectionState}
    (hfull : full ∈ lifecycles) (hes : es.map (·.state) <+: full) {e : ConnectionEvent}
    (hlast : es.getLast? = some e) (he : e.state = .opened) : es = [e] := by
  rcases es with _ | ⟨a, _ | ⟨b, es⟩⟩
  · cases hlast
  · exact congrArg (fun e => [e]) (Option.some.inj hlast)
  · have hlong : (a :: b :: es).length ≤ full.length := by
      have hle := hes.length_le
      rwa [List.length_map] at hle
    simp only [lifecycles, List.mem_cons, List.not_mem_nil, or_false] at hfull
    rcases hfull with rfl | rfl | rfl
    all_goals
      rcases es with _ | ⟨d, es⟩
      · simp only [List.getLast?_cons_cons, List.getLast?_singleton, Option.some.injEq] at hlast
        subst hlast
        simp [he] at hes
      · simp at hlong

theorem mem_liveConnections {ds : List (Delivery Date)} {c : TrackedConnection Date} :
    c ∈ (ContentViewVM.run ds).liveConnections ↔
      latestRow ds c.id = some c ∧ c.state = .opened := by
  have h := retains_run ds
  rw [run_liveConnections, h.mem_rowsOf, decide_eq_true_iff]
  exact ⟨fun hc => ⟨h.newest _ _ hc.1, hc.2⟩, fun hc => ⟨h.opens _ _ hc.1 hc.2, hc.2⟩⟩

/-- A row that is shown is the last that was asked for. -/
theorem latestRow_of_mem {ds : List (Delivery Date)} {c : TrackedConnection Date}
    (hc : c ∈ (ContentViewVM.run ds).connections) : latestRow ds c.id = some c := by
  have h := retains_run ds
  rw [← run_published, publish_connections] at hc
  rcases List.mem_append.mp hc with hc | hc
  · exact h.newest _ _ (h.mem_rowsOf.mp hc).1
  · exact h.newest _ _ (h.mem_rowsOf.mp hc).1

/-- The identifiers the process has handed out fit an `int64_t`. -/
def Bridge.Fits (b : Bridge Date) : Prop :=
  b.server.world.nextConnectionIdentifierValue ≤ 2 ^ 63

section View

variable (h : Bridged inet cfg whole b) (hfits : b.Fits)
include h hfits

theorem Bridged.counted {e : ConnectionEvent} (he : e ∈ b.server.world.events) :
    Counted e.identifier := by
  obtain ⟨hpos, hlt⟩ := (process_told h.process).numbered e he
  exact ⟨hpos, hlt.trans_le hfits⟩

omit hfits in
theorem Bridged.mem_events {e : ConnectionEvent} (he : e ∈ b.heard ∨ e ∈ b.tasks) :
    e ∈ b.server.world.events := by
  have hmem : e ∈ eventsOf b.server.world.events e.identifier := by
    rw [← h.parts]
    rcases he with he | he
    · exact List.mem_append_left _ (List.mem_filter.mpr ⟨he, by simp⟩)
    · exact List.mem_append_right _ (List.mem_filter.mpr ⟨he, by simp⟩)
  exact (List.mem_filter.mp hmem).1

theorem Bridged.counted_calls : ∀ call ∈ b.calls, Counted call.1.identifier :=
  fun _ hcall => h.counted hfits (h.mem_events (.inl (List.mem_map_of_mem hcall)))

omit hfits in
/-- What was heard of an identifier begins a connection's life. -/
theorem Bridged.heard_lawful (id : Int) :
    ∃ full ∈ lifecycles, (eventsOf b.heard id).map (·.state) <+: full := by
  obtain ⟨full, hfull, hpre⟩ := ((process_told h.process).lawful id).states
  refine ⟨full, hfull, List.IsPrefix.trans ?_ hpre⟩
  rw [← h.parts, List.map_append]
  exact List.prefix_append ..

/-- A row shows the last event heard of its identifier. -/
theorem Bridged.row_heard {c : TrackedConnection Date} (hc : c ∈ b.view.connections) :
    ∃ call ∈ b.calls, c = call.1.row call.2 ∧
      (eventsOf b.heard call.1.identifier).getLast? = some call.1 := by
  have hlatest := latestRow_of_mem hc
  have hcalls := h.counted_calls hfits
  obtain ⟨call, hcall, hid⟩ : ∃ call ∈ b.calls, c.id = .ofInt call.1.identifier := by
    have hmem := mem_of_latest hlatest
    rw [history_calls] at hmem
    obtain ⟨call, hcall, rfl⟩ := List.mem_map.mp hmem
    exact ⟨call, hcall, rfl⟩
  rw [hid, latestRow_heard hcalls (hcalls call hcall)] at hlatest
  obtain ⟨call', hlast, rfl⟩ := hlatest
  have hmem := List.mem_filter.mp (List.mem_of_getLast? hlast)
  have hsame : call'.1.identifier = call.1.identifier := of_decide_eq_true hmem.2
  refine ⟨call', hmem.1, rfl, ?_⟩
  show (eventsOf (b.calls.map Prod.fst) _).getLast? = _
  rw [heard_filter, List.getLast?_map, hsame, hlast]
  rfl

/-- An open row is that of an event that is all that was heard of its identifier. -/
theorem Bridged.live_heard {c : TrackedConnection Date} (hc : c ∈ b.view.liveConnections) :
    ∃ call ∈ b.calls, c = call.1.row call.2 ∧ call.1.state = .opened ∧
      eventsOf b.heard call.1.identifier = [call.1] := by
  obtain ⟨hmem, hopen⟩ := List.mem_filter.mp hc
  obtain ⟨call, hcall, rfl, hlast⟩ := h.row_heard hfits hmem
  have hstate : call.1.state = .opened := ConnectionEvent.row_state.mp (of_decide_eq_true hopen)
  obtain ⟨full, hfull, hpre⟩ := h.heard_lawful call.1.identifier
  exact ⟨call, hcall, rfl, hstate, opened_alone hfull hpre hlast hstate⟩

/-- And conversely. -/
theorem Bridged.heard_live {o : ConnectionEvent} (ho : o.state = .opened)
    (hone : eventsOf b.heard o.identifier = [o]) :
    ∃ now, o.row now ∈ b.view.liveConnections := by
  have hmem : o ∈ b.heard := (List.mem_filter.mp (hone ▸ List.mem_singleton_self o)).1
  have hid := h.counted hfits (h.mem_events (.inl hmem))
  have hcalls : (b.calls.filter fun call => call.1.identifier = o.identifier).map Prod.fst = [o] :=
    (heard_filter b.calls o.identifier).symm.trans hone
  obtain ⟨⟨e, now⟩, hcall, rfl⟩ := List.map_eq_singleton_iff.mp hcalls
  refine ⟨now, mem_liveConnections.mpr ⟨?_, ConnectionEvent.row_state.mpr ho⟩⟩
  refine (latestRow_heard (h.counted_calls hfits) hid).mpr ⟨(e, now), ?_, rfl⟩
  rw [hcall]
  rfl

end View

end Bridge

/-! ### The result -/

/-- What the rows say of the server's connections. -/
structure Portrays {Date : Type} (b : Bridge Date) : Prop where
  /-- A row is what the server reported of a connection, the last that was heard of it. -/
  shown : ∀ c ∈ b.view.connections, ∃ call ∈ b.calls, c = call.1.row call.2 ∧
    call.1 ∈ b.server.world.events ∧
      (eventsOf b.heard call.1.identifier).getLast? = some call.1
  /-- A connection that is shown open is served, or its end is on its way. -/
  live : ∀ c ∈ b.view.liveConnections, ∃ t ∈ b.server.threads, ∃ id ∈ identifiers t.trace,
    c.id = .ofInt id ∧
      (t.prog = .ret () → ∃ e ∈ b.tasks, e.identifier = id ∧ e.state ≠ .opened)
  /-- A connection that is open is shown open, unless there is something on its way. -/
  opens : ∀ o : ConnectionEvent, o.state = .opened →
    eventsOf b.server.world.events o.identifier = [o] →
      (∀ e ∈ b.tasks, e.identifier ≠ o.identifier) → ∃ now, o.row now ∈ b.view.liveConnections
  /-- When all is over and heard, nothing is shown open. -/
  settled : (∀ t ∈ b.server.threads, t.prog = .ret ()) → b.tasks = [] →
    b.view.liveConnections = []

section Result

variable {Date : Type} {inet : Inet} {cfg : Config} {whole : Block → Prop} {b b' : Bridge Date}

theorem Bridged.live_served (h : Bridged inet cfg whole b) (hfits : b.Fits)
    {c : TrackedConnection Date} (hc : c ∈ b.view.liveConnections) :
    ∃ t ∈ b.server.threads, ∃ id ∈ identifiers t.trace, c.id = .ofInt id ∧
      (t.prog = .ret () → ∃ e ∈ b.tasks, e.identifier = id ∧ e.state ≠ .opened) := by
  obtain ⟨call, hcall, rfl, hopen, hone⟩ := h.live_heard hfits hc
  have htold := process_told h.process
  obtain ⟨t, ht, hid⟩ := htold.owned _ (h.mem_events (.inl (List.mem_map_of_mem hcall)))
  refine ⟨t, ht, call.1.identifier, hid, rfl, fun hret => ?_⟩
  have hcomplete := htold.complete t ht hret _ hid
  rw [← h.parts, hone] at hcomplete
  -- the opening is not the whole of it
  cases hrest : eventsOf b.tasks call.1.identifier with
  | nil => simp [hrest, Complete, lifecycles, hopen] at hcomplete
  | cons e es =>
      have hmem := List.mem_filter.mp (hrest ▸ List.mem_cons_self (a := e) (l := es))
      refine ⟨e, hmem.1, of_decide_eq_true hmem.2, fun hstate => ?_⟩
      simp [hrest, Complete, lifecycles, hopen, hstate] at hcomplete

theorem Bridged.portrays (h : Bridged inet cfg whole b) (hfits : b.Fits) : Portrays b where
  shown c hc := by
    obtain ⟨call, hcall, heq, hlast⟩ := h.row_heard hfits hc
    exact ⟨call, hcall, heq, h.mem_events (.inl (List.mem_map_of_mem hcall)), hlast⟩
  live c hc := h.live_served hfits hc
  opens o ho hone hquiet := by
    refine h.heard_live hfits ho ?_
    rw [← hone, ← h.parts, eventsOf_eq_nil hquiet, List.append_nil]
  settled hover hnone := by
    refine List.eq_nil_iff_forall_not_mem.mpr fun c hc => ?_
    obtain ⟨t, ht, id, -, -, hlate⟩ := h.live_served hfits hc
    obtain ⟨e, he, -⟩ := hlate (hover t ht)
    rw [hnone] at he
    cases he

/-- A row that was ended is not opened again. -/
theorem Bridged.ended_stays (h : Bridged inet cfg whole b) (hrun : BridgeRun inet cfg whole b b')
    (hfits : b.Fits) (hfits' : b'.Fits) {c c' : TrackedConnection Date}
    (hc : c ∈ b.view.connections) (hended : c.state ≠ .opened)
    (hc' : c' ∈ b'.view.liveConnections) : c'.id ≠ c.id := by
  intro heq
  have h' := h.run hrun
  obtain ⟨call, hcall, rfl, -⟩ := h.row_heard hfits hc
  obtain ⟨call', -, rfl, hopen, hone⟩ := h'.live_heard hfits' hc'
  have hcall := (heard_grow hrun).subset hcall
  have hmem : call.1 ∈ b'.heard := List.mem_map_of_mem hcall
  have hmem' : call'.1 ∈ b'.heard :=
    (List.mem_filter.mp (hone ▸ List.mem_singleton_self call'.1)).1
  have hid : call.1.identifier = call'.1.identifier :=
    (h'.counted hfits' (h'.mem_events (.inl hmem))).inj
      (h'.counted hfits' (h'.mem_events (.inl hmem'))) heq.symm
  have hsame : call.1 ∈ eventsOf b'.heard call'.1.identifier :=
    List.mem_filter.mpr ⟨hmem, decide_eq_true hid⟩
  rw [hone, List.mem_singleton] at hsame
  exact hended (ConnectionEvent.row_state.mpr (hsame ▸ hopen))

/--
**The app shows the connections the server has, as far as it has heard.**

In every interleaving of the sessions with the tasks, and in whatever order these run as long as
those of one connection run in order.  What was shown as ended is never shown open again.
-/
theorem connections_portrayed (hrun : BridgeRun inet cfg whole .initial b) (hfits : b.Fits) :
    Portrays b ∧ ∀ b', BridgeRun inet cfg whole b b' → b'.Fits →
      ∀ c ∈ b.view.connections, c.state ≠ .opened →
        ∀ c' ∈ b'.view.liveConnections, c'.id ≠ c.id :=
  have h := initial_bridged.run hrun
  ⟨h.portrays hfits, fun _ hlater hfits' _ hc hended _ hc' =>
    h.ended_stays hlater hfits hfits' hc hended hc'⟩

/-- The server may do all it does before any task runs. -/
theorem BridgeRun.served {c : Pool sys Client Shared ThreadMem}
    (hc : Process anyAnswer inet cfg whole c) :
    BridgeRun inet cfg whole .initial (⟨c, c.world.events, []⟩ : Bridge Date) := by
  induction hc with
  | init => exact .refl
  | @step c c' _ hs ih =>
      have hnext : BridgeStep inet cfg whole (⟨c, c.world.events, []⟩ : Bridge Date)
          ⟨c', c.world.events ++ c'.world.events.drop c.world.events.length, []⟩ := .serve hs
      obtain ⟨new, hnew⟩ := events_grow hs
      rw [hnew, List.drop_left, ← hnew] at hnext
      exact ih.tail hnext

/-- The event of `relayedTrace` in each state. -/
def relayedEvent (state : ConnectionState) : ConnectionEvent :=
  ⟨1, .tcp, state, webTarget.addr, 80, .success⟩

theorem exists_relayed : ∃ c : Pool sys Client Shared ThreadMem,
    Process anyAnswer Inet.plain ⟨none, none, false⟩ allWhole c ∧
      c.world.events = [relayedEvent .opened, relayedEvent .closed] ∧
      c.world.nextConnectionIdentifierValue = 2 ∧ ∀ t ∈ c.threads, t.prog = .ret () := by
  have hc : Process anyAnswer Inet.plain ⟨none, none, false⟩ allWhole
      ⟨_, [⟨webClient, _, _, _⟩]⟩ :=
    Pool.Reachable.session webClient .init
      (eval_of_replay 60 relayedTrace rfl) (by repeat constructor)
  exact ⟨_, hc, rfl, rfl, by simp⟩

/-- A connection is opened and closed, and its row is not open any more. -/
theorem connections_portrayed_closed : ∃ b : Bridge Nat,
    BridgeRun Inet.plain ⟨none, none, false⟩ allWhole .initial b ∧
      b.heard.map (·.state) = [.opened, .closed] ∧ b.view.liveConnections = [] := by
  obtain ⟨c, hc, hevents, hnext, hover⟩ := exists_relayed
  have hserved : BridgeRun Inet.plain ⟨none, none, false⟩ allWhole .initial
      (⟨c, [] ++ relayedEvent .opened :: [relayedEvent .closed], []⟩ : Bridge Nat) :=
    hevents ▸ BridgeRun.served hc
  have hopened : BridgeRun Inet.plain ⟨none, none, false⟩ allWhole .initial
      (⟨c, [] ++ relayedEvent .closed :: [], [(relayedEvent .opened, 5)]⟩ : Bridge Nat) :=
    hserved.tail (.run 5 nofun)
  have hrun : BridgeRun Inet.plain ⟨none, none, false⟩ allWhole .initial
      (⟨c, [], [(relayedEvent .opened, 5), (relayedEvent .closed, 6)]⟩ : Bridge Nat) :=
    hopened.tail (.run 6 nofun)
  have hfits : c.world.nextConnectionIdentifierValue ≤ 2 ^ 63 := by
    rw [hnext]
    decide
  exact ⟨_, hrun, rfl, (connections_portrayed hrun hfits).1.settled hover rfl⟩

end Result

end TwoSocks
