/-
Which ended connections the app remembers.

The history of a view model is the list of rows its events ask for, and `KeepsNewest` says
what its ended rows should be: the hundred whose events came last, of all connections whose
last event ended them.

`trimEndedConnections` walks `connectionOrder` from its end, so it is the connections that
ended first that it counts first, and the one it finds past the limit is the one that has
just ended.  `trim_connectionsByID` says which rows go.  As long as no more than a hundred
connections have ended nothing goes, and the table is the history (`tracks_run`); the event
that makes it a hundred and one loses its own row (`newest_lost`).
-/
import TwoSocks.Program.Recency
import TwoSocks.App.ViewModel

namespace TwoSocks

open Recency

variable {Date : Type}

def TrackedConnection.ended (c : TrackedConnection Date) : Bool := decide (c.state ≠ .opened)

/-- The row a call asks for, if the call is valid. -/
def Delivery.row (d : Delivery Date) : Option (TrackedConnection Date) := do
  let protocolType ← ProxyConnectionProtocol.ofRawValue d.protocolRaw
  let state ← ProxyConnectionState.ofRawValue d.stateRaw
  return ⟨d.id, connectionTitle d.host d.port, protocolType, state, d.now,
    if state = .error then some d.errorCode else none⟩

theorem Delivery.row_id {d : Delivery Date} {c : TrackedConnection Date} (h : d.row = some c) :
    d.id = c.id := by
  unfold Delivery.row at h
  cases hp : ProxyConnectionProtocol.ofRawValue d.protocolRaw with
  | none => simp [hp] at h
  | some protocolType =>
    cases hs : ProxyConnectionState.ofRawValue d.stateRaw with
    | none => simp [hp, hs] at h
    | some state =>
      simp only [hp, hs, Option.bind_eq_bind, Option.bind_some, Option.pure_def,
        Option.some.injEq] at h
      rw [← h]

/-- The rows asked for by the valid calls. -/
def history (ds : List (Delivery Date)) : List (TrackedConnection Date) :=
  ds.filterMap Delivery.row

/-- The last row asked for under an identifier. -/
abbrev latestRow (ds : List (Delivery Date)) : Int64 → Option (TrackedConnection Date) :=
  latest TrackedConnection.id (history ds)

/-- The identifiers whose last event is terminal, the last to be heard of in front. -/
def endedIds (ds : List (Delivery Date)) : List Int64 :=
  recentWhere TrackedConnection.id TrackedConnection.ended (history ds)

/-- The ended connections that are kept and shown are the last that were heard of. -/
structure KeepsNewest (ds : List (Delivery Date)) : Prop where
  retained : ∀ id c, (ContentViewVM.run ds).connectionsByID id = some c ∧ c.ended ↔
    id ∈ (endedIds ds).take maxRetainedEndedConnections ∧ latestRow ds id = some c
  published : (ContentViewVM.run ds).recentConnections =
    ((endedIds ds).take maxRetainedEndedConnections).filterMap (latestRow ds)
  /-- What is discarded is older than whatever is kept. -/
  discarded : ∀ old ∈ endedIds ds, (ContentViewVM.run ds).connectionsByID old = none →
    ∀ id c, (ContentViewVM.run ds).connectionsByID id = some c → c.ended →
      Since TrackedConnection.id (history ds) id old

namespace ContentViewVM

/-! ### One event -/

/-- A valid call writes its row, trims and publishes; any other changes nothing. -/
theorem deliver_eq (vm : ContentViewVM Date) (d : Delivery Date) :
    vm.deliver d = match d.row with
      | none => vm
      | some c =>
          (vm.track c.id c.title c.protocolType c.state c.updatedAt
            c.errorCode).trimEndedConnections.publishConnections := by
  unfold deliver handleConnectionEvent Delivery.row
  cases ProxyConnectionProtocol.ofRawValue d.protocolRaw with
  | none => rfl
  | some protocolType =>
    cases ProxyConnectionState.ofRawValue d.stateRaw with
    | none => rfl
    | some state => rfl

/-- The table holds the whole history. -/
structure Tracks (vm : ContentViewVM Date) (rows : List (TrackedConnection Date)) : Prop where
  byID : vm.connectionsByID = latest TrackedConnection.id rows
  order : vm.connectionOrder = recent TrackedConnection.id rows

/-- Whichever way a row is written, it is stored under its identifier... -/
theorem track_connectionsByID {vm : ContentViewVM Date} {c : TrackedConnection Date}
    (hid : ∀ e, vm.connectionsByID c.id = some e → e.id = c.id) :
    (vm.track c.id c.title c.protocolType c.state c.updatedAt c.errorCode).connectionsByID =
      Function.update vm.connectionsByID c.id (some c) := by
  unfold ContentViewVM.track
  cases hold : vm.connectionsByID c.id with
  | some existing => simp [moveConnectionToFront, hid existing hold]
  | none => rfl

/-- ...and the identifier is in front. -/
theorem track_connectionOrder {vm : ContentViewVM Date} {c : TrackedConnection Date}
    (hnew : vm.connectionsByID c.id = none → c.id ∉ vm.connectionOrder) :
    (vm.track c.id c.title c.protocolType c.state c.updatedAt c.errorCode).connectionOrder =
      c.id :: vm.connectionOrder.filter (· ≠ c.id) := by
  unfold ContentViewVM.track
  cases hold : vm.connectionsByID c.id with
  | some existing => rfl
  | none =>
    have hall : vm.connectionOrder.filter (· ≠ c.id) = vm.connectionOrder := by
      refine List.filter_eq_self.mpr fun k hk => ?_
      simpa using fun heq : k = c.id => hnew hold (heq ▸ hk)
    rw [hall]

theorem Tracks.track {vm : ContentViewVM Date} {rows : List (TrackedConnection Date)}
    (h : Tracks vm rows) (c : TrackedConnection Date) :
    Tracks (vm.track c.id c.title c.protocolType c.state c.updatedAt c.errorCode)
      (rows ++ [c]) := by
  refine ⟨?_, ?_⟩
  · rw [track_connectionsByID fun e he => latest_key (h.byID ▸ he), latest_append, h.byID]
  · rw [track_connectionOrder, recent_append, h.order]
    intro hold
    rw [h.order, ← latest_isSome, ← h.byID, hold]
    simp

/-! ### Trimming -/

/-- The identifiers in `ids` whose connections have ended. -/
def endedIn (connectionsByID : Int64 → Option (TrackedConnection Date)) (ids : List Int64) :
    List Int64 :=
  ids.filter fun id => (connectionsByID id).any TrackedConnection.ended

/-- The scan collects the ended connections past the limit. -/
theorem mem_scan (connectionsByID : Int64 → Option (TrackedConnection Date)) (ids : List Int64)
    (endedCount : Nat) (found : List Int64) (id : Int64) :
    id ∈ (ids.foldl (trimRound connectionsByID) (endedCount, found)).2 ↔
      id ∈ found ∨
        id ∈ (endedIn connectionsByID ids).drop (maxRetainedEndedConnections - endedCount) := by
  induction ids generalizing endedCount found with
  | nil => simp [endedIn]
  | cons a ids ih =>
    rw [List.foldl_cons]
    cases hrow : connectionsByID a with
    | none =>
      have hskip : endedIn connectionsByID (a :: ids) = endedIn connectionsByID ids := by
        simp [endedIn, hrow]
      simp only [trimRound, hrow]
      rw [ih, hskip]
    | some c =>
      by_cases hopen : c.state = .opened
      · have hskip : endedIn connectionsByID (a :: ids) = endedIn connectionsByID ids := by
          simp [endedIn, hrow, TrackedConnection.ended, hopen]
        simp only [trimRound, hrow, hopen, if_true]
        rw [ih, hskip]
      · have hcount : endedIn connectionsByID (a :: ids) = a :: endedIn connectionsByID ids := by
          simp [endedIn, hrow, TrackedConnection.ended, hopen]
        simp only [trimRound, hrow, hopen, if_false]
        rw [ih, hcount]
        by_cases hfull : endedCount + 1 > maxRetainedEndedConnections
        · rw [if_pos hfull, List.mem_insert_iff,
            show maxRetainedEndedConnections - (endedCount + 1) = 0 by omega,
            show maxRetainedEndedConnections - endedCount = 0 by omega]
          simp only [List.drop_zero, List.mem_cons]
          tauto
        · rw [if_neg hfull, show maxRetainedEndedConnections - endedCount =
            (maxRetainedEndedConnections - (endedCount + 1)) + 1 by omega, List.drop_succ_cons]

/-- The identifiers that `trimEndedConnections` removes: of the ended connections, those
beyond the hundred at the end of `connectionOrder`. -/
def surplus (vm : ContentViewVM Date) : List Int64 :=
  (endedIn vm.connectionsByID vm.connectionOrder).reverse.drop maxRetainedEndedConnections

theorem mem_idsToRemove (vm : ContentViewVM Date) (id : Int64) :
    id ∈ (vm.connectionOrder.reverse.foldl (trimRound vm.connectionsByID) (0, [])).2 ↔
      id ∈ vm.surplus := by
  rw [mem_scan]
  simp [surplus, endedIn, List.filter_reverse]

/-- The order in which rows are removed does not matter. -/
theorem foldl_removeValue (ids : List Int64)
    (connectionsByID : Int64 → Option (TrackedConnection Date)) (id : Int64) :
    ids.foldl removeValue connectionsByID id = if id ∈ ids then none else connectionsByID id := by
  induction ids generalizing connectionsByID with
  | nil => simp
  | cons a ids ih =>
    rw [List.foldl_cons, ih]
    by_cases h : id = a
    · simp [removeValue, h]
    · simp [removeValue, h]

theorem trim_connectionsByID (vm : ContentViewVM Date) (id : Int64) :
    vm.trimEndedConnections.connectionsByID id =
      if id ∈ vm.surplus then none else vm.connectionsByID id := by
  have hmem := vm.mem_idsToRemove
  unfold trimEndedConnections
  generalize (vm.connectionOrder.reverse.foldl (trimRound vm.connectionsByID) (0, [])).2 =
    idsToRemove at hmem ⊢
  simp only [← hmem id]
  cases idsToRemove with
  | nil => simp
  | cons a ids => exact foldl_removeValue _ _ _

theorem trim_connectionOrder (vm : ContentViewVM Date) :
    vm.trimEndedConnections.connectionOrder =
      vm.connectionOrder.filter fun id => id ∉ vm.surplus := by
  have hmem := vm.mem_idsToRemove
  unfold trimEndedConnections
  generalize (vm.connectionOrder.reverse.foldl (trimRound vm.connectionsByID) (0, [])).2 =
    idsToRemove at hmem ⊢
  simp only [← hmem]
  cases idsToRemove with
  | nil => simp
  | cons a ids => rfl

theorem Tracks.endedIn_eq {vm : ContentViewVM Date} {rows : List (TrackedConnection Date)}
    (h : Tracks vm rows) : endedIn vm.connectionsByID vm.connectionOrder =
      recentWhere TrackedConnection.id TrackedConnection.ended rows := by
  rw [h.byID, h.order]
  rfl

/-- Nothing is removed while no more than a hundred connections have ended. -/
theorem Tracks.trim {vm : ContentViewVM Date} {rows : List (TrackedConnection Date)}
    (h : Tracks vm rows)
    (hfew : (recentWhere TrackedConnection.id TrackedConnection.ended rows).length ≤
      maxRetainedEndedConnections) : Tracks vm.trimEndedConnections rows := by
  have hnone : vm.surplus = [] := by
    unfold surplus
    rw [h.endedIn_eq, List.drop_eq_nil_iff, List.length_reverse]
    exact hfew
  refine ⟨?_, ?_⟩
  · rw [← h.byID]
    funext id
    rw [trim_connectionsByID, hnone]
    simp
  · rw [trim_connectionOrder, hnone, ← h.order]
    simp

/-! ### Publishing -/

/-- The ended rows that are shown are those of the table, in its order. -/
theorem publish_recentConnections (vm : ContentViewVM Date) :
    vm.publishConnections.recentConnections =
      (endedIn vm.connectionsByID vm.connectionOrder).filterMap vm.connectionsByID := by
  have hlive : ∀ cs : List (TrackedConnection Date),
      (cs.filter fun c => c.state = .opened).filter TrackedConnection.ended = [] := by
    intro cs
    rw [List.filter_filter, List.filter_eq_nil_iff]
    simp [TrackedConnection.ended]
  show ((_ ++ List.filter TrackedConnection.ended _).filter TrackedConnection.ended) = _
  rw [List.filter_append, hlive, List.filter_filter, filter_filterMap]
  simp only [Bool.and_self, List.nil_append]
  rfl

/-- What is shown is always up to date. -/
theorem run_published (ds : List (Delivery Date)) : (run ds).publishConnections = run ds := by
  induction ds using List.reverseRecOn with
  | nil => rfl
  | append_singleton ds d ih =>
    rw [run_append, deliver_eq]
    cases d.row with
    | none => exact ih
    | some c => rfl

end ContentViewVM

open ContentViewVM

/-! ### Runs -/

theorem history_append (ds : List (Delivery Date)) (d : Delivery Date) :
    history (ds ++ [d]) = history ds ++ d.row.toList := by
  unfold history
  rw [List.filterMap_append]
  cases h : d.row <;> simp [h]

/-- At no point of `ds` have more than a hundred connections ended. -/
def FewEnded (ds : List (Delivery Date)) : Prop :=
  ∀ past, past <+: ds → (endedIds past).length ≤ maxRetainedEndedConnections

theorem FewEnded.past {ds past : List (Delivery Date)} (h : FewEnded ds) (hpast : past <+: ds) :
    FewEnded past :=
  fun earlier hearlier => h earlier (hearlier.trans hpast)

/-- Until then the table is the history. -/
theorem tracks_run {ds : List (Delivery Date)} (h : FewEnded ds) :
    Tracks (run ds) (history ds) := by
  induction ds using List.reverseRecOn with
  | nil => exact ⟨rfl, rfl⟩
  | append_singleton ds d ih =>
    have hds := ih (h.past (List.prefix_append ds [d]))
    have hfew := h _ List.prefix_rfl
    unfold endedIds at hfew
    rw [history_append] at hfew ⊢
    rw [run_append, deliver_eq]
    cases hrow : d.row with
    | none =>
      rw [Option.toList_none, List.append_nil]
      exact hds
    | some c =>
      rw [hrow] at hfew
      obtain ⟨hbyID, horder⟩ := (hds.track c).trim hfew
      exact ⟨hbyID, horder⟩

theorem FewEnded.keepsNewest {ds : List (Delivery Date)} (h : FewEnded ds) : KeepsNewest ds := by
  have htable := tracks_run h
  have hall : (endedIds ds).take maxRetainedEndedConnections = endedIds ds :=
    List.take_of_length_le (h ds List.prefix_rfl)
  refine ⟨?_, ?_, ?_⟩
  · intro id c
    rw [hall, htable.byID]
    unfold endedIds
    rw [mem_recentWhere]
    constructor
    · rintro ⟨hc, hended⟩
      exact ⟨⟨c, hc, hended⟩, hc⟩
    · rintro ⟨⟨c', hc', hended⟩, hc⟩
      have heq : c' = c := Option.some.inj (hc'.symm.trans hc)
      exact ⟨hc, heq ▸ hended⟩
  · rw [hall, ← run_published, publish_recentConnections, htable.byID, htable.order]
    rfl
  · intro old hold hgone
    obtain ⟨c, hc, -⟩ := mem_recentWhere.mp hold
    rw [htable.byID, hc] at hgone
    cases hgone

/-- The event that makes it too many loses its own row: the scan reaches the identifier at
the front of the order last. -/
theorem newest_lost {ds : List (Delivery Date)} {d : Delivery Date} (h : FewEnded ds)
    (hmany : maxRetainedEndedConnections < (endedIds (ds ++ [d])).length) :
    ∃ c, d.row = some c ∧ c.ended ∧ (run (ds ++ [d])).connectionsByID c.id = none := by
  have hfew := h ds List.prefix_rfl
  unfold endedIds at hfew hmany
  rw [history_append] at hmany
  cases hrow : d.row with
  | none =>
    rw [hrow, Option.toList_none, List.append_nil] at hmany
    omega
  | some c =>
    rw [hrow, Option.toList_some, recentWhere_append] at hmany
    have hle := List.length_filter_le (· ≠ c.id)
      (recentWhere TrackedConnection.id TrackedConnection.ended (history ds))
    have hended : c.ended = true := by
      by_contra hopen
      rw [if_neg hopen] at hmany
      omega
    rw [if_pos hended, List.length_cons] at hmany
    refine ⟨c, rfl, hended, ?_⟩
    have htable := (tracks_run h).track c
    rw [run_append, deliver_eq, hrow]
    show (ContentViewVM.trimEndedConnections _).connectionsByID c.id = none
    rw [trim_connectionsByID, if_pos]
    unfold surplus
    rw [htable.endedIn_eq, recentWhere_append, if_pos hended, List.reverse_cons,
      List.drop_append_of_le_length (by rw [List.length_reverse]; omega)]
    exact List.mem_append_right _ (List.mem_singleton_self _)

/-- Losing the row that was heard of last is not keeping the newest. -/
theorem not_keepsNewest {ds : List (Delivery Date)} {d : Delivery Date} (h : FewEnded ds)
    (hmany : maxRetainedEndedConnections < (endedIds (ds ++ [d])).length) :
    ¬ KeepsNewest (ds ++ [d]) := by
  intro hkeeps
  obtain ⟨c, hrow, hended, hlost⟩ := newest_lost h hmany
  have hhistory : history (ds ++ [d]) = history ds ++ [c] := by
    rw [history_append, hrow]
    rfl
  have hlatest : latestRow (ds ++ [d]) c.id = some c := by
    rw [latestRow, hhistory, latest_append, Function.update_self]
  have hfront : c.id ∈ (endedIds (ds ++ [d])).take maxRetainedEndedConnections := by
    unfold endedIds
    rw [hhistory, recentWhere_append, if_pos hended]
    exact List.mem_cons_self
  have hkept := ((hkeeps.retained c.id c).mpr ⟨hfront, hlatest⟩).1
  rw [hlost] at hkept
  cases hkept

theorem fewEnded_append {ds : List (Delivery Date)} {d : Delivery Date} :
    FewEnded (ds ++ [d]) ↔
      FewEnded ds ∧ (endedIds (ds ++ [d])).length ≤ maxRetainedEndedConnections := by
  constructor
  · intro h
    exact ⟨h.past (List.prefix_append ds [d]), h _ List.prefix_rfl⟩
  · rintro ⟨hds, hlast⟩ past hpast
    rcases List.prefix_concat_iff.mp hpast with rfl | hpast
    · simpa using hlast
    · exact hds past hpast

theorem fewEnded_of_length {ds : List (Delivery Date)}
    (h : ds.length ≤ maxRetainedEndedConnections) : FewEnded ds := by
  intro past hpast
  calc (endedIds past).length
    _ ≤ (history past).length := length_recentWhere_le _
    _ ≤ past.length := List.length_filterMap_le _ _
    _ ≤ ds.length := hpast.length_le
    _ ≤ maxRetainedEndedConnections := h

/-- The app remembers the right ended connections for as long as there is nothing to
forget. -/
theorem keepsNewest_iff (ds : List (Delivery Date)) :
    (∀ past, past <+: ds → KeepsNewest past) ↔
      ∀ past, past <+: ds → (endedIds past).length ≤ maxRetainedEndedConnections := by
  constructor
  · intro hkeeps
    show FewEnded ds
    induction ds using List.reverseRecOn with
    | nil =>
      intro past hpast
      rw [List.prefix_nil.mp hpast]
      exact Nat.zero_le _
    | append_singleton ds d ih =>
      have hds := ih fun past hpast => hkeeps past (hpast.trans (List.prefix_append ds [d]))
      refine fewEnded_append.mpr ⟨hds, ?_⟩
      by_contra hmany
      exact not_keepsNewest hds (by omega) (hkeeps _ List.prefix_rfl)
  · intro h past hpast
    exact FewEnded.keepsNewest (FewEnded.past h hpast)

/-- The refusal of connection `i + 1`. -/
def refusal (i : Nat) : Delivery Nat := ⟨Int64.ofNat (i + 1), 0, 2, "192.0.2.1", 80, 5, i⟩

/-- After a hundred and one refusals in a row it is the last that is not shown. -/
theorem last_refusal_lost : (∀ d ∈ (List.range 101).map refusal, d.row.isSome) ∧
    (run ((List.range 101).map refusal)).connectionsByID 101 = none ∧
    ¬ KeepsNewest ((List.range 101).map refusal) := by
  have hfew : FewEnded ((List.range 100).map refusal) := by
    refine fewEnded_of_length ?_
    rw [List.length_map, List.length_range]
    exact Nat.le_refl _
  have hsplit : (List.range 101).map refusal = (List.range 100).map refusal ++ [refusal 100] := by
    rw [List.range_succ, List.map_append]
    rfl
  have hmany : maxRetainedEndedConnections <
      (endedIds ((List.range 101).map refusal)).length := by decide +kernel
  refine ⟨?_, ?_⟩
  · intro d hd
    obtain ⟨i, -, rfl⟩ := List.mem_map.mp hd
    rfl
  rw [hsplit] at hmany ⊢
  obtain ⟨c, hrow, -, hlost⟩ := newest_lost hfew hmany
  have hid : c.id = 101 := (Delivery.row_id hrow).symm
  rw [hid] at hlost
  exact ⟨hlost, not_keepsNewest hfew hmany⟩

end TwoSocks
