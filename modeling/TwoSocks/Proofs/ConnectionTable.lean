/-
The connection list is in order.

`connectionsByID` and `connectionOrder` are written by different lines of the source, and
the published list is made from both.  `Retains` is what ties them to the history: the order
is part of the order in which identifiers were last heard of, it names the identifiers
that have a row, a row that is kept is the last that was asked for, and the row of an open
connection is kept.

Every line keeps it.  `trimEndedConnections` could only break the last part, and does not
because it takes ended connections alone; that no more than a hundred of them are left is
`trim_few`, whichever end the scan starts from.
-/
import TwoSocks.Proofs.Connections

namespace TwoSocks

open Recency

variable {Date : Type}

namespace ContentViewVM

variable {vm : ContentViewVM Date} {rows : List (TrackedConnection Date)}

/-- The tables agree with each other and with the history. -/
structure Retains (vm : ContentViewVM Date) (rows : List (TrackedConnection Date)) : Prop where
  order : vm.connectionOrder.Sublist (recent TrackedConnection.id rows)
  keys : ∀ id, id ∈ vm.connectionOrder ↔ (vm.connectionsByID id).isSome
  newest : ∀ id c, vm.connectionsByID id = some c → latest TrackedConnection.id rows id = some c
  opens : ∀ id c, latest TrackedConnection.id rows id = some c → c.state = .opened →
    vm.connectionsByID id = some c

theorem Retains.stored (h : Retains vm rows) {id : Int64} {c : TrackedConnection Date}
    (hc : vm.connectionsByID id = some c) : c.id = id := latest_key (h.newest id c hc)

theorem Retains.track (h : Retains vm rows) (c : TrackedConnection Date) :
    Retains (vm.track c.id c.title c.protocolType c.state c.updatedAt c.errorCode)
      (rows ++ [c]) := by
  have hbyID := track_connectionsByID (c := c) fun e he => h.stored he
  have horder := track_connectionOrder (c := c) fun hold hmem => by
    rw [h.keys, hold] at hmem
    cases hmem
  refine ⟨?_, fun id => ?_, fun id c' => ?_, fun id c' => ?_⟩
  · rw [horder, recent_append]
    exact (h.order.filter _).cons_cons _
  · rw [horder, hbyID, List.mem_cons, List.mem_filter, h.keys]
    by_cases hid : id = c.id
    · simp [hid]
    · simp [hid]
  · rw [hbyID, latest_append]
    by_cases hid : id = c.id
    · subst hid
      simp
    · rw [Function.update_of_ne hid, Function.update_of_ne hid]
      exact h.newest id c'
  · rw [hbyID, latest_append]
    by_cases hid : id = c.id
    · subst hid
      rw [Function.update_self, Function.update_self]
      exact fun hc _ => hc
    · rw [Function.update_of_ne hid, Function.update_of_ne hid]
      exact h.opens id c'

/-- Only ended connections are trimmed. -/
theorem ended_of_mem_surplus {id : Int64} (h : id ∈ vm.surplus) :
    id ∈ vm.connectionOrder ∧ (vm.connectionsByID id).any TrackedConnection.ended := by
  have hmem := List.mem_of_mem_drop h
  rw [List.mem_reverse] at hmem
  exact List.mem_filter.mp hmem

theorem Retains.trim (h : Retains vm rows) : Retains vm.trimEndedConnections rows := by
  refine ⟨?_, fun id => ?_, fun id c => ?_, fun id c hc hopen => ?_⟩
  · rw [trim_connectionOrder]
    exact List.filter_sublist.trans h.order
  · rw [trim_connectionOrder, trim_connectionsByID, List.mem_filter, h.keys]
    by_cases hid : id ∈ vm.surplus
    · simp [hid]
    · simp [hid]
  · rw [trim_connectionsByID]
    split
    · simp
    · exact h.newest id c
  · have hrow := h.opens id c hc hopen
    rw [trim_connectionsByID, if_neg, hrow]
    intro hid
    have hended := (ended_of_mem_surplus hid).2
    rw [hrow] at hended
    simp [TrackedConnection.ended, hopen] at hended

/-- What is left of a list without the elements it has past its first `n` is no longer
than `n`. -/
theorem length_filter_notMem_drop {κ : Type} [DecidableEq κ] (l : List κ) (n : Nat) :
    (l.filter fun a => a ∉ l.drop n).length ≤ n := by
  have hnone : (l.drop n).filter (fun a => a ∉ l.drop n) = [] := by
    rw [List.filter_eq_nil_iff]
    simp
  calc (l.filter fun a => a ∉ l.drop n).length
    _ = ((l.take n ++ l.drop n).filter fun a => a ∉ l.drop n).length := by
      rw [List.take_append_drop]
    _ = ((l.take n).filter fun a => a ∉ l.drop n).length := by
      rw [List.filter_append, hnone, List.append_nil]
    _ ≤ (l.take n).length := List.length_filter_le _ _
    _ ≤ n := List.length_take_le _ _

/-- No more than a hundred ended connections are left. -/
theorem trim_few (vm : ContentViewVM Date) :
    (endedIn vm.trimEndedConnections.connectionsByID
      vm.trimEndedConnections.connectionOrder).length ≤ maxRetainedEndedConnections := by
  have hleft : endedIn vm.trimEndedConnections.connectionsByID
      vm.trimEndedConnections.connectionOrder =
        (endedIn vm.connectionsByID vm.connectionOrder).filter fun id => id ∉ vm.surplus := by
    unfold endedIn
    rw [trim_connectionOrder, List.filter_filter, List.filter_filter]
    refine List.filter_congr fun id _ => ?_
    rw [trim_connectionsByID]
    by_cases hid : id ∈ vm.surplus
    · simp [hid]
    · simp [hid]
  rw [hleft, ← List.length_reverse, ← List.filter_reverse]
  exact length_filter_notMem_drop _ _

/-! ### What is published -/

/-- The rows of one kind that a list of identifiers has. -/
def rowsOf (vm : ContentViewVM Date) (p : TrackedConnection Date → Bool) :
    List (TrackedConnection Date) :=
  (vm.connectionOrder.filter fun id => (vm.connectionsByID id).any p).filterMap vm.connectionsByID

theorem publish_connections (vm : ContentViewVM Date) : vm.publishConnections.connections =
    vm.rowsOf (fun c => c.state = .opened) ++ vm.rowsOf TrackedConnection.ended := by
  unfold publishConnections rowsOf
  rw [← filter_filterMap, ← filter_filterMap]
  rfl

theorem publish_liveConnections (vm : ContentViewVM Date) :
    vm.publishConnections.liveConnections = vm.rowsOf fun c => c.state = .opened := by
  have hended : ∀ cs : List (TrackedConnection Date),
      (cs.filter TrackedConnection.ended).filter (fun c => c.state = .opened) = [] := by
    intro cs
    rw [List.filter_filter, List.filter_eq_nil_iff]
    simp [TrackedConnection.ended]
  unfold liveConnections
  rw [publish_connections, List.filter_append]
  unfold rowsOf
  rw [← filter_filterMap, ← filter_filterMap, hended, List.filter_filter]
  simp

theorem Retains.rowsOf_ids (h : Retains vm rows) (p : TrackedConnection Date → Bool) :
    (vm.rowsOf p).map TrackedConnection.id =
      vm.connectionOrder.filter fun id => (vm.connectionsByID id).any p := by
  refine map_filterMap_key fun id hid => ?_
  obtain ⟨c, hc⟩ := Option.isSome_iff_exists.mp ((h.keys id).mp (List.mem_filter.mp hid).1)
  exact ⟨c, hc, h.stored hc⟩

/-- The rows of one kind are in the order in which their last events arrived. -/
theorem Retains.rowsOf_newest (h : Retains vm rows) (p : TrackedConnection Date → Bool) :
    ((vm.rowsOf p).map TrackedConnection.id).Pairwise (Since TrackedConnection.id rows) := by
  rw [h.rowsOf_ids]
  exact (recent_pairwise rows).sublist (List.filter_sublist.trans h.order)

theorem Retains.mem_rowsOf (h : Retains vm rows) {p : TrackedConnection Date → Bool}
    {c : TrackedConnection Date} :
    c ∈ vm.rowsOf p ↔ vm.connectionsByID c.id = some c ∧ p c := by
  unfold rowsOf
  simp only [List.mem_filterMap, List.mem_filter]
  constructor
  · rintro ⟨id, ⟨-, hp⟩, hc⟩
    rw [hc] at hp
    exact ⟨h.stored hc ▸ hc, hp⟩
  · rintro ⟨hc, hp⟩
    refine ⟨c.id, ⟨?_, ?_⟩, hc⟩
    · rw [h.keys, hc]
      rfl
    · rw [hc]
      exact hp

end ContentViewVM

open ContentViewVM

/-! ### Runs -/

/-- An event with raw values that no protocol or no state has. -/
def Delivery.Unknown (d : Delivery Date) : Prop :=
  ProxyConnectionProtocol.ofRawValue d.protocolRaw = none ∨
    ProxyConnectionState.ofRawValue d.stateRaw = none

theorem Delivery.Unknown.row {d : Delivery Date} (h : d.Unknown) : d.row = none := by
  unfold Delivery.row
  rcases h with h | h
  · simp [h]
  · cases ProxyConnectionProtocol.ofRawValue d.protocolRaw <;> simp [h]

theorem Delivery.row_errorCode {d : Delivery Date} {c : TrackedConnection Date}
    (h : d.row = some c) (hec : c.errorCode ≠ none) : c.state = .error := by
  unfold Delivery.row at h
  cases hp : ProxyConnectionProtocol.ofRawValue d.protocolRaw with
  | none => simp [hp] at h
  | some protocolType =>
    cases hs : ProxyConnectionState.ofRawValue d.stateRaw with
    | none => simp [hp, hs] at h
    | some state =>
      simp only [hp, hs, Option.bind_eq_bind, Option.bind_some, Option.pure_def,
        Option.some.injEq] at h
      subst h
      by_contra hstate
      exact hec (if_neg hstate)

theorem retains_run (ds : List (Delivery Date)) : Retains (run ds) (history ds) := by
  induction ds using List.reverseRecOn with
  | nil => exact ⟨List.nil_sublist _, by simp [run, initial], nofun, nofun⟩
  | append_singleton ds d ih =>
    rw [history_append, run_append, deliver_eq]
    cases d.row with
    | none =>
      rw [Option.toList_none, List.append_nil]
      exact ih
    | some c =>
      obtain ⟨horder, hkeys, hnewest, hopens⟩ := (ih.track c).trim
      exact ⟨horder, hkeys, hnewest, hopens⟩

/-- No more than a hundred ended connections are ever kept. -/
theorem few_run (ds : List (Delivery Date)) :
    (endedIn (run ds).connectionsByID (run ds).connectionOrder).length ≤
      maxRetainedEndedConnections := by
  induction ds using List.reverseRecOn with
  | nil => exact Nat.zero_le _
  | append_singleton ds d ih =>
    rw [run_append, deliver_eq]
    cases d.row with
    | none => exact ih
    | some c => exact trim_few _

theorem run_liveConnections (ds : List (Delivery Date)) :
    (run ds).liveConnections = (run ds).rowsOf fun c => c.state = .opened := by
  rw [← run_published]
  exact publish_liveConnections _

theorem run_recentConnections (ds : List (Delivery Date)) :
    (run ds).recentConnections = (run ds).rowsOf TrackedConnection.ended := by
  rw [← run_published]
  exact publish_recentConnections _

/-- What holds of the connection list after a sequence of calls. -/
structure ConnectionTable (ds : List (Delivery Date)) : Prop where
  order_nodup : (run ds).connectionOrder.Nodup
  order_keys : ∀ id, id ∈ (run ds).connectionOrder ↔ ((run ds).connectionsByID id).isSome
  stored : ∀ id c, (run ds).connectionsByID id = some c → c.id = id
  /-- Each identifier is shown at most once... -/
  published_nodup : ((run ds).connections.map TrackedConnection.id).Nodup
  /-- ...the open connections first... -/
  published_open_first :
    (run ds).connections = (run ds).liveConnections ++ (run ds).recentConnections
  /-- ...and in both groups the last to be heard of in front. -/
  live_newest : ((run ds).liveConnections.map TrackedConnection.id).Pairwise
    (Since TrackedConnection.id (history ds))
  ended_newest : ((run ds).recentConnections.map TrackedConnection.id).Pairwise
    (Since TrackedConnection.id (history ds))
  open_iff : ∀ id, id ∈ (run ds).liveConnections.map TrackedConnection.id ↔
    ∃ c, latestRow ds id = some c ∧ c.state = .opened
  /-- An ended connection is shown as long as it is kept... -/
  ended_iff : ∀ id, id ∈ (run ds).recentConnections.map TrackedConnection.id ↔
    ∃ c, (run ds).connectionsByID id = some c ∧ c.state ≠ .opened
  /-- ...and every row that is kept is shown as it is. -/
  published_iff : ∀ c, c ∈ (run ds).connections ↔ (run ds).connectionsByID c.id = some c
  /-- A row that is shown is the last that was asked for. -/
  published_latest : ∀ c ∈ (run ds).connections, latestRow ds c.id = some c
  published_errorCode : ∀ c ∈ (run ds).connections, c.errorCode ≠ none → c.state = .error
  few : (endedIn (run ds).connectionsByID (run ds).connectionOrder).length ≤
    maxRetainedEndedConnections
  unknown : ∀ d : Delivery Date, d.Unknown → run (ds ++ [d]) = run ds

theorem connectionTable (ds : List (Delivery Date)) : ConnectionTable ds := by
  have h := retains_run ds
  have hlive := run_liveConnections ds
  have hended := run_recentConnections ds
  have hfirst : (run ds).connections =
      (run ds).liveConnections ++ (run ds).recentConnections := by
    rw [hlive, hended, ← publish_connections, run_published]
  have hnodup : (run ds).connectionOrder.Nodup := (recent_nodup (history ds)).sublist h.order
  have hstored : ∀ c ∈ (run ds).connections, (run ds).connectionsByID c.id = some c := by
    intro c hc
    rw [hfirst, hlive, hended] at hc
    rcases List.mem_append.mp hc with hc | hc
    · exact (h.mem_rowsOf.mp hc).1
    · exact (h.mem_rowsOf.mp hc).1
  have hnewest : ∀ c ∈ (run ds).connections, latestRow ds c.id = some c :=
    fun c hc => h.newest c.id c (hstored c hc)
  refine ⟨hnodup, h.keys, fun id c => h.stored, ?_, hfirst, ?_, ?_, fun id => ?_, fun id => ?_,
    fun c => ⟨hstored c, fun hc => ?_⟩, hnewest, ?_, few_run ds, ?_⟩
  · rw [hfirst, hlive, hended, List.map_append, h.rowsOf_ids, h.rowsOf_ids]
    refine List.Nodup.append (hnodup.filter _) (hnodup.filter _) fun id hopen hother => ?_
    have hopen := (List.mem_filter.mp hopen).2
    have hother := (List.mem_filter.mp hother).2
    cases hrow : (run ds).connectionsByID id with
    | none => simp [hrow] at hopen
    | some c =>
      rw [hrow] at hopen hother
      simp only [Option.any_some, decide_eq_true_eq, TrackedConnection.ended] at hopen hother
      exact hother hopen
  · rw [hlive]
    exact h.rowsOf_newest _
  · rw [hended]
    exact h.rowsOf_newest _
  · rw [hlive, List.mem_map]
    constructor
    · rintro ⟨c, hc, rfl⟩
      obtain ⟨hrow, hopen⟩ := h.mem_rowsOf.mp hc
      exact ⟨c, h.newest c.id c hrow, by simpa using hopen⟩
    · rintro ⟨c, hc, hopen⟩
      have hid : c.id = id := latest_key hc
      exact ⟨c, h.mem_rowsOf.mpr ⟨hid ▸ h.opens id c hc hopen, by simpa using hopen⟩, hid⟩
  · rw [hended, List.mem_map]
    constructor
    · rintro ⟨c, hc, rfl⟩
      obtain ⟨hrow, hover⟩ := h.mem_rowsOf.mp hc
      exact ⟨c, hrow, by simpa [TrackedConnection.ended] using hover⟩
    · rintro ⟨c, hc, hover⟩
      have hid : c.id = id := h.stored hc
      have hrow : (run ds).connectionsByID c.id = some c := hid ▸ hc
      exact ⟨c, h.mem_rowsOf.mpr ⟨hrow, by simpa [TrackedConnection.ended] using hover⟩, hid⟩
  · rw [hfirst, hlive, hended, List.mem_append]
    by_cases hopen : c.state = .opened
    · exact .inl (h.mem_rowsOf.mpr ⟨hc, by simpa using hopen⟩)
    · exact .inr (h.mem_rowsOf.mpr ⟨hc, by simpa [TrackedConnection.ended] using hopen⟩)
  · intro c hc
    obtain ⟨d, -, hd⟩ := List.mem_filterMap.mp (mem_of_latest (hnewest c hc))
    exact Delivery.row_errorCode hd
  · intro d hd
    rw [run_append, deliver_eq, hd.row]

end TwoSocks
