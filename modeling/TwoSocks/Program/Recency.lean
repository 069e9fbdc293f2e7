/-
Rows in the order they were last written.

A history of rows, each with a key, gives every key the last row that was written under
it, and gives the keys an order: most recently written first.  Both are read off the whole
history at once, and both change in one place when a row is added at its end, which is
what the `append` lemmas say.

`recentWhere` keeps the keys whose last row is of one kind.  Adding a row can only change
the kind of its own key, so the list grows by at most one.
-/
import Mathlib

namespace TwoSocks.Recency

variable {α κ : Type} [DecidableEq κ] (key : α → κ)

/-- The last row under `k`. -/
def latest (rows : List α) (k : κ) : Option α := (rows.filter fun r => key r = k).getLast?

/-- The keys, most recently written first. -/
def recent (rows : List α) : List κ := (rows.map key).dedup.reverse

/-- The keys whose last row is a `p`, most recently written first. -/
def recentWhere (p : α → Bool) (rows : List α) : List κ :=
  (recent key rows).filter fun k => (latest key rows k).any p

/-- `k` has been written since `k'` was. -/
def Since (rows : List α) (k k' : κ) : Prop :=
  ∃ before after, rows = before ++ after ∧ k ∈ after.map key ∧ k' ∉ after.map key

variable {key} {rows : List α} {k : κ}

theorem latest_key {r : α} (h : latest key rows k = some r) : key r = k := by
  have hmem := List.mem_of_getLast? h
  simpa using (List.mem_filter.mp hmem).2

theorem mem_of_latest {r : α} (h : latest key rows k = some r) : r ∈ rows :=
  (List.mem_filter.mp (List.mem_of_getLast? h)).1

theorem latest_append (rows : List α) (r : α) :
    latest key (rows ++ [r]) = Function.update (latest key rows) (key r) (some r) := by
  funext k
  unfold latest
  by_cases h : k = key r
  · subst h
    simp
  · rw [Function.update_of_ne h, List.filter_append]
    simp [Ne.symm h]

theorem mem_recent : k ∈ recent key rows ↔ ∃ r ∈ rows, key r = k := by
  simp [recent]

theorem latest_isSome : (latest key rows k).isSome ↔ k ∈ recent key rows := by
  unfold latest
  rw [mem_recent, List.getLast?_isSome, ne_eq, List.filter_eq_nil_iff]
  simp

theorem recent_nodup (rows : List α) : (recent key rows).Nodup :=
  List.nodup_reverse.mpr (List.nodup_dedup _)

/-- A duplicate that comes later is the one that is kept. -/
theorem dedup_concat (l : List κ) (a : κ) : (l ++ [a]).dedup = l.dedup.filter (· ≠ a) ++ [a] := by
  induction l with
  | nil => simp
  | cons b l ih =>
    rw [List.cons_append]
    by_cases hb : b ∈ l
    · rw [List.dedup_cons_of_mem (List.mem_append_left _ hb), List.dedup_cons_of_mem hb, ih]
    · rw [List.dedup_cons_of_notMem hb]
      by_cases hba : b = a
      · subst hba
        rw [List.dedup_cons_of_mem (by simp), ih]
        simp
      · rw [List.dedup_cons_of_notMem (by simp [hb, hba]), ih]
        simp [hba]

theorem recent_append (rows : List α) (r : α) :
    recent key (rows ++ [r]) = key r :: (recent key rows).filter (· ≠ key r) := by
  unfold recent
  rw [List.map_append, List.map_singleton, dedup_concat, List.reverse_append, List.filter_reverse]
  rfl

omit [DecidableEq κ] in
theorem Since.append {rows : List α} {k k' : κ} (h : Since key rows k k') {r : α}
    (hr : k' ≠ key r) : Since key (rows ++ [r]) k k' := by
  obtain ⟨before, after, rfl, hk, hk'⟩ := h
  refine ⟨before, after ++ [r], by rw [List.append_assoc], ?_, ?_⟩
  · rw [List.map_append]
    exact List.mem_append_left _ hk
  · rw [List.map_append, List.mem_append, not_or]
    exact ⟨hk', by simpa using hr⟩

/-- The order of the keys is the order in which they were last written. -/
theorem recent_pairwise (rows : List α) : (recent key rows).Pairwise (Since key rows) := by
  induction rows using List.reverseRecOn with
  | nil => exact .nil
  | append_singleton rows r ih =>
    rw [recent_append, List.pairwise_cons]
    refine ⟨fun k' hk' => ?_, ?_⟩
    · have hne : k' ≠ key r := by simpa using (List.mem_filter.mp hk').2
      exact ⟨rows, [r], rfl, by simp, by simpa using hne⟩
    · refine (ih.filter _).imp_of_mem fun {k k'} _ hk' h => h.append ?_
      simpa using (List.mem_filter.mp hk').2

/-! ### The keys whose last row is of one kind -/

variable {p : α → Bool}

theorem mem_recentWhere : k ∈ recentWhere key p rows ↔ ∃ r, latest key rows k = some r ∧ p r := by
  unfold recentWhere
  rw [List.mem_filter, ← latest_isSome]
  cases latest key rows k <;> simp

theorem recentWhere_append (rows : List α) (r : α) :
    recentWhere key p (rows ++ [r]) =
      if p r then key r :: (recentWhere key p rows).filter (· ≠ key r)
      else (recentWhere key p rows).filter (· ≠ key r) := by
  unfold recentWhere
  have hothers : ((recent key rows).filter (· ≠ key r)).filter
        (fun k => (latest key (rows ++ [r]) k).any p) =
      ((recent key rows).filter fun k => (latest key rows k).any p).filter (· ≠ key r) := by
    rw [List.filter_filter, List.filter_filter]
    refine List.filter_congr fun k _ => ?_
    rw [latest_append]
    by_cases h : k = key r
    · simp [h]
    · rw [Function.update_of_ne h]
      simp [h]
  rw [recent_append, List.filter_cons, hothers, latest_append, Function.update_self]
  rfl

omit [DecidableEq κ] in
/-- Choosing rows by their kind is choosing their keys by the kind of the row. -/
theorem filter_filterMap (f : κ → Option α) (p : α → Bool) (ks : List κ) :
    (ks.filterMap f).filter p = (ks.filter fun k => (f k).any p).filterMap f := by
  induction ks with
  | nil => rfl
  | cons k ks ih =>
    cases h : f k with
    | none => simp [h, ih]
    | some r => by_cases hp : p r <;> simp [h, hp, ih]

omit [DecidableEq κ] in
/-- A table whose rows are stored under their own keys lists its keys. -/
theorem map_filterMap_key {f : κ → Option α} {ks : List κ}
    (h : ∀ k ∈ ks, ∃ r, f k = some r ∧ key r = k) : (ks.filterMap f).map key = ks := by
  induction ks with
  | nil => rfl
  | cons k ks ih =>
    obtain ⟨r, hr, hk⟩ := h k List.mem_cons_self
    rw [List.filterMap_cons_some hr, List.map_cons, hk,
      ih fun k' hk' => h k' (List.mem_cons_of_mem _ hk')]

theorem length_recentWhere_append (rows : List α) (r : α) :
    (recentWhere key p (rows ++ [r])).length ≤ (recentWhere key p rows).length + 1 := by
  have hle := List.length_filter_le (· ≠ key r) (recentWhere key p rows)
  rw [recentWhere_append]
  split
  · rw [List.length_cons]
    omega
  · omega

theorem length_recentWhere_le (rows : List α) : (recentWhere key p rows).length ≤ rows.length := by
  induction rows using List.reverseRecOn with
  | nil => simp [recentWhere, recent]
  | append_singleton rows r ih =>
    calc (recentWhere key p (rows ++ [r])).length
      _ ≤ (recentWhere key p rows).length + 1 := length_recentWhere_append rows r
      _ ≤ rows.length + 1 := Nat.succ_le_succ ih
      _ = (rows ++ [r]).length := by simp

end TwoSocks.Recency
