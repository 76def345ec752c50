import Mathlib.Data.List.FinRange
import Triage.Proofs.Order

/-! What running a query selects, position by position.

A run is a row of positions of the list it is given: each position whose issue passes
the filter once, in the order of the sort keys, and positions that no key tells
apart as they were (`Query.run_eq_positions`). Two equal issues at different
positions stay two. -/
namespace Triage

/-! ### Rows of two -/

/-- Of two different members of a list one stands before the other. -/
theorem pair_sublist_of_mem {l : List α} {a b : α} (ha : a ∈ l) (hb : b ∈ l) (hne : a ≠ b) :
    [a, b].Sublist l ∨ [b, a].Sublist l := by
  induction l with
  | nil => exact absurd ha List.not_mem_nil
  | cons c l ih =>
    rcases List.mem_cons.1 ha with rfl | hal
    · have hbl := (List.mem_cons.1 hb).resolve_left (Ne.symm hne)
      exact .inl ((List.singleton_sublist.2 hbl).cons_cons a)
    · rcases List.mem_cons.1 hb with rfl | hbl
      · exact .inr ((List.singleton_sublist.2 hal).cons_cons b)
      · exact (ih hal hbl).imp (.cons c) (.cons c)

/-- In a list without repetition no member stands both before and behind another. -/
theorem not_pair_sublist_of_nodup {l : List α} {a b : α} (hl : l.Nodup)
    (h : [a, b].Sublist l) : ¬ [b, a].Sublist l := by
  intro h'
  induction l with
  | nil => exact absurd h (by simp)
  | cons c l ih =>
    obtain ⟨hc, hl⟩ := List.nodup_cons.1 hl
    cases h with
    | cons _ h =>
      cases h' with
      | cons _ h' => exact ih hl h h'
      | cons_cons _ h' => exact hc (h.subset (by simp))
    | cons_cons _ h =>
      cases h' with
      | cons _ h' => exact hc (h'.subset (by simp))
      | cons_cons _ h' => exact hc (List.singleton_sublist.1 h)

/-! ### Sorted positions -/

section Sorting

variable {β : Type} (cmp : β → β → Ordering) {n : Nat} (f : Fin n → β)

/-- Whether a position may stand before another by what stands there. -/
def mayPrecede (i j : Fin n) : Bool := (cmp (f i) (f j)).isLE

variable [Std.TransCmp cmp]

theorem mayPrecede_trans (i j k : Fin n) (hij : mayPrecede cmp f i j = true)
    (hjk : mayPrecede cmp f j k = true) : mayPrecede cmp f i k = true :=
  Std.TransCmp.isLE_trans hij hjk

theorem mayPrecede_total (i j : Fin n) :
    (mayPrecede cmp f i j || mayPrecede cmp f j i) = true :=
  isLE_total cmp (f i) (f j)

variable {positions : List (Fin n)} {i j : Fin n}

/-- In sorted positions, what compares as smaller stands before, and what compares as equal stands
as it stood. -/
theorem pair_sublist_mergeSort_of_compare (hp : positions.Pairwise (· < ·)) (hi : i ∈ positions)
    (hj : j ∈ positions) (h : cmp (f i) (f j) = .lt ∨ cmp (f i) (f j) = .eq ∧ i < j) :
    [i, j].Sublist (positions.mergeSort (mayPrecede cmp f)) := by
  rcases h with h | ⟨h, hlt⟩
  · have hne : i ≠ j := by
      rintro rfl
      have hself : cmp (f i) (f i) = .eq := Std.ReflCmp.compare_self
      exact Ordering.noConfusion (h.symm.trans hself)
    have hsorted := List.pairwise_mergeSort (mayPrecede_trans cmp f) (mayPrecede_total cmp f)
      positions
    refine (pair_sublist_of_mem (List.mem_mergeSort.2 hi) (List.mem_mergeSort.2 hj)
      hne).resolve_right fun hback => ?_
    have hle : mayPrecede cmp f j i = true := by simpa using hsorted.sublist hback
    exact Std.OrientedCmp.not_isLE_of_lt h hle
  · have hpair : [i, j].Sublist positions := by
      refine (pair_sublist_of_mem hi hj (Fin.ne_of_lt hlt)).resolve_right fun hback => ?_
      exact Fin.lt_asymm hlt (List.pairwise_pair.1 (hp.sublist hback))
    exact List.pair_sublist_mergeSort (mayPrecede_trans cmp f) (mayPrecede_total cmp f)
      (by rw [mayPrecede, h]; rfl) hpair

/-- Sorting is stable, and nothing else decides which of two positions stands before the other. -/
theorem pair_sublist_mergeSort_iff (hp : positions.Pairwise (· < ·)) (hi : i ∈ positions)
    (hj : j ∈ positions) :
    [i, j].Sublist (positions.mergeSort (mayPrecede cmp f)) ↔
      cmp (f i) (f j) = .lt ∨ cmp (f i) (f j) = .eq ∧ i < j := by
  refine ⟨fun h => ?_, pair_sublist_mergeSort_of_compare cmp f hp hi hj⟩
  have hnodup : (positions.mergeSort (mayPrecede cmp f)).Nodup :=
    (List.mergeSort_perm positions _).nodup_iff.2 (hp.imp Fin.ne_of_lt)
  have hback := mt (pair_sublist_mergeSort_of_compare cmp f hp hj hi)
    (not_pair_sublist_of_nodup hnodup h)
  have hne : i ≠ j := by
    rintro rfl
    exact not_pair_sublist_of_nodup hnodup h h
  have hswap : cmp (f j) (f i) = (cmp (f i) (f j)).swap := Std.OrientedCmp.eq_swap
  rw [hswap] at hback
  cases hc : cmp (f i) (f j) with
  | lt => exact .inl rfl
  | eq =>
    rw [hc] at hback
    exact .inr ⟨rfl, (Fin.lt_or_lt_of_ne hne).resolve_right fun hji => hback (.inr ⟨rfl, hji⟩)⟩
  | gt =>
    rw [hc] at hback
    exact absurd (.inl rfl) hback

end Sorting

/-! ### Runs -/

namespace Query

variable (query : Query) (now : Moment) (issues : List Issue)

/-- The positions whose issues a query keeps, as they stand in the list. -/
def keptPositions : List (Fin issues.length) :=
  (List.finRange issues.length).filter fun i => query.keeps now (issues.get i)

/-- The positions whose issues a query keeps, in the order of its sort keys. -/
def positions : List (Fin issues.length) :=
  (query.keptPositions now issues).mergeSort
    (mayPrecede (Issue.compareBy query.sort) issues.get)

theorem pairwise_lt_keptPositions : (query.keptPositions now issues).Pairwise (· < ·) :=
  (List.pairwise_lt_finRange _).filter _

theorem mem_positions_iff {i : Fin issues.length} :
    i ∈ query.positions now issues ↔ query.keeps now (issues.get i) = true := by
  rw [positions, List.mem_mergeSort, keptPositions, List.mem_filter]
  exact and_iff_right (List.mem_finRange i)

theorem nodup_positions : (query.positions now issues).Nodup :=
  (List.mergeSort_perm _ _).nodup_iff.2
    ((query.pairwise_lt_keptPositions now issues).imp Fin.ne_of_lt)

theorem map_get_keptPositions :
    (query.keptPositions now issues).map issues.get = issues.filter (query.keeps now) := by
  calc (query.keptPositions now issues).map issues.get
      = ((List.finRange issues.length).map issues.get).filter (query.keeps now) := by
        rw [List.filter_map]
        rfl
    _ = issues.filter (query.keeps now) := by rw [List.map_get_finRange]

/-- A run selects the issues at these positions. -/
theorem run_eq_map_positions :
    query.run now issues = (query.positions now issues).map issues.get := by
  have hmap : (query.positions now issues).map issues.get =
      Issue.sortBy query.sort ((query.keptPositions now issues).map issues.get) :=
    List.map_mergeSort fun _ _ _ _ => rfl
  rw [hmap, map_get_keptPositions]
  rfl

/-- **A run is the stable sorted selection.** Running a query on a list of issues takes each
position whose issue passes the filter once and no other. Of two positions taken, one stands before
the other exactly if the first sort key that tells their issues apart puts it first, or no key tells
them apart and it stood before in the list; without sort keys all stand as they stood. -/
theorem run_eq_positions (query : Query) (now : Moment) (issues : List Issue) :
    ∃ positions : List (Fin issues.length),
      query.run now issues = positions.map issues.get ∧ positions.Nodup ∧
      (∀ i, i ∈ positions ↔ ∀ filter ∈ query.filter, filter.accepts now (issues.get i) = true) ∧
      (∀ i ∈ positions, ∀ j ∈ positions, [i, j].Sublist positions ↔
        Issue.Ahead query.sort (issues.get i) (issues.get j) ∨
          Issue.Tied query.sort (issues.get i) (issues.get j) ∧ i < j) ∧
      (query.sort = [] → positions.Pairwise (· < ·)) := by
  have hlt := query.pairwise_lt_keptPositions now issues
  refine ⟨query.positions now issues, query.run_eq_map_positions now issues,
    query.nodup_positions now issues, ?_, ?_, ?_⟩
  · intro i
    rw [mem_positions_iff, keeps]
    cases query.filter <;> simp
  · intro i hi j hj
    rw [← Issue.compareBy_eq_lt_iff, ← Issue.compareBy_eq_eq_iff]
    exact pair_sublist_mergeSort_iff _ _ hlt (List.mem_mergeSort.1 hi) (List.mem_mergeSort.1 hj)
  · intro hsort
    -- Without keys every position may stand before every other, so nothing moves.
    have hle : (query.keptPositions now issues).Pairwise fun i j =>
        mayPrecede (Issue.compareBy query.sort) issues.get i j = true := by
      rw [hsort]
      exact List.pairwise_of_forall fun _ _ => rfl
    rwa [positions, List.mergeSort_of_pairwise hle]

end Query
end Triage
