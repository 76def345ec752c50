import Triage.Proofs.Order

/-! Sorting by one key after another.

A list is sorted stably if it stands in order and whatever is tied stands as it stood
(`StablySorted`). Only one list is (`StablySorted.unique`), and sorting what has been
sorted by a lesser order sorts by both, the later one first (`StablySorted.andThen`).
So a run by several keys is a run without keys, sorted stably by one key at a time,
the last key first, and a key on a field that an earlier key is on changes nothing
(`Query.run_eq_foldr`). -/
namespace Triage

/-! ### Stable sorting -/

section StableSorting

variable {α : Type} {cmp : α → α → Ordering} {l as bs : List α}

/-- The members of a list that an order ties with a thing, in the order of the list. -/
def tiedWith (cmp : α → α → Ordering) (a : α) (l : List α) : List α :=
  l.filter fun b => cmp a b = .eq

/-- A list sorted stably by an order. -/
structure StablySorted (cmp : α → α → Ordering) (l sorted : List α) : Prop where
  ordered : sorted.Pairwise fun a b => (cmp a b).isLE = true
  /-- What is tied is neither lost nor moved among itself. -/
  tied : ∀ a, tiedWith cmp a sorted = tiedWith cmp a l

theorem mem_tiedWith {a b : α} : b ∈ tiedWith cmp a l ↔ b ∈ l ∧ cmp a b = .eq := by
  rw [tiedWith, List.mem_filter, decide_eq_true_eq]

theorem tiedWith_cons_of_eq {a b : α} (h : cmp a b = .eq) (l : List α) :
    tiedWith cmp a (b :: l) = b :: tiedWith cmp a l :=
  List.filter_cons_of_pos (decide_eq_true h)

theorem tiedWith_cons_of_ne {a b : α} (h : cmp a b ≠ .eq) (l : List α) :
    tiedWith cmp a (b :: l) = tiedWith cmp a l :=
  List.filter_cons_of_neg (by simpa using h)

variable [Std.TransCmp cmp]

/-- The first of a list in order comes no later than anything that stands in the list. -/
theorem isLE_head {a b : α} (h : (a :: as).Pairwise fun a b => (cmp a b).isLE = true)
    (hb : b ∈ a :: as) : (cmp a b).isLE = true := by
  rcases List.mem_cons.1 hb with rfl | hb
  · have hself : cmp b b = .eq := Std.ReflCmp.compare_self
    rw [hself]
    rfl
  · exact List.rel_of_pairwise_cons h hb

theorem mem_of_tiedWith_eq (h : ∀ c, tiedWith cmp c as = tiedWith cmp c bs) {a : α}
    (ha : a ∈ as) : a ∈ bs := by
  have hself : a ∈ tiedWith cmp a as := mem_tiedWith.2 ⟨ha, Std.ReflCmp.compare_self⟩
  rw [h a] at hself
  exact (mem_tiedWith.1 hself).1

/-- Lists in order are equal if they agree on what is tied. -/
theorem eq_of_tiedWith_eq (ha : as.Pairwise fun a b => (cmp a b).isLE = true)
    (hb : bs.Pairwise fun a b => (cmp a b).isLE = true)
    (h : ∀ c, tiedWith cmp c as = tiedWith cmp c bs) : as = bs := by
  induction as generalizing bs with
  | nil =>
    cases bs with
    | nil => rfl
    | cons b bs =>
      exact absurd (mem_of_tiedWith_eq (fun c => (h c).symm) List.mem_cons_self) List.not_mem_nil
  | cons a as ih =>
    cases bs with
    | nil => exact absurd (mem_of_tiedWith_eq h List.mem_cons_self) List.not_mem_nil
    | cons b bs =>
      -- Each of the two heads stands in the other list, so they are tied.
      have hab := isLE_head ha (mem_of_tiedWith_eq (fun c => (h c).symm) List.mem_cons_self)
      have hba := isLE_head hb (mem_of_tiedWith_eq h List.mem_cons_self)
      have htied : cmp a b = .eq := Std.OrientedCmp.isLE_antisymm hab hba
      obtain rfl : a = b := by
        have heads := h a
        rw [tiedWith_cons_of_eq Std.ReflCmp.compare_self, tiedWith_cons_of_eq htied] at heads
        exact (List.cons.inj heads).1
      refine congrArg (a :: ·) (ih ha.of_cons hb.of_cons fun c => ?_)
      have htails := h c
      by_cases hc : cmp c a = .eq
      · rw [tiedWith_cons_of_eq hc, tiedWith_cons_of_eq hc] at htails
        exact (List.cons.inj htails).2
      · rwa [tiedWith_cons_of_ne hc, tiedWith_cons_of_ne hc] at htails

/-- There is one way to sort a list stably. -/
theorem StablySorted.unique (ha : StablySorted cmp l as) (hb : StablySorted cmp l bs) : as = bs :=
  eq_of_tiedWith_eq ha.ordered hb.ordered fun c => (ha.tied c).trans (hb.tied c).symm

/-- Merge sort is stable. -/
theorem stablySorted_mergeSort (cmp : α → α → Ordering) [Std.TransCmp cmp] (l : List α) :
    StablySorted cmp l (l.mergeSort fun a b => (cmp a b).isLE) := by
  have htrans : ∀ a b c, (cmp a b).isLE = true → (cmp b c).isLE = true → (cmp a c).isLE = true :=
    fun _ _ _ => Std.TransCmp.isLE_trans
  refine ⟨List.pairwise_mergeSort htrans (isLE_total cmp) l, fun a => ?_⟩
  -- The tied members are in order as they stand, so they are a row of the sorted list as well.
  have hrow : (tiedWith cmp a l).Pairwise fun b c => (cmp b c).isLE = true := by
    refine List.pairwise_of_forall_mem_list fun b hb c hc => ?_
    have hba : cmp b a = .eq := Std.OrientedCmp.eq_comm.1 (mem_tiedWith.1 hb).2
    have hbc : cmp b c = .eq := Std.TransCmp.eq_trans hba (mem_tiedWith.1 hc).2
    rw [hbc]
    rfl
  have hsub := (List.sublist_mergeSort htrans (isLE_total cmp) hrow List.filter_sublist).filter
    fun b => cmp a b = .eq
  rw [tiedWith, List.filter_filter] at hsub
  simp only [Bool.and_self] at hsub
  exact (hsub.eq_of_length ((List.mergeSort_perm l _).filter _).length_eq.symm).symm

/-- Sorting by an order what is sorted by a lesser one sorts by both. -/
theorem StablySorted.andThen {greater lesser : α → α → Ordering} [Std.TransCmp greater]
    (h : StablySorted lesser l as) (hg : StablySorted greater as bs) :
    StablySorted (compareLex greater lesser) l bs := by
  constructor
  · rw [List.pairwise_iff_forall_sublist]
    intro a b hab
    have hle := List.pairwise_pair.1 (hg.ordered.sublist hab)
    rw [compareLex]
    cases hc : greater a b with
    | lt => rfl
    | gt =>
      rw [hc] at hle
      exact Bool.noConfusion hle
    | eq =>
      -- A tied pair stands in the list before as it does in the list behind.
      have hself : greater a a = .eq := Std.ReflCmp.compare_self
      have htied : tiedWith greater a [a, b] = [a, b] := by simp [tiedWith, hself, hc]
      have hpair : [a, b].Sublist (tiedWith greater a as) := by
        rw [← hg.tied a, ← htied]
        exact hab.filter _
      simpa using h.ordered.sublist (hpair.trans List.filter_sublist)
  · intro a
    have hboth : ∀ ds : List α, tiedWith (compareLex greater lesser) a ds =
        tiedWith lesser a (tiedWith greater a ds) := by
      intro ds
      simp only [tiedWith, List.filter_filter, compareLex, Ordering.then_eq_eq, Bool.decide_and]
      exact List.filter_congr fun b _ => Bool.and_comm _ _
    have hcomm : ∀ ds : List α, tiedWith lesser a (tiedWith greater a ds) =
        tiedWith greater a (tiedWith lesser a ds) := by
      intro ds
      simp only [tiedWith, List.filter_filter]
      exact List.filter_congr fun b _ => Bool.and_comm _ _
    rw [hboth, hg.tied, hcomm, h.tied, ← hcomm, ← hboth]

end StableSorting

/-! ### Keys -/

/-- Two issues are tied under a key if their fields compare as equal, whatever the direction. -/
theorem SortKey.compare_eq_eq_iff_get (key : SortKey) (a b : Issue) :
    key.compare a b = .eq ↔ (a.get key.field).compare (b.get key.field) = .eq := by
  obtain ⟨field, direction⟩ := key
  cases direction with
  | asc => exact Iff.rfl
  | desc => exact Ordering.swap_eq_eq

namespace Issue

/-- Issues sorted by keys are sorted stably. -/
theorem stablySorted_sortBy (keys : List SortKey) (issues : List Issue) :
    StablySorted (compareBy keys) issues (sortBy keys issues) :=
  stablySorted_mergeSort (compareBy keys) issues

theorem sortBy_nil (issues : List Issue) : sortBy [] issues = issues :=
  List.mergeSort_of_pairwise (List.pairwise_of_forall fun _ _ => rfl)

/-- A single key decides alone. -/
theorem compareBy_singleton (key : SortKey) : compareBy [key] = key.compare := by
  funext a b
  exact Ordering.then_eq

theorem compareBy_append (keys more : List SortKey) (a b : Issue) :
    compareBy (keys ++ more) a b = (compareBy keys a b).then (compareBy more a b) := by
  induction keys with
  | nil => rfl
  | cons key keys ih => rw [List.cons_append, compareBy, compareBy, ih, Ordering.then_assoc]

/-- Any stable sorting by one key at a time, the last key first, sorts by all of them. -/
theorem sortBy_eq_foldr {sortOne : SortKey → List Issue → List Issue}
    (h : ∀ key issues, StablySorted key.compare issues (sortOne key issues))
    (keys : List SortKey) (issues : List Issue) :
    sortBy keys issues = keys.foldr sortOne issues := by
  induction keys with
  | nil => exact sortBy_nil issues
  | cons key more ih =>
    rw [List.foldr_cons, ← ih]
    exact (stablySorted_sortBy (key :: more) issues).unique
      ((stablySorted_sortBy more issues).andThen (h key (sortBy more issues)))

/-- A key on a field that an earlier key is on tells no issues apart that are tied so far. -/
theorem compareBy_of_field_listed {before more : List SortKey} {again : SortKey}
    (h : ∃ key ∈ before, key.field = again.field) :
    compareBy (before ++ again :: more) = compareBy (before ++ more) := by
  obtain ⟨key, hkey, hfield⟩ := h
  funext a b
  rw [compareBy_append, compareBy_append, compareBy]
  cases hc : compareBy before a b with
  | lt => rfl
  | gt => rfl
  | eq =>
    have htied := (key.compare_eq_eq_iff a b).2 ((compareBy_eq_eq_iff before a b).1 hc key hkey)
    rw [key.compare_eq_eq_iff_get, hfield, ← again.compare_eq_eq_iff_get] at htied
    rw [htied]
    rfl

end Issue

/-! ### Runs -/

namespace Query

/-- **Sorting by several keys is sorting by one key at a time, the last one first.** A run is the
run without sort keys, sorted by each key alone from the last to the first, by any way of sorting
stably. A key on a field that an earlier key is on, in either direction, changes nothing. -/
theorem run_eq_foldr {sortOne : SortKey → List Issue → List Issue}
    (h : ∀ key issues, StablySorted key.compare issues (sortOne key issues))
    (filter : Option Filter) (sort : List SortKey) (now : Moment) (issues : List Issue) :
    run ⟨filter, sort⟩ now issues = sort.foldr sortOne (run ⟨filter, []⟩ now issues) ∧
      ∀ before again more, sort = before ++ again :: more →
        (∃ key ∈ before, key.field = again.field) →
        run ⟨filter, sort⟩ now issues = run ⟨filter, before ++ more⟩ now issues := by
  have hplain : run ⟨filter, []⟩ now issues = issues.filter (keeps ⟨filter, sort⟩ now) :=
    Issue.sortBy_nil _
  refine ⟨?_, ?_⟩
  · rw [hplain]
    exact Issue.sortBy_eq_foldr h sort _
  · rintro before again more rfl hlisted
    simp only [run, Issue.sortBy, Issue.compareBy_of_field_listed hlisted]
    rfl

/-- Four issues, two of them with titles that differ in case only. -/
def tiedIssues : List Issue :=
  [Issue.new ['1'] ['b'], { Issue.new ['2'] ['a'] with priority := 1 }, Issue.new ['3'] ['B'],
    Issue.new ['4'] ['A']]

/-- The issues that the title ties stay as they stood, and the priority counts once. -/
theorem run_eq_foldr_tied :
    (∀ key issues, StablySorted (SortKey.compare key) issues (Issue.sortBy [key] issues)) ∧
    run ⟨none, [⟨.priority, .desc⟩, ⟨.title, .asc⟩, ⟨.priority, .asc⟩]⟩ (.universal .epoch)
        tiedIssues =
      Issue.sortBy [⟨.priority, .desc⟩] (Issue.sortBy [⟨.title, .asc⟩]
        (Issue.sortBy [⟨.priority, .asc⟩] tiedIssues)) ∧
    run ⟨none, [⟨.priority, .desc⟩, ⟨.title, .asc⟩, ⟨.priority, .asc⟩]⟩ (.universal .epoch)
        tiedIssues =
      run ⟨none, [⟨.priority, .desc⟩, ⟨.title, .asc⟩]⟩ (.universal .epoch) tiedIssues ∧
    (run ⟨none, [⟨.priority, .desc⟩, ⟨.title, .asc⟩]⟩ (.universal .epoch) tiedIssues).map
      Issue.id = [['4'], ['1'], ['3'], ['2']] := by
  have hstable : ∀ key issues,
      StablySorted (SortKey.compare key) issues (Issue.sortBy [key] issues) := by
    intro key issues
    rw [← Issue.compareBy_singleton key]
    exact Issue.stablySorted_sortBy [key] issues
  obtain ⟨hfold, hagain⟩ := run_eq_foldr hstable none
    [⟨.priority, .desc⟩, ⟨.title, .asc⟩, ⟨.priority, .asc⟩] (.universal .epoch) tiedIssues
  have hplain : run ⟨none, []⟩ (.universal .epoch) tiedIssues = tiedIssues := Issue.sortBy_nil _
  rw [hplain] at hfold
  refine ⟨hstable, hfold, hagain [⟨.priority, .desc⟩, ⟨.title, .asc⟩] ⟨.priority, .asc⟩ [] rfl
    ⟨_, List.mem_cons_self, rfl⟩, ?_⟩
  have hkept : tiedIssues.filter
      (keeps ⟨none, [⟨.priority, .desc⟩, ⟨.title, .asc⟩]⟩ (.universal .epoch)) = tiedIssues := rfl
  rw [run, hkept, Issue.sortBy, tiedIssues]
  simp +decide [List.mergeSort, List.MergeSort.Internal.splitInTwo]

end Query
end Triage
