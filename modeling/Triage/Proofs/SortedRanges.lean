import Triage.Proofs.KeyByKey

/-! Ranges in sorted issues.

A range asks of two bounds what the order of contents asks of two contents, so with two
contents it holds whatever is of their kind and stands between them
(`Content.between_of_isLE`). Along a list sorted by the field of the range, in either
direction, the issues that pass it therefore stand together, whatever the further keys
do, with those that fail it before and behind them. They stand there as a query with
the range selects them, because leaving members out of a list changes nothing about the
order of the rest (`StablySorted.filter`, `Query.run_sort_eq_around_range`). -/
namespace Triage

/-! ### Lists in order -/

section Rows

variable {α : Type} {R : α → α → Prop} {p : α → Bool} {l : List α}

/-- Along a list in order, what passes a test stands together if the test passes whatever stands
between two members that pass it. -/
theorem exists_eq_around_filter (hordered : l.Pairwise R)
    (hbetween : ∀ a b c, R a b → R b c → p a = true → p c = true → p b = true) :
    ∃ front back, l = front ++ l.filter p ++ back ∧
      (∀ a ∈ front, p a = false) ∧ ∀ a ∈ back, p a = false := by
  induction l with
  | nil => exact ⟨[], [], rfl, fun a h => absurd h List.not_mem_nil,
      fun a h => absurd h List.not_mem_nil⟩
  | cons a l ih =>
    obtain ⟨hfirst, hrest⟩ := List.pairwise_cons.1 hordered
    obtain ⟨front, back, hl, hfront, hback⟩ := ih hrest
    cases ha : p a with
    | false =>
      refine ⟨a :: front, back, ?_, List.forall_mem_cons.2 ⟨ha, hfront⟩, hback⟩
      rw [List.filter_cons_of_neg (by rw [ha]; exact Bool.false_ne_true), List.cons_append,
        List.cons_append, ← hl]
    | true =>
      rw [List.filter_cons_of_pos ha]
      cases hpassed : l.filter p with
      | nil => exact ⟨[], l, rfl, fun b h => absurd h List.not_mem_nil,
          fun b hb => by simpa using List.filter_eq_nil_iff.1 hpassed b hb⟩
      | cons c passed =>
        -- Whatever stood in front of the first that passes would stand between it and `a`.
        have hc : p c = true := (List.mem_filter.1 (hpassed ▸ List.mem_cons_self)).2
        have hnone : front = [] := by
          refine List.eq_nil_iff_forall_not_mem.2 fun b hb => ?_
          rw [hpassed] at hl
          have hab : R a b := hfirst b (by rw [hl]; simp [hb])
          have hbc : R b c := by
            rw [hl, List.append_assoc] at hrest
            exact (List.pairwise_append.1 hrest).2.2 b hb c (by simp)
          have hb' := hbetween a b c hab hbc ha hc
          rw [hfront b hb] at hb'
          exact Bool.noConfusion hb'
        refine ⟨[], back, ?_, fun b h => absurd h List.not_mem_nil, hback⟩
        rw [hnone, hpassed] at hl
        rw [List.nil_append, List.cons_append, ← List.nil_append (c :: passed), ← hl]

/-- Members left out of a list do not change how the others are sorted. -/
theorem StablySorted.filter {cmp : α → α → Ordering} {as : List α} (h : StablySorted cmp l as)
    (p : α → Bool) : StablySorted cmp (l.filter p) (as.filter p) := by
  refine ⟨h.ordered.filter p, fun a => ?_⟩
  have hcomm : ∀ bs : List α, tiedWith cmp a (bs.filter p) = (tiedWith cmp a bs).filter p := by
    intro bs
    simp only [tiedWith, List.filter_filter]
    exact List.filter_congr fun b _ => Bool.and_comm _ _
  rw [hcomm, hcomm, h.tied]

end Rows

/-! ### Contents -/

namespace Content

variable {now : Moment} {min max : Value} {a b c : Content}

theorem isLE_integer_iff {n m : Int64} :
    ((integer n).compare (integer m)).isLE = true ↔ n ≤ m := by
  show (Ord.compare n.toInt m.toInt).isLE = true ↔ n ≤ m
  rw [Int.isLE_compare, Int64.le_iff_toInt_le]

/-- Of two instants the first comes no later exactly if the second does not come before it. -/
theorem isLE_instant_iff {t u : Instant} :
    ((instant t).compare (instant u)).isLE = true ↔ u.before t = false := by
  have hswap : u.compare t = (t.compare u).swap := Std.OrientedCmp.eq_swap
  have hlt := u.compare_eq_lt_iff t
  show (t.compare u).isLE = true ↔ _
  rw [hswap] at hlt
  rw [← Bool.not_eq_true, ← hlt]
  cases t.compare u <;> simp

/-- With two contents a range holds what stands between them. -/
theorem between_of_isLE (hab : a.Alike b) (hbc : b.Alike c) (h : (a.compare b).isLE = true)
    (h' : (b.compare c).isLE = true) (ha : a.between now min max = true)
    (hc : c.between now min max = true) : b.between now min max = true := by
  -- What a range holds is an integer or an instant, and nothing absent stands before either.
  cases a <;> cases b <;> cases c <;>
    first
    | exact hab.elim
    | exact hbc.elim
    | exact Bool.noConfusion ha
    | exact Bool.noConfusion hc
    | exact Bool.noConfusion h'
    | skip
  case integer.integer.integer n m k =>
    obtain ⟨low, high, rfl, rfl, hlow, -⟩ := between_integer_iff.1 ha
    obtain ⟨-, high, -, heq, -, hhigh⟩ := between_integer_iff.1 hc
    obtain rfl := Value.integer.inj heq
    exact between_integer_iff.2 ⟨low, _, rfl, rfl, Int64.le_trans hlow (isLE_integer_iff.1 h),
      Int64.le_trans (isLE_integer_iff.1 h') hhigh⟩
  case instant.instant.instant t u v =>
    obtain ⟨low, hmin, -, -, hlow, -⟩ := between_instant_iff.1 ha
    obtain ⟨-, -, high, hmax, -, hhigh⟩ := between_instant_iff.1 hc
    have htu : (t.compare u).isLE = true := h
    have huv : (u.compare v).isLE = true := h'
    have hlow' : (low.start.compare u).isLE = true :=
      Std.TransCmp.isLE_trans (isLE_instant_iff.2 hlow) htu
    have hhigh' : u.compare high.stop = .lt :=
      Std.TransCmp.lt_of_isLE_of_lt huv ((v.compare_eq_lt_iff high.stop).2 hhigh)
    exact between_instant_iff.2 ⟨low, hmin, high, hmax, isLE_instant_iff.1 hlow',
      (u.compare_eq_lt_iff high.stop).1 hhigh'⟩

end Content

/-! ### Issues -/

/-- Sorted by the field of a range, what stands between two issues that pass it passes it, in
either direction. -/
theorem SortKey.accepts_range_of_isLE {key : SortKey} {now : Moment} {min max : Value}
    {a b c : Issue} (hab : (key.compare a b).isLE = true) (hbc : (key.compare b c).isLE = true)
    (ha : (Filter.range key.field min max).accepts now a = true)
    (hc : (Filter.range key.field min max).accepts now c = true) :
    (Filter.range key.field min max).accepts now b = true := by
  obtain ⟨field, direction⟩ := key
  cases direction with
  | asc =>
    exact Content.between_of_isLE (a.alike_get b field) (b.alike_get c field) hab hbc ha hc
  | desc =>
    rw [compare_desc] at hab hbc
    exact Content.between_of_isLE (c.alike_get b field) (b.alike_get a field) hbc hab hc ha

namespace Issue

/-- Issues in the order of some keys are in the order of the first one. -/
theorem isLE_of_compareBy_cons {key : SortKey} {more : List SortKey} {a b : Issue}
    (h : (compareBy (key :: more) a b).isLE = true) : (key.compare a b).isLE = true := by
  rw [compareBy] at h
  cases hc : key.compare a b with
  | lt => rfl
  | eq => rfl
  | gt =>
    rw [hc] at h
    exact h

/-- Some of the issues, sorted, are those of the sorted issues. -/
theorem sortBy_filter (keys : List SortKey) (p : Issue → Bool) (issues : List Issue) :
    sortBy keys (issues.filter p) = (sortBy keys issues).filter p :=
  (stablySorted_sortBy keys _).unique ((stablySorted_sortBy keys issues).filter p)

end Issue

namespace Query

/-- **What a range selects stands together in sorted issues.** All issues, sorted by keys of which
the first is on the field of a range, in either direction, are a row of issues that fail the range,
then those that pass it, just as the query with the range selects them, then a row of issues that
fail it. This holds for every field and all bounds, and it does not depend on the other keys. -/
theorem run_sort_eq_around_range (now : Moment) (key : SortKey) (more : List SortKey)
    (min max : Value) (issues : List Issue) :
    ∃ front back, run ⟨none, key :: more⟩ now issues =
        front ++ run ⟨some (.range key.field min max), key :: more⟩ now issues ++ back ∧
      (∀ issue ∈ run ⟨some (.range key.field min max), key :: more⟩ now issues,
        (Filter.range key.field min max).accepts now issue = true) ∧
      (∀ issue ∈ front ++ back, (Filter.range key.field min max).accepts now issue = false) := by
  have hkept : issues.filter (keeps ⟨none, key :: more⟩ now) = issues :=
    List.filter_eq_self.2 fun _ _ => rfl
  have hrun : run ⟨some (.range key.field min max), key :: more⟩ now issues =
      (Issue.sortBy (key :: more) issues).filter
        ((Filter.range key.field min max).accepts now) :=
    Issue.sortBy_filter _ _ _
  obtain ⟨front, back, hrow, hfront, hback⟩ :=
    exists_eq_around_filter (p := (Filter.range key.field min max).accepts now)
      (Issue.pairwise_sortBy (key :: more) issues) fun a b c hab hbc ha hc =>
        SortKey.accepts_range_of_isLE (Issue.isLE_of_compareBy_cons hab)
          (Issue.isLE_of_compareBy_cons hbc) ha hc
  rw [hrun, run, hkept]
  refine ⟨front, back, hrow, fun issue h => (List.mem_filter.1 h).2, fun issue h => ?_⟩
  exact (List.mem_append.1 h).elim (hfront issue) (hback issue)

end Query
end Triage
