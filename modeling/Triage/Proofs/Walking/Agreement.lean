import Triage.Proofs.Walking

/-! Walks agree with the readers.

Each walk ends like its reader wherever it begins, up to the first end, if its depth is great enough
for how far that end is. Every induction is on the depth: a walk calls another one behind a token
that was taken, behind a condition that was found, and that took one, or where it stands, but then
only one that comes later in the grammar. So five calls to a token are enough (`Ended.Follows`). -/
namespace Triage

theorem Token.Kind.ne_eof_of_isValue {kind : Token.Kind} (h : kind.isValue = true) :
    kind ≠ .eof := by
  rintro rfl
  cases h

namespace Parse

/-- The sort keys of what follows the filter, and what is left behind them. -/
def closing (tokens : List Token) : Outcome (List SortKey) :=
  Outcome.andThen
    (if nextKind tokens = .sortBy then (sortClause tokens.tail).outcome else (.ok [], tokens))
    fun keys rest =>
      if rest = [] then (.ok keys, rest) else (.error (unexpected "end of input" rest), rest)

theorem fst_closing (tokens : List Token) : (closing tokens).1 = ending tokens := by
  cases tokens with
  | nil => rfl
  | cons token rest =>
    rw [closing, List.tail_cons]
    by_cases hk : nextKind (token :: rest) = .sortBy
    · rw [if_pos hk, ending_sort rest hk]
      obtain ⟨result, left⟩ := (sortClause rest).outcome
      cases result <;> cases left <;> rfl
    · rw [if_neg hk, ending_unexpected (List.cons_ne_nil token rest) hk]
      rfl

/-- A query, and what is left behind it or from where the reading failed. -/
def whole (finish : Nat) (tokens : List Token) : Outcome Query :=
  if nextKind tokens = .sortBy ∨ nextKind tokens = .eof then
    Outcome.andThen (closing tokens) fun keys rest => (.ok ⟨none, keys⟩, rest)
  else
    Outcome.andThen (disjunction finish tokens).outcome fun filter rest =>
      Outcome.andThen (closing rest) fun keys left => (.ok ⟨some filter, keys⟩, left)

theorem fst_whole {stream : Stream} (h : ∀ token ∈ stream.tokens, token.kind ≠ .eof) :
    (whole stream.finish stream.tokens).1 = stream.query := by
  by_cases hs : nextKind stream.tokens = .sortBy
  · rw [whole, if_pos (.inl hs), Outcome.fst_andThen_ok, fst_closing, Stream.query_sort hs]
  · cases ht : stream.tokens with
    | nil =>
      rw [Stream.query_nil ht]
      rfl
    | cons token rest =>
      have hne : nextKind (token :: rest) ≠ .eof := h token (ht ▸ List.mem_cons_self)
      rw [ht] at hs
      rw [whole, if_neg (not_or.2 ⟨hs, hne⟩),
        Stream.query_filter (ht ▸ List.cons_ne_nil token rest) (ht ▸ hs), ht]
      obtain ⟨result, left⟩ := (disjunction stream.finish (token :: rest)).outcome
      cases result with
      | error e => rfl
      | ok filter => rw [Outcome.andThen_ok, Outcome.fst_andThen_ok, fst_closing]

end Parse

namespace Ended
open Outcome

variable {ended : Ended} {i : Nat}

theorem nextPosition_rest (ended : Ended) (i : Nat) :
    Parse.nextPosition ended.last.position (ended.rest i) = (ended.token i).position := by
  rcases ended.rest_cases i with ⟨hrest, htoken⟩ | ⟨hrest, -⟩
  · rw [hrest, htoken]
    rfl
  · rw [hrest]
    rfl

/-! ### Values -/

theorem agrees_value (h : i ≤ ended.front.length) (field : Field) (name : Token) :
    ended.Agrees (Walk.value field name) i
      (Parse.value ended.last.position field name (ended.rest i)).outcome := by
  apply Agrees.peek h
  have hkind := ended.nextKind_rest i
  by_cases hv : (ended.token i).kind.isValue = true
  · rw [if_pos hv]
    apply Agrees.advance hkind (Token.Kind.ne_eof_of_isValue hv)
    intro hcons _ hle
    rw [hcons, Parse.value_cons _ field name _ _ hv]
    cases (Parse.rawValue field (ended.token i)).fit field with
    | ok v => exact .pure hle v
    | error misfit => exact .throw hle _
  · rw [if_neg hv, Parse.value_missing _ field name (by rwa [hkind]), nextPosition_rest]
    exact .throw h _

theorem agrees_moreValues (h : i ≤ ended.front.length) {depth : Nat}
    (hd : ended.front.length - i < depth) (field : Field) (name : Token) (vs : List Value) :
    ended.Agrees (Walk.moreValues field name vs depth) i
      (Parse.moreValues ended.last.position field name vs (ended.rest i)).outcome := by
  induction depth generalizing i vs with
  | zero => exact absurd hd (Nat.not_lt_zero _)
  | succ depth ih =>
    rw [Walk.moreValues]
    apply Agrees.take Token.Kind.noConfusion h
    · intro _ hcons htoken hle
      rw [hcons, Parse.moreValues_comma _ field name vs _ htoken]
      apply Agrees.bind_reading (agrees_value hle field name)
      exact fun v j hj hlast => ih hlast (by omega) (vs ++ [v])
    · intro hk
      rw [Parse.moreValues_stop _ field name vs hk]
      exact .pure h vs

theorem agrees_values (h : i ≤ ended.front.length) {depth : Nat}
    (hd : ended.front.length - i ≤ depth) (field : Field) (name : Token) :
    ended.Agrees (Walk.values field name depth) i
      (Parse.values ended.last.position field name (ended.rest i)).outcome := by
  rw [Walk.values, Parse.values_outcome]
  apply Agrees.bind_reading (agrees_value h field name)
  intro first j hij hj
  apply Agrees.take Token.Kind.noConfusion hj
  · intro hk hcons _ hle
    simp only [hk, nextPosition_rest]
    rw [hcons, List.tail_cons]
    by_cases ho : field.type.isOrderable = true
    · rw [if_pos ho, if_pos ho]
      apply Agrees.bind_reading (agrees_value hle field name)
      exact fun last k _ hk => .pure hk _
    · rw [if_neg ho, if_neg ho]
      exact .throw hle _
  · intro hdots
    apply Agrees.branch hj
    · intro hk
      simp only [hk]
      apply Agrees.bind (agrees_moreValues hj (by omega) field name [first])
      exact fun vs k _ hk _ => .pure hk _
    · intro hc
      split
      · next hk => exact absurd hk hdots
      · next hk => exact absurd hk hc
      · exact .pure hj _

theorem agrees_fieldTerm {depth : Nat} (hd : ended.front.length - i ≤ depth)
    (hname : Parse.nextKind (ended.rest i) = .identifier)
    (hcolon : Parse.nextKind (ended.rest (i + 1)) = .colon) :
    ended.Agrees (Walk.fieldTerm depth) i
      (Parse.fieldTerm ended.last.position (ended.token i) (ended.rest (i + 1))).outcome := by
  rw [Walk.fieldTerm, Parse.fieldTerm_andThen]
  apply Agrees.advance hname Token.Kind.noConfusion
  intro _ _ hle
  apply Agrees.bind (Agrees.resolve hle _)
  intro field j hij _ heq
  obtain ⟨-, hrest⟩ := Prod.mk.inj heq
  rw [hrest] at hcolon
  apply Agrees.advance hcolon Token.Kind.noConfusion
  intro hcons _ hle
  rw [hcons, List.tail_cons]
  exact agrees_values hle (by omega) field _

/-! ### Expressions -/

theorem beginsField_apply (h : i ≤ ended.front.length) :
    Walk.beginsField ended.tokens i =
      some (.ok (Parse.nextKind (ended.rest i) = .identifier ∧
        Parse.nextKind (ended.rest (i + 1)) = .colon), i) := by
  rw [Walk.beginsField, Walk.bind_apply, check_apply h]
  by_cases hname : Parse.nextKind (ended.rest i) = .identifier
  · have hlt := (rest_eq_cons (by rw [hname]; exact Token.Kind.noConfusion)).2
    show (if decide (Parse.nextKind (ended.rest i) = .identifier) then _ else _ : Walk Bool) _ _ = _
    rw [if_pos (decide_eq_true hname), Walk.bind_apply, peekNext_apply hlt]
    simp only [hname, true_and, nextKind_rest]
    rfl
  · simp only [hname, false_and, decide_false]
    rfl

theorem Agrees.beginsField {yes no : Walk β} {outcome : Outcome β} (h : i ≤ ended.front.length)
    (hy : Parse.nextKind (ended.rest i) = .identifier →
      Parse.nextKind (ended.rest (i + 1)) = .colon → ended.Agrees yes i outcome)
    (hn : ¬ (Parse.nextKind (ended.rest i) = .identifier ∧
      Parse.nextKind (ended.rest (i + 1)) = .colon) → ended.Agrees no i outcome) :
    ended.Agrees (Walk.beginsField >>= fun found => if found then yes else no) i outcome := by
  rw [Agrees, Walk.bind_apply, beginsField_apply h]
  by_cases hc : Parse.nextKind (ended.rest i) = .identifier ∧
      Parse.nextKind (ended.rest (i + 1)) = .colon
  · rw [decide_eq_true hc]
    exact hy hc.1 hc.2
  · rw [decide_eq_false hc]
    exact hn hc

theorem agrees_closeGroup (h : i ≤ ended.front.length) (position : Nat) (filter : Filter) :
    ended.Agrees (Walk.closeGroup position filter) i
      (if Parse.nextKind (ended.rest i) = .rightParen then (.ok filter, (ended.rest i).tail)
      else if Parse.nextKind (ended.rest i) = .eof ∨ Parse.nextKind (ended.rest i) = .sortBy then
        (.error (.unterminatedGroup position), ended.rest i)
      else (.error (Parse.unexpected "')'" (ended.rest i)), ended.rest i)) := by
  apply Agrees.take Token.Kind.noConfusion h
  · intro hk hcons _ hle
    rw [if_pos hk]
    rw [hcons, List.tail_cons]
    exact .pure hle filter
  · intro hk
    rw [if_neg hk]
    apply Agrees.check h
    apply Agrees.check h
    rw [← Bool.decide_or]
    by_cases hend : Parse.nextKind (ended.rest i) = .eof ∨ Parse.nextKind (ended.rest i) = .sortBy
    · rw [if_pos hend, if_pos (decide_eq_true hend)]
      exact .throw h _
    · rw [if_neg hend, if_neg (fun hd => hend (of_decide_eq_true hd))]
      exact .unexpected h _

/-- Walks of this depth over expressions agree with the readers, where as much is left of the depth
as the readers need to end. -/
structure Follows (ended : Ended) (depth : Nat) : Prop where
  disjunction {i : Nat} : i ≤ ended.front.length → 5 * (ended.front.length - i) + 4 < depth →
    ended.Agrees (Walk.disjunction depth) i
      (Parse.disjunction ended.last.position (ended.rest i)).outcome
  moreDisjuncts {i : Nat} (left : Filter) :
    i ≤ ended.front.length → 5 * (ended.front.length - i) + 3 < depth →
    ended.Agrees (Walk.moreDisjuncts left depth) i
      (Parse.moreDisjuncts ended.last.position left (ended.rest i)).outcome
  conjunction {i : Nat} : i ≤ ended.front.length → 5 * (ended.front.length - i) + 3 < depth →
    ended.Agrees (Walk.conjunction depth) i
      (Parse.conjunction ended.last.position (ended.rest i)).outcome
  moreConjuncts {i : Nat} (left : Filter) :
    i ≤ ended.front.length → 5 * (ended.front.length - i) + 2 < depth →
    ended.Agrees (Walk.moreConjuncts left depth) i
      (Parse.moreConjuncts ended.last.position left (ended.rest i)).outcome
  negation {i : Nat} : i ≤ ended.front.length → 5 * (ended.front.length - i) + 1 < depth →
    ended.Agrees (Walk.negation depth) i
      (Parse.negation ended.last.position (ended.rest i)).outcome
  primary {i : Nat} : i ≤ ended.front.length → 5 * (ended.front.length - i) < depth →
    ended.Agrees (Walk.primary depth) i (Parse.primary ended.last.position (ended.rest i)).outcome

section Deeper

variable {depth : Nat} (deeper : Follows ended depth) (h : i ≤ ended.front.length)

include deeper h

theorem agrees_disjunction (hd : 5 * (ended.front.length - i) + 4 < depth + 1) :
    ended.Agrees (Walk.disjunction (depth + 1)) i
      (Parse.disjunction ended.last.position (ended.rest i)).outcome := by
  rw [Walk.disjunction, Parse.disjunction_outcome]
  apply Agrees.bind_reading (deeper.conjunction h (by omega))
  exact fun left j _ hj => deeper.moreDisjuncts left hj (by omega)

theorem agrees_moreDisjuncts (left : Filter)
    (hd : 5 * (ended.front.length - i) + 3 < depth + 1) :
    ended.Agrees (Walk.moreDisjuncts left (depth + 1)) i
      (Parse.moreDisjuncts ended.last.position left (ended.rest i)).outcome := by
  rw [Walk.moreDisjuncts]
  apply Agrees.take Token.Kind.noConfusion h
  · intro _ hcons htoken hle
    rw [hcons, Parse.moreDisjuncts_or _ left _ htoken]
    apply Agrees.bind_reading (deeper.conjunction hle (by omega))
    exact fun right j _ hj => deeper.moreDisjuncts _ hj (by omega)
  · intro hk
    rw [Parse.moreDisjuncts_stop _ left hk]
    exact .pure h left

theorem agrees_conjunction (hd : 5 * (ended.front.length - i) + 3 < depth + 1) :
    ended.Agrees (Walk.conjunction (depth + 1)) i
      (Parse.conjunction ended.last.position (ended.rest i)).outcome := by
  rw [Walk.conjunction, Parse.conjunction_outcome]
  apply Agrees.bind_reading (deeper.negation h (by omega))
  exact fun left j _ hj => deeper.moreConjuncts left hj (by omega)

theorem agrees_moreConjuncts (left : Filter)
    (hd : 5 * (ended.front.length - i) + 2 < depth + 1) :
    ended.Agrees (Walk.moreConjuncts left (depth + 1)) i
      (Parse.moreConjuncts ended.last.position left (ended.rest i)).outcome := by
  rw [Walk.moreConjuncts]
  apply Agrees.take Token.Kind.noConfusion h
  · intro _ hcons htoken hle
    rw [hcons, Parse.moreConjuncts_and _ left _ htoken]
    apply Agrees.bind_reading (deeper.negation hle (by omega))
    exact fun right j _ hj => deeper.moreConjuncts _ hj (by omega)
  · intro ha
    apply Agrees.peek h
    rw [← ended.nextKind_rest i]
    by_cases hs : (Parse.nextKind (ended.rest i)).startsTerm = true
    · rw [if_pos hs, Parse.moreConjuncts_term _ left hs]
      apply Agrees.bind_reading (deeper.negation h (by omega))
      -- The loop turns where it stands, but not before a condition was found there.
      exact fun right j hij hj => deeper.moreConjuncts _ hj (by omega)
    · rw [if_neg hs, Parse.moreConjuncts_stop _ left ha (Bool.eq_false_iff.2 hs)]
      exact .pure h left

theorem agrees_negation (hd : 5 * (ended.front.length - i) + 1 < depth + 1) :
    ended.Agrees (Walk.negation (depth + 1)) i
      (Parse.negation ended.last.position (ended.rest i)).outcome := by
  rw [Walk.negation]
  apply Agrees.take Token.Kind.noConfusion h
  · intro _ hcons htoken hle
    rw [hcons, Parse.negation_not _ _ htoken]
    apply Agrees.bind (deeper.negation hle (by omega))
    exact fun child j _ hj _ => .pure hj _
  · intro hk
    rw [Parse.negation_primary _ hk]
    exact deeper.primary h (by omega)

theorem agrees_primary (hd : 5 * (ended.front.length - i) < depth + 1) :
    ended.Agrees (Walk.primary (depth + 1)) i
      (Parse.primary ended.last.position (ended.rest i)).outcome := by
  rw [Walk.primary]
  apply Agrees.take Token.Kind.noConfusion h
  · intro _ hcons htoken hle
    rw [hcons, Parse.primary_group _ _ htoken]
    apply Agrees.bind (deeper.disjunction hle (by omega))
    exact fun filter j _ hj _ => agrees_closeGroup hj _ filter
  · intro hp
    apply Agrees.beginsField h
    · intro hname hcolon
      have hcons := (rest_eq_cons (by rw [hname]; exact Token.Kind.noConfusion)).1
      have htoken := (ended.nextKind_rest i).symm.trans hname
      rw [hcons, Parse.primary_field _ _ htoken hcolon]
      exact agrees_fieldTerm (by omega) hname hcolon
    · intro hc
      apply Agrees.peek h
      rw [← ended.nextKind_rest i]
      by_cases hv : (Parse.nextKind (ended.rest i)).isValue = true
      · rw [if_pos hv]
        apply Agrees.advance rfl (Token.Kind.ne_eof_of_isValue hv)
        intro hcons htoken hle
        rw [← htoken] at hc hv
        rw [hcons, Parse.primary_term _ _ hv hc]
        exact .pure hle _
      · rw [if_neg hv, Parse.primary_unexpected _ hp (Bool.eq_false_iff.2 hv)]
        exact .unexpected h _

end Deeper

/-- Each call of a walk needs less depth than the walk that makes it. -/
theorem follows (ended : Ended) (depth : Nat) : Follows ended depth := by
  induction depth with
  | zero => constructor <;> (intros; omega)
  | succ depth ih =>
    exact ⟨agrees_disjunction ih, fun left h => agrees_moreDisjuncts ih h left,
      agrees_conjunction ih, fun left h => agrees_moreConjuncts ih h left, agrees_negation ih,
      agrees_primary ih⟩

/-! ### Queries -/

theorem agrees_sortKey (h : i ≤ ended.front.length) :
    ended.Agrees Walk.sortKey i (Parse.sortKey (ended.rest i)).outcome := by
  rw [Walk.sortKey]
  apply Agrees.take Token.Kind.noConfusion h
  · intro _ hcons htoken hle
    rw [hcons, Parse.sortKey_andThen _ htoken]
    apply Agrees.bind (Agrees.resolve hle _)
    intro field j _ hj _
    apply Agrees.take Token.Kind.noConfusion hj
    · intro ha hcons _ hle
      rw [if_pos ha]
      rw [hcons, List.tail_cons]
      exact .pure hle _
    · intro ha
      rw [if_neg ha]
      apply Agrees.take Token.Kind.noConfusion hj
      · intro hd hcons _ hle
        rw [if_pos hd]
        rw [hcons, List.tail_cons]
        exact .pure hle _
      · intro hd
        rw [if_neg hd]
        exact .pure hj _
  · intro hk
    rw [Parse.sortKey_unexpected hk]
    exact .unexpected h _

theorem agrees_sortKeys (h : i ≤ ended.front.length) {depth : Nat}
    (hd : ended.front.length - i < depth) (keys : List SortKey) :
    ended.Agrees (Walk.sortKeys keys depth) i
      (andThen (Parse.sortKeys (ended.rest i)).outcome fun more left =>
        (.ok (keys ++ more), left)) := by
  induction depth generalizing i keys with
  | zero => exact absurd hd (Nat.not_lt_zero _)
  | succ depth ih =>
    rw [Walk.sortKeys, Parse.sortKeys_outcome, andThen_assoc]
    apply Agrees.bind_reading (agrees_sortKey h)
    intro key j hj hlast
    apply Agrees.take Token.Kind.noConfusion hlast
    · intro hk hcons _ hle
      rw [if_pos hk]
      have hmore := ih hle (by omega) (keys ++ [key])
      simp only [List.append_assoc, List.singleton_append] at hmore
      rw [hcons, List.tail_cons, andThen_assoc]
      exact hmore
    · intro hk
      rw [if_neg hk]
      exact .pure hlast _

theorem agrees_sortClause {depth : Nat} (hd : ended.front.length - i < depth)
    (hk : Parse.nextKind (ended.rest i) = .sortBy) :
    ended.Agrees (Walk.sortClause depth) i (Parse.sortClause (ended.rest i).tail).outcome := by
  rw [Walk.sortClause]
  apply Agrees.advance hk Token.Kind.noConfusion
  intro hcons _ hle
  rw [hcons, List.tail_cons]
  apply Agrees.take Token.Kind.noConfusion hle
  · intro _ hcons hcolon hle
    have hkeys := agrees_sortKeys hle (show _ < depth by omega) []
    simp only [List.nil_append, andThen_pure] at hkeys
    rw [hcons, Parse.sortClause_colon _ hcolon]
    exact hkeys
  · intro hc
    rw [Parse.sortClause_unexpected hc]
    exact .unexpected hle _

theorem rest_eq_nil_iff : ended.rest i = [] ↔ Parse.nextKind (ended.rest i) = .eof := by
  constructor
  · intro h
    rw [h]
    rfl
  · intro h
    cases hr : ended.rest i with
    | nil => rfl
    | cons token more =>
      rw [hr] at h
      have hmem : token ∈ ended.front := List.mem_of_mem_drop (hr ▸ List.mem_cons_self)
      exact absurd h (ended.kind_front token hmem)

theorem agrees_sorting (h : i ≤ ended.front.length) {depth : Nat}
    (hd : ended.front.length - i < depth) :
    ended.Agrees (Walk.sorting depth) i
      (if Parse.nextKind (ended.rest i) = .sortBy
        then (Parse.sortClause (ended.rest i).tail).outcome else (.ok [], ended.rest i)) := by
  rw [Walk.sorting]
  apply Agrees.branch h
  · intro hk
    rw [if_pos hk]
    exact agrees_sortClause hd hk
  · intro hk
    rw [if_neg hk]
    exact .pure h _

theorem agrees_ending (h : i ≤ ended.front.length) {depth : Nat}
    (hd : ended.front.length - i < depth) :
    ended.Agrees (Walk.ending depth) i (Parse.closing (ended.rest i)) := by
  rw [Walk.ending, Parse.closing]
  apply Agrees.bind (agrees_sorting h hd)
  intro keys j _ hj _
  apply Agrees.branch hj
  · intro he
    rw [if_pos (rest_eq_nil_iff.2 he)]
    exact .pure hj keys
  · intro he
    rw [if_neg (fun hr => he (rest_eq_nil_iff.1 hr))]
    exact .unexpected hj _

theorem agrees_query (h : i ≤ ended.front.length) {depth : Nat}
    (hd : 5 * (ended.front.length - i) + 4 < depth) :
    ended.Agrees (Walk.query depth) i (Parse.whole ended.last.position (ended.rest i)) := by
  rw [Walk.query, Parse.whole]
  apply Agrees.check h
  apply Agrees.check h
  rw [← Bool.decide_or]
  by_cases hk : Parse.nextKind (ended.rest i) = .sortBy ∨ Parse.nextKind (ended.rest i) = .eof
  · rw [if_pos hk, if_pos (decide_eq_true hk)]
    apply Agrees.bind (agrees_ending h (by omega))
    exact fun keys j _ hj _ => .pure hj _
  · rw [if_neg hk, if_neg (fun hd => hk (of_decide_eq_true hd))]
    apply Agrees.bind_reading ((follows ended depth).disjunction h hd)
    intro filter j _ hj
    apply Agrees.bind (agrees_ending hj (by omega))
    exact fun keys k _ hk _ => .pure hk _

end Ended
end Triage
