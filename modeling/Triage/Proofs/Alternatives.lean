import Mathlib.Data.List.Forall2
import Triage.Proofs.Grammar.Completeness
import Triage.Proofs.Grammar.Kinds
import Triage.Selection

/-! A list of values beside the alternatives it stands for.

The values of a list are read one by one as each would be alone, so a list is accepted
exactly if every value is (`Alternative.listed_accepted_iff`), and the values joined by
`OR` are accepted with it. Both ask for one of the values. A list always asks whether
the field equals a value; a single value does the same (`Parse.accepts_single_eq`),
unless it is a text for free text, which is searched for and found where it is equal.
So a list selects what its alternatives select, and may select less only in free text
(`Query.listed_either`). -/
namespace Triage

/-- A row of tokens that is a phrase reads as its filter. -/
theorem Grammar.Phrase.ofTokens {ts : List Token} {f : Filter} (h : Phrase .disjunction ts f)
    (hend : ∀ token ∈ ts, token.kind ≠ .eof) : Query.ofTokens ts = .ok ⟨some f, []⟩ := by
  have hderives : Derives (ts ++ []) ⟨some f, []⟩ := .intro (.some h) .none
  rw [List.append_nil] at hderives
  exact ofTokens_of_derives hend hderives

/-- A value token of a field with the tokens that may stand before it: the name of the field and
the colon, and what joins the value, or the whole condition, to an earlier one. -/
structure Alternative (field : Field) where
  name : Token
  colon : Token
  value : Token
  comma : Token
  or : Token
  name_kind : name.kind = .identifier
  name_lexeme : Field.ofName? name.lexeme = some field
  colon_kind : colon.kind = .colon
  value_kind : value.kind.isValue = true
  comma_kind : comma.kind = .comma
  or_kind : or.kind = .or

namespace Alternative

variable {field : Field}

/-- The tokens of a condition with a single value. -/
def single (a : Alternative field) : List Token := [a.name, a.colon, a.value]

/-- The tokens of a condition with a list of values. -/
def listed (first : Alternative field) (more : List (Alternative field)) : List Token :=
  first.single ++ more.flatMap fun a => [a.comma, a.value]

/-- The tokens of the conditions with one value each, joined by `OR`. -/
def either (first : Alternative field) (more : List (Alternative field)) : List Token :=
  first.single ++ more.flatMap fun a => a.or :: a.single

/-- The value that an alternative writes. -/
def Writes (a : Alternative field) (v : Value) : Prop := Grammar.Says field a.value v

theorem exists_writes {as : List (Alternative field)} (h : ∀ a ∈ as, ∃ v, a.Writes v) :
    ∃ vs, List.Forall₂ Writes as vs := by
  induction as with
  | nil => exact ⟨[], .nil⟩
  | cons a as ih =>
    obtain ⟨⟨v, hv⟩, h⟩ := List.forall_mem_cons.1 h
    obtain ⟨vs, hvs⟩ := ih h
    exact ⟨v :: vs, .cons hv hvs⟩

/-! ### Tokens -/

theorem kind_ne_eof (a : Alternative field) :
    a.name.kind ≠ .eof ∧ a.colon.kind ≠ .eof ∧ a.value.kind ≠ .eof ∧ a.comma.kind ≠ .eof ∧
      a.or.kind ≠ .eof := by
  refine ⟨Token.kind_ne a.name_kind (by decide), Token.kind_ne a.colon_kind (by decide),
    fun hk => ?_, Token.kind_ne a.comma_kind (by decide), Token.kind_ne a.or_kind (by decide)⟩
  have hv := a.value_kind
  rw [hk] at hv
  exact Bool.noConfusion hv

/-- No end stands in a condition, nor in a list of values or alternatives behind it. -/
theorem forall_kind_ne_eof (first : Alternative field) (more : List (Alternative field))
    {joined : Alternative field → List Token}
    (h : ∀ a, joined a ⊆ a.comma :: a.or :: a.single) :
    ∀ token ∈ first.single ++ more.flatMap joined, token.kind ≠ .eof := by
  have hsingle : ∀ a : Alternative field, ∀ token ∈ a.comma :: a.or :: a.single,
      token.kind ≠ .eof := by
    intro a
    obtain ⟨hn, hc, hv, hcomma, hor⟩ := a.kind_ne_eof
    simp [single, hn, hc, hv, hcomma, hor]
  refine List.forall_mem_append.2 ⟨fun token ht => ?_, fun token ht => ?_⟩
  · exact hsingle first token (List.mem_cons_of_mem _ (List.mem_cons_of_mem _ ht))
  · obtain ⟨a, -, ha⟩ := List.mem_flatMap.1 ht
    exact hsingle a token (h a ha)

theorem forall_kind_ne_eof_single (a : Alternative field) :
    ∀ token ∈ a.single, token.kind ≠ .eof :=
  (List.forall_mem_append.1 (a.forall_kind_ne_eof [] fun _ => List.nil_subset _)).1

theorem forall_kind_ne_eof_listed (first : Alternative field) (more : List (Alternative field)) :
    ∀ token ∈ first.listed more, token.kind ≠ .eof :=
  first.forall_kind_ne_eof more fun a => by simp [single]

theorem forall_kind_ne_eof_either (first : Alternative field) (more : List (Alternative field)) :
    ∀ token ∈ first.either more, token.kind ≠ .eof :=
  first.forall_kind_ne_eof more fun _ => List.subset_cons_self _ _

/-! ### What is derived -/

theorem Writes.phrase {a : Alternative field} {v : Value} (h : a.Writes v) :
    Grammar.Phrase .primary a.single (Parse.single field v) :=
  .field a.name_kind a.colon_kind a.name_lexeme (Grammar.values_single h)

theorem further_of_writes {as : List (Alternative field)} {vs : List Value}
    (h : List.Forall₂ Writes as vs) :
    Grammar.Further field (as.flatMap fun a => [a.comma, a.value]) vs := by
  induction h with
  | nil => exact .nil
  | @cons a v as vs ha _ ih => exact .cons a.comma_kind ha ih

theorem phrase_listed {first : Alternative field} {more : List (Alternative field)} {v : Value}
    {vs : List Value} (hfirst : first.Writes v) (hmore : List.Forall₂ Writes more vs)
    (hne : vs ≠ []) : Grammar.Phrase .primary (first.listed more) (.oneOf field (v :: vs)) :=
  .field first.name_kind first.colon_kind first.name_lexeme
    (.list hfirst (further_of_writes hmore) hne)

/-- A filter and the conditions with a single value each, joined to it by `OR`. -/
def anyOf (field : Field) (left : Filter) (vs : List Value) : Filter :=
  vs.foldl (fun left v => .or left (Parse.single field v)) left

theorem phrase_anyOf {before : List Token} {left : Filter}
    (hb : Grammar.Phrase .disjunction before left) {as : List (Alternative field)}
    {vs : List Value} (h : List.Forall₂ Writes as vs) :
    Grammar.Phrase .disjunction (before ++ as.flatMap fun a => a.or :: a.single)
      (anyOf field left vs) := by
  induction h generalizing before left with
  | nil =>
    rw [List.flatMap_nil, List.append_nil]
    exact hb
  | @cons a v as vs ha _ ih =>
    have hcondition := Grammar.Phrase.negation (.primary (Writes.phrase ha))
    rw [List.flatMap_cons, ← List.append_assoc]
    exact ih (.or hb a.or_kind hcondition)

/-! ### What is accepted -/

open Parse Outcome

/-- Where a condition is accepted its values are read. -/
theorem exists_values_of_query (a : Alternative field) {stream : Stream} {rest : List Token}
    (ht : stream.tokens = a.name :: a.colon :: rest) {query : Query}
    (h : stream.query = .ok query) :
    ∃ f after, (values stream.finish field a.name rest).outcome = (.ok f, after) := by
  have hname : nextKind stream.tokens = .identifier := by
    rw [ht]
    exact a.name_kind
  have hcolon : nextKind (a.colon :: rest) = .colon := a.colon_kind
  rw [Stream.query_term (by rw [hname]; rfl)] at h
  split at h
  · cases h
  · next f after hd =>
    rw [disjunction_outcome, andThen_eq_ok_iff] at hd
    obtain ⟨_, _, hc, -⟩ := hd
    rw [conjunction_outcome, andThen_eq_ok_iff] at hc
    obtain ⟨f, after, hn, -⟩ := hc
    rw [negation_primary _ (by rw [hname]; decide), ht, primary_field _ _ a.name_kind hcolon,
      fieldTerm_outcome, resolveField_eq_ok_iff.2 a.name_lexeme] at hn
    exact ⟨f, after, hn⟩

/-- Where a list is read to its end every value in it is read. -/
theorem exists_writes_of_moreValues {finish : Nat} {name : Token} {before all : List Value}
    {as : List (Alternative field)} {after : List Token}
    (h : (moreValues finish field name before
      (as.flatMap fun a => [a.comma, a.value])).outcome = (.ok all, after)) :
    ∀ a ∈ as, ∃ v, a.Writes v := by
  induction as generalizing before with
  | nil => exact fun a ha => absurd ha List.not_mem_nil
  | cons a as ih =>
    rw [List.flatMap_cons, List.cons_append, List.singleton_append,
      moreValues_comma finish field name before _ a.comma_kind, andThen_eq_ok_iff] at h
    obtain ⟨v, left, hv, hmore⟩ := h
    obtain ⟨token, heq, hsays⟩ := (value_found_iff finish).1 hv
    obtain ⟨rfl, rfl⟩ := List.cons.inj heq
    exact List.forall_mem_cons.2 ⟨⟨v, hsays⟩, ih hmore⟩

/-- A condition with a single value is accepted exactly if its value is one of the field. -/
theorem single_accepted_iff (a : Alternative field) :
    (∃ query, Query.ofTokens a.single = .ok query) ↔ ∃ v, a.Writes v := by
  have hend := a.forall_kind_ne_eof_single
  constructor
  · intro h
    obtain ⟨query, h⟩ := h
    obtain ⟨f, after, hvalues⟩ := a.exists_values_of_query (Stream.tokens_ofTokens hend) h
    rw [values_outcome, andThen_eq_ok_iff] at hvalues
    obtain ⟨v, _, hv, -⟩ := hvalues
    obtain ⟨token, heq, hsays⟩ := (value_found_iff _).1 hv
    obtain ⟨rfl, -⟩ := List.cons.inj heq
    exact ⟨v, hsays⟩
  · intro h
    obtain ⟨v, h⟩ := h
    exact ⟨_, Grammar.Phrase.ofTokens (.conjunction (.negation (.primary h.phrase))) hend⟩

/-- A list of two values or more is accepted exactly if every value is one of the field. -/
theorem listed_accepted_iff (first second : Alternative field) (more : List (Alternative field)) :
    (∃ query, Query.ofTokens (first.listed (second :: more)) = .ok query) ↔
      ∀ a ∈ first :: second :: more, ∃ v, a.Writes v := by
  have hend := first.forall_kind_ne_eof_listed (second :: more)
  constructor
  · intro h
    obtain ⟨query, h⟩ := h
    have htokens : (Stream.ofTokens (first.listed (second :: more))).tokens =
        first.name :: first.colon :: first.value ::
          (second :: more).flatMap fun a => [a.comma, a.value] := Stream.tokens_ofTokens hend
    obtain ⟨f, after, hvalues⟩ := first.exists_values_of_query htokens h
    rw [values_outcome, andThen_eq_ok_iff] at hvalues
    obtain ⟨v, rest, hv, hlist⟩ := hvalues
    obtain ⟨token, heq, hsays⟩ := (value_found_iff _).1 hv
    obtain ⟨rfl, rfl⟩ := List.cons.inj heq
    have hcomma : nextKind ((second :: more).flatMap fun a => [a.comma, a.value]) = .comma :=
      second.comma_kind
    rw [hcomma] at hlist
    obtain ⟨all, left, hmore, -⟩ := andThen_eq_ok_iff.1 hlist
    exact List.forall_mem_cons.2 ⟨⟨v, hsays⟩, exists_writes_of_moreValues hmore⟩
  · intro h
    obtain ⟨⟨v, hv⟩, h⟩ := List.forall_mem_cons.1 h
    obtain ⟨_, hvs⟩ := exists_writes h
    have hphrase := phrase_listed hv hvs (by rintro rfl; cases hvs)
    exact ⟨_, Grammar.Phrase.ofTokens (.conjunction (.negation (.primary hphrase))) hend⟩

end Alternative

/-! ### What is selected -/

section Selection

variable (now : Moment) (issue : Issue) {field : Field}

/-- Whether a field of an issue equals a value. -/
def Issue.equals (field : Field) (v : Value) : Bool :=
  (issue.get field).equals now field.type.isEnum v

/-- A single value asks whether the field equals it, unless it is a text for free text. -/
theorem Parse.accepts_single_eq {v : Value}
    (h : ¬ (field.isFreeText = true ∧ ∃ t, v = .text t)) :
    (single field v).accepts now issue = issue.equals now field v := by
  by_cases hl : field.type = .textList
  · unfold single
    rw [if_pos hl]
    rfl
  · rw [Grammar.single_of_not_search hl h]
    rfl

/-- A text that is equal to what a field holds is found in it. -/
theorem Content.anyText_finds_of_equals {content : Content} {t : Text}
    (h : content.equals now false (.text t) = true) :
    content.anyText (Filter.finds t false) = true := by
  have hfinds : ∀ s : Text, Text.same false s t = true → Filter.finds t false s = true := by
    intro s hs
    have hlower : s.lower = t.lower := of_decide_eq_true hs
    simp [Filter.finds, hlower, Text.holds_iff_infix]
  cases content with
  | text s => exact hfinds s h
  | list items =>
    obtain ⟨s, hmem, hs⟩ := List.any_eq_true.1 h
    exact List.any_eq_true.2 ⟨s, hmem, hfinds s hs⟩
  | _ => exact Bool.noConfusion h

/-- What equals a value meets the condition of the value alone. -/
theorem Parse.accepts_single_of_equals {v : Value} (h : issue.equals now field v = true) :
    (single field v).accepts now issue = true := by
  by_cases hs : field.isFreeText = true ∧ ∃ t, v = .text t
  · obtain ⟨hfree, t, rfl⟩ := hs
    have henum : field.type.isEnum = false := by
      cases field <;> first | rfl | exact Bool.noConfusion hfree
    rw [Issue.equals, henum] at h
    rw [Grammar.single_of_isFreeText hfree]
    simpa [Filter.accepts, Filter.searchedIn] using Content.anyText_finds_of_equals now h
  · rwa [accepts_single_eq now issue hs]

/-- Joined by `OR`, conditions ask for one of them. -/
theorem Alternative.accepts_anyOf (left : Filter) (vs : List Value) :
    (anyOf field left vs).accepts now issue =
      (left.accepts now issue || vs.any fun v => (Parse.single field v).accepts now issue) := by
  induction vs generalizing left with
  | nil => exact (Bool.or_false _).symm
  | cons v vs ih =>
    rw [anyOf, List.foldl_cons, ← anyOf, ih, List.any_cons, ← Bool.or_assoc]
    rfl

end Selection

/-! ### Queries -/

namespace Query

/-- **A list of values stands for its alternatives.** Two value tokens or more, with commas between
them behind the name of a field and a colon, read as a query if and only if each of them does alone.
Then they do so joined by `OR` as well, and select the same issues, except in free text: there an
issue that the list selects is selected by the alternatives. -/
theorem listed_either {field : Field} (first second : Alternative field)
    (more : List (Alternative field)) :
    ((∃ query, ofTokens (first.listed (second :: more)) = .ok query) ↔
      ∀ a ∈ first :: second :: more, ∃ query, ofTokens a.single = .ok query) ∧
    ∀ list, ofTokens (first.listed (second :: more)) = .ok list →
      ∃ union, ofTokens (first.either (second :: more)) = .ok union ∧
        ∀ now issue,
          (field.isFreeText = false → list.keeps now issue = union.keeps now issue) ∧
          (list.keeps now issue = true → union.keeps now issue = true) := by
  simp only [Alternative.single_accepted_iff]
  refine ⟨first.listed_accepted_iff second more, fun list hlist => ?_⟩
  have hwrites := (first.listed_accepted_iff second more).1 ⟨list, hlist⟩
  obtain ⟨⟨v, hv⟩, hwrites⟩ := List.forall_mem_cons.1 hwrites
  obtain ⟨vs, hvs⟩ := Alternative.exists_writes hwrites
  have hphrase := Alternative.phrase_listed hv hvs (by rintro rfl; cases hvs)
  have hsame := Grammar.Phrase.ofTokens (.conjunction (.negation (.primary hphrase)))
    (first.forall_kind_ne_eof_listed (second :: more))
  obtain rfl := Except.ok.inj (hlist.symm.trans hsame)
  have hunion := Alternative.phrase_anyOf
    (.conjunction (.negation (.primary (Alternative.Writes.phrase hv)))) hvs
  refine ⟨_, hunion.ofTokens (first.forall_kind_ne_eof_either (second :: more)),
    fun now issue => ?_⟩
  have hkeeps : keeps ⟨some (Alternative.anyOf field (Parse.single field v) vs), []⟩ now issue =
      (v :: vs).any fun w => (Parse.single field w).accepts now issue :=
    Alternative.accepts_anyOf now issue _ vs
  have hequals : keeps ⟨some (.oneOf field (v :: vs)), []⟩ now issue =
      (v :: vs).any (issue.equals now field) := rfl
  rw [hkeeps, hequals]
  refine ⟨fun hfree => ?_, fun h => ?_⟩
  · refine congrArg (List.any (v :: vs)) (funext fun w => ?_)
    exact (Parse.accepts_single_eq now issue fun hs => by simp [hfree] at hs).symm
  · obtain ⟨w, hw, hequal⟩ := List.any_eq_true.1 h
    exact List.any_eq_true.2 ⟨w, hw, Parse.accepts_single_of_equals now issue hequal⟩

/-- A word to look for in titles. -/
def titleWord (word : Text) : Alternative .title where
  name := ⟨.identifier, "title".toList, 0, none⟩
  colon := ⟨.colon, ":".toList, 5, none⟩
  value := ⟨.identifier, word, 6, none⟩
  comma := ⟨.comma, ",".toList, 0, none⟩
  or := ⟨.or, "OR".toList, 0, none⟩
  name_kind := rfl
  name_lexeme := by decide
  colon_kind := rfl
  value_kind := rfl
  comma_kind := rfl
  or_kind := rfl

/-- In free text the alternatives find what the list does not: a word inside another one. -/
theorem listed_either_title :
    ∃ list union,
      ofTokens ((titleWord "log".toList).listed [titleWord "out".toList]) = .ok list ∧
      ofTokens ((titleWord "log".toList).either [titleWord "out".toList]) = .ok union ∧
      union.keeps (.universal .epoch) (Issue.new "1".toList "OUT".toList) = true ∧
      union.keeps (.universal .epoch) (Issue.new "2".toList "login".toList) = true ∧
      list.keeps (.universal .epoch) (Issue.new "2".toList "login".toList) = false := by
  have hlist : ofTokens ((titleWord "log".toList).listed [titleWord "out".toList]) =
      .ok ⟨some (.oneOf .title [.text "log".toList, .text "out".toList]), []⟩ := by
    apply eq_ok_of_toOption
    decide +kernel
  have heither : ofTokens ((titleWord "log".toList).either [titleWord "out".toList]) =
      .ok ⟨some (.or (.contains (some .title) "log".toList false)
        (.contains (some .title) "out".toList false)), []⟩ := by
    apply eq_ok_of_toOption
    decide +kernel
  obtain ⟨union, hunion, hselect⟩ :=
    (listed_either (titleWord "log".toList) (titleWord "out".toList) []).2 _ hlist
  obtain rfl := Except.ok.inj (heither.symm.trans hunion)
  exact ⟨_, _, hlist, hunion, (hselect _ _).2 (by decide +kernel), by decide +kernel,
    by decide +kernel⟩

end Query
end Triage
