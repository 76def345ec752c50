import Triage.Proofs.Grammar.Completeness
import Triage.Proofs.Legible

/-! A query is read back from its canonical text.

A filter whose values are all legible is derived from the tokens that spell it
(`Spelled.phrase`), and any other is refused where the reading meets the first
value that is not (`Spelled.fails`). So a query of the right shape is read back
from its canonical text exactly if it is legible
(`Query.parse_render_iff_legible`). -/
namespace Triage
open Parse Outcome

/-! ### Filters -/

/-- A filter whose values are all read back from their written form. -/
def Filter.Legible (filter : Filter) : Prop := ∀ operand ∈ filter.operands, operand.2.Legible

theorem Filter.Legible.lexable {filter : Filter} (h : filter.Legible) : filter.Lexable :=
  fun operand ho => (h operand ho).lexable

namespace Filter

theorem legible_and {left right : Filter} :
    (Filter.and left right).Legible ↔ left.Legible ∧ right.Legible :=
  List.forall_mem_append

theorem legible_or {left right : Filter} :
    (Filter.or left right).Legible ↔ left.Legible ∧ right.Legible :=
  List.forall_mem_append

theorem legible_oneOf {field : Field} {vs : List Value} :
    (Filter.oneOf field vs).Legible ↔ ∀ v ∈ vs, v.Legible :=
  List.forall_mem_map

end Filter

theorem Names.ofName? {field : Field} {name : Token} (h : Names field name) :
    Field.ofName? name.lexeme = some field := by
  rw [h.2]
  exact Field.ofName?_name field

/-- Further values that are all legible are said by their tokens. -/
theorem SpelledFurther.further {field : Field} {vs : List Value} {ts : List Token}
    (h : SpelledFurther vs ts) (ht : ∀ v ∈ vs, field.type.takes v = true)
    (hl : ∀ v ∈ vs, v.Legible) : Grammar.Further field ts vs := by
  induction h with
  | nil => exact .nil
  | @cons v vs comma token ts hc hs _ ih =>
    obtain ⟨htv, ht⟩ := List.forall_mem_cons.1 ht
    obtain ⟨hlv, hl⟩ := List.forall_mem_cons.1 hl
    exact .cons hc (hlv.said hs htv) (ih ht hl)

/-- A legible filter is derived from the tokens that spell it. -/
theorem Spelled.phrase {filter : Filter} {ts : List Token} (h : Spelled filter ts)
    (hs : filter.WellShaped) (hl : filter.Legible) : Grammar.Phrase .negation ts filter := by
  induction h with
  | and hfirst _ ha _ hlast ihl ihr =>
    obtain ⟨hleft, hright⟩ := Filter.legible_and.1 hl
    exact .primary (.group hfirst
      (.conjunction (.and (.negation (ihl hs.1 hleft)) ha (ihr hs.2 hright))) hlast)
  | or hfirst _ ho _ hlast ihl ihr =>
    obtain ⟨hleft, hright⟩ := Filter.legible_or.1 hl
    exact .primary (.group hfirst
      (.or (.conjunction (.negation (ihl hs.1 hleft))) ho (.negation (ihr hs.2 hright))) hlast)
  | not hn _ ih => exact .not hn (ih hs hl)
  | @equals field v name colon token hn hc hv =>
    obtain ⟨hlabels, ht, hnull⟩ := hs
    have hsaid := (hl (field, v) List.mem_cons_self).said hv ht
    refine .primary (.field hn.1 hc hn.ofName? (.equal ?_ ?_ hsaid))
    · exact fun htype => hlabels (Field.type_eq_textList_iff.1 htype)
    · intro hsearch
      obtain ⟨hfree, t, rfl⟩ := hsearch
      exact Value.noConfusion (hnull hfree)
  | @has field v name colon token hn hc hv =>
    obtain ⟨rfl, ht⟩ := hs
    have hsaid := (hl (.labels, v) List.mem_cons_self).said hv ht
    exact .primary (.field hn.1 hc hn.ofName? (.item rfl hsaid))
  | @oneOf field v vs name colon token ts hn hc hv hvs =>
    obtain ⟨hlength, ht⟩ := hs
    obtain ⟨htv, ht⟩ := List.forall_mem_cons.1 ht
    obtain ⟨hlv, hl⟩ := List.forall_mem_cons.1 (Filter.legible_oneOf.1 hl)
    have hne : vs ≠ [] := by
      rintro rfl
      exact absurd hlength (Nat.not_succ_le_self 1)
    exact .primary (.field hn.1 hc hn.ofName? (.list (hlv.said hv htv) (hvs.further ht hl) hne))
  | @range field min max name colon low dots high hn hc hmin hd hmax =>
    obtain ⟨ho, htmin, htmax⟩ := hs
    have hlow := (hl (field, min) (by simp [Filter.operands])).said hmin htmin
    have hhigh := (hl (field, max) (by simp [Filter.operands])).said hmax htmax
    exact .primary (.field hn.1 hc hn.ofName? (.range ho hlow hd hhigh))
  | @search field t caseSensitive name colon token hn hc ht =>
    obtain ⟨rfl, hfree⟩ := hs
    have hfree := hfree field rfl
    have htext : (Value.text t).Legible := trivial
    have hsaid := htext.said ht (Filter.takes_text_of_isFreeText hfree t)
    exact .primary (.field hn.1 hc hn.ofName? (.search hfree hsaid))
  | @term t caseSensitive token ht =>
    obtain ⟨rfl, -⟩ := hs
    have hterm : token.kind.isValue = true ∧ token.text = t := by
      rcases ht with ⟨hk, hlexeme, hliteral, -⟩ | ⟨hk, hliteral⟩
      · simp [hk, Token.Kind.isValue, Token.text, hliteral, hlexeme]
      · simp [hk, Token.Kind.isValue, Token.text, hliteral]
    obtain ⟨hk, rfl⟩ := hterm
    exact .primary (.term hk)

/-! ### Refusal -/

section Refusal

variable (finish : Nat)

/-- Among further values one that is not legible is refused. -/
theorem SpelledFurther.fails {field : Field} {vs : List Value} {ts : List Token}
    (h : SpelledFurther vs ts) (ht : ∀ v ∈ vs, field.type.takes v = true)
    (hx : ∀ v ∈ vs, v.Lexable) (hn : ¬ ∀ v ∈ vs, v.Legible) (name : Token)
    (before : List Value) (rest : List Token) :
    Fails (moreValues finish field name before (ts ++ rest)).outcome := by
  induction h generalizing before with
  | nil => exact absurd (fun v hv => absurd hv (List.not_mem_nil)) hn
  | @cons v vs comma token ts hc hs _ ih =>
    obtain ⟨htv, ht⟩ := List.forall_mem_cons.1 ht
    obtain ⟨hxv, hx⟩ := List.forall_mem_cons.1 hx
    rw [List.cons_append, List.cons_append, moreValues_comma finish field name before _ hc]
    by_cases hlv : v.Legible
    · have hmore : ¬ ∀ w ∈ vs, w.Legible := fun hall => hn (List.forall_mem_cons.2 ⟨hlv, hall⟩)
      rw [Grammar.value_said finish (hlv.said hs htv), andThen_ok]
      exact ih ht hx hmore (before ++ [v])
    · exact (Value.fails_of_not_legible finish hxv hlv hs htv name _).andThen _

/-- A condition on a field is refused if its values are. -/
theorem Names.fails {field : Field} {name colon : Token} {ts : List Token}
    (hn : Names field name) (hc : colon.kind = .colon)
    (h : Fails (values finish field name ts).outcome) :
    Fails (negation finish (name :: colon :: ts)).outcome := by
  have hname : nextKind (name :: colon :: ts) ≠ .not := by
    intro hk
    exact Token.Kind.noConfusion (hn.1.symm.trans hk)
  rw [negation_primary finish hname, primary_field finish (colon :: ts) hn.1 hc,
    fieldTerm_outcome, resolveField_eq_ok_iff.2 hn.ofName?]
  exact h

/-- Values are refused if the first one is. -/
theorem values_fails_first {field : Field} {name : Token} {tokens : List Token}
    (h : Fails (value finish field name tokens).outcome) :
    Fails (values finish field name tokens).outcome := by
  rw [values_outcome]
  exact h.andThen _

/-- A list is refused if one of its values is not legible. -/
theorem list_fails {field : Field} {v : Value} {vs : List Value} {token : Token} {ts : List Token}
    (hv : v.SpelledBy token) (hvs : SpelledFurther vs ts)
    (ht : ∀ w ∈ v :: vs, field.type.takes w = true) (hx : ∀ w ∈ v :: vs, w.Lexable)
    (hn : ¬ ∀ w ∈ v :: vs, w.Legible) (name : Token) (rest : List Token) :
    Fails (values finish field name (token :: (ts ++ rest))).outcome := by
  obtain ⟨htv, ht⟩ := List.forall_mem_cons.1 ht
  obtain ⟨hxv, hx⟩ := List.forall_mem_cons.1 hx
  by_cases hlv : v.Legible
  · have hmore : ¬ ∀ w ∈ vs, w.Legible := fun hall => hn (List.forall_mem_cons.2 ⟨hlv, hall⟩)
    have hcomma : nextKind (ts ++ rest) = .comma := by
      cases hvs with
      | nil => exact absurd (fun w hw => absurd hw (List.not_mem_nil)) hmore
      | cons hk _ _ => exact hk
    rw [values_outcome, Grammar.value_said finish (hlv.said hv htv), andThen_ok, hcomma]
    exact (hvs.fails finish ht hx hmore name [v] rest).andThen _
  · exact values_fails_first finish (Value.fails_of_not_legible finish hxv hlv hv htv name _)

/-- A range is refused if its second bound is. -/
theorem range_fails {field : Field} {min : Value} {name low dots : Token} {ts : List Token}
    (ho : field.type.isOrderable = true) (hmin : Grammar.Says field low min)
    (hd : dots.kind = .dotDot) (h : Fails (value finish field name ts).outcome) :
    Fails (values finish field name (low :: dots :: ts)).outcome := by
  have hk : nextKind (dots :: ts) = .dotDot := hd
  rw [values_outcome, Grammar.value_said finish hmin, andThen_ok, hk]
  simp only [ho, if_true, List.tail_cons]
  exact h.andThen _

/-- A group is refused if the disjunction in it is. -/
theorem group_fails {first : Token} {ts : List Token} (hf : first.kind = .leftParen)
    (h : Fails (disjunction finish ts).outcome) :
    Fails (negation finish (first :: ts)).outcome := by
  have hk : nextKind (first :: ts) ≠ .not := by
    intro hk
    exact Token.Kind.noConfusion (hf.symm.trans hk)
  rw [negation_primary finish hk, primary_group finish ts hf]
  exact h.andThen _

/-- A disjunction is refused if its first condition is. -/
theorem disjunction_fails {ts : List Token} (h : Fails (negation finish ts).outcome) :
    Fails (disjunction finish ts).outcome := by
  rw [disjunction_outcome, conjunction_outcome]
  exact (h.andThen _).andThen _

/-- A filter that is not legible is refused where the tokens that spell it begin. -/
theorem Spelled.fails {filter : Filter} {ts : List Token} (h : Spelled filter ts)
    (hs : filter.WellShaped) (hx : filter.Lexable) (hl : ¬ filter.Legible) (rest : List Token) :
    Fails (negation finish (ts ++ rest)).outcome := by
  -- A legible left side is read in full, and the refusal is met on the right.
  induction h generalizing rest with
  | @and left right ts us first and last hf hleft ha _ _ ihl ihr =>
    obtain ⟨hxl, hxr⟩ := List.forall_mem_append.1 hx
    rw [List.cons_append, List.append_assoc, List.append_assoc, List.cons_append]
    apply group_fails finish hf
    by_cases hll : left.Legible
    · have hlr : ¬ right.Legible := fun hr => hl (Filter.legible_and.2 ⟨hll, hr⟩)
      have hk : Grammar.extendsTerm (nextKind (and :: (us ++ ([last] ++ rest)))) = false := by
        rw [show nextKind (and :: (us ++ ([last] ++ rest))) = .and from ha]
        rfl
      have hread := (hleft.phrase hs.1 hll).reads finish _ hk
      rw [disjunction_outcome, conjunction_outcome, hread, andThen_ok,
        moreConjuncts_and finish left _ ha]
      exact ((ihr hs.2 hxr hlr _).andThen _).andThen _
    · exact disjunction_fails finish (ihl hs.1 hxl hll _)
  | @or left right ts us first or last hf hleft ho _ _ ihl ihr =>
    obtain ⟨hxl, hxr⟩ := List.forall_mem_append.1 hx
    rw [List.cons_append, List.append_assoc, List.append_assoc, List.cons_append]
    apply group_fails finish hf
    by_cases hll : left.Legible
    · have hlr : ¬ right.Legible := fun hr => hl (Filter.legible_or.2 ⟨hll, hr⟩)
      have hk : Grammar.extendsConjunction (nextKind (or :: (us ++ ([last] ++ rest)))) = false := by
        rw [show nextKind (or :: (us ++ ([last] ++ rest))) = .or from ho]
        rfl
      have hread := (Grammar.Phrase.negation (hleft.phrase hs.1 hll)).reads finish
      rw [disjunction_outcome, hread.conjunction_found finish hk, andThen_ok,
        moreDisjuncts_or finish left _ ho, conjunction_outcome]
      exact ((ihr hs.2 hxr hlr _).andThen _).andThen _
    · exact disjunction_fails finish (ihl hs.1 hxl hll _)
  | not hn _ ih =>
    rw [List.cons_append, negation_not finish _ hn]
    exact (ih hs hx hl rest).andThen _
  | @equals field v name colon token hn hc hv =>
    have hlv : ¬ v.Legible := fun hv => hl (by simpa [Filter.Legible, Filter.operands] using hv)
    have hxv := hx (field, v) List.mem_cons_self
    exact hn.fails finish hc (values_fails_first finish
      (Value.fails_of_not_legible finish hxv hlv hv hs.2.1 name rest))
  | @has field v name colon token hn hc hv =>
    have hlv : ¬ v.Legible := fun hv => hl (by simpa [Filter.Legible, Filter.operands] using hv)
    have hxv := hx (field, v) List.mem_cons_self
    exact hn.fails finish hc (values_fails_first finish
      (Value.fails_of_not_legible finish hxv hlv hv hs.2 name rest))
  | @oneOf field v vs name colon token ts hn hc hv hvs =>
    have hx : ∀ w ∈ v :: vs, w.Lexable := fun w hw => hx (field, w) (List.mem_map.2 ⟨w, hw, rfl⟩)
    have hl : ¬ ∀ w ∈ v :: vs, w.Legible := fun hall => hl (Filter.legible_oneOf.2 hall)
    exact hn.fails finish hc (list_fails finish hv hvs hs.2 hx hl name rest)
  | @range field min max name colon low dots high hn hc hmin hd hmax =>
    obtain ⟨ho, htmin, htmax⟩ := hs
    have hxmin := hx (field, min) (by simp [Filter.operands])
    have hxmax := hx (field, max) (by simp [Filter.operands])
    have hl : ¬ (min.Legible ∧ max.Legible) := by
      intro hboth
      obtain ⟨hlmin, hlmax⟩ := hboth
      exact hl (by simp [Filter.Legible, Filter.operands, hlmin, hlmax])
    apply hn.fails finish hc
    by_cases hlmin : min.Legible
    · have hlmax : ¬ max.Legible := fun hlmax => hl ⟨hlmin, hlmax⟩
      exact range_fails finish ho (hlmin.said hmin htmin) hd
        (Value.fails_of_not_legible finish hxmax hlmax hmax htmax name rest)
    · exact values_fails_first finish
        (Value.fails_of_not_legible finish hxmin hlmin hmin htmin name _)
  | search _ _ _ => exact absurd (by simp [Filter.Legible, Filter.operands, Value.Legible]) hl
  | term _ => exact absurd (by simp [Filter.Legible, Filter.operands]) hl

end Refusal

/-- A spelled filter begins like a term. -/
theorem Spelled.nextKind {filter : Filter} {ts : List Token} (h : Spelled filter ts)
    (rest : List Token) : (Parse.nextKind (ts ++ rest)).startsTerm = true := by
  cases h with
  | and hk _ _ _ _ => exact (congrArg Token.Kind.startsTerm hk).trans rfl
  | or hk _ _ _ _ => exact (congrArg Token.Kind.startsTerm hk).trans rfl
  | not hk _ => exact (congrArg Token.Kind.startsTerm hk).trans rfl
  | equals hn _ _ => exact (congrArg Token.Kind.startsTerm hn.1).trans rfl
  | oneOf hn _ _ _ => exact (congrArg Token.Kind.startsTerm hn.1).trans rfl
  | range hn _ _ _ _ => exact (congrArg Token.Kind.startsTerm hn.1).trans rfl
  | search hn _ _ => exact (congrArg Token.Kind.startsTerm hn.1).trans rfl
  | has hn _ _ => exact (congrArg Token.Kind.startsTerm hn.1).trans rfl
  | term ht =>
    rcases ht with ⟨hk, -⟩ | ⟨hk, -⟩ <;> exact (congrArg Token.Kind.startsTerm hk).trans rfl

/-! ### Queries -/

namespace Query

/-- A query whose values are all read back from their written form. -/
def Legible (query : Query) : Prop := ∀ filter ∈ query.filter, filter.Legible

theorem Legible.lexable {query : Query} (h : query.Legible) : query.Lexable :=
  fun filter hf => (h filter hf).lexable

/-- A legible query is derived from tokens that spell its filter and write its sort clause. -/
theorem derives_of_spelled {query : Query} {us vs : List Token} (hs : query.WellShaped)
    (hl : query.Legible) (hus : SpelledFilter query.filter us)
    (hvs : Grammar.SortPart vs query.sort) : Grammar.Derives (us ++ vs) query := by
  obtain ⟨filter, sort⟩ := query
  cases filter with
  | none =>
    obtain rfl : us = [] := hus
    exact .intro .none hvs
  | some filter =>
    have hphrase := Spelled.phrase hus (hs filter rfl) (hl filter rfl)
    exact .intro (.some (.conjunction (.negation hphrase))) hvs

/-- A stream that begins with tokens that spell a filter is refused if the filter is not legible. -/
theorem query_ne_ok_of_spelled {stream : Stream} {filter : Filter} {us vs : List Token}
    (ht : stream.tokens = us ++ vs) (h : Spelled filter us) (hs : filter.WellShaped)
    (hx : filter.Lexable) (hl : ¬ filter.Legible) (query : Query) : stream.query ≠ .ok query := by
  have hstarts := h.nextKind vs
  rw [← ht] at hstarts
  obtain ⟨e, rest, hfails⟩ :=
    disjunction_fails stream.finish (h.fails stream.finish hs hx hl vs)
  rw [Stream.query_term hstarts, ht, hfails]
  intro heq
  cases heq

/-- A query of the right shape is read back from its canonical text exactly if it is legible. -/
theorem parse_render_iff_legible {query : Query} (hs : query.WellShaped) :
    parse query.render = .ok query ↔ query.Legible := by
  obtain ⟨hsplits, herror⟩ := lexes_render hs 0
  -- A date that is no token stops the splitting, an instant that is not legible the reading.
  by_cases hx : query.Lexable
  · obtain ⟨_, ht, us, vs, rfl, hus, hvs⟩ := hsplits hx
    have htokens := ht.tokenize
    have hstream := Stream.tokens_ofTokens_append (Cursor.kind_ne_eof_of_tokens htokens)
      (show nextKind [⟨.eof, [], query.render.length, none⟩] = .eof from rfl)
    rw [parse_eq_ok_iff]
    constructor
    · intro h filter hf
      obtain ⟨tokens, hsame, hread⟩ := h
      obtain rfl := Except.ok.inj (htokens.symm.trans hsame)
      have hspelled : Spelled filter us := by
        have hf : query.filter = some filter := hf
        rwa [hf] at hus
      apply Classical.byContradiction
      intro hl
      exact query_ne_ok_of_spelled hstream hspelled (hs filter hf) (hx filter hf) hl query hread
    · intro hl
      exact ⟨_, htokens, Grammar.query_complete hstream (derives_of_spelled hs hl hus hvs)⟩
  · obtain ⟨e, he⟩ := herror hx
    rw [List.append_nil] at he
    constructor
    · intro h
      obtain ⟨tokens, ht, -⟩ := parse_eq_ok_iff.1 h
      cases he.symm.trans ht
    · exact fun hl => absurd hl.lexable hx

/-- **Canonical text is stable exactly for legible queries.** A query that is read is read back from
its canonical text if and only if none of its dates is in a year after 9999 and none of its instants
in a year of universal time that takes a sign. -/
theorem parse_render_of_parse {text : Text} {query : Query} (h : parse text = .ok query) :
    parse query.render = .ok query ↔ query.Legible :=
  parse_render_iff_legible fun _ hf => wellShaped_of_parse h hf

/-- Dates before the year 0 and up to the year 9999 are written without quotes and read back. -/
theorem parse_render_of_parse_dates :
    ∃ query, parse "due:-0044-03-15..9999-12-31".toList = .ok query ∧ query.Legible ∧
      parse query.render = .ok query := by
  have h : parse "due:-0044-03-15..9999-12-31".toList =
      .ok ⟨some (.range .due (.date ⟨-44, 3, 15, by decide, by decide, by decide⟩)
        (.date ⟨9999, 12, 31, by decide, by decide, by decide⟩)), []⟩ := by
    apply eq_ok_of_toOption
    decide +kernel
  have hl : Legible ⟨some (.range .due (.date ⟨-44, 3, 15, by decide, by decide, by decide⟩)
      (.date ⟨9999, 12, 31, by decide, by decide, by decide⟩)), []⟩ := by
    intro filter hf
    obtain rfl := Option.some.inj hf
    simp [Filter.Legible, Filter.operands, Value.Legible]
  exact ⟨_, h, hl, (parse_render_of_parse h).2 hl⟩

/-- A date in the year 10000 is read in quotes and written without, with a sign that begins no
token. -/
theorem not_parse_render_of_late_date :
    ∃ query, parse "created:\"+10000-01-01\"".toList = .ok query ∧
      parse query.render ≠ .ok query := by
  have h : parse "created:\"+10000-01-01\"".toList =
      .ok ⟨some (.equals .created (.date ⟨10000, 1, 1, by decide, by decide, by decide⟩)), []⟩ := by
    apply eq_ok_of_toOption
    decide +kernel
  refine ⟨_, h, fun hback => ?_⟩
  have hlegible := (parse_render_iff_legible fun _ hf => wellShaped_of_parse h hf).1 hback
  have hyear : (10000 : Int) ≤ 9999 := hlegible _ rfl _ List.mem_cons_self
  exact absurd hyear (by decide)

end Query
end Triage
