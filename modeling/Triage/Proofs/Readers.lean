import Triage.Query.Parse

/-! What the readers of a query do, one equation for each step.

A reading carries bounds on what is left, which only its termination needs. Here
a reading is looked at through its outcome: a value or an error, and the tokens
left. `Outcome.andThen` goes on from a value and stops at an error, and each
reader is an `andThen` of smaller ones, whatever its bounds. -/
namespace Triage

/-! ### Outcomes -/

/-- A value or an error, and the tokens left. -/
abbrev Outcome (α : Type) := Except ParseError α × List Token

/-- A result that is a value once its error is forgotten. -/
theorem eq_ok_of_toOption {result : Except ε α} {a : α} (h : result.toOption = some a) :
    result = .ok a := by
  cases result with
  | error e => cases h
  | ok b => exact congrArg Except.ok (Option.some.inj h)

/-- A result that is an error once its value is forgotten. -/
theorem eq_error_of_isError {result : Except ε α} {e : ε}
    (h : (match result with | .ok _ => none | .error e => some e) = some e) :
    result = .error e := by
  cases result with
  | error e => exact congrArg Except.error (Option.some.inj h)
  | ok b => cases h

namespace Outcome

/-- Goes on from a value with what is left, and stops at an error. -/
def andThen (outcome : Outcome α) (next : α → List Token → Outcome β) : Outcome β :=
  match outcome with
  | (.ok a, rest) => next a rest
  | (.error e, rest) => (.error e, rest)

/-- Whether no value was found. -/
def Fails (outcome : Outcome α) : Prop := ∃ e rest, outcome = (.error e, rest)

@[simp] theorem andThen_ok (a : α) (rest : List Token) (next : α → List Token → Outcome β) :
    andThen (.ok a, rest) next = next a rest := rfl

@[simp] theorem andThen_error (e : ParseError) (rest : List Token)
    (next : α → List Token → Outcome β) : andThen (.error e, rest) next = (.error e, rest) := rfl

theorem andThen_assoc (outcome : Outcome α) (next : α → List Token → Outcome β)
    (more : β → List Token → Outcome γ) :
    andThen (andThen outcome next) more =
      andThen outcome fun a rest => andThen (next a rest) more := by
  obtain ⟨result, rest⟩ := outcome
  cases result <;> rfl

theorem andThen_pure (outcome : Outcome α) :
    (andThen outcome fun a rest => (.ok a, rest)) = outcome := by
  obtain ⟨result, rest⟩ := outcome
  cases result <;> rfl

theorem fst_andThen_ok (outcome : Outcome α) (f : α → β) :
    (andThen outcome fun a rest => (.ok (f a), rest)).1 = outcome.1.map f := by
  obtain ⟨result, rest⟩ := outcome
  cases result <;> rfl

/-- A value at the end comes from a value on the way. -/
theorem andThen_eq_ok_iff {outcome : Outcome α} {next : α → List Token → Outcome β} {b : β}
    {rest : List Token} :
    outcome.andThen next = (.ok b, rest) ↔
      ∃ a left, outcome = (.ok a, left) ∧ next a left = (.ok b, rest) := by
  constructor
  · intro h
    obtain ⟨result, left⟩ := outcome
    cases result with
    | error e => exact absurd (congrArg Prod.fst h) (by simp)
    | ok a => exact ⟨a, left, rfl, h⟩
  · intro h
    obtain ⟨a, left, rfl, h⟩ := h
    exact h

/-- An error at the end is met at once or after a value on the way. -/
theorem andThen_eq_error_iff {outcome : Outcome α} {next : α → List Token → Outcome β}
    {e : ParseError} {rest : List Token} :
    outcome.andThen next = (.error e, rest) ↔
      outcome = (.error e, rest) ∨
        ∃ a left, outcome = (.ok a, left) ∧ next a left = (.error e, rest) := by
  obtain ⟨result, left⟩ := outcome
  cases result with
  | error e => simp
  | ok a =>
    refine ⟨fun h => .inr ⟨a, left, rfl, h⟩, ?_⟩
    rintro (h | ⟨b, middle, heq, h⟩)
    · exact absurd (congrArg Prod.fst h) (by simp)
    · cases heq
      exact h

theorem Fails.andThen {outcome : Outcome α} (h : outcome.Fails)
    (next : α → List Token → Outcome β) : (outcome.andThen next).Fails := by
  obtain ⟨e, rest, rfl⟩ := h
  exact ⟨e, rest, rfl⟩

theorem Fails.ne_ok {outcome : Outcome α} (h : outcome.Fails) (a : α) (rest : List Token) :
    outcome ≠ (.ok a, rest) := by
  obtain ⟨e, left, rfl⟩ := h
  intro heq
  exact absurd (congrArg Prod.fst heq) (by simp)

end Outcome

namespace Reading

@[simp] theorem outcome_found (a : α) (rest : List Token) (h : rest.length < n) :
    (found a rest h).outcome = (.ok a, rest) := rfl

@[simp] theorem outcome_failed (e : ParseError) (rest : List Token) (h : rest.length ≤ n) :
    (failed e rest h : Reading α n).outcome = (.error e, rest) := rfl

@[simp] theorem outcome_widen (h : n ≤ m) (reading : Reading α n) :
    (reading.widen h).outcome = reading.outcome := by
  cases reading <;> rfl

@[simp] theorem outcome_map (f : α → β) (reading : Reading α n) :
    (reading.map f).outcome = Outcome.andThen reading.outcome fun a rest => (.ok (f a), rest) := by
  cases reading <;> rfl

/-- What is left after a value is shorter than the bound. -/
theorem length_lt_of_outcome {reading : Reading α n} {a : α} {rest : List Token}
    (h : reading.outcome = (.ok a, rest)) : rest.length < n := by
  cases reading with
  | found b left hl =>
    have hr : left = rest := congrArg Prod.snd h
    exact hr ▸ hl
  | failed e left hl => exact absurd (congrArg Prod.fst h) (by simp)

end Reading

namespace Parse
open Outcome

/-- A token of a kind other than the end stands at the front if that kind comes next. -/
theorem exists_cons_of_nextKind {tokens : List Token} {kind : Token.Kind}
    (h : nextKind tokens = kind) (hk : kind ≠ .eof) :
    ∃ token rest, tokens = token :: rest ∧ token.kind = kind ∧ tokens.length = rest.length + 1 := by
  cases tokens with
  | nil => exact absurd h.symm hk
  | cons token rest => exact ⟨token, rest, rfl, h, rfl⟩

variable (finish : Nat)

/-! ### Values -/

theorem value_cons (field : Field) (name token : Token) (rest : List Token)
    (hk : token.kind.isValue = true) :
    (value finish field name (token :: rest)).outcome =
      match (rawValue field token).fit field with
      | .ok v => (.ok v, rest)
      | .error misfit => (.error (.invalidValue misfit token.position), rest) := by
  simp only [value, hk, if_true]
  cases (rawValue field token).fit field <;> rfl

theorem value_missing (field : Field) (name : Token) {tokens : List Token}
    (h : ¬ (nextKind tokens).isValue = true) :
    (value finish field name tokens).outcome =
      (.error (.missingValue name.lexeme (nextPosition finish tokens)), tokens) := by
  cases tokens with
  | nil => rfl
  | cons token rest =>
    have hk : ¬ token.kind.isValue = true := h
    rw [value, if_neg hk]
    rfl

/-- A value is found exactly in a value token that says one that fits. -/
theorem value_found_iff {field : Field} {name : Token} {tokens rest : List Token} {v : Value} :
    (value finish field name tokens).outcome = (.ok v, rest) ↔
      ∃ token, tokens = token :: rest ∧ token.kind.isValue = true ∧
        (rawValue field token).fit field = .ok v := by
  cases tokens with
  | nil => simp [value]
  | cons token after =>
    constructor
    · intro h
      by_cases hk : token.kind.isValue = true
      · rw [value_cons finish field name token after hk] at h
        cases hf : (rawValue field token).fit field with
        | error misfit => simp [hf] at h
        | ok w =>
          simp only [hf, Prod.mk.injEq, Except.ok.injEq] at h
          obtain ⟨rfl, rfl⟩ := h
          exact ⟨token, rfl, hk, hf⟩
      · simp [value, hk] at h
    · intro h
      obtain ⟨first, heq, hk, hf⟩ := h
      obtain ⟨rfl, rfl⟩ := List.cons.inj heq
      rw [value_cons finish field name token after hk, hf]

theorem moreValues_stop (field : Field) (name : Token) (vs : List Value) {tokens : List Token}
    (h : nextKind tokens ≠ .comma) :
    (moreValues finish field name vs tokens).outcome = (.ok vs, tokens) := by
  cases tokens with
  | nil => rw [moreValues]; rfl
  | cons token rest =>
    have hk : ¬ token.kind = .comma := h
    rw [moreValues, if_neg hk]
    rfl

theorem moreValues_comma (field : Field) (name : Token) (vs : List Value) {comma : Token}
    (rest : List Token) (h : comma.kind = .comma) :
    (moreValues finish field name vs (comma :: rest)).outcome =
      andThen (value finish field name rest).outcome fun v after =>
        (moreValues finish field name (vs ++ [v]) after).outcome := by
  rw [moreValues, if_pos h]
  cases value finish field name rest <;> simp

/-- After the first value of a field comes a range, a list or nothing more. -/
theorem values_outcome (field : Field) (name : Token) (tokens : List Token) :
    (values finish field name tokens).outcome =
      andThen (value finish field name tokens).outcome fun first rest =>
        match nextKind rest with
        | .dotDot =>
          if field.type.isOrderable then
            andThen (value finish field name rest.tail).outcome fun last after =>
              (.ok (.range field first last), after)
          else (.error (.invalidRange field (nextPosition finish rest)), rest.tail)
        | .comma =>
          andThen (moreValues finish field name [first] rest).outcome fun vs after =>
            (.ok (.oneOf field vs), after)
        | _ => (.ok (single field first), rest) := by
  rw [values]
  cases value finish field name tokens with
  | failed e rest h => rfl
  | found first rest h =>
    cases rest with
    | nil => rfl
    | cons token after =>
      simp only [Reading.outcome_found, Outcome.andThen_ok, nextKind, List.tail_cons]
      by_cases hd : token.kind = .dotDot
      · by_cases ho : field.type.isOrderable = true <;> simp [hd, ho, nextPosition]
      · by_cases hc : token.kind = .comma
        · simp [hc]
        · simp only [hd, hc, if_false, Reading.outcome_found]

theorem fieldTerm_outcome (name : Token) (tokens : List Token) :
    (fieldTerm finish name tokens).outcome =
      match resolveField name with
      | .error e => (.error e, tokens)
      | .ok field => (values finish field name tokens.tail).outcome := by
  rw [fieldTerm]
  cases resolveField name <;> simp

theorem fieldTerm_andThen (name : Token) (tokens : List Token) :
    (fieldTerm finish name tokens).outcome =
      andThen (resolveField name, tokens) fun field rest =>
        (values finish field name rest.tail).outcome := by
  rw [fieldTerm_outcome]
  cases resolveField name <;> rfl

theorem resolveField_eq_ok_iff {token : Token} {field : Field} :
    resolveField token = .ok field ↔ Field.ofName? token.lexeme = some field := by
  rw [resolveField]
  cases Field.ofName? token.lexeme <;> simp

/-! ### Expressions -/

theorem disjunction_outcome (tokens : List Token) :
    (disjunction finish tokens).outcome =
      andThen (conjunction finish tokens).outcome fun left rest =>
        (moreDisjuncts finish left rest).outcome := by
  rw [disjunction]
  cases conjunction finish tokens <;> simp

theorem moreDisjuncts_stop (left : Filter) {tokens : List Token} (h : nextKind tokens ≠ .or) :
    (moreDisjuncts finish left tokens).outcome = (.ok left, tokens) := by
  cases tokens with
  | nil => rw [moreDisjuncts]; rfl
  | cons token rest =>
    have hk : ¬ token.kind = .or := h
    rw [moreDisjuncts, if_neg hk]
    rfl

theorem moreDisjuncts_or (left : Filter) {or : Token} (rest : List Token) (h : or.kind = .or) :
    (moreDisjuncts finish left (or :: rest)).outcome =
      andThen (conjunction finish rest).outcome fun right after =>
        (moreDisjuncts finish (.or left right) after).outcome := by
  rw [moreDisjuncts, if_pos h]
  cases conjunction finish rest <;> simp

theorem conjunction_outcome (tokens : List Token) :
    (conjunction finish tokens).outcome =
      andThen (negation finish tokens).outcome fun left rest =>
        (moreConjuncts finish left rest).outcome := by
  rw [conjunction]
  cases negation finish tokens <;> simp

theorem moreConjuncts_stop (left : Filter) {tokens : List Token}
    (ha : nextKind tokens ≠ .and) (hs : (nextKind tokens).startsTerm = false) :
    (moreConjuncts finish left tokens).outcome = (.ok left, tokens) := by
  cases tokens with
  | nil => rw [moreConjuncts]; rfl
  | cons token rest =>
    have hk : ¬ token.kind = .and := ha
    have ht : ¬ token.kind.startsTerm = true := by
      rw [show token.kind.startsTerm = false from hs]
      exact Bool.false_ne_true
    rw [moreConjuncts, if_neg hk, if_neg ht]
    rfl

theorem moreConjuncts_and (left : Filter) {and : Token} (rest : List Token) (h : and.kind = .and) :
    (moreConjuncts finish left (and :: rest)).outcome =
      andThen (negation finish rest).outcome fun right after =>
        (moreConjuncts finish (.and left right) after).outcome := by
  rw [moreConjuncts, if_pos h]
  cases negation finish rest <;> simp

/-- A term next to another one is joined to it. -/
theorem moreConjuncts_term (left : Filter) {tokens : List Token}
    (h : (nextKind tokens).startsTerm = true) :
    (moreConjuncts finish left tokens).outcome =
      andThen (negation finish tokens).outcome fun right after =>
        (moreConjuncts finish (.and left right) after).outcome := by
  cases tokens with
  | nil => exact absurd h (by decide)
  | cons token rest =>
    have ht : token.kind.startsTerm = true := h
    have hk : ¬ token.kind = .and := by
      intro ha
      rw [ha] at ht
      exact absurd ht (by decide)
    rw [moreConjuncts, if_neg hk, if_pos ht]
    cases negation finish (token :: rest) <;> simp

theorem negation_not {not : Token} (rest : List Token) (h : not.kind = .not) :
    (negation finish (not :: rest)).outcome =
      andThen (negation finish rest).outcome fun child after => (.ok (.not child), after) := by
  rw [negation, if_pos h]
  simp

theorem negation_primary {tokens : List Token} (h : nextKind tokens ≠ .not) :
    (negation finish tokens).outcome = (primary finish tokens).outcome := by
  cases tokens with
  | nil => rw [negation]
  | cons token rest =>
    have hk : ¬ token.kind = .not := h
    rw [negation, if_neg hk]

theorem closeGroup_outcome (position : Nat) (filter : Filter) (rest : List Token) (n : Nat)
    (h : rest.length < n) :
    (closeGroup position filter rest n h).outcome =
      if nextKind rest = .rightParen then (.ok filter, rest.tail)
      else if nextKind rest = .eof ∨ nextKind rest = .sortBy then
        (.error (.unterminatedGroup position), rest)
      else (.error (unexpected "')'" rest), rest) := by
  cases rest with
  | nil => rfl
  | cons token after =>
    simp only [closeGroup, nextKind, List.tail_cons]
    split <;> simp_all

theorem primary_group {first : Token} (rest : List Token) (h : first.kind = .leftParen) :
    (primary finish (first :: rest)).outcome =
      andThen (disjunction finish rest).outcome fun filter after =>
        if nextKind after = .rightParen then (.ok filter, after.tail)
        else if nextKind after = .eof ∨ nextKind after = .sortBy then
          (.error (.unterminatedGroup first.position), after)
        else (.error (unexpected "')'" after), after) := by
  rw [primary, if_pos h]
  cases disjunction finish rest with
  | failed e after hl => rfl
  | found filter after hl => exact closeGroup_outcome first.position filter after _ _

theorem primary_field {name : Token} (rest : List Token) (hn : name.kind = .identifier)
    (hc : nextKind rest = .colon) :
    (primary finish (name :: rest)).outcome = (fieldTerm finish name rest).outcome := by
  rw [primary, if_neg (by simp [hn]), if_pos ⟨hn, hc⟩]
  simp

theorem primary_term {term : Token} (rest : List Token) (hv : term.kind.isValue = true)
    (hc : ¬ (term.kind = .identifier ∧ nextKind rest = .colon)) :
    (primary finish (term :: rest)).outcome = (.ok (.contains none term.text false), rest) := by
  have hp : ¬ term.kind = .leftParen := by
    intro hp
    rw [hp] at hv
    exact absurd hv (by decide)
  rw [primary, if_neg hp, if_neg hc, if_pos hv]
  rfl

/-- Nothing but a parenthesis or a value token begins a condition. -/
theorem primary_unexpected {tokens : List Token} (hp : nextKind tokens ≠ .leftParen)
    (hv : (nextKind tokens).isValue = false) :
    (primary finish tokens).outcome =
      (.error (unexpected "a search term or field:value" tokens), tokens) := by
  cases tokens with
  | nil =>
    rw [primary]
    rfl
  | cons token rest =>
    have hp : ¬ token.kind = .leftParen := hp
    have hv : token.kind.isValue = false := hv
    have hn : ¬ (token.kind = .identifier ∧ nextKind rest = .colon) := by
      intro h
      have hi := h.1
      rw [hi] at hv
      exact absurd hv (by decide)
    have hv : ¬ token.kind.isValue = true := by
      rw [hv]
      exact Bool.false_ne_true
    have heq := primary.eq_def finish (token :: rest)
    simp only [hp, hn, hv, if_false] at heq
    exact congrArg Reading.outcome heq

theorem primary_fails {tokens : List Token} (hp : nextKind tokens ≠ .leftParen)
    (hv : (nextKind tokens).isValue = false) : Fails (primary finish tokens).outcome :=
  ⟨_, _, primary_unexpected finish hp hv⟩

/-! ### Sort clause -/

theorem sortKey_name {name : Token} (rest : List Token) (h : name.kind = .identifier) :
    (sortKey (name :: rest)).outcome =
      match resolveField name with
      | .error e => (.error e, rest)
      | .ok field =>
        if nextKind rest = .asc then (.ok ⟨field, .asc⟩, rest.tail)
        else if nextKind rest = .desc then (.ok ⟨field, .desc⟩, rest.tail)
        else (.ok ⟨field, .asc⟩, rest) := by
  simp only [sortKey, h, if_true]
  cases resolveField name with
  | error e => rfl
  | ok field =>
    cases rest with
    | nil => rfl
    | cons next after =>
      simp only [nextKind, List.tail_cons]
      by_cases ha : next.kind = .asc
      · simp [ha]
      · by_cases hd : next.kind = .desc <;> simp [ha, hd]

theorem sortKey_andThen {name : Token} (rest : List Token) (h : name.kind = .identifier) :
    (sortKey (name :: rest)).outcome =
      andThen (resolveField name, rest) fun field rest =>
        if nextKind rest = .asc then (.ok ⟨field, .asc⟩, rest.tail)
        else if nextKind rest = .desc then (.ok ⟨field, .desc⟩, rest.tail)
        else (.ok ⟨field, .asc⟩, rest) := by
  rw [sortKey_name rest h]
  cases resolveField name <;> rfl

theorem sortKey_unexpected {tokens : List Token} (h : nextKind tokens ≠ .identifier) :
    (sortKey tokens).outcome = (.error (unexpected "a field name to sort by" tokens), tokens) := by
  cases tokens with
  | nil => rfl
  | cons token rest =>
    have hk : ¬ token.kind = .identifier := h
    rw [sortKey, if_neg hk]
    rfl

theorem sortKey_fails {tokens : List Token} (h : nextKind tokens ≠ .identifier) :
    Fails (sortKey tokens).outcome :=
  ⟨_, _, sortKey_unexpected h⟩

theorem sortKeys_outcome (tokens : List Token) :
    (sortKeys tokens).outcome =
      andThen (sortKey tokens).outcome fun key rest =>
        if nextKind rest = .comma then
          andThen (sortKeys rest.tail).outcome fun keys after => (.ok (key :: keys), after)
        else (.ok [key], rest) := by
  rw [sortKeys]
  cases sortKey tokens with
  | failed e rest h => rfl
  | found key rest h =>
    cases rest with
    | nil => rfl
    | cons token after =>
      by_cases hk : token.kind = .comma <;> simp [nextKind, hk]

theorem sortClause_colon {colon : Token} (rest : List Token) (h : colon.kind = .colon) :
    (sortClause (colon :: rest)).outcome = (sortKeys rest).outcome := by
  rw [sortClause, if_pos h, Reading.outcome_widen]

theorem sortClause_unexpected {tokens : List Token} (h : nextKind tokens ≠ .colon) :
    (sortClause tokens).outcome = (.error (unexpected "':' after 'sort by'" tokens), tokens) := by
  cases tokens with
  | nil => rfl
  | cons token rest =>
    have hk : ¬ token.kind = .colon := h
    rw [sortClause, if_neg hk]
    rfl

theorem sortClause_fails {tokens : List Token} (h : nextKind tokens ≠ .colon) :
    Fails (sortClause tokens).outcome :=
  ⟨_, _, sortClause_unexpected h⟩

theorem ending_sort {sort : Token} (rest : List Token) (h : sort.kind = .sortBy) :
    ending (sort :: rest) =
      match (sortClause rest).outcome with
      | (.error e, _) => .error e
      | (.ok keys, []) => .ok keys
      | (.ok _, after) => .error (unexpected "end of input" after) := by
  cases hc : sortClause rest with
  | failed e after hl => simp [ending, h, hc, bind, Except.bind]
  | found keys after hl =>
    cases after <;> simp [ending, h, hc, bind, Except.bind, pure, Except.pure, throw, throwThe,
      MonadExceptOf.throw]

theorem ending_unexpected {tokens : List Token} (hne : tokens ≠ [])
    (h : nextKind tokens ≠ .sortBy) :
    ending tokens = .error (unexpected "end of input" tokens) := by
  cases tokens with
  | nil => exact absurd rfl hne
  | cons token rest =>
    have hk : ¬ token.kind = .sortBy := h
    simp [ending, hk, bind, Except.bind, throw, throwThe, MonadExceptOf.throw]

/-- What is left after the filter is nothing, or a sort clause and nothing else. -/
theorem ending_eq_ok_iff {tokens : List Token} {keys : List SortKey} :
    ending tokens = .ok keys ↔
      tokens = [] ∧ keys = [] ∨
      ∃ sort rest, tokens = sort :: rest ∧ sort.kind = .sortBy ∧
        (sortClause rest).outcome = (.ok keys, []) := by
  cases tokens with
  | nil => simp [ending, bind, Except.bind, pure, Except.pure, eq_comm]
  | cons token rest =>
    have hrest : (∃ sort left, token :: rest = sort :: left ∧ sort.kind = .sortBy ∧
        (sortClause left).outcome = (.ok keys, [])) ↔
        token.kind = .sortBy ∧ (sortClause rest).outcome = (.ok keys, []) := by
      constructor
      · intro h
        obtain ⟨sort, left, heq, hk, hc⟩ := h
        obtain ⟨rfl, rfl⟩ := List.cons.inj heq
        exact ⟨hk, hc⟩
      · intro h
        obtain ⟨hk, hc⟩ := h
        exact ⟨token, rest, rfl, hk, hc⟩
    rw [hrest]
    by_cases hk : token.kind = .sortBy
    · rw [ending_sort rest hk]
      cases sortClause rest with
      | failed e after h => simp [hk]
      | found found after h => cases after <;> simp [hk]
    · rw [ending_unexpected (List.cons_ne_nil token rest) hk]
      simp [hk]

end Parse

/-! ### Streams -/

namespace Stream

theorem query_nil {stream : Stream} (h : stream.tokens = []) : stream.query = .ok ⟨none, []⟩ := by
  rw [query, h]

theorem query_sort {stream : Stream} (h : Parse.nextKind stream.tokens = .sortBy) :
    stream.query = (Parse.ending stream.tokens).map fun keys => ⟨none, keys⟩ := by
  obtain ⟨tokens, finish⟩ := stream
  cases tokens with
  | nil => exact Token.Kind.noConfusion h
  | cons token rest =>
    have hk : token.kind = .sortBy := h
    simp only [query, hk, if_true]
    cases Parse.ending (token :: rest) <;> rfl

theorem query_filter {stream : Stream} (hne : stream.tokens ≠ [])
    (h : Parse.nextKind stream.tokens ≠ .sortBy) :
    stream.query =
      match (Parse.disjunction stream.finish stream.tokens).outcome with
      | (.error e, _) => .error e
      | (.ok filter, rest) => (Parse.ending rest).map fun keys => ⟨some filter, keys⟩ := by
  obtain ⟨tokens, finish⟩ := stream
  cases tokens with
  | nil => exact absurd rfl hne
  | cons token rest =>
    have hk : ¬ token.kind = .sortBy := h
    simp only [query, hk, if_false]
    cases Parse.disjunction finish (token :: rest) with
    | failed e after h => rfl
    | found filter after h =>
      simp only [Reading.outcome_found]
      cases Parse.ending after <;> rfl

/-- A stream that begins like a term is read as a filter and an ending. -/
theorem query_term {stream : Stream} (h : (Parse.nextKind stream.tokens).startsTerm = true) :
    stream.query =
      match (Parse.disjunction stream.finish stream.tokens).outcome with
      | (.error e, _) => .error e
      | (.ok filter, rest) => (Parse.ending rest).map fun keys => ⟨some filter, keys⟩ := by
  apply query_filter
  · intro he
    rw [he] at h
    exact Bool.noConfusion h
  · intro he
    rw [he] at h
    exact Bool.noConfusion h

/-- The tokens before the first end are read, all of them if there is none. -/
theorem tokens_ofTokens_append {tokens rest : List Token}
    (h : ∀ token ∈ tokens, token.kind ≠ .eof) (hr : Parse.nextKind rest = .eof) :
    (ofTokens (tokens ++ rest)).tokens = tokens := by
  have hall : ∀ token ∈ tokens, decide (token.kind ≠ Token.Kind.eof) = true := by
    intro token ht
    simpa using h token ht
  have hrest : List.takeWhile (fun t : Token => t.kind ≠ .eof) rest = [] := by
    cases rest with
    | nil => rfl
    | cons last more =>
      have hlast : last.kind = .eof := hr
      simp [hlast]
  calc (ofTokens (tokens ++ rest)).tokens
      = List.takeWhile (fun t => t.kind ≠ .eof) (tokens ++ rest) := rfl
    _ = tokens ++ List.takeWhile (fun t => t.kind ≠ .eof) rest :=
      List.takeWhile_append_of_pos hall
    _ = tokens := by rw [hrest, List.append_nil]

theorem tokens_ofTokens {tokens : List Token} (h : ∀ token ∈ tokens, token.kind ≠ .eof) :
    (ofTokens tokens).tokens = tokens := by
  have := tokens_ofTokens_append h (show Parse.nextKind [] = .eof from rfl)
  rwa [List.append_nil] at this

end Stream
end Triage
