import Triage.Proofs.Readers

/-! The grammar of a query.

    query    := [ or ] [ "sort by" ":" key ("," key)* ]
    or       := and ( "OR" and )*
    and      := not ( [ "AND" ] not )*
    not      := "NOT" not | primary
    primary  := "(" or ")" | FIELD ":" values | term
    values   := value | value ".." value | value ("," value)+

Each rule says which tokens it covers and what they mean. The rules for `or` and
`and` take their left side first, so both associate to the left; nothing in the
rules looks ahead. `Derives` relates the tokens before the end of a query to what
they write. -/
namespace Triage.Grammar

/-! ### Values -/

/-- A token says a value of a field: a value token, understood as the field suggests and fitted
to its type. -/
def Says (field : Field) (token : Token) (v : Value) : Prop :=
  token.kind.isValue = true ∧ (Parse.rawValue field token).fit field = .ok v

/-- Values of a field, each after a comma. -/
inductive Further (field : Field) : List Token → List Value → Prop where
  | nil : Further field [] []
  | cons {comma token : Token} {v : Value} {ts : List Token} {vs : List Value} :
      comma.kind = .comma → Says field token v → Further field ts vs →
      Further field (comma :: token :: ts) (v :: vs)

/-- What may follow the colon of a field, and the condition it makes. -/
inductive Values (field : Field) : List Token → Filter → Prop where
  /-- A single value is an item of a list. -/
  | item {token : Token} {v : Value} :
      field.type = .textList → Says field token v → Values field [token] (.has field v)
  /-- A single text is searched for in free text. -/
  | search {token : Token} {t : Text} :
      field.isFreeText = true → Says field token (.text t) →
      Values field [token] (.contains (some field) t false)
  /-- Any other single value is equal to the field. -/
  | equal {token : Token} {v : Value} :
      field.type ≠ .textList → ¬ (field.isFreeText = true ∧ ∃ t, v = .text t) →
      Says field token v → Values field [token] (.equals field v)
  | range {first dots last : Token} {min max : Value} :
      field.type.isOrderable = true → Says field first min → dots.kind = .dotDot →
      Says field last max → Values field [first, dots, last] (.range field min max)
  | list {first : Token} {v : Value} {ts : List Token} {vs : List Value} :
      Says field first v → Further field ts vs → vs ≠ [] →
      Values field (first :: ts) (.oneOf field (v :: vs))

/-! ### Expressions -/

/-- The levels of an expression, the loosest first. -/
inductive Level where
  | disjunction
  | conjunction
  | negation
  | primary

/-- The tokens of an expression of some level, and the condition they write. -/
inductive Phrase : Level → List Token → Filter → Prop where
  | conjunction {ts : List Token} {f : Filter} :
      Phrase .conjunction ts f → Phrase .disjunction ts f
  | or {ts us : List Token} {or : Token} {f g : Filter} :
      Phrase .disjunction ts f → or.kind = .or → Phrase .conjunction us g →
      Phrase .disjunction (ts ++ or :: us) (.or f g)
  | negation {ts : List Token} {f : Filter} : Phrase .negation ts f → Phrase .conjunction ts f
  | and {ts us : List Token} {and : Token} {f g : Filter} :
      Phrase .conjunction ts f → and.kind = .and → Phrase .negation us g →
      Phrase .conjunction (ts ++ and :: us) (.and f g)
  /-- Conditions next to each other are joined without an operator. -/
  | implied {ts us : List Token} {f g : Filter} :
      Phrase .conjunction ts f → Phrase .negation us g → Phrase .conjunction (ts ++ us) (.and f g)
  | not {ts : List Token} {not : Token} {f : Filter} :
      not.kind = .not → Phrase .negation ts f → Phrase .negation (not :: ts) (.not f)
  | primary {ts : List Token} {f : Filter} : Phrase .primary ts f → Phrase .negation ts f
  | group {ts : List Token} {first last : Token} {f : Filter} :
      first.kind = .leftParen → Phrase .disjunction ts f → last.kind = .rightParen →
      Phrase .primary (first :: (ts ++ [last])) f
  | field {ts : List Token} {name colon : Token} {field : Field} {f : Filter} :
      name.kind = .identifier → colon.kind = .colon → Field.ofName? name.lexeme = some field →
      Values field ts f → Phrase .primary (name :: colon :: ts) f
  | term {token : Token} :
      token.kind.isValue = true → Phrase .primary [token] (.contains none token.text false)

/-! ### Sort clause -/

/-- A field to sort by, in ascending order unless a direction is given. -/
inductive Key : List Token → SortKey → Prop where
  | plain {name : Token} {field : Field} :
      name.kind = .identifier → Field.ofName? name.lexeme = some field →
      Key [name] ⟨field, .asc⟩
  | asc {name direction : Token} {field : Field} :
      name.kind = .identifier → Field.ofName? name.lexeme = some field → direction.kind = .asc →
      Key [name, direction] ⟨field, .asc⟩
  | desc {name direction : Token} {field : Field} :
      name.kind = .identifier → Field.ofName? name.lexeme = some field → direction.kind = .desc →
      Key [name, direction] ⟨field, .desc⟩

/-- Sort keys with commas between them. -/
inductive Keys : List Token → List SortKey → Prop where
  | one {ts : List Token} {key : SortKey} : Key ts key → Keys ts [key]
  | more {ts us : List Token} {comma : Token} {key : SortKey} {keys : List SortKey} :
      Key ts key → comma.kind = .comma → Keys us keys → Keys (ts ++ comma :: us) (key :: keys)

/-! ### Queries -/

/-- The filter of a query, which may be missing. -/
inductive FilterPart : List Token → Option Filter → Prop where
  | none : FilterPart [] none
  | some {ts : List Token} {f : Filter} : Phrase .disjunction ts f → FilterPart ts (some f)

/-- The sort clause of a query, which may be missing. -/
inductive SortPart : List Token → List SortKey → Prop where
  | none : SortPart [] []
  | some {sort colon : Token} {ts : List Token} {keys : List SortKey} :
      sort.kind = .sortBy → colon.kind = .colon → Keys ts keys → SortPart (sort :: colon :: ts) keys

/-- The tokens of a query before its end, and the query they write. -/
inductive Derives : List Token → Query → Prop where
  | intro {ts us : List Token} {filter : Option Filter} {sort : List SortKey} :
      FilterPart ts filter → SortPart us sort → Derives (ts ++ us) ⟨filter, sort⟩

/-- A query without sort keys is derived from the tokens of its filter alone. -/
theorem Derives.filterPart {ts : List Token} {filter : Option Filter}
    (h : Derives ts ⟨filter, []⟩) : FilterPart ts filter := by
  cases h with
  | intro hfilter hsort =>
    cases hsort with
    | none => rwa [List.append_nil]
    | some _ _ hkeys => cases hkeys

/-! ### How phrases begin -/

/-- An expression begins with a token that can begin a term. -/
theorem Phrase.startsTerm {level : Level} {ts : List Token} {f : Filter} (h : Phrase level ts f) :
    ∃ token rest, ts = token :: rest ∧ token.kind.startsTerm = true := by
  induction h with
  | conjunction _ ih => exact ih
  | negation _ ih => exact ih
  | primary _ ih => exact ih
  | or _ _ _ ih _ =>
    obtain ⟨token, rest, rfl, ht⟩ := ih
    exact ⟨token, _, rfl, ht⟩
  | and _ _ _ ih _ =>
    obtain ⟨token, rest, rfl, ht⟩ := ih
    exact ⟨token, _, rfl, ht⟩
  | implied _ _ ih _ =>
    obtain ⟨token, rest, rfl, ht⟩ := ih
    exact ⟨token, _, rfl, ht⟩
  | not hk _ _ => exact ⟨_, _, rfl, by rw [hk]; rfl⟩
  | group hk _ _ _ => exact ⟨_, _, rfl, by rw [hk]; rfl⟩
  | field hk _ _ _ => exact ⟨_, _, rfl, by rw [hk]; rfl⟩
  | term hk => exact ⟨_, _, rfl, by rw [Token.Kind.startsTerm, hk]; rfl⟩

/-- The condition of a single value is the one that the readers make of it. -/
theorem values_single {field : Field} {token : Token} {v : Value} (h : Says field token v) :
    Values field [token] (Parse.single field v) := by
  unfold Parse.single
  by_cases hl : field.type = .textList
  · rw [if_pos hl]
    exact .item hl h
  · rw [if_neg hl]
    cases v with
    | text t =>
      by_cases hf : field.isFreeText = true
      · simp only [hf, if_true]
        exact .search hf h
      · simp only [hf]
        exact .equal hl (fun hs => hf hs.1) h
    | _ => exact .equal hl (by simp) h

theorem single_of_isFreeText {field : Field} {t : Text} (h : field.isFreeText = true) :
    Parse.single field (.text t) = .contains (some field) t false := by
  have hl : field.type ≠ .textList := by cases field <;> simp_all [Field.isFreeText, Field.type]
  simp [Parse.single, hl, h]

theorem single_of_not_search {field : Field} {v : Value} (hl : field.type ≠ .textList)
    (hs : ¬ (field.isFreeText = true ∧ ∃ t, v = .text t)) :
    Parse.single field v = .equals field v := by
  unfold Parse.single
  rw [if_neg hl]
  cases v with
  | text t => exact if_neg fun hf => hs ⟨hf, t, rfl⟩
  | _ => rfl

end Triage.Grammar
