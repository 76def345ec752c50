import Triage.Proofs.Readers

/-! Reading tokens by an index.

A walk keeps an index into tokens that it never gives up: it looks at the token there or at the next
one, and moves on over a token that is not an end. Nothing keeps it from looking where no token is,
and nothing in the tokens bounds its recursion. So it is a function into `Option` that has no result
where no token is, and none where calls would be nested deeper than the depth that it is given. A
walk does from an index what a reader does with the tokens from there up to the first end
(`Ended.Agrees`); what agrees has a result, and leaves an index that is no farther than that end. -/
namespace Triage

/-- Reading from an index into some tokens: a value or an error, and the index that is left. There
is no result where the reading looks where no token is, or nests calls too deep. -/
abbrev Walk (α : Type) : Type := ReaderT (List Token) (ExceptT ParseError (StateT Nat Option)) α

namespace Walk

/-! ### Tokens -/

/-- The token at the index. -/
def peek : Walk Token := fun tokens i => tokens[i]?.map fun token => (.ok token, i)

/-- The token behind the index, or the last one. -/
def peekNext : Walk Token := fun tokens i =>
  tokens[min (i + 1) (tokens.length - 1)]?.map fun token => (.ok token, i)

/-- The token at the index, which the index moves over unless it is an end. -/
def advance : Walk Token := fun tokens i =>
  tokens[i]?.map fun token => (.ok token, if token.kind = .eof then i else i + 1)

/-- Whether the token at the index is of a kind. -/
def check (kind : Token.Kind) : Walk Bool := return (← peek).kind = kind

/-- The error of the token at the index standing where `expected` is needed. -/
def unexpected (expected : String) : Walk α := do throw (Parse.unexpected expected [← peek])

/-- Where no deeper call is allowed. -/
def stuck : Walk α := fun _ _ => none

/-- The field that a token names. -/
def resolve (token : Token) : Walk Field := fun _ i => some (Parse.resolveField token, i)

/-! ### Values -/

/-- One value for a field, which was written as `name`. -/
def value (field : Field) (name : Token) : Walk Value := do
  let next ← peek
  if next.kind.isValue then
    let token ← advance
    match (Parse.rawValue field token).fit field with
    | .ok v => return v
    | .error misfit => throw (.invalidValue misfit token.position)
  else throw (.missingValue name.lexeme next.position)

/-- The further values of a list, each after a comma. -/
def moreValues (field : Field) (name : Token) (values : List Value) : Nat → Walk (List Value)
  | 0 => stuck
  | depth + 1 => do
    if ← check .comma then
      let _ ← advance
      moreValues field name (values ++ [← value field name]) depth
    else return values

/-- The values of a field: a range, a list, or a single value. -/
def values (field : Field) (name : Token) (depth : Nat) : Walk Filter := do
  let first ← value field name
  if ← check .dotDot then
    let dots ← advance
    if field.type.isOrderable then return .range field first (← value field name)
    else throw (.invalidRange field dots.position)
  else if ← check .comma then return .oneOf field (← moreValues field name [first] depth)
  else return Parse.single field first

/-- The condition on a field, from its name on. -/
def fieldTerm (depth : Nat) : Walk Filter := do
  let name ← advance
  let field ← resolve name
  let _ ← advance
  values field name depth

/-! ### Expressions -/

/-- Whether a name with a colon behind it stands at the index. -/
def beginsField : Walk Bool := do
  if ← check .identifier then return (← peekNext).kind = .colon else return false

/-- The parenthesis that closes a group opened at `position`. -/
def closeGroup (position : Nat) (filter : Filter) : Walk Filter := do
  if ← check .rightParen then
    let _ ← advance
    return filter
  else if (← check .eof) || (← check .sortBy) then throw (.unterminatedGroup position)
  else unexpected "')'"

mutual

/-- Conditions joined by `OR`, to the left. -/
def disjunction : Nat → Walk Filter
  | 0 => stuck
  | depth + 1 => do moreDisjuncts (← conjunction depth) depth

/-- The further conditions after `left`, each after an `OR`. -/
def moreDisjuncts (left : Filter) : Nat → Walk Filter
  | 0 => stuck
  | depth + 1 => do
    if ← check .or then
      let _ ← advance
      moreDisjuncts (.or left (← conjunction depth)) depth
    else return left

/-- Conditions joined by `AND` or by nothing, to the left. -/
def conjunction : Nat → Walk Filter
  | 0 => stuck
  | depth + 1 => do moreConjuncts (← negation depth) depth

/-- The further conditions after `left`, each after an `AND` or by itself. -/
def moreConjuncts (left : Filter) : Nat → Walk Filter
  | 0 => stuck
  | depth + 1 => do
    if ← check .and then
      let _ ← advance
      moreConjuncts (.and left (← negation depth)) depth
    else if (← peek).kind.startsTerm then
      moreConjuncts (.and left (← negation depth)) depth
    else return left

/-- A condition, or one that must not hold. -/
def negation : Nat → Walk Filter
  | 0 => stuck
  | depth + 1 => do
    if ← check .not then
      let _ ← advance
      return .not (← negation depth)
    else primary depth

/-- A group, a condition on a field, or a term to search for. -/
def primary : Nat → Walk Filter
  | 0 => stuck
  | depth + 1 => do
    if ← check .leftParen then
      let first ← advance
      closeGroup first.position (← disjunction depth)
    else if ← beginsField then fieldTerm depth
    else if (← peek).kind.isValue then return .contains none (← advance).text false
    else unexpected "a search term or field:value"

end

/-! ### Queries -/

/-- A field to sort by, with its direction. -/
def sortKey : Walk SortKey := do
  if ← check .identifier then
    let name ← advance
    let field ← resolve name
    if ← check .asc then
      let _ ← advance
      return ⟨field, .asc⟩
    else if ← check .desc then
      let _ ← advance
      return ⟨field, .desc⟩
    else return ⟨field, .asc⟩
  else unexpected "a field name to sort by"

/-- The keys that were read and the ones that follow, with commas between them. -/
def sortKeys (keys : List SortKey) : Nat → Walk (List SortKey)
  | 0 => stuck
  | depth + 1 => do
    let key ← sortKey
    if ← check .comma then
      let _ ← advance
      sortKeys (keys ++ [key]) depth
    else return keys ++ [key]

/-- The sort clause, from the words `sort by` on. -/
def sortClause (depth : Nat) : Walk (List SortKey) := do
  let _ ← advance
  if ← check .colon then
    let _ ← advance
    sortKeys [] depth
  else unexpected "':' after 'sort by'"

/-- The sort keys of the clause at the index, none if there is no clause. -/
def sorting (depth : Nat) : Walk (List SortKey) := do
  if ← check .sortBy then sortClause depth else return []

/-- The sort keys, and then the end. -/
def ending (depth : Nat) : Walk (List SortKey) := do
  let keys ← sorting depth
  if ← check .eof then return keys else unexpected "end of input"

/-- A query. -/
def query (depth : Nat) : Walk Query := do
  if (← check .sortBy) || (← check .eof) then return ⟨none, ← ending depth⟩
  else
    let filter ← disjunction depth
    return ⟨some filter, ← ending depth⟩

/-- The results of reading a number of expressions in a row, from an index on and each from where
the last one ended, with the indices that they leave. -/
def calls (depth : Nat) (tokens : List Token) :
    Nat → Nat → Option (List (Except ParseError Filter × Nat))
  | _, 0 => some []
  | i, n + 1 => do
    let step ← disjunction depth tokens i
    return step :: (← calls depth tokens step.2 n)

/-- The tokens that are walked over: with an end behind them, unless the last one is an end. -/
def closed (tokens : List Token) : List Token :=
  if tokens.getLast?.any (·.kind = .eof) then tokens
  else tokens ++ [⟨.eof, [], Stream.finishOf tokens, none⟩]

theorem bind_apply (walk : Walk α) (next : α → Walk β) (tokens : List Token) (i : Nat) :
    (walk >>= next) tokens i =
      (walk tokens i).bind fun
        | (.ok a, j) => next a tokens j
        | (.error e, j) => some (.error e, j) := by
  show (walk tokens i).bind _ = (walk tokens i).bind _
  congr 1
  funext result
  obtain ⟨result, j⟩ := result
  cases result <;> rfl

end Walk

/-! ### Agreement -/

/-- Tokens with an end among them: those in front of the first end, that end, and those behind. -/
structure Ended where
  front : List Token
  last : Token
  behind : List Token
  kind_front : ∀ token ∈ front, token.kind ≠ .eof
  kind_last : last.kind = .eof

namespace Ended
open Outcome

/-- All the tokens. -/
def tokens (ended : Ended) : List Token := ended.front ++ ended.last :: ended.behind

/-- The tokens from an index up to the first end. -/
def rest (ended : Ended) (i : Nat) : List Token := ended.front.drop i

/-- The token at an index that is no farther than the first end. -/
def token (ended : Ended) (i : Nat) : Token := ended.front[i]?.getD ended.last

variable {ended : Ended} {i : Nat}

theorem getElem?_tokens (h : i ≤ ended.front.length) : ended.tokens[i]? = some (ended.token i) := by
  rw [tokens, token]
  rcases Nat.lt_or_eq_of_le h with hlt | rfl
  · rw [List.getElem?_append_left hlt, List.getElem?_eq_getElem hlt]
    rfl
  · rw [List.getElem?_append_right (Nat.le_refl _), Nat.sub_self,
      List.getElem?_eq_none (Nat.le_refl _)]
    rfl

theorem rest_cases (ended : Ended) (i : Nat) :
    ended.rest i = [] ∧ ended.token i = ended.last ∨
      ended.rest i = ended.token i :: ended.rest (i + 1) ∧ i < ended.front.length := by
  rw [rest, rest, token]
  rcases Nat.lt_or_ge i ended.front.length with hlt | hge
  · right
    rw [List.getElem?_eq_getElem hlt]
    exact ⟨List.drop_eq_getElem_cons hlt, hlt⟩
  · left
    rw [List.getElem?_eq_none hge]
    exact ⟨List.drop_eq_nil_of_le hge, rfl⟩

theorem nextKind_rest (ended : Ended) (i : Nat) :
    Parse.nextKind (ended.rest i) = (ended.token i).kind := by
  rcases ended.rest_cases i with ⟨hrest, htoken⟩ | ⟨hrest, -⟩
  · rw [hrest, htoken, ended.kind_last]
    rfl
  · rw [hrest]
    rfl

/-- What is left before the first end begins with the token at the index, unless that is an end. -/
theorem rest_eq_cons (h : Parse.nextKind (ended.rest i) ≠ .eof) :
    ended.rest i = ended.token i :: ended.rest (i + 1) ∧ i < ended.front.length := by
  rcases ended.rest_cases i with ⟨hrest, -⟩ | hrest
  · rw [hrest] at h
    exact absurd rfl h
  · exact hrest

/-- A reader that finds a value takes at least one token. -/
theorem lt_of_outcome {reading : Reading α (ended.rest i).length} {a : α} {j : Nat}
    (h : reading.outcome = (.ok a, ended.rest j)) : i < j := by
  have hlt := Reading.length_lt_of_outcome h
  rw [rest, rest, List.length_drop, List.length_drop] at hlt
  omega

theorem check_apply (h : i ≤ ended.front.length) (kind : Token.Kind) :
    Walk.check kind ended.tokens i = some (.ok (Parse.nextKind (ended.rest i) = kind), i) := by
  rw [Walk.check, Walk.bind_apply, Walk.peek, getElem?_tokens h, nextKind_rest]
  rfl

theorem peekNext_apply (h : i < ended.front.length) :
    Walk.peekNext ended.tokens i = some (.ok (ended.token (i + 1)), i) := by
  have hlast : min (i + 1) (ended.tokens.length - 1) = i + 1 := by
    rw [tokens, List.length_append, List.length_cons]
    omega
  rw [Walk.peekNext, hlast, getElem?_tokens h]
  rfl

/-- From the index `i`, a walk over all the tokens ends like a reader that took the tokens up to the
first end, and leaves an index that is neither less nor farther than that end. -/
def Agrees (ended : Ended) (walk : Walk α) (i : Nat) (outcome : Outcome α) : Prop :=
  ∃ j, walk ended.tokens i = some (outcome.1, j) ∧ i ≤ j ∧ j ≤ ended.front.length ∧
    outcome.2 = ended.rest j

namespace Agrees

theorem pure (h : i ≤ ended.front.length) (a : α) :
    ended.Agrees (pure a) i (.ok a, ended.rest i) :=
  ⟨i, rfl, Nat.le_refl i, h, rfl⟩

theorem throw (h : i ≤ ended.front.length) (e : ParseError) :
    ended.Agrees (throw e : Walk α) i (.error e, ended.rest i) :=
  ⟨i, rfl, Nat.le_refl i, h, rfl⟩

theorem resolve (h : i ≤ ended.front.length) (token : Token) :
    ended.Agrees (Walk.resolve token) i (Parse.resolveField token, ended.rest i) :=
  ⟨i, rfl, Nat.le_refl i, h, rfl⟩

/-- A walk goes on from a value as a reader does. -/
theorem bind {walk : Walk α} {next : α → Walk β} {outcome : Outcome α}
    {more : α → List Token → Outcome β} (h : ended.Agrees walk i outcome)
    (hn : ∀ a j, i ≤ j → j ≤ ended.front.length → outcome = (.ok a, ended.rest j) →
      ended.Agrees (next a) j (more a (ended.rest j))) :
    ended.Agrees (walk >>= next) i (andThen outcome more) := by
  obtain ⟨j, hw, hij, hj, hrest⟩ := h
  obtain ⟨result, left⟩ := outcome
  obtain rfl : left = ended.rest j := hrest
  rw [Agrees, Walk.bind_apply, hw]
  cases result with
  | error e => exact ⟨j, rfl, hij, hj, rfl⟩
  | ok a =>
    obtain ⟨k, hk, hjk, hle, hleft⟩ := hn a j hij hj rfl
    exact ⟨k, hk, Nat.le_trans hij hjk, hle, hleft⟩

/-- A walk from a value goes on from a later token. -/
theorem bind_reading {walk : Walk α} {next : α → Walk β}
    {reading : Reading α (ended.rest i).length} {more : α → List Token → Outcome β}
    (h : ended.Agrees walk i reading.outcome)
    (hn : ∀ a j, i < j → j ≤ ended.front.length →
      ended.Agrees (next a) j (more a (ended.rest j))) :
    ended.Agrees (walk >>= next) i (andThen reading.outcome more) :=
  h.bind fun a j _ hj heq => hn a j (lt_of_outcome heq) hj

theorem peek {next : Token → Walk β} {outcome : Outcome β} (h : i ≤ ended.front.length)
    (hn : ended.Agrees (next (ended.token i)) i outcome) :
    ended.Agrees (Walk.peek >>= next) i outcome := by
  rw [Agrees, Walk.bind_apply, Walk.peek, getElem?_tokens h]
  exact hn

theorem check {kind : Token.Kind} {next : Bool → Walk β} {outcome : Outcome β}
    (h : i ≤ ended.front.length)
    (hn : ended.Agrees (next (Parse.nextKind (ended.rest i) = kind)) i outcome) :
    ended.Agrees (Walk.check kind >>= next) i outcome := by
  rw [Agrees, Walk.bind_apply, check_apply h]
  exact hn

theorem branch {kind : Token.Kind} {yes no : Walk β} {outcome : Outcome β}
    (h : i ≤ ended.front.length)
    (hy : Parse.nextKind (ended.rest i) = kind → ended.Agrees yes i outcome)
    (hn : Parse.nextKind (ended.rest i) ≠ kind → ended.Agrees no i outcome) :
    ended.Agrees (Walk.check kind >>= fun found => if found then yes else no) i outcome := by
  apply check h
  by_cases hk : Parse.nextKind (ended.rest i) = kind
  · rw [if_pos (decide_eq_true hk)]
    exact hy hk
  · rw [if_neg (fun hd => hk (of_decide_eq_true hd))]
    exact hn hk

theorem unexpected (h : i ≤ ended.front.length) (expected : String) :
    ended.Agrees (Walk.unexpected expected : Walk α) i
      (.error (Parse.unexpected expected (ended.rest i)), ended.rest i) := by
  have herror : Parse.unexpected expected (ended.rest i) =
      Parse.unexpected expected [ended.token i] := by
    rcases ended.rest_cases i with ⟨hrest, htoken⟩ | ⟨hrest, -⟩
    · rw [hrest, htoken, Parse.unexpected, Parse.unexpected, ended.kind_last]
    · rw [hrest]
      rfl
  rw [herror]
  exact peek h (throw h _)

/-- A walk moves over a token that is not an end, to one that is no farther than the first end. -/
theorem advance {kind : Token.Kind} {next : Token → Walk β} {outcome : Outcome β}
    (hk : Parse.nextKind (ended.rest i) = kind) (hne : kind ≠ .eof)
    (hn : ended.rest i = ended.token i :: ended.rest (i + 1) → (ended.token i).kind = kind →
      i + 1 ≤ ended.front.length → ended.Agrees (next (ended.token i)) (i + 1) outcome) :
    ended.Agrees (Walk.advance >>= next) i outcome := by
  obtain ⟨hcons, hlt⟩ := rest_eq_cons (by rwa [hk])
  rw [nextKind_rest] at hk
  obtain ⟨j, hw, hij, hj, hrest⟩ := hn hcons hk hlt
  refine ⟨j, ?_, Nat.le_of_succ_le hij, hj, hrest⟩
  rw [Walk.bind_apply, Walk.advance, getElem?_tokens (Nat.le_of_lt hlt), Option.map_some,
    Option.bind_some, hk, if_neg hne]
  exact hw

/-- A token of a kind is moved over where it stands. -/
theorem take {kind : Token.Kind} {yes : Token → Walk β} {no : Walk β} {outcome : Outcome β}
    (hne : kind ≠ .eof) (h : i ≤ ended.front.length)
    (hy : Parse.nextKind (ended.rest i) = kind →
      ended.rest i = ended.token i :: ended.rest (i + 1) → (ended.token i).kind = kind →
      i + 1 ≤ ended.front.length → ended.Agrees (yes (ended.token i)) (i + 1) outcome)
    (hn : Parse.nextKind (ended.rest i) ≠ kind → ended.Agrees no i outcome) :
    ended.Agrees (Walk.check kind >>= fun found => if found then Walk.advance >>= yes else no) i
      outcome :=
  branch h (fun hk => advance hk hne (hy hk)) hn

end Agrees

end Ended
end Triage
