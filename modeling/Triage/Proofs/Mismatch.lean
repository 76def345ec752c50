import Triage.Proofs.Shape
import Triage.Selection.Match

/-! Conditions that meet a content they are not made for.

Evaluation has no errors: a condition that meets a content of another type is just
not met, so a query that mixes types up selects nothing and does not say why.
`Filter.check` is the evaluation with an account of where that happens, condition
by condition in the order in which they are reached (`holds_check`). What a field
of an issue holds is of the field's type (`Issue.holds_get`), and so are the
values of a query that was read, so all that remains is a range of an empty field
or one with a bound that is missing or has no interval (`WellShaped.excused`). -/
namespace Triage

/-! ### Contents of a type -/

/-- Whether fields of a type hold a content. -/
def FieldType.holds (type : FieldType) : Content → Bool
  | .absent => type.isNullable
  | .text _ => type.isText && type ≠ .textList || type.isEnum
  | .integer _ => type.isInteger
  | .instant _ => type.isTime
  | .list _ => type = .textList

/-- What a field of an issue holds is of the field's type. -/
theorem Issue.holds_get (issue : Issue) (field : Field) :
    field.type.holds (issue.get field) = true := by
  have htext : ∀ t, FieldType.nullableText.holds (Content.ofText? t) = true := by
    intro t
    cases t <;> rfl
  have htime : ∀ i, FieldType.nullableTime.holds (Content.ofInstant? i) = true := by
    intro i
    cases i <;> rfl
  have hinteger : ∀ n, FieldType.nullableInteger.holds (Content.ofInteger? n) = true := by
    intro n
    cases n <;> rfl
  cases field <;> first | rfl | apply htext | apply htime | apply hinteger

/-! ### Mismatches -/

/-- A condition that met a content it is not made for. -/
inductive Mismatch where
  /-- Equality was left with its last case, in which types differ. -/
  | equality (content : Content) (v : Value)
  /-- A search read an integer or an instant. -/
  | search (content : Content)
  /-- A range had nothing to compare a content or a bound with. -/
  | range (field : Field) (content : Content) (min max : Value)

/-- A mismatch that does not come from types: a range of a field that is empty, or a bound that is
null, or one that stands for a time and has no interval seen from `now`. -/
def Mismatch.Excused (now : Moment) : Mismatch → Prop
  | equality _ _ | search _ => False
  | range field content min max =>
    content = .absent ∨ ∃ bound ∈ [min, max],
      bound = .null ∨ field.type.isTime = true ∧ bound.interval now = none

/-- The answer of a condition, and the mismatches met in finding it. -/
structure Checked where
  holds : Bool
  mismatches : List Mismatch

namespace Checked

/-- An answer, or the refusal that a mismatch amounts to. -/
def ofOption (mismatch : Mismatch) : Option Bool → Checked
  | some answer => ⟨answer, []⟩
  | none => ⟨false, [mismatch]⟩

/-- Both conditions, the second one only if the first holds. -/
def both (left right : Checked) : Checked :=
  if left.holds then ⟨right.holds, left.mismatches ++ right.mismatches⟩ else left

/-- One of two conditions, the second one only if the first does not hold. -/
def either (left right : Checked) : Checked :=
  if left.holds then left else ⟨right.holds, left.mismatches ++ right.mismatches⟩

/-- The opposite answer. -/
def negate (checked : Checked) : Checked := { checked with holds := !checked.holds }

/-- One of a row of conditions, up to the first that holds. -/
def any (test : α → Checked) : List α → Checked
  | [] => ⟨false, []⟩
  | a :: more => (test a).either (any test more)

variable {left right : Checked} {m : Mismatch}

@[simp] theorem holds_ofOption (mismatch : Mismatch) (answer : Option Bool) :
    (ofOption mismatch answer).holds = answer.getD false := by
  cases answer <;> rfl

@[simp] theorem holds_both : (left.both right).holds = (left.holds && right.holds) := by
  unfold both
  cases hl : left.holds <;> simp [hl]

@[simp] theorem holds_either : (left.either right).holds = (left.holds || right.holds) := by
  unfold either
  cases hl : left.holds <;> simp [hl]

@[simp] theorem holds_negate : left.negate.holds = !left.holds := rfl

@[simp] theorem holds_any (test : α → Checked) (as : List α) :
    (any test as).holds = as.any fun a => (test a).holds := by
  induction as with
  | nil => rfl
  | cons a more ih => rw [any, holds_either, List.any_cons, ih]

theorem mem_both (h : m ∈ (left.both right).mismatches) :
    m ∈ left.mismatches ∨ m ∈ right.mismatches := by
  unfold both at h
  split at h
  · exact List.mem_append.1 h
  · exact .inl h

theorem mem_either (h : m ∈ (left.either right).mismatches) :
    m ∈ left.mismatches ∨ m ∈ right.mismatches := by
  unfold either at h
  split at h
  · exact .inl h
  · exact List.mem_append.1 h

theorem mem_any {test : α → Checked} {as : List α} (h : m ∈ (any test as).mismatches) :
    ∃ a ∈ as, m ∈ (test a).mismatches := by
  induction as with
  | nil => exact absurd h (List.not_mem_nil)
  | cons a more ih =>
    rcases mem_either h with h | h
    · exact ⟨a, List.mem_cons_self, h⟩
    · obtain ⟨b, hb, hm⟩ := ih h
      exact ⟨b, List.mem_cons_of_mem _ hb, hm⟩

theorem eq_of_mem_ofOption {mismatch : Mismatch} {answer : Option Bool}
    (h : m ∈ (ofOption mismatch answer).mismatches) : answer = none ∧ m = mismatch := by
  cases answer with
  | some b => exact absurd h (List.not_mem_nil)
  | none => exact ⟨rfl, List.mem_singleton.1 h⟩

end Checked

/-! ### Comparisons -/

namespace Content

/-- Equality with no answer in its last case. -/
def equals? (now : Moment) (isEnum : Bool) : Content → Value → Option Bool
  | absent, .null => some true
  | list items, .null => some items.isEmpty
  | absent, _ => some false
  | _, .null => some false
  | text t, .text s => some (Text.same isEnum t s)
  | integer n, .integer m => some (n = m)
  | instant t, v => some ((v.interval now).any (·.holds t))
  | list items, .text s => some (items.any (Text.same false · s))
  | _, _ => none

/-- A range with no answer where contents or bounds have nothing to be compared with. -/
def between? (now : Moment) (min max : Value) : Content → Option Bool
  | integer n =>
    match min, max with
    | .integer low, .integer high => some (low ≤ n && n ≤ high)
    | _, _ => none
  | instant t =>
    match min.interval now, max.interval now with
    | some low, some high => some (!t.before low.start && t.before high.stop)
    | _, _ => none
  | _ => none

/-- Whether a search makes something of a content that is not a text. -/
def isReadAsText : Content → Bool
  | integer _ | instant _ => true
  | _ => false

theorem getD_equals? (now : Moment) (isEnum : Bool) (content : Content) (v : Value) :
    (content.equals? now isEnum v).getD false = content.equals now isEnum v := by
  cases content <;> cases v <;> rfl

theorem getD_between? (now : Moment) (min max : Value) (content : Content) :
    (content.between? now min max).getD false = content.between now min max := by
  cases content with
  | integer n => cases min <;> first | rfl | (cases max <;> rfl)
  | instant t =>
    simp only [between?, between]
    cases min.interval now <;> cases max.interval now <;> rfl
  | _ => rfl

/-- Equality of a content and a value of one type has an answer. -/
theorem equals?_ne_none {type : FieldType} {content : Content} {v : Value}
    (hc : type.holds content = true) (hv : type.takes v = true) (now : Moment) (isEnum : Bool) :
    content.equals? now isEnum v ≠ none := by
  cases content <;> cases v <;>
    first
    | exact Option.some_ne_none _
    | (cases type <;> first | exact Bool.noConfusion hc | exact Bool.noConfusion hv)

/-- A field with ranges holds nothing, an integer or an instant. -/
theorem content_of_isOrderable {type : FieldType} {content : Content}
    (hc : type.holds content = true) (ho : type.isOrderable = true) :
    content = absent ∨ (∃ n, content = integer n) ∨ ∃ t, content = instant t := by
  cases content with
  | absent => exact .inl rfl
  | integer n => exact .inr (.inl ⟨n, rfl⟩)
  | instant t => exact .inr (.inr ⟨t, rfl⟩)
  | _ => cases type <;> first | exact Bool.noConfusion hc | exact Bool.noConfusion ho

/-- The bounds of a range of integers are integers or null. -/
theorem null_or_integer_of_takes {type : FieldType} {v : Value} (hi : type.isInteger = true)
    (hv : type.takes v = true) : v = .null ∨ ∃ n, v = .integer n := by
  cases v with
  | null => exact .inl rfl
  | integer n => exact .inr ⟨n, rfl⟩
  | _ => cases type <;> first | exact Bool.noConfusion hi | exact Bool.noConfusion hv

/-- A range without an answer is excused. -/
theorem excused_of_between? {field : Field} {content : Content} {min max : Value} {now : Moment}
    (hc : field.type.holds content = true) (ho : field.type.isOrderable = true)
    (hmin : field.type.takes min = true) (hmax : field.type.takes max = true)
    (h : content.between? now min max = none) :
    (Mismatch.range field content min max).Excused now := by
  have hmem : min ∈ [min, max] ∧ max ∈ [min, max] := by simp
  rcases content_of_isOrderable hc ho with rfl | ⟨n, rfl⟩ | ⟨t, rfl⟩
  · exact .inl rfl
  · rcases null_or_integer_of_takes hc hmin with rfl | ⟨low, rfl⟩
    · exact .inr ⟨_, hmem.1, .inl rfl⟩
    · rcases null_or_integer_of_takes hc hmax with rfl | ⟨high, rfl⟩
      · exact .inr ⟨_, hmem.2, .inl rfl⟩
      · exact absurd h (Option.some_ne_none _)
  · cases hlow : min.interval now with
    | none => exact .inr ⟨min, hmem.1, .inr ⟨hc, hlow⟩⟩
    | some low =>
      cases hhigh : max.interval now with
      | none => exact .inr ⟨max, hmem.2, .inr ⟨hc, hhigh⟩⟩
      | some high =>
        simp only [between?, hlow, hhigh] at h
        exact absurd h (Option.some_ne_none _)

/-- A field of text holds no number and no instant. -/
theorem isReadAsText_of_isText {type : FieldType} {content : Content}
    (hc : type.holds content = true) (ht : type.isText = true) :
    content.isReadAsText = false := by
  cases content with
  | integer n => cases type <;> first | exact Bool.noConfusion hc | exact Bool.noConfusion ht
  | instant t => cases type <;> first | exact Bool.noConfusion hc | exact Bool.noConfusion ht
  | _ => rfl

end Content

/-! ### Evaluation -/

namespace Filter

/-- Equality of a field with a value. -/
def checkEquals (now : Moment) (issue : Issue) (field : Field) (v : Value) : Checked :=
  .ofOption (.equality (issue.get field) v)
    ((issue.get field).equals? now field.type.isEnum v)

/-- A search in a field. -/
def checkText (issue : Issue) (test : Text → Bool) (field : Field) : Checked where
  holds := (issue.get field).anyText test
  mismatches := if (issue.get field).isReadAsText then [.search (issue.get field)] else []

/-- Whether an issue meets a condition, with the mismatches met on the way. -/
def check (now : Moment) (issue : Issue) : Filter → Checked
  | and left right => (left.check now issue).both (right.check now issue)
  | or left right => (left.check now issue).either (right.check now issue)
  | not child => (child.check now issue).negate
  | equals field v | has field v => checkEquals now issue field v
  | oneOf field vs => .any (checkEquals now issue field) vs
  | range field min max =>
    .ofOption (.range field (issue.get field) min max) ((issue.get field).between? now min max)
  | contains field part caseSensitive =>
    .any (checkText issue (finds part caseSensitive)) (searchedIn field)

variable {now : Moment} {issue : Issue}

theorem holds_checkEquals (field : Field) (v : Value) :
    (checkEquals now issue field v).holds =
      (issue.get field).equals now field.type.isEnum v := by
  rw [checkEquals, Checked.holds_ofOption, Content.getD_equals?]

/-- The answer with an account of the mismatches is the answer without. -/
theorem holds_check (filter : Filter) :
    (filter.check now issue).holds = filter.accepts now issue := by
  induction filter with
  | and left right ihl ihr => rw [check, accepts, Checked.holds_both, ihl, ihr]
  | or left right ihl ihr => rw [check, accepts, Checked.holds_either, ihl, ihr]
  | not child ih => rw [check, accepts, Checked.holds_negate, ih]
  | equals field v => exact holds_checkEquals field v
  | has field v => exact holds_checkEquals field v
  | oneOf field vs => simp only [check, accepts, Checked.holds_any, holds_checkEquals]
  | range field min max => rw [check, accepts, Checked.holds_ofOption, Content.getD_between?]
  | contains field part caseSensitive => simp only [check, accepts, Checked.holds_any, checkText]

/-- Equality with a value that the field takes meets no mismatch. -/
theorem not_mem_checkEquals {field : Field} {v : Value} (hv : field.type.takes v = true)
    (m : Mismatch) : m ∉ (checkEquals now issue field v).mismatches := by
  intro hm
  exact Content.equals?_ne_none (issue.holds_get field) hv now _ (Checked.eq_of_mem_ofOption hm).1

/-- A search in fields of text meets no mismatch. -/
theorem not_mem_checkText {field : Field} (h : field.type.isText = true) (test : Text → Bool)
    (m : Mismatch) : m ∉ (checkText issue test field).mismatches := by
  have hr := Content.isReadAsText_of_isText (issue.holds_get field) h
  intro hm
  simp [checkText, hr] at hm

/-- Texts are searched for in fields of text only. -/
theorem isText_of_searchedIn {field : Option Field}
    (h : ∀ f, field = some f → f.isFreeText = true) :
    ∀ f ∈ searchedIn field, f.type.isText = true := by
  cases field with
  | none =>
    show ∀ f ∈ Field.searched, f.type.isText = true
    decide
  | some field =>
    intro f hf
    rw [List.mem_singleton.1 hf]
    have := h field rfl
    cases field <;> first | rfl | exact Bool.noConfusion this

/-- A filter of the right shape meets excused mismatches only. -/
theorem WellShaped.excused {filter : Filter} (h : filter.WellShaped) :
    ∀ m ∈ (filter.check now issue).mismatches, m.Excused now := by
  intro m hm
  induction filter with
  | and left right ihl ihr =>
    rcases Checked.mem_both hm with hm | hm
    · exact ihl h.1 hm
    · exact ihr h.2 hm
  | or left right ihl ihr =>
    rcases Checked.mem_either hm with hm | hm
    · exact ihl h.1 hm
    · exact ihr h.2 hm
  | not child ih => exact ih h hm
  | equals field v => exact absurd hm (not_mem_checkEquals h.2.1 m)
  | has field v => exact absurd hm (not_mem_checkEquals h.2 m)
  | oneOf field vs =>
    obtain ⟨v, hv, hm⟩ := Checked.mem_any hm
    exact absurd hm (not_mem_checkEquals (h.2 v hv) m)
  | range field min max =>
    obtain ⟨ho, hmin, hmax⟩ := h
    obtain ⟨hnone, rfl⟩ := Checked.eq_of_mem_ofOption hm
    exact Content.excused_of_between? (issue.holds_get field) ho hmin hmax hnone
  | contains field part caseSensitive =>
    obtain ⟨f, hf, hm⟩ := Checked.mem_any hm
    exact absurd hm (not_mem_checkText (isText_of_searchedIn h.2 f hf) _ m)

end Filter

/-! ### Queries -/

/-- **A query that is read is typed.** Its conditions have the shape that their fields ask for,
every value in it is one that fitting leaves as it is, and in evaluating it for any issue at any
moment nothing is met that a condition is not made for, except a range of an empty field or one
with a bound that is null or has no interval. -/
theorem Query.parse_typed {text : Text} {query : Query} {filter : Filter}
    (h : Query.parse text = .ok query) (hf : query.filter = some filter) :
    filter.WellShaped ∧
      (∀ operand ∈ filter.operands, operand.2.fit operand.1 = .ok operand.2) ∧
      ∀ now issue, (filter.check now issue).holds = filter.accepts now issue ∧
        ∀ m ∈ (filter.check now issue).mismatches, m.Excused now := by
  have hs := Query.wellShaped_of_parse h hf
  refine ⟨hs, hs.fit_operands, ?_⟩
  intro now issue
  exact ⟨filter.holds_check, hs.excused⟩

/-- A range with an open end is read with a bound that is null. -/
theorem Query.open_range_typed :
    Query.parse "due:none..today".toList = .ok ⟨some (.range .due .null (.relative .today)), []⟩ ∧
      (Filter.range .due .null (.relative .today)).WellShaped ∧
      ∀ now issue, ∀ m ∈ ((Filter.range .due .null (.relative .today)).check now issue).mismatches,
        m.Excused now := by
  have h : Query.parse "due:none..today".toList =
      .ok ⟨some (.range .due .null (.relative .today)), []⟩ := by
    apply eq_ok_of_toOption
    decide +kernel
  obtain ⟨hs, -, hm⟩ := Query.parse_typed h rfl
  exact ⟨h, hs, fun now issue => (hm now issue).2⟩

end Triage
