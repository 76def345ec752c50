import Triage.Proofs.Grammar.Soundness

/-! The shape of what is read.

A field takes the values of its type, and but for the priority also the absence of
a value (`FieldType.takes`). These are the values that fitting leaves as they are
(`fit_eq_self_iff`). Every kind of condition asks something of its field and its
values (`Filter.WellShaped`), and every filter that is read has that shape
(`Query.wellShaped_of_parse`): each rule of the grammar gives it. -/
namespace Triage

/-! ### Values of a type -/

/-- Whether fields of a type are compared with a value. -/
def FieldType.takes (type : FieldType) : Value → Bool
  | .text _ => type.isText || type.isEnum
  | .integer _ => type.isInteger
  | .date _ | .instant _ | .relative _ => type.isTime
  | .null => type ≠ .integer

theorem Field.type_eq_textList_iff {field : Field} : field.type = .textList ↔ field = .labels := by
  cases field <;> decide

namespace Value

/-- Fitting leaves a value as it is exactly if the field takes it. -/
theorem fit_eq_self_iff {field : Field} {v : Value} :
    v.fit field = .ok v ↔ field.type.takes v = true := by
  unfold fit
  cases field.type <;> cases v <;> simp [FieldType.takes, FieldType.isText, FieldType.isEnum,
    FieldType.isInteger, FieldType.isTime, plain] <;> split <;> simp

/-- A field takes what is fitted to it. -/
theorem takes_of_fit {field : Field} {v fitted : Value} (h : v.fit field = .ok fitted) :
    field.type.takes fitted = true :=
  fit_eq_self_iff.1 (fit_fit h)

end Value

/-! ### Conditions -/

namespace Filter

/-- Each condition is one that its field has, with values that the field takes: an item is looked
for in labels, a range lies in numbers or times, a list has more than one value, and free text is
searched, without regard to case, or compared with nothing. -/
def WellShaped : Filter → Prop
  | and left right | or left right => left.WellShaped ∧ right.WellShaped
  | not child => child.WellShaped
  | equals field v =>
    field ≠ .labels ∧ field.type.takes v = true ∧ (field.isFreeText = true → v = .null)
  | oneOf field vs => 2 ≤ vs.length ∧ ∀ v ∈ vs, field.type.takes v = true
  | range field min max =>
    field.type.isOrderable = true ∧ field.type.takes min = true ∧ field.type.takes max = true
  | contains field _ caseSensitive =>
    caseSensitive = false ∧ ∀ f, field = some f → f.isFreeText = true
  | has field v => field = .labels ∧ field.type.takes v = true

/-- The values in a filter, each with the field that it is for. -/
def operands : Filter → List (Field × Value)
  | and left right | or left right => left.operands ++ right.operands
  | not child => child.operands
  | equals field v | has field v => [(field, v)]
  | oneOf field vs => vs.map fun v => (field, v)
  | range field min max => [(field, min), (field, max)]
  | contains (some field) part _ => [(field, .text part)]
  | contains none _ _ => []

/-- Free text takes any text. -/
theorem takes_text_of_isFreeText {field : Field} (h : field.isFreeText = true) (t : Text) :
    field.type.takes (.text t) = true := by
  cases field <;> first | rfl | exact Bool.noConfusion h

/-- In a filter of the right shape every value is fitted to its field. -/
theorem WellShaped.fit_operands {filter : Filter} (h : filter.WellShaped) :
    ∀ operand ∈ filter.operands, operand.2.fit operand.1 = .ok operand.2 := by
  intro operand ho
  rw [Value.fit_eq_self_iff]
  induction filter with
  | and left right ihl ihr | or left right ihl ihr =>
    rcases List.mem_append.1 ho with ho | ho
    · exact ihl h.1 ho
    · exact ihr h.2 ho
  | not child ih => exact ih h ho
  | equals field v =>
    rw [List.mem_singleton.1 ho]
    exact h.2.1
  | has field v =>
    rw [List.mem_singleton.1 ho]
    exact h.2
  | oneOf field vs =>
    obtain ⟨v, hv, rfl⟩ := List.mem_map.1 ho
    exact h.2 v hv
  | range field min max =>
    rcases List.mem_cons.1 ho with rfl | ho
    · exact h.2.1
    · rw [List.mem_singleton.1 ho]
      exact h.2.2
  | contains field part caseSensitive =>
    cases field with
    | none => exact absurd ho (List.not_mem_nil)
    | some field =>
      rw [List.mem_singleton.1 ho]
      exact takes_text_of_isFreeText (h.2 field rfl) part

end Filter

/-! ### What is read -/

namespace Grammar

theorem Says.takes {field : Field} {token : Token} {v : Value} (h : Says field token v) :
    field.type.takes v = true :=
  Value.takes_of_fit h.2

theorem Further.takes {field : Field} {ts : List Token} {vs : List Value}
    (h : Further field ts vs) : ∀ v ∈ vs, field.type.takes v = true := by
  induction h with
  | nil => exact fun v hv => absurd hv (List.not_mem_nil)
  | cons _ hs _ ih =>
    intro v hv
    rcases List.mem_cons.1 hv with rfl | hv
    · exact hs.takes
    · exact ih v hv

/-- Only a text or nothing is a value of free text. -/
theorem eq_null_of_isFreeText {field : Field} {v : Value} (h : field.isFreeText = true)
    (ht : field.type.takes v = true) (hs : ¬ ∃ t, v = .text t) : v = .null := by
  cases v with
  | null => rfl
  | text t => exact absurd ⟨t, rfl⟩ hs
  | _ => cases field <;> first | exact Bool.noConfusion h | exact Bool.noConfusion ht

theorem Values.wellShaped {field : Field} {ts : List Token} {f : Filter}
    (h : Values field ts f) : f.WellShaped := by
  cases h with
  | item hl hs => exact ⟨Field.type_eq_textList_iff.1 hl, hs.takes⟩
  | search hf _ => exact ⟨rfl, fun _ he => Option.some.inj he ▸ hf⟩
  | equal hl hn hs =>
    refine ⟨fun he => hl (Field.type_eq_textList_iff.2 he), hs.takes, fun hf => ?_⟩
    exact eq_null_of_isFreeText hf hs.takes fun ht => hn ⟨hf, ht⟩
  | range ho hs _ hm => exact ⟨ho, hs.takes, hm.takes⟩
  | @list first v ts vs hs hf hne =>
    refine ⟨?_, fun w hw => ?_⟩
    · have := List.length_pos_iff.2 hne
      rw [List.length_cons]
      omega
    · rcases List.mem_cons.1 hw with rfl | hw
      · exact hs.takes
      · exact hf.takes w hw

/-- Each rule of the grammar builds a filter of the right shape from such filters. -/
theorem Phrase.wellShaped {level : Level} {ts : List Token} {f : Filter} (h : Phrase level ts f) :
    f.WellShaped := by
  induction h with
  | conjunction _ ih => exact ih
  | negation _ ih => exact ih
  | primary _ ih => exact ih
  | group _ _ _ ih => exact ih
  | not _ _ ih => exact ih
  | or _ _ _ ihf ihg => exact ⟨ihf, ihg⟩
  | and _ _ _ ihf ihg => exact ⟨ihf, ihg⟩
  | implied _ _ ihf ihg => exact ⟨ihf, ihg⟩
  | field _ _ _ hv => exact hv.wellShaped
  | term _ => exact ⟨rfl, fun _ he => absurd he (by simp)⟩

theorem Derives.wellShaped {tokens : List Token} {query : Query} (h : Derives tokens query)
    {filter : Filter} (hf : query.filter = some filter) : filter.WellShaped := by
  cases h with
  | intro hfilter _ =>
    cases hfilter with
    | none => exact absurd hf (by simp)
    | some hp => exact Option.some.inj hf ▸ hp.wellShaped

end Grammar

namespace Query

theorem parse_eq_ok_iff {text : Text} {query : Query} :
    parse text = .ok query ↔
      ∃ tokens, tokenize text = .ok tokens ∧ ofTokens tokens = .ok query := by
  unfold parse
  cases tokenize text with
  | error e => simp
  | ok tokens => cases ht : ofTokens tokens <;> simp [ht]

/-- The filter of a query that is read has the right shape. -/
theorem wellShaped_of_parse {text : Text} {query : Query} (h : parse text = .ok query)
    {filter : Filter} (hf : query.filter = some filter) : filter.WellShaped := by
  obtain ⟨tokens, -, ht⟩ := parse_eq_ok_iff.1 h
  exact (Grammar.query_sound ht).wellShaped hf

end Query
end Triage
