import Triage.Proofs.Grammar.Likeness
import Triage.Proofs.LetterCase.Scans
import Triage.Selection.Match

/-! Values that differ in the case of ASCII letters.

Names of fields, relative dates and the words for null are looked up in lower case,
and times are read in either case. So tokens of the same letters say values of the
same letters (`harmless_sameLetters`), and filters with texts of the same letters
accept the same issues (`Filter.accepts_eq`), because texts are compared and searched
in lower case. -/
namespace Triage
open Text

/-! ### Values -/

namespace Value

theorem readTime?_eq {s t : Text} (h : SameLetters s t) : readTime? s = readTime? t := by
  rw [readTime?, readTime?, Date.read?_eq h, Moment.read?_eq h]

theorem ofQuoted_like (field : Field) {s t : Text} (h : SameLetters s t) :
    Value.Like SameLetters (ofQuoted field s) (ofQuoted field t) := by
  have hname : RelativeDate.ofName? s = RelativeDate.ofName? t := by
    rw [RelativeDate.ofName?, RelativeDate.ofName?, h.lower_eq]
  unfold ofQuoted
  split
  · rw [hname, readTime?_eq h]
    split
    · exact like_refl SameLetters.refl _
    · cases readTime? t with
      | none => exact .text h
      | some v => exact like_refl SameLetters.refl v
  · exact .text h

theorem ofWord_like (field : Field) {s t : Text} (h : SameLetters s t) :
    Value.Like SameLetters (ofWord field s) (ofWord field t) := by
  have hnull : meansNull field s = meansNull field t := by
    rw [meansNull, meansNull, h.lower_eq]
  unfold ofWord
  rw [hnull]
  split
  · exact like_refl SameLetters.refl _
  · exact ofQuoted_like field h

/-- Values that are alike are fitted to values that are alike. -/
theorem fit_like {field : Field} {v w fitted : Value} (h : Value.Like SameLetters v w)
    (hf : v.fit field = .ok fitted) :
    ∃ other, w.fit field = .ok other ∧ Value.Like SameLetters fitted other := by
  cases h with
  | same _ => exact ⟨fitted, hf, like_refl SameLetters.refl fitted⟩
  | @text s t h =>
    have hread : Integer.read? (Text.trim s) = Integer.read? (Text.trim t) :=
      Integer.read?_eq h.trim
    unfold fit at hf ⊢
    cases ht : field.type <;> simp only [ht, hread] at hf ⊢
    case text.integer | text.nullableInteger =>
      cases hn : Integer.read? (Text.trim t) with
      | none =>
        rw [hn] at hf
        exact absurd hf (by simp)
      | some n =>
        rw [hn] at hf
        exact ⟨_, rfl, Except.ok.inj hf ▸ like_refl SameLetters.refl _⟩
    case text.time | text.nullableTime => exact absurd hf (by simp)
    all_goals exact ⟨_, rfl, Except.ok.inj hf ▸ .text h⟩

end Value

namespace Parse

theorem rawValue_like (field : Field) {a b : Token} (h : Token.Like SameLetters a b) :
    Value.Like SameLetters (rawValue field a) (rawValue field b) := by
  have hword := Value.ofWord_like field h.lexeme
  have hquoted := Value.ofQuoted_like field h.text
  have hfield : ∀ {v w : Value}, Value.Like SameLetters v w → Value.Like SameLetters
      (if field.type.isText then .text a.lexeme else v)
      (if field.type.isText then .text b.lexeme else w) := by
    intro v w hvw
    split
    · exact .text h.lexeme
    · exact hvw
  have hliteral := h.literal
  unfold rawValue
  rw [h.kind]
  generalize a.literal = l at hliteral ⊢
  generalize b.literal = m at hliteral ⊢
  cases a.kind
  case number =>
    cases hliteral with
    | none => exact hfield hword
    | integer => exact hfield (Value.like_refl SameLetters.refl _)
    | text => exact hfield hword
  case string => exact hquoted
  all_goals exact hword

end Parse

theorem Field.ofName?_eq {s t : Text} (h : SameLetters s t) :
    Field.ofName? s = Field.ofName? t := by
  rw [Field.ofName?, Field.ofName?, h.lower_eq]

/-- The case of ASCII letters changes neither what a name means nor which values a token says. -/
theorem harmless_sameLetters : Harmless SameLetters where
  name h := (Field.ofName?_eq h).symm
  value {field a b v} h hv := by
    obtain ⟨hkind, hfit⟩ := hv
    obtain ⟨w, hw, hvw⟩ := Value.fit_like (Parse.rawValue_like field h) hfit
    exact ⟨w, ⟨h.kind ▸ hkind, hw⟩, hvw⟩

/-! ### Conditions -/

theorem Text.same_eq (isEnum : Bool) (u : Text) {s t : Text} (h : SameLetters s t) :
    Text.same isEnum u s = Text.same isEnum u t := by
  unfold Text.same Status.foldName
  rw [h.lower_eq]

theorem Content.equals_eq (now : Moment) (isEnum : Bool) (content : Content) {v w : Value}
    (h : Value.Like SameLetters v w) :
    content.equals now isEnum v = content.equals now isEnum w := by
  cases h with
  | same _ => rfl
  | text h =>
    cases content with
    | text u => exact Text.same_eq isEnum u h
    | list items => simp only [Content.equals, Text.same_eq false _ h]
    | _ => rfl

/-- No range ends in a text, whatever its letters. -/
theorem Content.between_eq (now : Moment) (content : Content) {min min' max max' : Value}
    (hmin : Value.Like SameLetters min min') (hmax : Value.Like SameLetters max max') :
    content.between now min max = content.between now min' max' := by
  cases hmin with
  | same _ =>
    cases hmax with
    | same _ => rfl
    | text _ => cases content <;> cases min <;> rfl
  | text _ =>
    cases hmax with
    | same _ => cases content <;> rfl
    | text _ => cases content <;> rfl

theorem Filter.finds_eq {s t : Text} (h : SameLetters s t) :
    Filter.finds s false = Filter.finds t false := by
  funext u
  rw [finds, finds, if_neg Bool.false_ne_true, if_neg Bool.false_ne_true, h.lower_eq]

/-- Filters with texts of the same letters accept the same issues. -/
theorem Filter.accepts_eq (now : Moment) (issue : Issue) {f g : Filter}
    (h : Filter.Like SameLetters f g) : f.accepts now issue = g.accepts now issue := by
  induction h with
  | and _ _ ihf ihg => rw [accepts, accepts, ihf, ihg]
  | or _ _ ihf ihg => rw [accepts, accepts, ihf, ihg]
  | not _ ih => rw [accepts, accepts, ih]
  | equals hv => exact Content.equals_eq _ _ _ hv
  | has hv => exact Content.equals_eq _ _ _ hv
  | range hmin hmax => exact Content.between_eq _ _ hmin hmax
  | contains h => rw [accepts, accepts, finds_eq h]
  | @oneOf field vs ws hvs =>
    rw [accepts, accepts]
    induction hvs with
    | nil => rfl
    | cons hv _ ih => rw [List.any_cons, List.any_cons, Content.equals_eq _ _ _ hv, ih]

end Triage
