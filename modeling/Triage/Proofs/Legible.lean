import Triage.Proofs.Grammar
import Triage.Proofs.Spelling

/-! Values are read back from the tokens that they are written as.

The token that a value is written as says the value again, in any field that takes
it, except for an instant whose year in universal time takes a sign: its text is
not in the strict format, and no other text fits a time. A value is legible
(`Value.Legible`) if it is written as a token and read back from it. -/
namespace Triage
open Parse Outcome

/-! ### Texts that begin like a time -/

namespace Text

/-- The characters that the text of a time begins with. -/
def timeMarks : Text := "+-0123456789".toList

theorem mem_timeMarks_of_isDigit {c : Char} (h : c.isDigit = true) : c ∈ timeMarks := by
  have hcodes : ∀ n < 58, 48 ≤ n → Char.ofNat n ∈ timeMarks := by decide
  simp only [Char.isDigit, Bool.and_eq_true, decide_eq_true_eq, ge_iff_le,
    UInt32.le_iff_toNat_le] at h
  have hc := hcodes c.toNat (Nat.lt_succ_of_le h.2) h.1
  rwa [Char.ofNat_toNat] at hc

/-- Lower case leaves the first character of such a text. -/
theorem head_lower {c : Char} (h : c ∈ timeMarks) (rest : Text) :
    (lower (c :: rest)).head? = some c := by
  have hmarks : ∀ d ∈ timeMarks, d ≠ 'Σ' ∧ lowerChar d = [d] := forall_mem (by decide)
  obtain ⟨hs, hl⟩ := hmarks c h
  rw [lower, lowerAfter, lowerBetween, if_neg hs, hl]
  rfl

end Text

/-- The words that may mean the absence of a value, in lower case. -/
def nullWords : List Text := ["null", "none", "unassigned"].map String.toList

/-- Any other word stands for itself. -/
theorem Value.meansNull_of_not_mem {t : Text} (h : t.lower ∉ nullWords) (field : Field) :
    meansNull field t = false := by
  have hword : ∀ word ∈ nullWords, ¬ t.lower = word := by
    rintro word hw rfl
    exact h hw
  simp only [meansNull, Bool.or_eq_false_iff, Bool.and_eq_false_iff, decide_eq_false_iff_not]
  exact ⟨⟨hword _ (by decide), hword _ (by decide)⟩, .inl (hword _ (by decide))⟩

/-- A text that begins like a time does not mean the absence of a value. -/
theorem Value.meansNull_of_timeMark {c : Char} (h : c ∈ Text.timeMarks) (field : Field)
    (rest : Text) : meansNull field (c :: rest) = false := by
  have hheads : ∀ word ∈ nullWords, ∀ d ∈ Text.timeMarks, word.head? ≠ some d := by
    have hall : ∀ word ∈ nullWords, Text.timeMarks.all (word.head? ≠ some ·) = true := by decide
    exact fun word hw => Text.forall_mem (hall word hw)
  apply meansNull_of_not_mem
  intro hm
  exact hheads _ hm c h (Text.head_lower h rest)

/-- A text that begins like a time is not the name of a relative date. -/
theorem RelativeDate.ofName?_of_timeMark {c : Char} (h : c ∈ Text.timeMarks) (rest : Text) :
    ofName? (c :: rest) = none := by
  have hheads : ∀ r ∈ all, ∀ d ∈ Text.timeMarks, r.name.head? ≠ some d := by
    have hall : ∀ r ∈ all, Text.timeMarks.all (r.name.head? ≠ some ·) = true := by decide
    exact fun r hr => Text.forall_mem (hall r hr)
  have hc : c ≠ '_' := by
    rintro rfl
    exact absurd h (by decide)
  rw [ofName?, List.find?_eq_none]
  intro r hr hname
  have hname : r.name = Text.replace '_' '-' (Text.lower (c :: rest)) := by simpa using hname
  apply hheads r hr c h
  rw [hname, Text.replace, List.head?_map, Text.head_lower h, Option.map_some, if_neg hc]

theorem Date.exists_timeMark (d : Date) : ∃ c rest, d.text = c :: rest ∧ c ∈ Text.timeMarks := by
  by_cases hy : 0 ≤ d.year ∧ d.year ≤ 9999
  · obtain ⟨c, cs, hc, hd⟩ := Decimal.exists_cons_padded 4 d.year.natAbs
    rw [text_of_year hy, hc]
    exact ⟨c, _, rfl, Text.mem_timeMarks_of_isDigit hd⟩
  · obtain ⟨rest, htext⟩ := exists_sign_text hy
    refine ⟨_, _, htext, ?_⟩
    split <;> decide

theorem Instant.exists_timeMark (i : Instant) :
    ∃ c rest, i.text = c :: rest ∧ c ∈ Text.timeMarks := by
  obtain ⟨c, cs, hc, hm⟩ := i.date.exists_timeMark
  rw [text_eq, hc]
  exact ⟨c, _, rfl, hm⟩

/-! ### Values -/

namespace Value

/-- A value that is read back from its written form: dates up to the year 9999, instants whose
year in universal time is one of the years 0 to 9999, and all other values. -/
def Legible : Value → Prop
  | date d => d.year ≤ 9999
  | instant i => 0 ≤ i.date.year ∧ i.date.year ≤ 9999
  | _ => True

theorem Legible.lexable {v : Value} (h : v.Legible) : v.Lexable := by
  cases v <;> first | exact h | trivial

/-- A value that is a token but not read back is an instant in a year that takes a sign. -/
theorem exists_instant_of_not_legible {v : Value} (hx : v.Lexable) (hl : ¬ v.Legible) :
    ∃ i, v = instant i ∧ ¬ (0 ≤ i.date.year ∧ i.date.year ≤ 9999) := by
  cases v with
  | instant i => exact ⟨i, rfl, hl⟩
  | date d => exact absurd hx hl
  | _ => exact absurd trivial hl

theorem isTime_of_takes_text {type : FieldType} {t : Text} (h : type.takes (text t) = true) :
    type.isTime = false := by
  cases type <;> first | rfl | exact Bool.noConfusion h

theorem isText_of_takes_integer {type : FieldType} {n : Int64}
    (h : type.takes (integer n) = true) : type.isText = false := by
  cases type <;> first | rfl | exact Bool.noConfusion h

/-- A word that stands without quotes does not mean the absence of a value. -/
theorem meansNull_of_bare {t : Text} (h : t.needsQuotes = false) (field : Field) :
    meansNull field t = false := by
  have hreserved : ∀ word ∈ nullWords, word ∈ Text.reserved := by decide
  apply meansNull_of_not_mem
  intro hm
  exact (Text.needsQuotes_eq_false_iff.1 h).2.2.2.1 (hreserved _ hm)

theorem ofQuoted_date {field : Field} (h : field.type.isTime = true) (d : Date) :
    ofQuoted field d.text = date d := by
  obtain ⟨c, rest, htext, hc⟩ := d.exists_timeMark
  have hname : RelativeDate.ofName? d.text = none := by
    rw [htext]
    exact RelativeDate.ofName?_of_timeMark hc rest
  simp only [ofQuoted, h, if_true, hname, readTime?, Date.read?_text, Option.getD_some]

/-- The text of an instant is read as the instant if its year takes no sign, and as no time
otherwise. -/
theorem ofQuoted_instant {field : Field} (h : field.type.isTime = true) (i : Instant) :
    ofQuoted field i.text =
      if 0 ≤ i.date.year ∧ i.date.year ≤ 9999 then instant i else text i.text := by
  obtain ⟨c, rest, htext, hc⟩ := i.exists_timeMark
  have hname : RelativeDate.ofName? i.text = none := by
    rw [htext]
    exact RelativeDate.ofName?_of_timeMark hc rest
  simp only [ofQuoted, h, if_true, hname, readTime?, Date.read?_instant]
  split
  · next hy =>
    rw [Moment.read?_text i hy]
    rfl
  · next hy =>
    rw [Moment.read?_text_of_sign i hy]
    rfl

/-- A token says the value that is written as it. -/
theorem rawValue_of_spelledBy {field : Field} {v : Value} {token : Token}
    (hs : v.SpelledBy token) (ht : field.type.takes v = true) (hl : v.Legible) :
    rawValue field token = v := by
  cases v with
  | text t =>
    have htime := isTime_of_takes_text ht
    rcases hs with ⟨hk, rfl, -, hq⟩ | ⟨hk, hliteral⟩
    · simp [rawValue, hk, ofWord, meansNull_of_bare hq, ofQuoted, htime]
    · simp [rawValue, hk, hliteral, Token.text, ofQuoted, htime]
  | integer n =>
    obtain ⟨hk, hliteral⟩ := hs
    simp [rawValue, hk, hliteral, isText_of_takes_integer ht]
  | date d =>
    obtain ⟨hk, hlexeme⟩ := hs
    obtain ⟨c, rest, htext, hc⟩ := d.exists_timeMark
    have hnull : meansNull field d.text = false := by
      rw [htext]
      exact meansNull_of_timeMark hc field rest
    simp [rawValue, hk, hlexeme, ofWord, hnull, ofQuoted_date ht]
  | instant i =>
    obtain ⟨hk, hliteral⟩ := hs
    have hl : 0 ≤ i.date.year ∧ i.date.year ≤ 9999 := hl
    simp [rawValue, hk, hliteral, Token.text, ofQuoted_instant ht, hl]
  | relative r =>
    obtain ⟨hk, hlexeme⟩ := hs
    have hq : r.name.needsQuotes = false := by cases r <;> decide
    have ht : field.type.isTime = true := ht
    simp [rawValue, hk, hlexeme, ofWord, meansNull_of_bare hq, ofQuoted, ht,
      RelativeDate.ofName?_name]
  | null =>
    obtain ⟨hk, hlexeme⟩ := hs
    have hnull : Text.lower "null".toList = "null".toList := by decide
    simp only [rawValue, hk, hlexeme, ofWord, meansNull, hnull, decide_true, Bool.true_or, if_true]

/-- A token says a legible value that it is written as. -/
theorem Legible.said {field : Field} {v : Value} {token : Token} (hl : v.Legible)
    (hs : v.SpelledBy token) (ht : field.type.takes v = true) : Grammar.Says field token v := by
  refine ⟨?_, ?_⟩
  · cases v with
    | text t => rcases hs with ⟨hk, -⟩ | ⟨hk, -⟩ <;> rw [hk] <;> rfl
    | _ => rw [hs.1]; rfl
  · rw [rawValue_of_spelledBy hs ht hl]
    exact fit_eq_self_iff.2 ht

/-- A token says nothing for the field if the value that it is written as is not legible. -/
theorem fails_of_not_legible (finish : Nat) {field : Field} {v : Value} {token : Token}
    (hx : v.Lexable) (hl : ¬ v.Legible) (hs : v.SpelledBy token)
    (ht : field.type.takes v = true) (name : Token) (rest : List Token) :
    Fails (Parse.value finish field name (token :: rest)).outcome := by
  obtain ⟨i, rfl, hy⟩ := exists_instant_of_not_legible hx hl
  obtain ⟨hk, hliteral⟩ := hs
  have hraw : rawValue field token = text i.text := by
    simp [rawValue, hk, hliteral, Token.text, ofQuoted_instant ht, hy]
  have hfit : ∃ misfit, (text i.text).fit field = .error misfit := by
    have htime : field.type.isTime = true := ht
    unfold fit
    cases htype : field.type <;> rw [htype] at htime <;>
      first | exact ⟨_, rfl⟩ | exact Bool.noConfusion htime
  obtain ⟨misfit, hfit⟩ := hfit
  rw [value_cons finish field name token rest (by rw [hk]; rfl), hraw, hfit]
  exact ⟨_, _, rfl⟩

end Value

end Triage
