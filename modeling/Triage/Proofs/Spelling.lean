import Triage.Proofs.Grammar
import Triage.Proofs.Shape
import Triage.Proofs.TimeText

/-! The tokens of a written query.

A value is written as one token (`Value.SpelledBy`), except for a date after the
year 9999: its plus sign begins no token. `Lexes` says both at once: a piece of
text makes tokens of some form as long as a condition holds, and is refused
otherwise. It is kept by putting pieces together, so that a filter of the right
shape makes the tokens that spell it (`Spelled`) if its dates allow it, and none
otherwise (`Filter.lexes_render`). -/
namespace Triage

/-! ### Values -/

namespace Value

/-- A token as the one that a value is written as. -/
def SpelledBy (token : Token) : Value → Prop
  | text t =>
    token.kind = .identifier ∧ token.lexeme = t ∧ token.literal = none ∧ t.needsQuotes = false ∨
      token.kind = .string ∧ token.literal = some (.text t)
  | integer n => token.kind = .number ∧ token.literal = some (.integer n)
  | date d => token.kind = .identifier ∧ token.lexeme = d.text
  | instant i => token.kind = .string ∧ token.literal = some (.text i.text)
  | relative r => token.kind = .identifier ∧ token.lexeme = r.name
  | null => token.kind = .identifier ∧ token.lexeme = "null".toList

/-- A value whose written form is a token: any but a date with a plus sign before its year. -/
def Lexable : Value → Prop
  | date d => d.year ≤ 9999
  | _ => True

end Value

/-! ### Dates and instants -/

namespace Date

/-- Up to the year 9999 a date is written with digits and hyphens. -/
theorem mem_text {d : Date} (h : d.year ≤ 9999) :
    ∀ c ∈ d.text, c.isDigit = true ∨ c = '-' := by
  have hyear : ∀ c ∈ Calendar.yearText d.year, c.isDigit = true ∨ c = '-' := by
    intro c hc
    unfold Calendar.yearText at hc
    split at hc
    · exact .inl (Decimal.isDigit_of_mem_padded hc)
    · rw [if_pos (by omega)] at hc
      rcases List.mem_cons.1 hc with rfl | hc
      · exact .inr rfl
      · exact .inl (Decimal.isDigit_of_mem_padded hc)
  intro c hc
  simp only [text, List.mem_append, List.mem_cons] at hc
  rcases hc with (hc | rfl | hc) | rfl | hc
  · exact hyear c hc
  · exact .inr rfl
  · exact .inl (Decimal.isDigit_of_mem_padded hc)
  · exact .inr rfl
  · exact .inl (Decimal.isDigit_of_mem_padded hc)

/-- Up to the year 9999 a date begins like a number, and a hyphen comes after the first digit. -/
theorem beginsNumeral_text {d : Date} (h : d.year ≤ 9999) :
    BeginsNumeral d.text ∧ Lexeme.integer? d.text = none := by
  obtain ⟨c, cs, hc, hd⟩ := Decimal.exists_cons_padded 4 d.year.natAbs
  have hhyphen : ∀ a b : Text, Text.allDigits (a ++ '-' :: b) = false := by
    intro a b
    simp only [Text.allDigits, List.all_append, List.all_cons]
    rw [show Char.isDigit '-' = false from rfl, Bool.false_and, Bool.and_false]
  by_cases hy : 0 ≤ d.year ∧ d.year ≤ 9999
  · have htext := text_of_year hy
    have hne : c ≠ '-' := by
      rintro rfl
      exact absurd hd (by decide)
    have hn : Text.allDigits d.text = false := by
      rw [htext]
      exact hhyphen _ _
    rw [hc, List.cons_append] at htext
    rw [htext] at hn ⊢
    refine ⟨⟨c, _, rfl, .inl hd⟩, ?_⟩
    simp [Lexeme.integer?, hne, hn]
  · obtain ⟨rest, htext⟩ := exists_sign_text hy
    rw [if_pos (by omega)] at htext
    rw [htext]
    refine ⟨⟨'-', _, rfl, .inr ⟨rfl, ?_⟩⟩, ?_⟩
    · rw [hc]
      exact hd
    · simp [Lexeme.integer?, hhyphen]

end Date

theorem splits_date (p : Nat) {d : Date} (h : d.year ≤ 9999) {rest : Text} (hr : Breaks rest) :
    Splits p d.text rest [⟨.identifier, d.text, p, none⟩] := by
  obtain ⟨hb, hi⟩ := Date.beginsNumeral_text h
  have hw : d.text.all Text.isWordChar = true := by
    rw [List.all_eq_true]
    intro c hc
    rcases Date.mem_text h c hc with hd | rfl
    · exact Text.isWordChar_of_isDigit hd
    · decide
  refine splits_numeral p hw hr hb ?_ (by decide) (by decide)
  rw [Lexeme.ofNumeral, hi]

namespace Instant

/-- The characters that an instant is written with. -/
def isTextChar (c : Char) : Bool := c.isDigit || ['-', '+', 'T', ':', '.'].contains c

theorem all_padded (width n : Nat) : (Decimal.padded width n).all isTextChar = true := by
  rw [List.all_eq_true]
  intro c hc
  rw [isTextChar, Decimal.isDigit_of_mem_padded hc, Bool.true_or]

theorem all_fractionText (nano : Nat) : (fractionText nano).all isTextChar = true := by
  have hpoint : isTextChar '.' = true := by decide
  unfold fractionText
  split
  · rfl
  · split
    · rw [List.all_cons, all_padded, hpoint, Bool.and_self]
    · split <;> rw [List.all_cons, all_padded, hpoint, Bool.and_self]

theorem all_date (d : Date) : d.text.all isTextChar = true := by
  have hhyphen : isTextChar '-' = true := by decide
  have hyear : (Calendar.yearText d.year).all isTextChar = true := by
    unfold Calendar.yearText
    split
    · exact all_padded _ _
    · rw [List.all_cons, all_padded, Bool.and_true]
      split <;> decide
  simp only [Date.text, List.all_append, List.all_cons, hyear, all_padded, hhyphen, Bool.and_self]

theorem all_text (i : Instant) : i.text.all isTextChar = true := by
  have hmarks : isTextChar 'T' = true ∧ isTextChar ':' = true := by decide
  have hoffset : ("+00:00".toList).all isTextChar = true := by decide
  simp only [text_eq, List.all_append, List.all_cons, all_date, all_padded, all_fractionText,
    hmarks, hoffset, Bool.and_self]

/-- Nothing in the text of an instant is escaped. -/
theorem escaped_text (i : Instant) : Text.escaped i.text = i.text := by
  have hplain : ∀ c ∈ i.text, ¬ (c = '"' ∨ c = '\\') := by
    intro c hc h
    have hchar := List.all_eq_true.1 i.all_text c hc
    rcases h with rfl | rfl <;> exact absurd hchar (by decide)
  unfold Text.escaped
  generalize i.text = t at hplain
  induction t with
  | nil => rfl
  | cons c t ih =>
    rw [List.flatMap_cons, if_neg (hplain c List.mem_cons_self),
      ih fun d hd => hplain d (List.mem_cons_of_mem c hd)]
    rfl

end Instant

theorem splits_instant (p : Nat) (i : Instant) (rest : Text) :
    Splits p (Value.instant i).render rest
      [⟨.string, i.text.quoted, p, some (.text i.text)⟩] := by
  have hq : (Value.instant i).render = i.text.quoted := by
    rw [Value.render, Text.quoted, i.escaped_text]
  rw [hq]
  exact splits_quoted p i.text rest

/-! ### Texts made of pieces -/

/-- Wherever a piece of text stands before `rest`, it makes tokens of the form `Form` if the
condition `good` holds, and is refused otherwise. -/
def Lexes (piece rest : Text) (good : Prop) (Form : List Token → Prop) : Prop :=
  ∀ p, (good → ∃ ts, Splits p piece rest ts ∧ Form ts) ∧
    (¬ good → ∃ e, Cursor.tokens ⟨p, piece ++ rest⟩ = .error e)

/-- Tokens of one form and then tokens of another. -/
def Then (First Second : List Token → Prop) (ts : List Token) : Prop :=
  ∃ us vs, ts = us ++ vs ∧ First us ∧ Second vs

/-- A single token of this form. -/
def One (Form : Token → Prop) (ts : List Token) : Prop := ∃ token, ts = [token] ∧ Form token

theorem Splits.lexes {piece rest : Text} {ts : Nat → List Token} {Form : List Token → Prop}
    (h : ∀ p, Splits p piece rest (ts p)) (hf : ∀ p, Form (ts p)) :
    Lexes piece rest True Form :=
  fun p => ⟨fun _ => ⟨ts p, h p, hf p⟩, fun hn => absurd trivial hn⟩

namespace Lexes

variable {a b rest : Text} {good better : Prop} {First Second Form : List Token → Prop}

theorem append (ha : Lexes a (b ++ rest) good First) (hb : Lexes b rest better Second) :
    Lexes (a ++ b) rest (good ∧ better) (Then First Second) := by
  intro p
  constructor
  · intro h
    obtain ⟨hg, hh⟩ := h
    obtain ⟨ts, hts, hfirst⟩ := (ha p).1 hg
    obtain ⟨us, hus, hsecond⟩ := (hb (p + a.length)).1 hh
    exact ⟨ts ++ us, hts.append hus, ts, us, rfl, hfirst, hsecond⟩
  · intro hn
    rw [List.append_assoc]
    by_cases hg : good
    · obtain ⟨ts, hts, -⟩ := (ha p).1 hg
      exact hts.error ((hb (p + a.length)).2 fun hh => hn ⟨hg, hh⟩)
    · exact (ha p).2 hg

theorem mono (h : Lexes a rest good First) (hg : good ↔ better)
    (hf : ∀ ts, First ts → Form ts) : Lexes a rest better Form := by
  intro p
  constructor
  · intro hb
    obtain ⟨ts, hts, hfirst⟩ := (h p).1 (hg.2 hb)
    exact ⟨ts, hts, hf ts hfirst⟩
  · exact fun hn => (h p).2 fun hgood => hn (hg.1 hgood)

end Lexes

/-! ### Values and names -/

variable {rest : Text}

/-- A token of a kind. -/
def OfKind (kind : Token.Kind) (token : Token) : Prop := token.kind = kind

/-- A token that names a field. -/
def Names (field : Field) (token : Token) : Prop :=
  token.kind = .identifier ∧ token.lexeme = field.name

theorem lexes_value (v : Value) (hr : Breaks rest) :
    Lexes v.render rest v.Lexable (One v.SpelledBy) := by
  cases v with
  | text t =>
    by_cases hq : t.needsQuotes = true
    · have hrender : (Value.text t).render = t.quoted := if_pos hq
      rw [hrender]
      exact Splits.lexes (fun p => splits_quoted p t rest) fun p => ⟨_, rfl, .inr ⟨rfl, rfl⟩⟩
    · have hrender : (Value.text t).render = t := if_neg hq
      have hq : t.needsQuotes = false := by simpa using hq
      rw [hrender]
      exact Splits.lexes (fun p => splits_bare p hq hr) fun p => ⟨_, rfl, .inl ⟨rfl, rfl, rfl, hq⟩⟩
  | integer n =>
    exact Splits.lexes (fun p => splits_integer p n hr) fun p => ⟨_, rfl, rfl, rfl⟩
  | date d =>
    intro p
    constructor
    · intro h
      exact ⟨_, splits_date p h hr, _, rfl, rfl, rfl⟩
    · intro h
      have h : ¬ d.year ≤ 9999 := h
      obtain ⟨more, htext⟩ := Date.exists_sign_text (d := d) (by omega)
      rw [if_neg (by omega)] at htext
      have hrender : (Value.date d).render = d.text := rfl
      rw [hrender, htext]
      exact tokens_plus p _
  | instant i =>
    exact Splits.lexes (fun p => splits_instant p i rest) fun p => ⟨_, rfl, rfl, rfl⟩
  | relative r =>
    have hq : r.name.needsQuotes = false := by cases r <;> decide
    exact Splits.lexes (fun p => splits_bare p hq hr) fun p => ⟨_, rfl, rfl, rfl⟩
  | null => exact Splits.lexes (fun p => splits_null p hr) fun p => ⟨_, rfl, rfl, rfl⟩

theorem lexes_name (field : Field) (hr : Breaks rest) :
    Lexes field.name rest True (One (Names field)) := by
  have hq : field.name.needsQuotes = false := by cases field <;> decide
  exact Splits.lexes (fun p => splits_bare p hq hr) fun p => ⟨_, rfl, rfl, rfl⟩

theorem lexes_colon : Lexes [':'] rest True (One (OfKind .colon)) :=
  Splits.lexes (fun p => splits_colon p rest) fun _ => ⟨_, rfl, rfl⟩

theorem lexes_comma : Lexes [','] rest True (One (OfKind .comma)) :=
  Splits.lexes (fun p => splits_comma p rest) fun _ => ⟨_, rfl, rfl⟩

theorem lexes_leftParen : Lexes ['('] rest True (One (OfKind .leftParen)) :=
  Splits.lexes (fun p => splits_leftParen p rest) fun _ => ⟨_, rfl, rfl⟩

theorem lexes_rightParen : Lexes [')'] rest True (One (OfKind .rightParen)) :=
  Splits.lexes (fun p => splits_rightParen p rest) fun _ => ⟨_, rfl, rfl⟩

theorem lexes_dotDot : Lexes "..".toList rest True (One (OfKind .dotDot)) :=
  Splits.lexes (fun p => splits_dotDot p rest) fun _ => ⟨_, rfl, rfl⟩

theorem lexes_blank : Lexes [' '] rest True (· = []) :=
  Splits.lexes (fun p => splits_blank p rest (by decide)) fun _ => rfl

theorem lexes_keyword {word : Text} {kind : Token.Kind} (h : (word, kind) ∈ writtenKeywords)
    (hr : Breaks rest) : Lexes word rest True (One (OfKind kind)) :=
  Splits.lexes (fun p => splits_keyword p h hr) fun _ => ⟨_, rfl, rfl⟩

/-- An operator between blanks. -/
theorem lexes_operator {word : Text} {kind : Token.Kind} (h : (word, kind) ∈ writtenKeywords) :
    Lexes ([' '] ++ (word ++ [' '])) rest True (One (OfKind kind)) := by
  have hblank : Breaks ([' '] ++ rest) := breaks_cons (by decide) _
  refine (lexes_blank.append ((lexes_keyword h hblank).append lexes_blank)).mono (by simp) ?_
  intro _ hform
  obtain ⟨_, _, rfl, rfl, _, _, rfl, hop, rfl⟩ := hform
  rw [List.nil_append, List.append_nil]
  exact hop

/-! ### Filters -/

/-- Values that follow a first one, each after a comma. -/
inductive SpelledFurther : List Value → List Token → Prop where
  | nil : SpelledFurther [] []
  | cons {v : Value} {vs : List Value} {comma token : Token} {ts : List Token} :
      comma.kind = .comma → v.SpelledBy token → SpelledFurther vs ts →
      SpelledFurther (v :: vs) (comma :: token :: ts)

/-- The tokens that a filter is written as. -/
inductive Spelled : Filter → List Token → Prop where
  | and {left right : Filter} {ts us : List Token} {first and last : Token} :
      first.kind = .leftParen → Spelled left ts → and.kind = .and → Spelled right us →
      last.kind = .rightParen →
      Spelled (.and left right) (first :: (ts ++ and :: us ++ [last]))
  | or {left right : Filter} {ts us : List Token} {first or last : Token} :
      first.kind = .leftParen → Spelled left ts → or.kind = .or → Spelled right us →
      last.kind = .rightParen →
      Spelled (.or left right) (first :: (ts ++ or :: us ++ [last]))
  | not {child : Filter} {ts : List Token} {not : Token} :
      not.kind = .not → Spelled child ts → Spelled (.not child) (not :: ts)
  | equals {field : Field} {v : Value} {name colon token : Token} :
      Names field name → colon.kind = .colon → v.SpelledBy token →
      Spelled (.equals field v) [name, colon, token]
  | oneOf {field : Field} {v : Value} {vs : List Value} {name colon token : Token}
      {ts : List Token} :
      Names field name → colon.kind = .colon → v.SpelledBy token → SpelledFurther vs ts →
      Spelled (.oneOf field (v :: vs)) (name :: colon :: token :: ts)
  | range {field : Field} {min max : Value} {name colon low dots high : Token} :
      Names field name → colon.kind = .colon → min.SpelledBy low → dots.kind = .dotDot →
      max.SpelledBy high → Spelled (.range field min max) [name, colon, low, dots, high]
  | search {field : Field} {t : Text} {caseSensitive : Bool} {name colon token : Token} :
      Names field name → colon.kind = .colon → (Value.text t).SpelledBy token →
      Spelled (.contains (some field) t caseSensitive) [name, colon, token]
  | term {t : Text} {caseSensitive : Bool} {token : Token} :
      (Value.text t).SpelledBy token → Spelled (.contains none t caseSensitive) [token]
  | has {field : Field} {v : Value} {name colon token : Token} :
      Names field name → colon.kind = .colon → v.SpelledBy token →
      Spelled (.has field v) [name, colon, token]

/-- A filter whose values are all written as tokens. -/
def Filter.Lexable (filter : Filter) : Prop := ∀ operand ∈ filter.operands, operand.2.Lexable

variable {good : Prop} {Form : List Token → Prop} {filter : Filter}

/-- A field name and a colon before a piece. -/
theorem lexes_named (field : Field) {piece : Text} (h : Lexes piece rest good Form)
    (hgood : good ↔ filter.Lexable)
    (hform : ∀ {name colon ts}, Names field name → colon.kind = .colon → Form ts →
      Spelled filter (name :: colon :: ts)) :
    Lexes (field.name ++ ':' :: piece) rest filter.Lexable (Spelled filter) := by
  have hname : Breaks ([':'] ++ piece ++ rest) := breaks_cons (by decide) _
  refine ((lexes_name field hname).append (lexes_colon.append h)).mono (by simpa using hgood) ?_
  intro _ hts
  obtain ⟨_, _, rfl, ⟨name, rfl, hn⟩, _, _, rfl, ⟨colon, rfl, hc⟩, hts⟩ := hts
  exact hform hn hc hts

/-- A field name and a colon before a value. -/
theorem lexes_namedValue (field : Field) (v : Value) (hr : Breaks rest)
    (hoperands : filter.operands = [(field, v)])
    (hform : ∀ {name colon token}, Names field name → colon.kind = .colon → v.SpelledBy token →
      Spelled filter [name, colon, token]) :
    Lexes (field.name ++ ':' :: v.render) rest filter.Lexable (Spelled filter) := by
  refine lexes_named field (lexes_value v hr) (by simp [Filter.Lexable, hoperands]) ?_
  intro _ _ _ hn hc hts
  obtain ⟨token, rfl, hv⟩ := hts
  exact hform hn hc hv

theorem renderValues_cons_cons (v w : Value) (vs : List Value) :
    Filter.renderValues (v :: w :: vs) = v.render ++ ',' :: Filter.renderValues (w :: vs) := by
  simp [Filter.renderValues, Text.join, List.intercalate]

theorem lexes_values (v : Value) (vs : List Value) (hr : Breaks rest) :
    Lexes (Filter.renderValues (v :: vs)) rest (∀ w ∈ v :: vs, w.Lexable)
      (Then (One v.SpelledBy) (SpelledFurther vs)) := by
  induction vs generalizing v with
  | nil =>
    have hrender : Filter.renderValues [v] = v.render := by
      simp [Filter.renderValues, Text.join, List.intercalate]
    rw [hrender]
    refine (lexes_value v hr).mono (by simp) ?_
    intro ts hts
    exact ⟨ts, [], (List.append_nil ts).symm, hts, .nil⟩
  | cons w vs ih =>
    rw [renderValues_cons_cons]
    have hcomma : Breaks ([','] ++ Filter.renderValues (w :: vs) ++ rest) :=
      breaks_cons (by decide) _
    refine ((lexes_value v hcomma).append (lexes_comma.append (ih w))).mono (by simp) ?_
    intro _ hform
    obtain ⟨_, _, rfl, hv, _, _, rfl, ⟨comma, rfl, hc⟩, _, _, rfl, ⟨token, rfl, hw⟩, hvs⟩ := hform
    exact ⟨_, _, rfl, hv, .cons hc hw hvs⟩

/-- Two conditions with an operator between them, in parentheses. -/
theorem lexes_group {left right : Filter} {word : Text} {kind : Token.Kind}
    (hk : (word, kind) ∈ writtenKeywords)
    (hl : ∀ rest, Breaks rest → Lexes left.render rest left.Lexable (Spelled left))
    (hr : ∀ rest, Breaks rest → Lexes right.render rest right.Lexable (Spelled right))
    (hoperands : filter.operands = left.operands ++ right.operands)
    (hform : ∀ {first op last ts us}, first.kind = .leftParen → Spelled left ts → op.kind = kind →
      Spelled right us → last.kind = .rightParen →
      Spelled filter (first :: (ts ++ op :: us ++ [last]))) :
    Lexes (['('] ++ (left.render ++ ([' '] ++ (word ++ [' ']) ++ (right.render ++ [')'])))) rest
      filter.Lexable (Spelled filter) := by
  have hblank : Breaks ([' '] ++ (word ++ [' ']) ++ (right.render ++ [')']) ++ rest) :=
    breaks_cons (by decide) _
  have hparen : Breaks ([')'] ++ rest) := breaks_cons (by decide) _
  refine (lexes_leftParen.append ((hl _ hblank).append ((lexes_operator hk).append
    ((hr _ hparen).append lexes_rightParen)))).mono ?_ ?_
  · simp [Filter.Lexable, hoperands, or_imp, forall_and]
  · intro _ hts
    obtain ⟨_, _, rfl, ⟨first, rfl, hf⟩, ts, _, rfl, hts, _, _, rfl, ⟨op, rfl, ho⟩,
      us, _, rfl, hus, last, rfl, hlast⟩ := hts
    simpa using hform hf hts ho hus hlast

/-- A filter of the right shape is split into the tokens that spell it if its dates allow it, and
refused otherwise. -/
theorem Filter.lexes_render {filter : Filter} (hs : filter.WellShaped) (hr : Breaks rest) :
    Lexes filter.render rest filter.Lexable (Spelled filter) := by
  -- Every rendering is put together from pieces that each break the one before them.
  induction filter generalizing rest with
  | and left right ihl ihr =>
    have hrender : (Filter.and left right).render = ['('] ++ (left.render ++
        ([' '] ++ ("AND".toList ++ [' ']) ++ (right.render ++ [')']))) := by
      simp [render]
    rw [hrender]
    exact lexes_group (by decide) (fun _ => ihl hs.1) (fun _ => ihr hs.2) rfl .and
  | or left right ihl ihr =>
    have hrender : (Filter.or left right).render = ['('] ++ (left.render ++
        ([' '] ++ ("OR".toList ++ [' ']) ++ (right.render ++ [')']))) := by
      simp [render]
    rw [hrender]
    exact lexes_group (by decide) (fun _ => ihl hs.1) (fun _ => ihr hs.2) rfl .or
  | not child ih =>
    have hblank : Breaks ([' '] ++ child.render ++ rest) := breaks_cons (by decide) _
    have hnot : ("NOT".toList, Token.Kind.not) ∈ writtenKeywords := by decide
    refine ((lexes_keyword hnot hblank).append (lexes_blank.append (ih hs hr))).mono
      (by simp [Filter.Lexable, operands]) ?_
    intro _ hform
    obtain ⟨_, _, rfl, ⟨not, rfl, hn⟩, _, _, rfl, rfl, hc⟩ := hform
    exact .not hn hc
  | equals field v => exact lexes_namedValue field v hr rfl .equals
  | has field v => exact lexes_namedValue field v hr rfl .has
  | oneOf field vs =>
    cases vs with
    | nil => exact absurd hs.1 (by decide)
    | cons v vs =>
      refine lexes_named field (lexes_values v vs hr) (by simp [Filter.Lexable, operands]) ?_
      intro _ _ _ hn hc hform
      obtain ⟨_, _, rfl, ⟨token, rfl, hv⟩, hvs⟩ := hform
      exact .oneOf hn hc hv hvs
  | range field min max =>
    have hdots : Breaks ("..".toList ++ max.render ++ rest) := breaks_cons (by decide) _
    have hrender : (Filter.range field min max).render =
        field.name ++ ':' :: (min.render ++ ("..".toList ++ max.render)) := by
      simp only [render, List.append_assoc, List.cons_append]
    rw [hrender]
    refine lexes_named field ((lexes_value min hdots).append
      (lexes_dotDot.append (lexes_value max hr))) (by simp [Filter.Lexable, operands]) ?_
    intro _ _ _ hn hc hform
    obtain ⟨_, _, rfl, ⟨low, rfl, hmin⟩, _, _, rfl, ⟨dots, rfl, hd⟩, high, rfl, hmax⟩ := hform
    exact .range hn hc hmin hd hmax
  | contains field t caseSensitive =>
    cases field with
    | none =>
      refine (lexes_value (.text t) hr).mono (by simp [Filter.Lexable, operands, Value.Lexable]) ?_
      intro _ hform
      obtain ⟨token, rfl, ht⟩ := hform
      exact .term ht
    | some field => exact lexes_namedValue field (.text t) hr rfl .search

/-! ### Sort clause -/

theorem lexes_key (key : SortKey) (hr : Breaks rest) :
    Lexes key.render rest True (Grammar.Key · key) := by
  obtain ⟨field, direction⟩ := key
  have hblank : Breaks ([' '] ++ direction.word ++ rest) := breaks_cons (by decide) _
  have hname : ∀ token, Names field token → Field.ofName? token.lexeme = some field := by
    intro token hn
    rw [hn.2]
    exact Field.ofName?_name field
  cases direction with
  | asc =>
    have hasc : (Direction.asc.word, Token.Kind.asc) ∈ writtenKeywords := by decide
    refine ((lexes_name field hblank).append (lexes_blank.append (lexes_keyword hasc hr))).mono
      (by simp) ?_
    intro _ hform
    obtain ⟨_, _, rfl, ⟨name, rfl, hn⟩, _, _, rfl, rfl, word, rfl, hw⟩ := hform
    exact .asc hn.1 (hname name hn) hw
  | desc =>
    have hdesc : (Direction.desc.word, Token.Kind.desc) ∈ writtenKeywords := by decide
    refine ((lexes_name field hblank).append (lexes_blank.append (lexes_keyword hdesc hr))).mono
      (by simp) ?_
    intro _ hform
    obtain ⟨_, _, rfl, ⟨name, rfl, hn⟩, _, _, rfl, rfl, word, rfl, hw⟩ := hform
    exact .desc hn.1 (hname name hn) hw

theorem lexes_keys (key : SortKey) (keys : List SortKey) (hr : Breaks rest) :
    Lexes (Text.join ", ".toList ((key :: keys).map SortKey.render)) rest True
      (Grammar.Keys · (key :: keys)) := by
  induction keys generalizing key with
  | nil =>
    have hrender : Text.join ", ".toList ([key].map SortKey.render) = key.render := by
      simp [Text.join, List.intercalate]
    rw [hrender]
    exact (lexes_key key hr).mono Iff.rfl fun _ => .one
  | cons next keys ih =>
    have hrender : Text.join ", ".toList ((key :: next :: keys).map SortKey.render) =
        key.render ++ ([','] ++ ([' '] ++
          Text.join ", ".toList ((next :: keys).map SortKey.render))) := by
      simp [Text.join, List.intercalate]
    have hcomma : Breaks ([','] ++ ([' '] ++
        Text.join ", ".toList ((next :: keys).map SortKey.render)) ++ rest) :=
      breaks_cons (by decide) _
    rw [hrender]
    refine ((lexes_key key hcomma).append (lexes_comma.append
      (lexes_blank.append (ih next)))).mono (by simp) ?_
    intro _ hform
    obtain ⟨_, _, rfl, hkey, _, _, rfl, ⟨comma, rfl, hc⟩, _, _, rfl, rfl, hkeys⟩ := hform
    exact .more hkey hc hkeys

theorem lexes_nil : Lexes [] rest True (· = []) :=
  Splits.lexes (fun p => splits_nil p rest) fun _ => rfl

/-- A sort clause is split into tokens that write it. -/
theorem lexes_sort (sort : List SortKey) :
    Lexes (Query.renderSort sort) [] True (Grammar.SortPart · sort) := by
  cases sort with
  | nil =>
    refine lexes_nil.mono Iff.rfl ?_
    rintro _ rfl
    exact .none
  | cons key keys =>
    have hrender : Query.renderSort (key :: keys) =
        "sort by: ".toList ++ Text.join ", ".toList ((key :: keys).map SortKey.render) := rfl
    rw [hrender]
    refine fun p => ⟨fun _ => ?_, fun hn => absurd trivial hn⟩
    obtain ⟨sort, colon, hclause, hs, hc⟩ := splits_clause p _
    obtain ⟨ts, hts, hkeys⟩ := (lexes_keys key keys breaks_nil _).1 trivial
    exact ⟨_, hclause.append hts, .some hs hc hkeys⟩

/-! ### Queries -/

namespace Query

/-- The tokens that the filter of a query is written as, none if it has no filter. -/
def SpelledFilter : Option Filter → List Token → Prop
  | some filter => Spelled filter
  | none => (· = [])

/-- A query whose filter is of the right shape. -/
def WellShaped (query : Query) : Prop := ∀ filter ∈ query.filter, filter.WellShaped

/-- A query whose values are all written as tokens. -/
def Lexable (query : Query) : Prop := ∀ filter ∈ query.filter, filter.Lexable

/-- The canonical text of a query is split into tokens that spell its filter and write its sort
clause if its dates allow it, and refused otherwise. -/
theorem lexes_render {query : Query} (hs : query.WellShaped) :
    Lexes query.render [] query.Lexable
      (Then (SpelledFilter query.filter) (Grammar.SortPart · query.sort)) := by
  obtain ⟨filter, sort⟩ := query
  cases filter with
  | none =>
    refine (lexes_sort sort).mono (by simp [Lexable]) ?_
    exact fun ts hts => ⟨[], ts, rfl, rfl, hts⟩
  | some filter =>
    have hf := hs filter rfl
    cases sort with
    | nil =>
      refine (Filter.lexes_render hf breaks_nil).mono (by simp [Lexable]) ?_
      exact fun ts hts => ⟨ts, [], (List.append_nil ts).symm, hts, .none⟩
    | cons key keys =>
      have hblank : Breaks ([' '] ++ renderSort (key :: keys) ++ []) :=
        breaks_cons (by decide) _
      refine ((Filter.lexes_render hf hblank).append
        (lexes_blank.append (lexes_sort (key :: keys)))).mono (by simp [Lexable]) ?_
      intro _ hform
      obtain ⟨us, _, rfl, hus, _, vs, rfl, rfl, hvs⟩ := hform
      exact ⟨us, vs, rfl, hus, hvs⟩

end Query
end Triage
