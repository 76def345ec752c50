import Mathlib.Data.Option.Basic
import Triage.Calendar.Rfc3339
import Triage.Proofs.LetterCase
import Triage.Text.Integer

/-! Numbers and times that differ in the case of ASCII letters.

Dates and instants are read by scans that agree on texts of the same letters
(`Scan.IgnoresCase`): they test digits, marks and blanks, or take a letter in both
forms, as the `T` and the `Z` of an instant. Scans in a row ignore case if each does,
so a date or an instant is read from a text in one case if and only if it is read in
the other. An integer has no letters at all. -/
namespace Triage
open Text

/-! ### Scans -/

namespace Scan

theorem fraction_cons_of_ne {c : Char} (h : c ≠ '.') (rest : Text) :
    fraction (c :: rest) = some (0, c :: rest) := by
  unfold fraction
  split
  · next heq => exact absurd (List.cons.inj heq).1 h
  · rfl

theorem offset_cons (separator : Scan Unit) (c : Char) (rest : Text) :
    offset separator (c :: rest) =
      if c = 'Z' ∨ c = 'z' then some (0, rest)
      else if c = '+' then offset.span separator 1 rest
      else if c = '-' ∨ c = '\u2212' then offset.span separator (-1) rest
      else none := by
  unfold offset
  split <;> simp_all

end Scan

/-- A scan takes the same from texts of the same letters and leaves texts of the same letters, or
fails on both. -/
def Scan.IgnoresCase (scan : Scan α) : Prop :=
  ∀ s t : Text, SameLetters s t →
    Option.Rel (fun x y => x.1 = y.1 ∧ SameLetters x.2 y.2) (scan s) (scan t)

namespace Scan.IgnoresCase

theorem pure (a : α) : Scan.IgnoresCase (Pure.pure a) := fun _ _ h => .some ⟨rfl, h⟩

theorem lift (x : Option α) : Scan.IgnoresCase (liftM x : Scan α) := by
  intro s t h
  cases x with
  | none => exact .none
  | some a => exact .some ⟨rfl, h⟩

theorem bind {scan : Scan α} {next : α → Scan β} (hs : scan.IgnoresCase)
    (hn : ∀ a, (next a).IgnoresCase) : Scan.IgnoresCase (scan >>= next) := by
  intro s t h
  have hrel := hs s t h
  show Option.Rel _ ((scan s).bind fun p => next p.1 p.2) ((scan t).bind fun p => next p.1 p.2)
  generalize scan s = x at hrel ⊢
  generalize scan t = y at hrel ⊢
  cases hrel with
  | none => exact .none
  | some hp =>
    rw [Option.bind_some, Option.bind_some, hp.1]
    exact hn _ _ _ hp.2

/-- A scan that has to use up the text reads the same. -/
theorem whole?_eq {scan : Scan α} (hs : scan.IgnoresCase) {s t : Text} (h : SameLetters s t) :
    scan.whole? s = scan.whole? t := by
  have hrel := hs s t h
  unfold whole?
  generalize scan s = x at hrel ⊢
  generalize scan t = y at hrel ⊢
  cases hrel with
  | none => rfl
  | @some p q hp =>
    obtain ⟨a, rest⟩ := p
    obtain ⟨b, rest'⟩ := q
    obtain ⟨rfl, hrest⟩ := hp
    cases hrest <;> rfl

theorem map {scan : Scan α} (hs : scan.IgnoresCase) (f : α → β) :
    Scan.IgnoresCase fun t => (scan t).map fun (a, rest) => (f a, rest) := by
  intro s t h
  have hrel := hs s t h
  show Option.Rel _ ((scan s).map fun (a, rest) => (f a, rest))
    ((scan t).map fun (a, rest) => (f a, rest))
  generalize scan s = x at hrel ⊢
  generalize scan t = y at hrel ⊢
  cases hrel with
  | none => exact .none
  | some hp => exact .some ⟨congrArg f hp.1, hp.2⟩

/-! ### Scans of numbers and marks -/

theorem char {c : Char} (hc : c.isAlpha = false) : (Scan.char c).IgnoresCase := by
  intro s t h
  cases h with
  | nil => exact .none
  | @cons d e _ _ hd hrest =>
    simp only [Scan.char, eq_comm (a := c), hd.eq_iff hc]
    split
    · exact .some ⟨trivial, hrest⟩
    · exact .none

theorem oneOf {cs : List Char} (hcs : Text.IgnoresCase fun c => decide (c ∈ cs)) :
    (Scan.oneOf cs).IgnoresCase := by
  intro s t h
  cases h with
  | nil => exact .none
  | @cons d e _ _ hd hrest =>
    simp only [Scan.oneOf, decide_eq_decide.1 (hcs d e hd)]
    split
    · exact .some ⟨trivial, hrest⟩
    · exact .none

theorem blanks : Scan.blanks.IgnoresCase :=
  fun _ _ h => .some ⟨rfl, h.dropWhile ignoresCase_isBlank⟩

theorem number (least most : Nat) : (Scan.number least most).IgnoresCase := by
  intro s t h
  have hdigits := SameLetters.takeWhile_isDigit (List.forall₂_take most h)
  simp only [Scan.number, hdigits]
  split
  · exact .none
  · exact .some ⟨rfl, List.forall₂_drop _ h⟩

theorem wholeNumber : Scan.wholeNumber.IgnoresCase := by
  intro s t h
  have hrel := number 1 s.length s t h
  unfold Scan.wholeNumber
  rwa [← h.length_eq]

theorem short : Scan.short.IgnoresCase := blanks.bind fun _ => number 1 2

theorem year : Scan.year.IgnoresCase := by
  refine blanks.bind fun _ => ?_
  intro s t h
  cases h with
  | nil => exact .none
  | @cons c d s t hc hrest =>
    -- A sign is no letter, so either both years have it or none.
    by_cases hminus : c = '-'
    · obtain rfl : d = '-' := (hc.eq_iff rfl).1 hminus
      subst hminus
      exact wholeNumber.map (fun n : Nat => (-(n : Int))) _ _ hrest
    · by_cases hplus : c = '+'
      · obtain rfl : d = '+' := (hc.eq_iff rfl).1 hplus
        subst hplus
        exact wholeNumber.map (fun n : Nat => (n : Int)) _ _ hrest
      · have hminus' : d ≠ '-' := fun hd => hminus ((hc.eq_iff rfl).2 hd)
        have hplus' : d ≠ '+' := fun hd => hplus ((hc.eq_iff rfl).2 hd)
        simp only [List.cons.injEq, hminus, hplus, hminus', hplus', false_and, imp_self,
          implies_true]
        exact (number 1 4).map (fun n : Nat => (n : Int)) _ _ (.cons hc hrest)

theorem fraction : Scan.fraction.IgnoresCase := by
  intro s t h
  cases h with
  | nil => exact .some ⟨rfl, .nil⟩
  | @cons c d s t hc hrest =>
    by_cases hpoint : c = '.'
    · obtain rfl : d = '.' := (hc.eq_iff rfl).1 hpoint
      subst hpoint
      simp only [Scan.fraction, SameLetters.takeWhile_isDigit hrest]
      split
      · exact .none
      · exact .some ⟨rfl, List.forall₂_drop _ hrest⟩
    · have hpoint' : d ≠ '.' := fun hd => hpoint ((hc.eq_iff rfl).2 hd)
      rw [fraction_cons_of_ne hpoint, fraction_cons_of_ne hpoint']
      exact .some ⟨rfl, .cons hc hrest⟩

theorem failure : Scan.IgnoresCase (failure : Scan α) := fun _ _ _ => .none

theorem span {separator : Scan Unit} (hs : separator.IgnoresCase) (sign : Int) :
    (Scan.offset.span separator sign).IgnoresCase := by
  refine (number 2 2).bind fun hours => hs.bind fun _ => (number 2 2).bind fun minutes => ?_
  split
  · exact failure.bind fun _ => pure _
  · exact pure _

theorem offset {separator : Scan Unit} (hs : separator.IgnoresCase) :
    (Scan.offset separator).IgnoresCase := by
  intro s t h
  cases h with
  | nil => exact .none
  | @cons c d s t hc hrest =>
    have hplus : c = '+' ↔ d = '+' := hc.eq_iff rfl
    have hhyphen : c = '-' ↔ d = '-' := hc.eq_iff rfl
    have hminus : c = '\u2212' ↔ d = '\u2212' := hc.eq_iff rfl
    have hzulu : (c = 'Z' ∨ c = 'z') ↔ (d = 'Z' ∨ d = 'z') := by
      have hboth : Text.IgnoresCase fun c => decide (c = 'Z' ∨ c = 'z') :=
        ignoresCase_of_letters (by decide)
      exact decide_eq_decide.1 (hboth c d hc)
    rw [offset_cons, offset_cons]
    simp only [hzulu, hplus, hhyphen, hminus]
    repeat' split
    · exact .some ⟨rfl, hrest⟩
    · exact span hs 1 _ _ hrest
    · exact span hs (-1) _ _ hrest
    · exact .none

/-! ### Times and integers -/

theorem date : Date.scan.IgnoresCase :=
  year.bind fun _ => (char rfl).bind fun _ => short.bind fun _ => (char rfl).bind fun _ =>
    short.bind fun _ => lift _

theorem moment : Moment.scan.IgnoresCase := by
  have hmark : Text.IgnoresCase fun c => decide (c ∈ ['T', 't', ' ']) :=
    ignoresCase_of_letters (by decide)
  exact (number 4 4).bind fun _ => (char rfl).bind fun _ => (number 2 2).bind fun _ =>
    (char rfl).bind fun _ => (number 2 2).bind fun _ => (oneOf hmark).bind fun _ =>
    (number 2 2).bind fun _ => (char rfl).bind fun _ => (number 2 2).bind fun _ =>
    (char rfl).bind fun _ => (number 2 2).bind fun _ => fraction.bind fun _ =>
    (offset (char rfl)).bind fun _ => (lift _).bind fun _ => lift _

end Scan.IgnoresCase

theorem Date.read?_eq {s t : Text} (h : SameLetters s t) : Date.read? s = Date.read? t :=
  Scan.IgnoresCase.date.whole?_eq h

theorem Moment.read?_eq {s t : Text} (h : SameLetters s t) : Moment.read? s = Moment.read? t :=
  Scan.IgnoresCase.moment.whole?_eq h

theorem Integer.natural?_eq {s t : Text} (h : SameLetters s t) :
    Integer.natural? s = Integer.natural? t := by
  unfold Integer.natural?
  rw [h.isEmpty_eq, h.all_eq ignoresCase_isDigit]
  split
  · next ht =>
    have hdigits : ∀ c ∈ t, c.isAlpha = false := by
      intro c hc
      have hall := (Bool.and_eq_true_iff.1 ht).2
      exact isAlpha_of_isDigit (List.all_eq_true.1 hall c hc)
    rw [h.symm.eq_of_all hdigits]
  · rfl

theorem Integer.read?_cons (c : Char) (rest : Text) :
    Integer.read? (c :: rest) =
      if c = '+' then (natural? rest).bind fun n => ofInt? n
      else if c = '-' then (natural? rest).bind fun n => ofInt? (-n)
      else (natural? (c :: rest)).bind fun n => ofInt? n := by
  unfold Integer.read?
  split <;> simp_all

theorem Integer.read?_eq {s t : Text} (h : SameLetters s t) :
    Integer.read? s = Integer.read? t := by
  cases h with
  | nil => rfl
  | @cons c d s t hc hrest =>
    have hplus : c = '+' ↔ d = '+' := hc.eq_iff rfl
    have hminus : c = '-' ↔ d = '-' := hc.eq_iff rfl
    simp only [Integer.read?_cons, hplus, hminus, Integer.natural?_eq hrest,
      Integer.natural?_eq (List.Forall₂.cons hc hrest)]

end Triage
