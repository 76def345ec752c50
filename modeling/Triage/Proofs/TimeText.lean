import Triage.Calendar.Rfc3339
import Triage.Proofs.Lexing

/-! Dates and instants are read back from their text.

A number written with a fixed width is read back by a scan of that width, a year
with a sign by a scan of all digits, and a fraction of a second by a scan that
fills up to nine digits. A date of any year is read back from its text
(`Date.read?_text`). The strict format has four digits for the year and no sign,
so an instant is read back exactly if its date in universal time lies in the years
0 to 9999 (`Moment.read?_text`, `Moment.read?_text_of_sign`), and a moment that is read
has a local date in these years (`Moment.year_of_read?`). -/
namespace Triage

/-! ### Decimal numerals -/

namespace Decimal

/-- How many numbers have numerals of at most a width. -/
def capacity : Nat → Nat
  | 0 => 1
  | width + 1 => capacity width * 10

theorem length_digits_le {n k : Nat} (hk : 0 < k) (h : n < capacity k) :
    (digits n).length ≤ k := by
  induction k generalizing n with
  | zero => exact absurd hk (Nat.lt_irrefl 0)
  | succ k ih =>
    rw [digits]
    split
    · rw [List.length_singleton]
      omega
    · next hn =>
      cases k with
      | zero =>
        have h : n < 10 := h
        omega
      | succ k =>
        have := ih (n := n / 10) (Nat.succ_pos k) (by rw [capacity] at h; omega)
        rw [List.length_append, List.length_singleton]
        omega

theorem length_padded {width n : Nat} (hw : 0 < width) (h : n < capacity width) :
    (padded width n).length = width := by
  have := length_digits_le hw h
  rw [padded, List.length_append, List.length_replicate]
  omega

theorem isDigit_of_mem_padded {width n : Nat} {c : Char} (h : c ∈ padded width n) :
    c.isDigit = true := by
  rcases List.mem_append.1 h with h | h
  · rw [(List.mem_replicate.1 h).2]
    rfl
  · exact isDigit_of_mem_digits h

theorem padded_ne_nil (width n : Nat) : padded width n ≠ [] := by
  intro h
  exact digits_ne_nil n (List.append_eq_nil_iff.1 h).2

/-- A padded numeral begins with a digit. -/
theorem exists_cons_padded (width n : Nat) :
    ∃ c cs, padded width n = c :: cs ∧ c.isDigit = true := by
  cases h : padded width n with
  | nil => exact absurd h (padded_ne_nil width n)
  | cons c cs =>
    have hmem : c ∈ padded width n := by
      rw [h]
      exact List.mem_cons_self
    exact ⟨c, cs, rfl, isDigit_of_mem_padded hmem⟩

/-- Zeros behind a numeral multiply its value. -/
theorem value_append_zeros (text : Text) (k : Nat) :
    value (text ++ List.replicate k '0') = value text * capacity k := by
  induction k with
  | zero => rw [List.replicate_zero, List.append_nil, capacity, Nat.mul_one]
  | succ k ih =>
    have hzero : digitValue '0' = 0 := rfl
    rw [List.replicate_succ', ← List.append_assoc, value_append_singleton, ih, hzero,
      Nat.add_zero, capacity, Nat.mul_comm 10, Nat.mul_assoc]

theorem digitValue_lt {c : Char} (h : c.isDigit = true) : digitValue c < 10 := by
  have hle : c.toNat ≤ '9'.toNat := by
    simp only [Char.isDigit, Bool.and_eq_true, decide_eq_true_eq] at h
    exact h.2
  have hzero : '0'.toNat = 48 := rfl
  have hnine : '9'.toNat = 57 := rfl
  unfold digitValue
  omega

/-- A numeral stands for one of the numbers that numerals of its length have. -/
theorem value_lt_capacity {text : Text} (h : ∀ c ∈ text, c.isDigit = true) :
    value text < capacity text.length := by
  suffices ∀ n, text.foldl (fun n c => 10 * n + digitValue c) n < (n + 1) * capacity text.length by
    simpa [value] using this 0
  induction text with
  | nil => intro n; simp [capacity]
  | cons c rest ih =>
    intro n
    have hdigit := digitValue_lt (h c List.mem_cons_self)
    have hrest := ih (fun d hd => h d (List.mem_cons_of_mem c hd)) (10 * n + digitValue c)
    refine Nat.lt_of_lt_of_le hrest ?_
    calc (10 * n + digitValue c + 1) * capacity rest.length
        ≤ ((n + 1) * 10) * capacity rest.length := Nat.mul_le_mul_right _ (by omega)
      _ = (n + 1) * capacity (rest.length + 1) := by
        rw [Nat.mul_assoc, Nat.mul_comm 10, capacity]

end Decimal

/-! ### Scans -/

namespace Scan

theorem bind_eq {scan : Scan α} {next : α → Scan β} {text rest : Text} {a : α}
    (h : scan text = some (a, rest)) : (scan >>= next) text = next a rest := by
  show (scan text).bind _ = _
  rw [h]
  rfl

theorem bind_none {scan : Scan α} {next : α → Scan β} {text : Text} (h : scan text = none) :
    (scan >>= next) text = none := by
  show (scan text).bind _ = _
  rw [h]
  rfl

theorem lift_eq {result : Option α} {a : α} (h : result = some a) (text : Text) :
    (liftM result : Scan α) text = some (a, text) := by
  rw [h]
  rfl

theorem char_cons (c : Char) (rest : Text) : char c (c :: rest) = some ((), rest) :=
  if_pos rfl

/-- A scan of digits stops at its width or where the digits end. -/
theorem number_append {least most : Nat} {digits rest : Text}
    (hd : ∀ c ∈ digits, c.isDigit = true) (hl : least ≤ digits.length)
    (hm : digits.length = most ∨
      digits.length ≤ most ∧ ∀ c ∈ rest.head?, c.isDigit = false) :
    number least most (digits ++ rest) = some (Decimal.value digits, rest) := by
  have htake : ((digits ++ rest).take most).takeWhile Char.isDigit = digits := by
    rcases hm with rfl | ⟨hm, hr⟩
    · rw [List.take_left, ← List.append_nil digits, List.takeWhile_append_of_pos hd]
      rfl
    · rw [List.take_append, List.take_of_length_le hm, List.takeWhile_append_of_pos hd]
      have hrest : (rest.take (most - digits.length)).takeWhile Char.isDigit = [] := by
        refine takeWhile_of_head fun c hc => hr c ?_
        rw [List.head?_take] at hc
        split at hc
        · exact absurd hc (by simp)
        · exact hc
      rw [hrest, List.append_nil]
  have hleast : ¬ digits.length < least := Nat.not_lt.2 hl
  simp only [number, htake, hleast, if_false, List.drop_left]

theorem number_padded {least width n : Nat} (hl : least ≤ width) (hw : 0 < width)
    (hn : n < Decimal.capacity width) (rest : Text) :
    number least width (Decimal.padded width n ++ rest) = some (n, rest) := by
  have hlen := Decimal.length_padded hw hn
  rw [number_append (fun _ => Decimal.isDigit_of_mem_padded) (by omega) (.inl hlen),
    Decimal.value_padded]

/-- Before another character there are no blanks to pass over. -/
theorem blanks_cons {c : Char} (h : Text.isBlank c = false) (rest : Text) :
    blanks (c :: rest) = some ((), c :: rest) := by
  rw [blanks, Text.trimStart, List.dropWhile_cons, h, if_neg Bool.false_ne_true]

theorem blanks_padded (width n : Nat) (rest : Text) :
    blanks (Decimal.padded width n ++ rest) = some ((), Decimal.padded width n ++ rest) := by
  obtain ⟨c, cs, hc, hd⟩ := Decimal.exists_cons_padded width n
  have hb := Text.isBlank_of_isWordChar (Text.isWordChar_of_isDigit hd)
  rw [hc, List.cons_append, blanks_cons hb]

theorem short_padded {n : Nat} (hn : n < 100) (rest : Text) :
    short (Decimal.padded 2 n ++ rest) = some (n, rest) := by
  rw [short, bind_eq (blanks_padded 2 n rest), number_padded (by decide) (by decide) hn]

theorem wholeNumber_padded {width n : Nat} {rest : Text}
    (hr : ∀ c ∈ rest.head?, c.isDigit = false) :
    wholeNumber (Decimal.padded width n ++ rest) = some (n, rest) := by
  have hlen : 1 ≤ (Decimal.padded width n).length :=
    List.length_pos_iff.2 (Decimal.padded_ne_nil width n)
  have hle : (Decimal.padded width n).length ≤ (Decimal.padded width n ++ rest).length := by
    rw [List.length_append]
    omega
  rw [wholeNumber, number_append (fun _ => Decimal.isDigit_of_mem_padded) hlen (.inr ⟨hle, hr⟩),
    Decimal.value_padded]

/-- A year is read back up to the hyphen behind it. -/
theorem year_yearText (y : Int) (rest : Text) :
    year (Calendar.yearText y ++ '-' :: rest) = some (y, '-' :: rest) := by
  have hhyphen : ∀ c ∈ ('-' :: rest).head?, c.isDigit = false := by
    intro c hc
    rw [← Option.some.inj hc]
    rfl
  unfold Calendar.yearText
  split
  · next h =>
    obtain ⟨c, cs, hc, hd⟩ := Decimal.exists_cons_padded 4 y.natAbs
    have hplain : c ≠ '-' ∧ c ≠ '+' := by
      constructor <;> rintro rfl <;> exact absurd hd (by decide)
    have hn : number 1 4 (Decimal.padded 4 y.natAbs ++ '-' :: rest) =
        some (y.natAbs, '-' :: rest) :=
      number_padded (by decide) (by decide) (show y.natAbs < 10000 by omega) _
    rw [year, bind_eq (blanks_padded 4 y.natAbs _)]
    rw [hc, List.cons_append] at hn ⊢
    simp only
    split
    · next heq => exact absurd (List.cons.inj heq).1 hplain.1
    · next heq => exact absurd (List.cons.inj heq).1 hplain.2
    · rw [hn, Option.map_some]
      have : ((y.natAbs : Nat) : Int) = y := by omega
      simp only [this]
  · next h =>
    -- Outside these years a sign comes first, and all digits behind it are read.
    have hn : wholeNumber (Decimal.padded 4 y.natAbs ++ '-' :: rest) =
        some (y.natAbs, '-' :: rest) := wholeNumber_padded hhyphen
    by_cases hneg : y < 0
    · have hb : blanks ('-' :: (Decimal.padded 4 y.natAbs ++ '-' :: rest)) =
          some ((), '-' :: (Decimal.padded 4 y.natAbs ++ '-' :: rest)) := rfl
      rw [if_pos hneg, List.cons_append, year, bind_eq hb]
      simp only [hn, Option.map_some]
      have : -((y.natAbs : Nat) : Int) = y := by omega
      rw [this]
    · have hb : blanks ('+' :: (Decimal.padded 4 y.natAbs ++ '-' :: rest)) =
          some ((), '+' :: (Decimal.padded 4 y.natAbs ++ '-' :: rest)) := rfl
      rw [if_neg hneg, List.cons_append, year, bind_eq hb]
      simp only [hn, Option.map_some]
      have : ((y.natAbs : Nat) : Int) = y := by omega
      rw [this]

/-- A fraction of `k` digits stands for nanoseconds with zeros in the other places. -/
theorem fraction_padded {k n : Nat} (hk : 0 < k) (hk9 : k ≤ 9) (hn : n < Decimal.capacity k)
    {rest : Text}
    (hr : ∀ c ∈ rest.head?, c.isDigit = false) :
    fraction ('.' :: (Decimal.padded k n ++ rest)) = some (n * Decimal.capacity (9 - k), rest) := by
  have hd : ∀ c ∈ Decimal.padded k n, c.isDigit = true :=
    fun _ => Decimal.isDigit_of_mem_padded
  have hlen := Decimal.length_padded hk hn
  have htake : (Decimal.padded k n ++ rest).takeWhile Char.isDigit = Decimal.padded k n := by
    rw [List.takeWhile_append_of_pos hd, takeWhile_of_head hr, List.append_nil]
  have hne : (Decimal.padded k n).isEmpty = false := by
    rw [List.isEmpty_eq_false_iff]
    exact Decimal.padded_ne_nil k n
  have hkept : (Decimal.padded k n).take 9 = Decimal.padded k n :=
    List.take_of_length_le (by omega)
  simp only [fraction, htake, hne, if_neg Bool.false_ne_true, hkept, hlen,
    Decimal.value_append_zeros, Decimal.value_padded]
  rw [List.drop_left' hlen]

/-- A fraction of a second is read back up to what is neither a digit nor a point. -/
theorem fraction_fractionText {n : Nat} (hn : n < 1000000000) {rest : Text}
    (hr : ∀ c ∈ rest.head?, c.isDigit = false ∧ c ≠ '.') :
    fraction (Instant.fractionText n ++ rest) = some (n, rest) := by
  have hd : ∀ c ∈ rest.head?, c.isDigit = false := fun c hc => (hr c hc).1
  unfold Instant.fractionText
  split
  · next h =>
    rw [List.nil_append, h]
    unfold fraction
    split
    · exact absurd rfl (hr _ rfl).2
    · rfl
  · split
    · next h =>
      have hlt : n / 1000000 < 1000 := by omega
      rw [List.cons_append, fraction_padded (by decide) (by decide) hlt hd]
      have heq : n / 1000000 * Decimal.capacity (9 - 3) = n := by
        show n / 1000000 * 1000000 = n
        omega
      rw [heq]
    · split
      · next h =>
        have hlt : n / 1000 < 1000000 := by omega
        rw [List.cons_append, fraction_padded (by decide) (by decide) hlt hd]
        have heq : n / 1000 * Decimal.capacity (9 - 6) = n := by
          show n / 1000 * 1000 = n
          omega
        rw [heq]
      · rw [List.cons_append, fraction_padded (by decide) (by decide) hn hd]
        have heq : n * Decimal.capacity (9 - 9) = n := by
          show n * 1 = n
          omega
        rw [heq]

/-! ### What scans have read -/

theorem bind_eq_some_iff {scan : Scan α} {next : α → Scan β} {text : Text} {result : β × Text} :
    (scan >>= next) text = some result ↔
      ∃ a rest, scan text = some (a, rest) ∧ next a rest = some result := by
  show (scan text).bind _ = some result ↔ _
  rw [Option.bind_eq_some_iff, Prod.exists]

theorem lift_eq_some_iff {result : Option α} {text : Text} {a : α} {rest : Text} :
    (liftM result : Scan α) text = some (a, rest) ↔ result = some a ∧ text = rest := by
  cases result with
  | none =>
    refine iff_of_false (fun h => ?_) (fun h => Option.some_ne_none a h.1.symm)
    exact Option.some_ne_none (a, rest) h.symm
  | some b =>
    show some (b, text) = some (a, rest) ↔ _
    rw [Option.some_inj, Option.some_inj, Prod.mk.injEq]

/-- Numerals of one length have only so many numbers. -/
theorem lt_capacity_of_number {width n : Nat} {text rest : Text}
    (h : number width width text = some (n, rest)) : n < Decimal.capacity width := by
  simp only [number] at h
  split at h
  · exact absurd h.symm (Option.some_ne_none _)
  · next hlength =>
    obtain ⟨rfl, -⟩ := Prod.mk.inj (Option.some.inj h)
    have hdigits : ∀ c ∈ (text.take width).takeWhile Char.isDigit, c.isDigit = true :=
      List.all_eq_true.1 List.all_takeWhile
    have hle := (List.takeWhile_sublist Char.isDigit (l := text.take width)).length_le
    rw [List.length_take] at hle
    have hwidth : ((text.take width).takeWhile Char.isDigit).length = width := by omega
    have hvalue := Decimal.value_lt_capacity hdigits
    rwa [hwidth] at hvalue

end Scan

/-! ### Dates -/

namespace Date

theorem month_lt (d : Date) : d.month < 100 := by
  have := d.exists_month
  omega

theorem day_lt_hundred (d : Date) : d.day < 100 := by
  have hlengths : ∀ n ∈ Calendar.monthLengths d.year, n ≤ 31 := by
    intro n hn
    simp only [Calendar.monthLengths, List.mem_cons, List.not_mem_nil, or_false] at hn
    split at hn <;> omega
  obtain ⟨hm, hd⟩ := d.day_lt
  rw [List.getD_eq_getElem?_getD, List.getElem?_eq_getElem hm, Option.getD_some] at hd
  have := hlengths _ (List.getElem_mem hm)
  omega

theorem of?_self (d : Date) : of? d.year d.month d.day = some d :=
  dif_pos ⟨d.exists_year, d.exists_month, d.exists_day⟩

/-- A date is read back from the front of a text. -/
theorem scan_text (d : Date) (rest : Text) : scan (d.text ++ rest) = some (d, rest) := by
  have htext : d.text ++ rest = Calendar.yearText d.year ++ '-' ::
      (Decimal.padded 2 d.month ++ '-' :: (Decimal.padded 2 d.day ++ rest)) := by
    simp only [text, List.append_assoc, List.cons_append]
  rw [htext, scan, Scan.bind_eq (Scan.year_yearText d.year _), Scan.bind_eq (Scan.char_cons '-' _),
    Scan.bind_eq (Scan.short_padded d.month_lt _), Scan.bind_eq (Scan.char_cons '-' _),
    Scan.bind_eq (Scan.short_padded d.day_lt_hundred _)]
  exact Scan.lift_eq d.of?_self rest

/-- A date is read back from its text, whatever its year. -/
theorem read?_text (d : Date) : read? d.text = some d := by
  have h := d.scan_text []
  rw [List.append_nil] at h
  rw [read?, Scan.whole?, h]

/-- In the years 0 to 9999 a date begins with the four digits of its year. -/
theorem text_of_year {d : Date} (h : 0 ≤ d.year ∧ d.year ≤ 9999) :
    d.text = Decimal.padded 4 d.year.natAbs ++
      '-' :: (Decimal.padded 2 d.month ++ '-' :: Decimal.padded 2 d.day) := by
  simp only [text, Calendar.yearText, if_pos h, List.append_assoc, List.cons_append]

/-- Outside the years 0 to 9999 a date begins with a sign. -/
theorem exists_sign_text {d : Date} (h : ¬ (0 ≤ d.year ∧ d.year ≤ 9999)) :
    ∃ rest, d.text = (if d.year < 0 then '-' else '+') :: (Decimal.padded 4 d.year.natAbs ++
      '-' :: rest) := by
  refine ⟨Decimal.padded 2 d.month ++ '-' :: Decimal.padded 2 d.day, ?_⟩
  simp only [text, Calendar.yearText, if_neg h, List.append_assoc, List.cons_append]

end Date

/-! ### Instants -/

namespace Instant

/-- The seconds since the start of the day in universal time. -/
def secondOfDay (i : Instant) : Nat := (i.second % 86400).toNat

theorem secondOfDay_lt (i : Instant) : i.secondOfDay < 86400 := by
  unfold secondOfDay
  omega

/-- Date and second of the day make up the second. -/
theorem number_date (i : Instant) : i.date.number * 86400 + i.secondOfDay = i.second := by
  rw [date, Date.number_ofNumber]
  unfold secondOfDay
  omega

/-- The parts of an instant, up to what designates universal time. -/
theorem dateTimeText_append (i : Instant) (zone : Text) :
    i.dateTimeText ++ zone = i.date.text ++ 'T' :: (Decimal.padded 2 (i.secondOfDay / 3600) ++
      ':' :: (Decimal.padded 2 (i.secondOfDay / 60 % 60) ++
      ':' :: (Decimal.padded 2 (i.secondOfDay % 60 + i.nano / 1000000000) ++
      (fractionText (i.nano % 1000000000) ++ zone)))) := by
  simp only [dateTimeText, timeText, secondOfDay, List.append_assoc, List.cons_append]

theorem text_eq (i : Instant) :
    i.text = i.date.text ++ 'T' :: (Decimal.padded 2 (i.secondOfDay / 3600) ++
      ':' :: (Decimal.padded 2 (i.secondOfDay / 60 % 60) ++
      ':' :: (Decimal.padded 2 (i.secondOfDay % 60 + i.nano / 1000000000) ++
      (fractionText (i.nano % 1000000000) ++ "+00:00".toList)))) :=
  i.dateTimeText_append "+00:00".toList

end Instant

namespace Moment

/-- The parts of an instant in universal time make it up again, second 60 for a leap second. -/
theorem ofParts?_parts (i : Instant) :
    ofParts? i.date (i.secondOfDay / 3600) (i.secondOfDay / 60 % 60)
      (i.secondOfDay % 60 + i.nano / 1000000000) (i.nano % 1000000000) 0 =
      some (universal i) := by
  have hlt := i.secondOfDay_lt
  have hnano := i.nano_lt
  have hday := i.number_date
  have hsecond : i.second % 60 = (i.secondOfDay % 60 : Nat) := by omega
  have hleap : (i.secondOfDay % 60 + i.nano / 1000000000) / 60 = i.nano / 1000000000 := by omega
  have hstart : i.date.number * 86400 + ((i.secondOfDay / 3600 : Nat) : Int) * 3600 +
      ((i.secondOfDay / 60 % 60 : Nat) : Int) * 60 +
      ((i.secondOfDay % 60 + i.nano / 1000000000 - i.nano / 1000000000 : Nat) : Int) - 0 =
      i.second := by omega
  have hfraction : i.nano % 1000000000 + i.nano / 1000000000 * 1000000000 = i.nano := by omega
  rw [ofParts?, if_pos ⟨by omega, by omega, by omega⟩]
  simp only [hleap, hstart, hfraction, i.of?_self, Option.bind_eq_bind, Option.bind_some]
  exact dif_pos ⟨by decide, by simpa using i.second_mem⟩

/-- An instant is read back from its text if its year has four digits and no sign. -/
theorem read?_text (i : Instant) (h : 0 ≤ i.date.year ∧ i.date.year ≤ 9999) :
    read? i.text = some (universal i) := by
  have hlt := i.secondOfDay_lt
  have hnano := i.nano_lt
  have hday := i.number_date
  have hplus : ∀ c ∈ ("+00:00".toList).head?, c.isDigit = false ∧ c ≠ '.' := by
    intro c hc
    obtain rfl := Option.some.inj hc
    decide
  have hoffset : Scan.offset (Scan.char ':') "+00:00".toList = some (0, []) := by decide
  have hyear : ((i.date.year.natAbs : Nat) : Int) = i.date.year := by omega
  have hyear4 : i.date.year.natAbs < 10000 := by omega
  have hhour : i.secondOfDay / 3600 < 100 := by omega
  have hminute : i.secondOfDay / 60 % 60 < 100 := by omega
  have hsecond : i.secondOfDay % 60 + i.nano / 1000000000 < 100 := by omega
  have hscan : scan i.text = some (universal i, []) := by
    rw [i.text_eq, Date.text_of_year h]
    simp only [List.append_assoc, List.cons_append]
    rw [scan, Scan.bind_eq (Scan.number_padded (by decide) (by decide) hyear4 _),
      Scan.bind_eq (Scan.char_cons '-' _),
      Scan.bind_eq (Scan.number_padded (by decide) (by decide) i.date.month_lt _),
      Scan.bind_eq (Scan.char_cons '-' _),
      Scan.bind_eq (Scan.number_padded (by decide) (by decide) i.date.day_lt_hundred _),
      Scan.bind_eq (show Scan.oneOf ['T', 't', ' '] ('T' :: _) = some ((), _) from rfl),
      Scan.bind_eq (Scan.number_padded (by decide) (by decide) hhour _),
      Scan.bind_eq (Scan.char_cons ':' _),
      Scan.bind_eq (Scan.number_padded (by decide) (by decide) hminute _),
      Scan.bind_eq (Scan.char_cons ':' _),
      Scan.bind_eq (Scan.number_padded (by decide) (by decide) hsecond _),
      Scan.bind_eq (Scan.fraction_fractionText (by omega) hplus), Scan.bind_eq hoffset, hyear,
      Scan.bind_eq (Scan.lift_eq i.date.of?_self _)]
    exact Scan.lift_eq (ofParts?_parts i) []
  rw [read?, Scan.whole?, hscan]

/-- An instant of any year is read back from the text that records have. -/
theorem readRecord?_recordText (i : Instant) : readRecord? i.recordText = some (universal i) := by
  have hlt := i.secondOfDay_lt
  have hnano := i.nano_lt
  have hday := i.number_date
  have hzone : ∀ c ∈ (['Z'] : Text).head?, c.isDigit = false ∧ c ≠ '.' := by
    intro c hc
    obtain rfl := Option.some.inj hc
    decide
  have hhyphen := Scan.blanks_cons (c := '-') (by decide)
  have hcolon := Scan.blanks_cons (c := ':') (by decide)
  have hhour : i.secondOfDay / 3600 < 100 := by omega
  have hminute : i.secondOfDay / 60 % 60 < 100 := by omega
  have hsecond : i.secondOfDay % 60 + i.nano / 1000000000 < 100 := by omega
  have hscan : recordScan i.recordText = some (universal i, []) := by
    rw [Instant.recordText, i.dateTimeText_append, Date.text]
    simp only [List.append_assoc, List.cons_append]
    rw [recordScan, Scan.bind_eq (Scan.year_yearText i.date.year _), Scan.bind_eq (hhyphen _),
      Scan.bind_eq (Scan.char_cons '-' _), Scan.bind_eq (Scan.short_padded i.date.month_lt _),
      Scan.bind_eq (hhyphen _), Scan.bind_eq (Scan.char_cons '-' _),
      Scan.bind_eq (Scan.short_padded i.date.day_lt_hundred _),
      Scan.bind_eq (show Scan.oneOf ['T', 't', ' '] ('T' :: _) = some ((), _) from rfl),
      Scan.bind_eq (Scan.short_padded hhour _), Scan.bind_eq (hcolon _),
      Scan.bind_eq (Scan.char_cons ':' _), Scan.bind_eq (Scan.short_padded hminute _),
      Scan.bind_eq (hcolon _), Scan.bind_eq (Scan.char_cons ':' _),
      Scan.bind_eq (Scan.short_padded hsecond _),
      Scan.bind_eq (Scan.fraction_fractionText (by omega) hzone),
      Scan.bind_eq (Scan.blanks_cons (c := 'Z') (by decide) []),
      Scan.bind_eq (show recordOffset ['Z'] = some (0, []) from rfl),
      Scan.bind_eq (show Scan.blanks [] = some ((), []) from rfl),
      Scan.bind_eq (Scan.lift_eq i.date.of?_self _)]
    exact Scan.lift_eq (ofParts?_parts i) []
  rw [readRecord?, Scan.whole?, hscan]

/-- A text with a sign for the year is not in the strict format. -/
theorem read?_sign {c : Char} (h : c.isDigit = false) (rest : Text) : read? (c :: rest) = none := by
  have hyear : Scan.number 4 4 (c :: rest) = none := by
    simp only [Scan.number, List.take_succ_cons, List.takeWhile_cons, h, if_neg Bool.false_ne_true,
      List.length_nil, if_pos (by decide : 0 < 4)]
  rw [read?, Scan.whole?, scan, Scan.bind_none hyear]

/-- An instant is not read back from its text if its year takes a sign. -/
theorem read?_text_of_sign (i : Instant) (h : ¬ (0 ≤ i.date.year ∧ i.date.year ≤ 9999)) :
    read? i.text = none := by
  obtain ⟨rest, hd⟩ := Date.exists_sign_text h
  rw [i.text_eq, hd, List.cons_append]
  apply read?_sign
  split <;> rfl

/-! ### Local dates of moments that are read -/

/-- A moment has the date that it is put together from, since the time of day stays below a day. -/
theorem localDate_of_ofParts? {d : Date} {hour minute second nano : Nat} {offset : Int}
    {moment : Moment} (h : ofParts? d hour minute second nano offset = some moment) :
    moment.localDate = d := by
  unfold ofParts? at h
  split at h
  · next htime =>
    obtain ⟨instant, hinstant, hmoment⟩ := Option.bind_eq_some_iff.1 h
    have hsecond := (Instant.eq_of_of? hinstant).1
    obtain ⟨rfl, rfl⟩ := eq_of_of? hmoment
    rw [← Date.number_inj, number_localDate, hsecond]
    omega
  · exact absurd h.symm (Option.some_ne_none _)

/-- A moment that is read in the strict format has a local date with four digits for its year. -/
theorem year_of_read? {text : Text} {moment : Moment} (h : read? text = some moment) :
    0 ≤ moment.localDate.year ∧ moment.localDate.year ≤ 9999 := by
  have hscan : scan text = some (moment, []) := by
    unfold read? Scan.whole? at h
    split at h
    · next hscan => rw [hscan, Option.some.inj h]
    · exact absurd h.symm (Option.some_ne_none _)
  unfold scan at hscan
  simp only [Scan.bind_eq_some_iff] at hscan
  obtain ⟨year, _, hyear, _, _, -, month, _, -, _, _, -, day, _, -, _, _, -, hour, _, -, _, _, -,
    minute, _, -, _, _, -, second, _, -, nano, _, -, offset, _, -, d, _, hdate, hparts⟩ := hscan
  have hlt : year < 10000 := Scan.lt_capacity_of_number hyear
  have hd := (Date.eq_of_of? (Scan.lift_eq_some_iff.1 hdate).1).1
  rw [localDate_of_ofParts? (Scan.lift_eq_some_iff.1 hparts).1, hd]
  omega

end Moment

/-- The text of an instant goes on after its date, so it is not one of a date. -/
theorem Date.read?_instant (i : Instant) : read? i.text = none := by
  rw [i.text_eq, read?, Scan.whole?, scan_text]

end Triage
