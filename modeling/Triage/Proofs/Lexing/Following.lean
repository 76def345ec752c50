import Triage.Proofs.LetterCase
import Triage.Proofs.Lexing.Yields

/-! What follows a lexeme.

A lexeme looks past its own end in two ways only: a word goes on as long as word
characters follow, and behind the word `sort` the word `by` is looked for past the blanks.
So what follows a lexeme may be replaced by any text that breaks a word and does not bring
`by` (`Lexeme.Reads.transfer`). -/
namespace Triage

/-! ### Where a word ends -/

/-- A text that neither goes on with a word that stands before it nor begins with a blank. -/
def Closes (rest : Text) : Prop :=
  ∀ c ∈ rest.head?, Text.isWordChar c = false ∧ Text.isBlank c = false

theorem Closes.breaks {rest : Text} (h : Closes rest) : Breaks rest := fun c hc => (h c hc).1

theorem closes_nil : Closes [] := by
  intro c hc
  exact absurd hc (by simp)

theorem closes_cons {c : Char} (hw : Text.isWordChar c = false) (hb : Text.isBlank c = false)
    (rest : Text) : Closes (c :: rest) := by
  intro d hd
  obtain rfl := Option.some.inj hd
  exact ⟨hw, hb⟩

theorem closes_rightParen (rest : Text) : Closes (')' :: rest) :=
  closes_cons (by decide) (by decide) rest

/-- A text whose last character stands in a word. -/
def EndsInWord (text : Text) : Prop := ∃ c ∈ text.getLast?, Text.isWordChar c = true

theorem endsInWord_append {word : Text} (hne : word ≠ []) (hw : word.all Text.isWordChar = true)
    (before : Text) : EndsInWord (before ++ word) := by
  refine ⟨word.getLast hne, ?_, List.all_eq_true.1 hw _ (List.getLast_mem hne)⟩
  rw [List.getLast?_append_of_ne_nil _ hne, List.getLast?_eq_getLast_of_ne_nil hne]
  rfl

theorem EndsInWord.append {text : Text} (h : EndsInWord text) (before : Text) :
    EndsInWord (before ++ text) := by
  obtain ⟨c, hc, hw⟩ := h
  refine ⟨c, ?_, hw⟩
  rw [List.getLast?_append, Option.mem_def.1 hc]
  rfl

theorem breaks_iff {rest : Text} : Breaks rest ↔ rest.takeWhile Text.isWordChar = [] := by
  refine ⟨takeWhile_of_head, fun h c hc => ?_⟩
  cases rest with
  | nil => exact absurd hc (by simp)
  | cons d rest =>
    obtain rfl := Option.some.inj hc
    by_contra hw
    rw [List.takeWhile_cons_of_pos (by simpa using hw)] at h
    exact List.cons_ne_nil _ _ h

theorem breaks_dropWhile (text : Text) : Breaks (text.dropWhile Text.isWordChar) := by
  rw [breaks_iff]
  induction text with
  | nil => rfl
  | cons c text ih =>
    cases hc : Text.isWordChar c with
    | true => rwa [List.dropWhile_cons_of_pos hc]
    | false =>
      rw [List.dropWhile_cons_of_neg (by simp [hc]), List.takeWhile_cons_of_neg (by simp [hc])]

theorem Breaks.append {a b : Text} (ha : Breaks a) (hb : Breaks b) : Breaks (a ++ b) := by
  cases a with
  | nil => exact hb
  | cons c a => exact ha

theorem Breaks.of_append {a b : Text} (h : Breaks (a ++ b)) : Breaks a := by
  cases a with
  | nil => exact breaks_nil
  | cons c a => exact h

/-- The word at the front of a text, past its blanks. -/
def Text.firstWord (text : Text) : Text := (text.dropWhile isBlank).takeWhile isWordChar

section TakeWhile

variable {q : Char → Bool} {a b : Text}

/-- What is taken from the front of two texts and is no longer than the first is taken from the
first alone. -/
theorem takeWhile_append_of_length_le (h : ((a ++ b).takeWhile q).length ≤ a.length) :
    (a ++ b).takeWhile q = a.takeWhile q := by
  induction a with
  | nil => exact List.eq_nil_of_length_eq_zero (Nat.le_zero.1 h)
  | cons c a ih =>
    rw [List.cons_append, List.takeWhile_cons] at h ⊢
    rw [List.takeWhile_cons]
    cases hc : q c with
    | true =>
      rw [hc] at h
      exact congrArg (c :: ·) (ih (Nat.le_of_succ_le_succ h))
    | false => rfl

theorem dropWhile_append_of_takeWhile_eq (h : (a ++ b).takeWhile q = a.takeWhile q) :
    (a ++ b).dropWhile q = a.dropWhile q ++ b := by
  have hab := List.takeWhile_append_dropWhile (p := q) (l := a ++ b)
  have ha := List.takeWhile_append_dropWhile (p := q) (l := a)
  rw [h] at hab
  refine List.append_cancel_left (hab.trans ?_)
  rw [← List.append_assoc, ha]

end TakeWhile

/-- Behind a text that is not blank its first word stays, in front of what breaks a word. -/
theorem Text.firstWord_append {more : Text} (hm : Breaks more) (text : Text) :
    firstWord (text ++ more) =
      if (text.dropWhile isBlank).isEmpty then firstWord more else firstWord text := by
  unfold firstWord
  rw [List.dropWhile_append]
  split
  · rfl
  · exact takeWhile_append_of_head hm _

namespace Lexeme

/-! ### The word `by` -/

theorem all_isWordChar_of_by {word : Text} (h : Text.equalAsciiCase word "by".toList = true) :
    word ≠ [] ∧ word.all Text.isWordChar = true := by
  have hletters := Text.equalAsciiCase_iff.1 h
  refine ⟨?_, ?_⟩
  · rintro rfl
    cases hletters
  · rw [hletters.all_eq Text.ignoresCase_isWordChar]
    decide

/-- What `by` is looked for in: the blanks at the front of a text, and the word behind them. -/
theorem byLength?_eq_firstWord (rest : Text) :
    byLength? rest =
      if !(rest.takeWhile Text.isBlank).isEmpty &&
          Text.equalAsciiCase rest.firstWord "by".toList then
        some ((rest.takeWhile Text.isBlank).length + rest.firstWord.length)
      else none := by
  have hdrop : (rest.takeWhile Text.isBlank ++ rest.dropWhile Text.isBlank).drop
      (rest.takeWhile Text.isBlank).length = rest.dropWhile Text.isBlank := List.drop_left
  rw [List.takeWhile_append_dropWhile] at hdrop
  simp only [byLength?, hdrop, Text.firstWord]
  rfl

/-- Behind a word `by` does not follow if the next word is another one. -/
theorem byLength?_eq_none_iff {rest : Text} (h : Breaks rest) :
    byLength? rest = none ↔ Text.equalAsciiCase rest.firstWord "by".toList = false := by
  rw [byLength?_eq_firstWord]
  cases rest with
  | nil => decide
  | cons c rest =>
    cases hb : Text.isBlank c with
    | true =>
      rw [List.takeWhile_cons_of_pos hb]
      cases Text.equalAsciiCase (Text.firstWord (c :: rest)) "by".toList <;> simp
    | false =>
      have hw : Text.firstWord (c :: rest) = [] := by
        rw [Text.firstWord, List.dropWhile_cons_of_neg (by simp [hb])]
        exact breaks_iff.1 h
      simp [hw, hb, Text.equalAsciiCase]

/-- Blanks and then the word `by`. -/
def BringsBy (text : Text) : Prop :=
  ∃ gap word, text = gap ++ word ∧ gap ≠ [] ∧ gap.all Text.isBlank = true ∧
    Text.equalAsciiCase word "by".toList = true

/-- `by` is found at the length of a text if the text brings it and a break follows. -/
theorem byLength?_eq_length_iff {text after : Text} :
    byLength? (text ++ after) = some text.length ↔ BringsBy text ∧ Breaks after := by
  constructor
  · intro h
    have hgap := List.takeWhile_append_dropWhile (p := Text.isBlank) (l := text ++ after)
    have hword := List.takeWhile_append_dropWhile (p := Text.isWordChar)
      (l := (text ++ after).dropWhile Text.isBlank)
    rw [← hword, ← List.append_assoc] at hgap
    rw [byLength?_eq_firstWord] at h
    split at h
    · next hby =>
      obtain ⟨hne, hby⟩ := Bool.and_eq_true_iff.1 hby
      obtain ⟨htext, hafter⟩ := List.append_inj hgap
        (List.length_append.trans (Option.some.inj h))
      refine ⟨⟨_, _, htext.symm, by simpa using hne, List.all_takeWhile, hby⟩, ?_⟩
      rw [← hafter]
      exact breaks_dropWhile _
    · cases h
  · intro h
    obtain ⟨⟨gap, word, rfl, hne, hgap, hby⟩, hafter⟩ := h
    obtain ⟨hword, hall⟩ := all_isWordChar_of_by hby
    have hhead : ∀ c ∈ (word ++ after).head?, Text.isBlank c = false := by
      cases word with
      | nil => exact absurd rfl hword
      | cons d word =>
        intro c hc
        obtain rfl := Option.some.inj hc
        exact Text.isBlank_of_isWordChar (Bool.and_eq_true_iff.1 (List.all_cons.symm.trans hall)).1
    have htake : (gap ++ (word ++ after)).takeWhile Text.isBlank = gap := by
      rw [List.takeWhile_append_of_pos (List.all_eq_true.1 hgap), takeWhile_of_head hhead,
        List.append_nil]
    rw [List.append_assoc, byLength?, htake, List.drop_left, takeWhile_word hall hafter, hby,
      List.length_append]
    simp [hne]

variable {rest more : Text} {n : Nat}

/-- The word `by` does not begin behind a text if neither a word nor a blank does. -/
theorem byLength?_append (hm : Closes more) (rest : Text) :
    byLength? (rest ++ more) = byLength? rest := by
  have hblanks : (rest ++ more).takeWhile Text.isBlank = rest.takeWhile Text.isBlank :=
    takeWhile_append_of_head (fun c hc => (hm c hc).2) rest
  have hlength : (rest.takeWhile Text.isBlank).length ≤ rest.length :=
    (List.takeWhile_sublist _).length_le
  have hword := takeWhile_append_of_head hm.breaks (rest.drop (rest.takeWhile Text.isBlank).length)
  simp only [byLength?, hblanks, List.drop_append_of_le_length hlength, hword]

/-- The text that brings `by`, if it is there, brings it in front of another text as well. -/
theorem byLength?_transfer {text after : Text} (h : (byLength? (text ++ after)).getD 0 = text.length)
    (hm : Breaks more) (hby : byLength? after = none → byLength? more = none) :
    byLength? (text ++ after) = byLength? (text ++ more) := by
  cases hb : byLength? (text ++ after) with
  | none =>
    rw [hb, Option.getD_none] at h
    obtain rfl := List.eq_nil_of_length_eq_zero h.symm
    exact (hby hb).symm
  | some n =>
    rw [hb, Option.getD_some] at h
    rw [h] at hb ⊢
    exact (byLength?_eq_length_iff.2 ⟨(byLength?_eq_length_iff.1 hb).1, hm⟩).symm

/-- What follows a word matters to `sort` only. -/
theorem ofWord_congr {word rest other : Text}
    (h : word.lower = "sort".toList → byLength? rest = byLength? other) :
    ofWord word rest = ofWord word other := by
  by_cases hs : word.lower = "sort".toList
  · simp only [ofWord, h hs]
  · simp only [ofWord, hs, if_false]

theorem length_ofWord_of_ne {word : Text} (h : word.lower ≠ "sort".toList) (rest : Text) :
    (ofWord word rest).length = word.length := by
  simp only [ofWord, h, if_false]
  repeat' split
  all_goals rfl

theorem length_ofWord_of_eq {word : Text} (h : word.lower = "sort".toList) (rest : Text) :
    (ofWord word rest).length = word.length + (byLength? rest).getD 0 := by
  simp only [ofWord, h]
  cases byLength? rest <;> rfl

theorem length_word_le_ofWord (word rest : Text) : word.length ≤ (ofWord word rest).length := by
  by_cases h : word.lower = "sort".toList
  · rw [length_ofWord_of_eq h]
    exact Nat.le_add_right _ _
  · rw [length_ofWord_of_ne h]

/-! ### Closing quotes and braces -/

variable {t : Text}

/-- A character is no backslash if it is neither one at the end nor one before a character. -/
theorem ne_backslash {c : Char} {rest : Text} (hlast : c = '\\' → rest = [] → False)
    (hpair : ∀ d more, c = '\\' → rest = d :: more → False) : c ≠ '\\' := by
  intro hb
  cases rest with
  | nil => exact hlast hb rfl
  | cons d more => exact hpair d more hb rfl

theorem closeQuote_append (h : closeQuote rest = some (n, t)) (more : Text) :
    closeQuote (rest ++ more) = some (n, t) := by
  fun_induction closeQuote rest generalizing n t with
  | case1 => exact absurd h (by simp)
  | case2 => exact h
  | case3 => exact absurd h (by simp)
  | case4 c rest ih =>
    obtain ⟨⟨m, u⟩, hm, heq⟩ := Option.map_eq_some_iff.1 h
    rw [List.cons_append, List.cons_append, closeQuote, ih hm]
    exact congrArg some heq
  | case5 c rest hq hlast hpair ih =>
    have hb := ne_backslash hlast hpair
    obtain ⟨⟨m, u⟩, hm, heq⟩ := Option.map_eq_some_iff.1 h
    rw [List.cons_append, closeQuote_cons hq hb, ih hm]
    exact congrArg some heq

theorem closeBrace_append (h : closeBrace rest = some (n, t)) (more : Text) :
    closeBrace (rest ++ more) = some (n, t) := by
  fun_induction closeBrace rest generalizing n t with
  | case1 => exact absurd h (by simp)
  | case2 => exact h
  | case3 c rest hc ih =>
    obtain ⟨⟨m, u⟩, hm, heq⟩ := Option.map_eq_some_iff.1 h
    rw [List.cons_append, closeBrace, ih hm]
    · exact congrArg some heq
    · exact hc

theorem length_pos_of_closeQuote (h : closeQuote rest = some (n, t)) : 0 < n := by
  fun_induction closeQuote rest with
  | case1 | case3 => exact absurd h (by simp)
  | case2 =>
    obtain ⟨rfl, -⟩ := Prod.mk.inj (Option.some.inj h)
    exact Nat.one_pos
  | case4 | case5 =>
    obtain ⟨⟨m, u⟩, -, heq⟩ := Option.map_eq_some_iff.1 h
    obtain ⟨rfl, -⟩ := Prod.mk.inj heq
    exact Nat.succ_pos _

theorem length_pos_of_closeBrace (h : closeBrace rest = some (n, t)) : 0 < n := by
  fun_induction closeBrace rest with
  | case1 => exact absurd h (by simp)
  | case2 =>
    obtain ⟨rfl, -⟩ := Prod.mk.inj (Option.some.inj h)
    exact Nat.one_pos
  | case3 =>
    obtain ⟨⟨m, u⟩, -, heq⟩ := Option.map_eq_some_iff.1 h
    obtain ⟨rfl, -⟩ := Prod.mk.inj heq
    exact Nat.succ_pos _

/-- A closing quote that stands in the first part of a text is found there. -/
theorem closeQuote_of_append (h : closeQuote (rest ++ more) = some (n, t)) (hn : n ≤ rest.length) :
    closeQuote rest = some (n, t) := by
  fun_induction closeQuote rest generalizing n t with
  | case1 => exact absurd hn (Nat.not_le.2 (length_pos_of_closeQuote h))
  | case2 => exact h
  | case3 =>
    cases more with
    | nil => exact absurd h (by simp [closeQuote])
    | cons d more =>
      obtain ⟨⟨m, u⟩, hm, heq⟩ := Option.map_eq_some_iff.1 h
      obtain ⟨rfl, -⟩ := Prod.mk.inj heq
      exact absurd hn (by simp)
  | case4 c rest ih =>
    obtain ⟨⟨m, u⟩, hm, heq⟩ := Option.map_eq_some_iff.1 h
    obtain ⟨rfl, -⟩ := Prod.mk.inj heq
    rw [ih hm (by simpa using hn)]
    exact congrArg some heq
  | case5 c rest hq hlast hpair ih =>
    rw [List.cons_append, closeQuote_cons hq (ne_backslash hlast hpair)] at h
    obtain ⟨⟨m, u⟩, hm, heq⟩ := Option.map_eq_some_iff.1 h
    obtain ⟨rfl, -⟩ := Prod.mk.inj heq
    rw [ih hm (by simpa using hn)]
    exact congrArg some heq

theorem closeBrace_of_append (h : closeBrace (rest ++ more) = some (n, t)) (hn : n ≤ rest.length) :
    closeBrace rest = some (n, t) := by
  fun_induction closeBrace rest generalizing n t with
  | case1 => exact absurd hn (Nat.not_le.2 (length_pos_of_closeBrace h))
  | case2 => exact h
  | case3 c rest hc ih =>
    rw [List.cons_append, closeBrace] at h
    · obtain ⟨⟨m, u⟩, hm, heq⟩ := Option.map_eq_some_iff.1 h
      obtain ⟨rfl, -⟩ := Prod.mk.inj heq
      rw [ih hm (by simpa using hn)]
      exact congrArg some heq
    · exact hc

/-! ### Lexemes -/

variable {c : Char} {tail after : Text} {lexeme : Lexeme}

theorem isWordChar_of_mem_marks {kind : Token.Kind} (h : (c, kind) ∈ marks) :
    Text.isWordChar c = false := by
  have hmarks : ∀ mark ∈ marks, Text.isWordChar mark.1 = false := by decide
  exact hmarks _ h

/-- A lexeme takes up the word at the front of the text. -/
theorem Reads.length_word_le {rest : Text} (h : Reads c rest lexeme) :
    ((c :: rest).takeWhile Text.isWordChar).length ≤ lexeme.length := by
  cases hw : Text.isWordChar c with
  | false =>
    rw [List.takeWhile_cons_of_neg (by simp [hw])]
    exact Nat.zero_le _
  | true =>
    rw [List.takeWhile_cons_of_pos hw]
    cases h with
    | mark hm => exact absurd hw (by simp [isWordChar_of_mem_marks hm])
    | dots | quoted _ | braced _ => exact absurd hw (by decide)
    | numeral _ _ => rw [length_ofNumeral]
    | word _ _ _ => exact length_word_le_ofWord _ _

/-- A word that takes up the first of two texts ends there. -/
theorem breaks_of_takeWhile_length
    (h : ((tail ++ after).takeWhile Text.isWordChar).length = tail.length) :
    tail.all Text.isWordChar = true ∧ Breaks after := by
  have htake := takeWhile_append_of_length_le (Nat.le_of_eq h)
  rw [htake] at h
  have hall : tail.takeWhile Text.isWordChar = tail :=
    (List.takeWhile_sublist _).eq_of_length h
  have htail : tail.all Text.isWordChar = true := by
    rw [← hall]
    exact List.all_takeWhile
  refine ⟨htail, breaks_iff.2 ?_⟩
  rw [List.takeWhile_append_of_pos (List.all_eq_true.1 htail), hall] at htake
  exact List.append_cancel_left (htake.trans (List.append_nil tail).symm)

/-- If `by` follows the word of a text and reaches to its end, the text ends with what brings it. -/
theorem bringsBy_of_length (h : byLength? ((tail ++ after).dropWhile Text.isWordChar) = some n)
    (hn : ((tail ++ after).takeWhile Text.isWordChar).length + n = tail.length) :
    BringsBy (tail.dropWhile Text.isWordChar) ∧ Breaks after ∧
      n = (tail.dropWhile Text.isWordChar).length := by
  have htake : (tail ++ after).takeWhile Text.isWordChar = tail.takeWhile Text.isWordChar :=
    takeWhile_append_of_length_le (by omega)
  have hlength := length_takeWhile_add_dropWhile Text.isWordChar tail
  obtain rfl : n = (tail.dropWhile Text.isWordChar).length := by
    rw [htake] at hn
    omega
  rw [dropWhile_append_of_takeWhile_eq htake, byLength?_eq_length_iff] at h
  exact ⟨h.1, h.2, rfl⟩

/-- A lexeme that begins in a word ends in a word, and a break follows. -/
theorem Reads.endsInWord (h : Reads c (tail ++ after) lexeme)
    (hlen : lexeme.length = (c :: tail).length) (hw : Text.isWordChar c = true) :
    EndsInWord (c :: tail) ∧ Breaks after := by
  have hwhole : ((tail ++ after).takeWhile Text.isWordChar).length = tail.length →
      EndsInWord (c :: tail) ∧ Breaks after := by
    intro htake
    obtain ⟨htail, hafter⟩ := breaks_of_takeWhile_length htake
    refine ⟨endsInWord_append (List.cons_ne_nil c tail) ?_ [], hafter⟩
    rw [List.all_cons, hw, htail, Bool.and_self]
  generalize hfull : tail ++ after = full at h hwhole
  cases h with
  | mark hm => exact absurd hw (by simp [isWordChar_of_mem_marks hm])
  | dots | quoted _ | braced _ => exact absurd hw (by decide)
  | numeral _ _ =>
    rw [length_ofNumeral] at hlen
    exact hwhole (Nat.succ.inj hlen)
  | word _ _ _ =>
    by_cases hs : Text.lower (c :: full.takeWhile Text.isWordChar) = "sort".toList
    · rw [length_ofWord_of_eq hs] at hlen
      cases hb : byLength? (full.dropWhile Text.isWordChar) with
      | none =>
        rw [hb] at hlen
        exact hwhole (Nat.succ.inj hlen)
      | some n =>
        rw [hb, List.length_cons, List.length_cons, Nat.add_right_comm] at hlen
        subst hfull
        obtain ⟨⟨gap, word, hby, -, -, hword⟩, hafter, -⟩ :=
          bringsBy_of_length hb (Nat.succ.inj hlen)
        obtain ⟨hne, hall⟩ := all_isWordChar_of_by hword
        have htail := List.takeWhile_append_dropWhile (p := Text.isWordChar) (l := tail)
        rw [← htail, hby, ← List.append_assoc, ← List.cons_append]
        exact ⟨endsInWord_append hne hall _, hafter⟩
    · rw [length_ofWord_of_ne hs] at hlen
      exact hwhole (Nat.succ.inj hlen)

/-- **What follows a lexeme may be replaced.** Behind a lexeme that ends in a word another text may
stand instead if it breaks the word and does not bring `by` where it was not. -/
theorem Reads.transfer (h : Reads c (tail ++ after) lexeme)
    (hlen : lexeme.length = (c :: tail).length)
    (hm : EndsInWord (c :: tail) → Breaks after →
      Breaks more ∧ (byLength? after = none → byLength? more = none)) :
    Reads c (tail ++ more) lexeme := by
  have hwordly : Text.isWordChar c = true →
      Breaks after ∧ Breaks more ∧ (byLength? after = none → byLength? more = none) := by
    intro hw
    obtain ⟨hend, hafter⟩ := h.endsInWord hlen hw
    exact ⟨hafter, hm hend hafter⟩
  generalize hfull : tail ++ after = full at h
  cases h with
  | mark hk => exact .mark hk
  | dots =>
    cases tail with
    | nil => cases hlen
    | cons d tail =>
      obtain ⟨rfl, -⟩ := List.cons.inj hfull
      exact .dots
  | quoted hc =>
    rw [← hfull] at hc
    have hn := Nat.le_of_eq (Nat.succ.inj hlen)
    exact .quoted (closeQuote_append (closeQuote_of_append hc hn) more)
  | braced hc =>
    rw [← hfull] at hc
    have hn := Nat.le_of_eq (Nat.succ.inj hlen)
    exact .braced (closeBrace_append (closeBrace_of_append hc hn) more)
  | numeral hw hn =>
    obtain ⟨hafter, hmore, -⟩ := hwordly hw
    rw [← hfull] at hn ⊢
    have hn' : c.isDigit = true ∨ c = '-' ∧ (tail ++ more).head?.any Char.isDigit = true := by
      refine hn.imp_right fun ⟨hs, hd⟩ => ⟨hs, ?_⟩
      cases tail with
      | nil =>
        cases after with
        | nil => exact Bool.noConfusion hd
        | cons d after => exact absurd (Text.isWordChar_of_isDigit hd) (by simp [hafter d rfl])
      | cons d tail => exact hd
    rw [takeWhile_append_of_head hafter, ← takeWhile_append_of_head hmore]
    exact .numeral hw hn'
  | word hw hd hs =>
    obtain ⟨hafter, hmore, hby⟩ := hwordly hw
    have hread : Reads c (tail ++ more) _ := .word hw hd hs
    rw [takeWhile_append_of_head hmore, dropWhile_append_of_head hmore] at hread
    rw [← hfull] at hlen ⊢
    rw [takeWhile_append_of_head hafter, dropWhile_append_of_head hafter] at hlen ⊢
    have hsplit := length_takeWhile_add_dropWhile Text.isWordChar tail
    have hsame : ofWord (c :: tail.takeWhile Text.isWordChar)
        (tail.dropWhile Text.isWordChar ++ after) =
          ofWord (c :: tail.takeWhile Text.isWordChar)
            (tail.dropWhile Text.isWordChar ++ more) := by
      refine ofWord_congr fun hsort => byLength?_transfer ?_ hmore hby
      rw [length_ofWord_of_eq hsort, List.length_cons, List.length_cons] at hlen
      omega
    rw [hsame]
    exact hread

/-- The characters of a lexeme at the front of a text. -/
theorem Reads.exists_tail {full text : Text} (h : Reads c full lexeme)
    (hle : lexeme.length ≤ (c :: text).length) :
    ∃ tail, lexeme.length = (c :: tail).length ∧
      text = tail ++ (c :: text).drop lexeme.length := by
  obtain ⟨k, hk⟩ := Nat.exists_eq_add_of_lt (length_pos_of_read h.read_eq)
  rw [hk, Nat.zero_add] at hle ⊢
  refine ⟨text.take k, ?_, ?_⟩
  · rw [List.length_cons, List.length_take, Nat.min_eq_left (Nat.le_of_succ_le_succ hle)]
  · rw [List.drop_succ_cons, List.take_append_drop]

end Lexeme
end Triage
