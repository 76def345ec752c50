import Triage.Token.Lexer
import Triage.Value

/-! How written text splits into tokens.

`Splits` says that a piece of text makes a row of tokens where it stands, whatever
comes after the text that follows it. Pieces put together split into their tokens
put together (`Splits.append`), so a text is split piece by piece: marks, blanks,
words, numbers and quoted texts. Only a word asks something of what follows, that
it does not go on with the word (`Breaks`). -/
namespace Triage

/-! ### Characters -/

namespace Text

/-- What is found true of the characters of a text one by one is true of each. -/
theorem forall_mem {P : Char → Prop} [DecidablePred P] {t : Text}
    (h : t.all (fun c => decide (P c)) = true) : ∀ c ∈ t, P c := by
  intro c hc
  exact of_decide_eq_true (List.all_eq_true.1 h c hc)

/-- The code points of the blanks one by one. -/
def blankCodes : List Nat :=
  [9, 10, 11, 12, 13, 32, 133, 160, 5760, 8192, 8193, 8194, 8195, 8196, 8197, 8198, 8199, 8200,
   8201, 8202, 8232, 8233, 8239, 8287, 12288]

theorem mem_blankCodes {c : Char} (h : isBlank c = true) : c.toNat ∈ blankCodes := by
  simp only [isBlank, Edges.holds, blankEdges, Edges.within, Bool.not_false, Bool.and_true,
    Bool.not_and, Bool.not_not, Bool.not_or, Bool.and_eq_true, decide_eq_true_eq, Bool.or_eq_true,
    Bool.not_eq_eq_eq_not, Bool.not_true, decide_eq_false_iff_not, Nat.not_le] at h
  simp only [blankCodes, List.mem_cons, List.not_mem_nil, or_false]
  omega

/-- No blank stands in a word. -/
theorem isBlank_of_isWordChar {c : Char} (h : isWordChar c = true) : isBlank c = false := by
  have hcodes : ∀ n ∈ blankCodes, isWordChar (Char.ofNat n) = false := by decide +kernel
  rw [Bool.eq_false_iff]
  intro hb
  have hc := hcodes c.toNat (mem_blankCodes hb)
  rw [Char.ofNat_toNat] at hc
  exact Bool.noConfusion (hc.symm.trans h)

theorem isWordChar_of_isDigit {c : Char} (h : c.isDigit = true) : isWordChar c = true := by
  have hcodes : ∀ n < 58, 48 ≤ n → Edges.within letterEdges n = true := by decide
  have hc : 48 ≤ c.toNat ∧ c.toNat < 58 := by
    simp only [Char.isDigit, Bool.and_eq_true, decide_eq_true_eq, ge_iff_le,
      UInt32.le_iff_toNat_le] at h
    exact ⟨h.1, Nat.lt_succ_of_le h.2⟩
  simp [isWordChar, isAlphanumeric, Edges.holds, hcodes c.toNat hc.2 hc.1]

end Text

/-- Nothing is taken from the front of a text while a test holds that fails there. -/
theorem takeWhile_of_head {p : Char → Bool} {rest : Text} (h : ∀ c ∈ rest.head?, p c = false) :
    rest.takeWhile p = [] := by
  cases rest with
  | nil => rfl
  | cons c rest => rw [List.takeWhile_cons, h c rfl, if_neg Bool.false_ne_true]

theorem dropWhile_of_head {p : Char → Bool} {rest : Text} (h : ∀ c ∈ rest.head?, p c = false) :
    rest.dropWhile p = rest := by
  cases rest with
  | nil => rfl
  | cons c rest => rw [List.dropWhile_cons, h c rfl, if_neg Bool.false_ne_true]

/-- What is taken from the front of a text while a test holds is the same with more behind it that
fails the test. -/
theorem takeWhile_append_of_head {p : Char → Bool} {rest : Text}
    (h : ∀ c ∈ rest.head?, p c = false) (text : Text) :
    (text ++ rest).takeWhile p = text.takeWhile p := by
  induction text with
  | nil => exact takeWhile_of_head h
  | cons c text ih => rw [List.cons_append, List.takeWhile_cons, List.takeWhile_cons, ih]

theorem dropWhile_append_of_head {p : Char → Bool} {rest : Text}
    (h : ∀ c ∈ rest.head?, p c = false) (text : Text) :
    (text ++ rest).dropWhile p = text.dropWhile p ++ rest := by
  induction text with
  | nil => exact dropWhile_of_head h
  | cons c text ih =>
    rw [List.cons_append, List.dropWhile_cons, List.dropWhile_cons, ih]
    split <;> rfl

theorem length_takeWhile_add_dropWhile (p : Char → Bool) (text : Text) :
    (text.takeWhile p).length + (text.dropWhile p).length = text.length := by
  rw [← List.length_append, List.takeWhile_append_dropWhile]

/-- A text that does not go on with a word that stands before it. -/
def Breaks (rest : Text) : Prop := ∀ c ∈ rest.head?, Text.isWordChar c = false

theorem breaks_nil : Breaks [] := by
  intro c hc
  exact absurd hc (by simp)

theorem breaks_cons {c : Char} (h : Text.isWordChar c = false) (rest : Text) :
    Breaks (c :: rest) := by
  intro d hd
  rw [← Option.some.inj hd]
  exact h

/-! ### Steps of a cursor -/

namespace Cursor

theorem tokens_eq (cursor : Cursor) :
    cursor.tokens =
      match cursor.next with
      | (.error e, _) => .error e
      | (.ok token, after) =>
        if token.kind = .eof then .ok [token]
        else if token.kind = .error then
          .error (.unexpectedCharacter (token.lexeme.headD '\x00') token.position)
        else after.tokens.map (token :: ·) := by
  rw [tokens]
  split
  · next h => rw [h]
  · next h => simp only [h, dite_eq_ite]

/-- At the end stands the token of the end. -/
theorem tokens_nil (p : Nat) : tokens ⟨p, []⟩ = .ok [⟨.eof, [], p, none⟩] := by
  rw [tokens_eq]
  rfl

theorem skipBlanks_blank (p : Nat) {c : Char} (rest : Text) (h : Text.isBlank c = true) :
    skipBlanks ⟨p, c :: rest⟩ = skipBlanks ⟨p + 1, rest⟩ := by
  simp only [skipBlanks, advance, List.takeWhile_cons, h, if_true, List.length_cons,
    List.drop_succ_cons]
  rw [Nat.add_assoc, Nat.add_comm 1]

/-- Blanks are passed over. -/
theorem next_blank (p : Nat) {c : Char} (rest : Text) (h : Text.isBlank c = true) :
    next ⟨p, c :: rest⟩ = next ⟨p + 1, rest⟩ := by
  simp only [next, skipBlanks_blank p rest h]

theorem tokens_blank (p : Nat) {c : Char} (rest : Text) (h : Text.isBlank c = true) :
    tokens ⟨p, c :: rest⟩ = tokens ⟨p + 1, rest⟩ := by
  rw [tokens_eq, tokens_eq ⟨p + 1, rest⟩, next_blank p rest h]

theorem skipBlanks_of_not_isBlank (p : Nat) {c : Char} (rest : Text)
    (h : Text.isBlank c = false) : skipBlanks ⟨p, c :: rest⟩ = ⟨p, c :: rest⟩ := by
  simp [skipBlanks, advance, h]

theorem next_lexeme (p : Nat) {c : Char} {rest : Text} {lexeme : Lexeme}
    (hb : Text.isBlank c = false) (hr : Lexeme.read c rest = .ok lexeme) :
    next ⟨p, c :: rest⟩ =
      (.ok ⟨lexeme.kind, (c :: rest).take lexeme.length, p, lexeme.literal⟩,
        ⟨p + lexeme.length, (c :: rest).drop lexeme.length⟩) := by
  simp only [next, skipBlanks_of_not_isBlank p rest hb, hr, advance]

/-- A lexeme becomes a token, and splitting goes on behind it. -/
theorem tokens_lexeme (p : Nat) {c : Char} {rest : Text} {lexeme : Lexeme}
    (hb : Text.isBlank c = false) (hr : Lexeme.read c rest = .ok lexeme)
    (he : lexeme.kind ≠ .eof) (hn : lexeme.kind ≠ .error) :
    tokens ⟨p, c :: rest⟩ =
      (tokens ⟨p + lexeme.length, (c :: rest).drop lexeme.length⟩).map
        (⟨lexeme.kind, (c :: rest).take lexeme.length, p, lexeme.literal⟩ :: ·) := by
  rw [tokens_eq, next_lexeme p hb hr]
  simp only [he, hn, if_false]

/-- A character that begins no token is an error. -/
theorem tokens_error (p : Nat) {c : Char} {rest : Text} {n : Nat}
    (hb : Text.isBlank c = false) (hr : Lexeme.read c rest = .ok ⟨.error, n, none⟩) :
    ∃ e, tokens ⟨p, c :: rest⟩ = .error e := by
  rw [tokens_eq, next_lexeme p hb hr]
  exact ⟨_, rfl⟩

/-- Among the tokens only the last one is the end. -/
theorem kind_ne_eof_of_tokens {cursor : Cursor} {ts : List Token} {last : Token}
    (h : cursor.tokens = .ok (ts ++ [last])) : ∀ token ∈ ts, token.kind ≠ .eof := by
  induction ts generalizing cursor with
  | nil => exact fun token ht => absurd ht (List.not_mem_nil)
  | cons first more ih =>
    rw [tokens_eq] at h
    split at h
    · cases h
    · next token after _ =>
      split at h
      · cases more <;> cases h
      · next hk =>
        split at h
        · cases h
        · cases ha : after.tokens with
          | error e =>
            rw [ha] at h
            cases h
          | ok found =>
            rw [ha] at h
            obtain ⟨rfl, rfl⟩ := List.cons.inj (Except.ok.inj h)
            intro t ht
            rcases List.mem_cons.1 ht with rfl | ht
            · exact hk
            · exact ih ha t ht

end Cursor

/-! ### Pieces of text -/

/-- A piece of text at the offset `p` with `rest` behind it makes the tokens `ts`, and then come
the tokens of `rest`. -/
def Splits (p : Nat) (piece rest : Text) (ts : List Token) : Prop :=
  Cursor.tokens ⟨p, piece ++ rest⟩ = (Cursor.tokens ⟨p + piece.length, rest⟩).map (ts ++ ·)

theorem Splits.append {p : Nat} {a b rest : Text} {ts us : List Token}
    (ha : Splits p a (b ++ rest) ts) (hb : Splits (p + a.length) b rest us) :
    Splits p (a ++ b) rest (ts ++ us) := by
  unfold Splits at *
  rw [List.append_assoc, ha, hb, List.length_append, Nat.add_assoc]
  cases Cursor.tokens ⟨p + (a.length + b.length), rest⟩ with
  | error e => rfl
  | ok more => exact congrArg Except.ok (List.append_assoc ts us more).symm

/-- An error behind a piece is an error of the whole. -/
theorem Splits.error {p : Nat} {piece rest : Text} {ts : List Token}
    (h : Splits p piece rest ts) (he : ∃ e, Cursor.tokens ⟨p + piece.length, rest⟩ = .error e) :
    ∃ e, Cursor.tokens ⟨p, piece ++ rest⟩ = .error e := by
  obtain ⟨e, he⟩ := he
  exact ⟨e, by rw [h, he]; rfl⟩

/-- A text that is a single piece makes its tokens and the end. -/
theorem Splits.tokenize {text : Text} {ts : List Token} (h : Splits 0 text [] ts) :
    tokenize text = .ok (ts ++ [⟨.eof, [], text.length, none⟩]) := by
  unfold Splits at h
  rw [List.append_nil, Cursor.tokens_nil, Nat.zero_add] at h
  exact h

theorem splits_nil (p : Nat) (rest : Text) : Splits p [] rest [] := by
  rw [Splits, List.nil_append, List.length_nil, Nat.add_zero]
  cases Cursor.tokens ⟨p, rest⟩ <;> rfl

theorem splits_blank (p : Nat) {c : Char} (rest : Text) (h : Text.isBlank c = true) :
    Splits p [c] rest [] := by
  unfold Splits
  rw [List.singleton_append, Cursor.tokens_blank p rest h]
  cases Cursor.tokens ⟨p + 1, rest⟩ <;> rfl

/-- A piece that is one lexeme makes one token. -/
theorem splits_lexeme (p : Nat) {c : Char} {cs rest : Text} {kind : Token.Kind}
    {literal : Option Token.Literal} (hb : Text.isBlank c = false)
    (hr : Lexeme.read c (cs ++ rest) = .ok ⟨kind, (c :: cs).length, literal⟩)
    (he : kind ≠ .eof) (hn : kind ≠ .error) :
    Splits p (c :: cs) rest [⟨kind, c :: cs, p, literal⟩] := by
  unfold Splits
  have ht := Cursor.tokens_lexeme p hb hr he hn
  rw [List.cons_append, ht, ← List.cons_append, List.take_left, List.drop_left]
  rfl

/-! ### Marks and quoted texts -/

theorem splits_colon (p : Nat) (rest : Text) :
    Splits p [':'] rest [⟨.colon, [':'], p, none⟩] :=
  splits_lexeme p (by decide) rfl (by decide) (by decide)

theorem splits_comma (p : Nat) (rest : Text) :
    Splits p [','] rest [⟨.comma, [','], p, none⟩] :=
  splits_lexeme p (by decide) rfl (by decide) (by decide)

theorem splits_leftParen (p : Nat) (rest : Text) :
    Splits p ['('] rest [⟨.leftParen, ['('], p, none⟩] :=
  splits_lexeme p (by decide) rfl (by decide) (by decide)

theorem splits_rightParen (p : Nat) (rest : Text) :
    Splits p [')'] rest [⟨.rightParen, [')'], p, none⟩] :=
  splits_lexeme p (by decide) rfl (by decide) (by decide)

theorem splits_dotDot (p : Nat) (rest : Text) :
    Splits p "..".toList rest [⟨.dotDot, "..".toList, p, none⟩] :=
  splits_lexeme p (by decide) rfl (by decide) (by decide)

/-- A character that is neither a quote nor a backslash is part of the quoted text. -/
theorem Lexeme.closeQuote_cons {c : Char} (hq : c ≠ '"') (hb : c ≠ '\\') (rest : Text) :
    closeQuote (c :: rest) = (closeQuote rest).map fun (n, t) => (n + 1, c :: t) := by
  rw [closeQuote]
  · exact hq
  · exact fun h _ => hb h
  · exact fun d r h _ => hb h

/-- The closing quote of an escaped text is found, and the text before it without escapes. -/
theorem closeQuote_escaped (t rest : Text) :
    Lexeme.closeQuote (Text.escaped t ++ '"' :: rest) = some ((Text.escaped t).length + 1, t) := by
  induction t with
  | nil => rfl
  | cons c t ih =>
    have hcons : Text.escaped (c :: t) =
        (if c = '"' ∨ c = '\\' then ['\\', c] else [c]) ++ Text.escaped t := rfl
    rw [hcons]
    by_cases hc : c = '"' ∨ c = '\\'
    · rw [if_pos hc]
      simp only [List.cons_append, List.nil_append, Lexeme.closeQuote, ih, Option.map_some, hc,
        if_true, List.length_cons]
    · rw [if_neg hc]
      obtain ⟨hq, hb⟩ := not_or.1 hc
      rw [List.singleton_append, List.cons_append, Lexeme.closeQuote_cons hq hb, ih]
      rfl

theorem splits_quoted (p : Nat) (t rest : Text) :
    Splits p t.quoted rest [⟨.string, t.quoted, p, some (.text t)⟩] := by
  have hr : Lexeme.read '"' (Text.escaped t ++ ['"'] ++ rest) =
      .ok ⟨.string, ('"' :: (Text.escaped t ++ ['"'])).length, some (.text t)⟩ := by
    rw [List.append_assoc, List.singleton_append]
    simp only [Lexeme.read, closeQuote_escaped, List.length_cons, List.length_append,
      List.length_nil]
  exact splits_lexeme p (by decide) hr (by decide) (by decide)

/-- No token begins with a plus sign. -/
theorem tokens_plus (p : Nat) (rest : Text) :
    ∃ e, Cursor.tokens ⟨p, '+' :: rest⟩ = .error e := by
  have hr : Lexeme.read '+' rest = .ok ⟨.error, 1, none⟩ := by
    unfold Lexeme.read
    rfl
  exact Cursor.tokens_error p (by decide) hr

/-! ### Words and numbers -/

theorem read_word {c : Char} (hc : Text.isWordChar c = true) (rest : Text) :
    Lexeme.read c rest =
      if c = '-' ∧ !rest.head?.any Char.isDigit then .error .danglingSign
      else if c = '-' ∨ c.isDigit then
        .ok (Lexeme.ofNumeral (c :: rest.takeWhile Text.isWordChar))
      else
        .ok (Lexeme.ofWord (c :: rest.takeWhile Text.isWordChar)
          (rest.dropWhile Text.isWordChar)) := by
  have hmarks : ∀ d ∈ [':', ',', '*', '(', ')', '}', '.', '"', '{'],
      Text.isWordChar d = false := Text.forall_mem (by decide)
  have hne : ∀ d ∈ [':', ',', '*', '(', ')', '}', '.', '"', '{'], c ≠ d := by
    rintro d hd rfl
    exact Bool.noConfusion ((hmarks c hd).symm.trans hc)
  unfold Lexeme.read
  split
  all_goals first
    | exact absurd rfl (hne _ (by decide))
    | simp only [hc, if_true]

/-- A word is cut off where what follows breaks it. -/
theorem takeWhile_word {cs rest : Text} (hcs : cs.all Text.isWordChar = true)
    (hr : Breaks rest) : (cs ++ rest).takeWhile Text.isWordChar = cs := by
  rw [List.takeWhile_append_of_pos (List.all_eq_true.1 hcs), takeWhile_of_head hr, List.append_nil]

theorem dropWhile_word {cs rest : Text} (hcs : cs.all Text.isWordChar = true)
    (hr : Breaks rest) : (cs ++ rest).dropWhile Text.isWordChar = rest := by
  rw [List.dropWhile_append_of_pos (List.all_eq_true.1 hcs), dropWhile_of_head hr]

/-- A word that begins with neither a digit nor a minus sign is what `Lexeme.ofWord` says. -/
theorem splits_word (p : Nat) {word rest : Text} {c : Char} {kind : Token.Kind}
    (hw : word.all Text.isWordChar = true) (hr : Breaks rest) (hc : word.head? = some c)
    (hd : c.isDigit = false) (hs : c ≠ '-')
    (hk : Lexeme.ofWord word rest = ⟨kind, word.length, none⟩)
    (he : kind ≠ .eof) (hn : kind ≠ .error) :
    Splits p word rest [⟨kind, word, p, none⟩] := by
  cases word with
  | nil => exact absurd hc (by simp)
  | cons d cs =>
    obtain rfl : d = c := Option.some.inj hc
    rw [List.all_cons, Bool.and_eq_true] at hw
    refine splits_lexeme p (Text.isBlank_of_isWordChar hw.1) ?_ he hn
    rw [read_word hw.1, takeWhile_word hw.2 hr, dropWhile_word hw.2 hr,
      if_neg fun h => hs h.1, if_neg (by simp [hs, hd]), hk]

/-- Whether a word begins like a number: with a digit, or with a minus sign before one. -/
def BeginsNumeral (word : Text) : Prop :=
  ∃ c cs, word = c :: cs ∧ (c.isDigit = true ∨ c = '-' ∧ cs.head?.any Char.isDigit = true)

/-- A word that begins like a number is what `Lexeme.ofNumeral` says. -/
theorem splits_numeral (p : Nat) {word rest : Text} {kind : Token.Kind}
    {literal : Option Token.Literal} (hw : word.all Text.isWordChar = true) (hr : Breaks rest)
    (hb : BeginsNumeral word) (hk : Lexeme.ofNumeral word = ⟨kind, word.length, literal⟩)
    (he : kind ≠ .eof) (hn : kind ≠ .error) :
    Splits p word rest [⟨kind, word, p, literal⟩] := by
  obtain ⟨c, cs, rfl, hb⟩ := hb
  rw [List.all_cons, Bool.and_eq_true] at hw
  refine splits_lexeme p (Text.isBlank_of_isWordChar hw.1) ?_ he hn
  have hsign : ¬ (c = '-' ∧ (!(cs ++ rest).head?.any Char.isDigit) = true) := by
    intro h
    obtain ⟨rfl, hn⟩ := h
    rcases hb with hb | ⟨-, hb⟩
    · exact absurd hb (by decide)
    · cases cs with
      | nil => exact Bool.noConfusion hb
      | cons d cs =>
        have hb : d.isDigit = true := hb
        simp [hb] at hn
  have hstart : c = '-' ∨ c.isDigit = true := hb.elim .inr fun h => .inl h.1
  rw [read_word hw.1, takeWhile_word hw.2 hr, if_neg hsign, if_pos hstart, hk]

/-! ### Bare words -/

namespace Text

/-- What it takes for a text to stand without quotes. -/
theorem needsQuotes_eq_false_iff {t : Text} :
    t.needsQuotes = false ↔
      t ≠ [] ∧ t.all isWordChar = true ∧ t.head? ≠ some '-' ∧ t.lower ∉ reserved ∧
        allDigits t = false := by
  simp [needsQuotes, Bool.or_eq_false_iff, and_assoc]

end Text

/-- The words that are not identifiers, in lower case. -/
def keywords : List Text := ["and", "or", "not", "asc", "desc", "sort"].map String.toList

theorem ofWord_identifier {word : Text} (h : word.lower ∉ keywords) (rest : Text) :
    Lexeme.ofWord word rest = ⟨.identifier, word.length, none⟩ := by
  simp only [keywords, List.map_cons, List.map_nil, List.mem_cons, List.not_mem_nil, or_false,
    not_or] at h
  obtain ⟨ha, ho, hn, hasc, hdesc, hs⟩ := h
  simp only [Lexeme.ofWord, ha, ho, hn, hasc, hdesc, hs, if_false]

theorem mem_reserved_of_mem_keywords : ∀ k ∈ keywords, k ∈ Text.reserved := by decide

/-- A text that stands without quotes is an identifier, also if it begins with a digit. -/
theorem splits_bare (p : Nat) {t rest : Text} (h : t.needsQuotes = false) (hr : Breaks rest) :
    Splits p t rest [⟨.identifier, t, p, none⟩] := by
  obtain ⟨hne, hw, hs, hl, hd⟩ := Text.needsQuotes_eq_false_iff.1 h
  cases t with
  | nil => exact absurd rfl hne
  | cons c cs =>
    have hs : c ≠ '-' := fun hc => hs (congrArg some hc)
    by_cases hc : c.isDigit = true
    · refine splits_numeral p hw hr ⟨c, cs, rfl, .inl hc⟩ ?_ (by decide) (by decide)
      have hi : Lexeme.integer? (c :: cs) = none := by simp [Lexeme.integer?, hs, hd]
      rw [Lexeme.ofNumeral, hi]
    · have hk : Text.lower (c :: cs) ∉ keywords := fun hm => hl (mem_reserved_of_mem_keywords _ hm)
      exact splits_word p hw hr rfl (by simpa using hc) hs (ofWord_identifier hk rest) (by decide)
        (by decide)

/-! ### Numbers -/

namespace Integer

theorem beginsNumeral_text (n : Int64) : BeginsNumeral (text n) := by
  have hd : ∀ m, ∃ c cs, Decimal.digits m = c :: cs ∧ c.isDigit = true := by
    intro m
    cases hm : Decimal.digits m with
    | nil => exact absurd hm (Decimal.digits_ne_nil m)
    | cons c cs =>
      have hmem : c ∈ Decimal.digits m := by
        rw [hm]
        exact List.mem_cons_self
      exact ⟨c, cs, rfl, Decimal.isDigit_of_mem_digits hmem⟩
  obtain ⟨c, cs, hm, hc⟩ := hd n.toInt.natAbs
  unfold text
  split
  · exact ⟨'-', _, rfl, .inr ⟨rfl, by rw [hm]; exact hc⟩⟩
  · exact ⟨c, cs, hm, .inl hc⟩

theorem allDigits_digits (m : Nat) : Text.allDigits (Decimal.digits m) = true :=
  List.all_eq_true.2 fun _ hc => Decimal.isDigit_of_mem_digits hc

theorem all_isWordChar_text (n : Int64) : (text n).all Text.isWordChar = true := by
  have hd : (Decimal.digits n.toInt.natAbs).all Text.isWordChar = true :=
    List.all_eq_true.2 fun _ hc => Text.isWordChar_of_isDigit (Decimal.isDigit_of_mem_digits hc)
  unfold text
  split
  · rw [List.all_cons, hd]
    rfl
  · exact hd

/-- An integer is read back from what writes it. -/
theorem integer?_text (n : Int64) : Lexeme.integer? (text n) = some n := by
  have hdigits : Text.allDigits (if (text n).head? = some '-' then (text n).tail else text n) =
      true := by
    unfold text
    split
    · exact allDigits_digits _
    · split
      · next h =>
        cases hm : Decimal.digits n.toInt.natAbs with
        | nil => rfl
        | cons c cs =>
          have ha := allDigits_digits n.toInt.natAbs
          rw [hm, Text.allDigits, List.all_cons, Bool.and_eq_true] at ha
          exact ha.2
      · exact allDigits_digits _
  simp only [Lexeme.integer?, hdigits, if_true, read?_text]

end Integer

theorem splits_integer (p : Nat) (n : Int64) {rest : Text} (hr : Breaks rest) :
    Splits p (Integer.text n) rest [⟨.number, Integer.text n, p, some (.integer n)⟩] := by
  refine splits_numeral p (Integer.all_isWordChar_text n) hr (Integer.beginsNumeral_text n) ?_
    (by decide) (by decide)
  rw [Lexeme.ofNumeral, Integer.integer?_text]

/-! ### Keywords -/

theorem splits_null (p : Nat) {rest : Text} (hr : Breaks rest) :
    Splits p "null".toList rest [⟨.identifier, "null".toList, p, none⟩] :=
  splits_word p (by decide) hr rfl (by decide) (by decide)
    (ofWord_identifier (by decide) rest) (by decide) (by decide)

/-- The keywords as they are written, and what they are. -/
def writtenKeywords : List (Text × Token.Kind) :=
  [("AND".toList, .and), ("OR".toList, .or), ("NOT".toList, .not), ("asc".toList, .asc),
   ("desc".toList, .desc)]

theorem ofWord_keyword {word : Text} {kind : Token.Kind} (h : (word, kind) ∈ writtenKeywords)
    (rest : Text) : Lexeme.ofWord word rest = ⟨kind, word.length, none⟩ := by
  have ha : Text.lower "AND".toList = "and".toList := by decide
  have ho : Text.lower "OR".toList = "or".toList := by decide
  have hn : Text.lower "NOT".toList = "not".toList := by decide
  have hasc : Text.lower "asc".toList = "asc".toList := by decide
  have hdesc : Text.lower "desc".toList = "desc".toList := by decide
  simp only [writtenKeywords, List.mem_cons, Prod.mk.injEq, List.not_mem_nil, or_false] at h
  rcases h with ⟨rfl, rfl⟩ | ⟨rfl, rfl⟩ | ⟨rfl, rfl⟩ | ⟨rfl, rfl⟩ | ⟨rfl, rfl⟩
  · rw [Lexeme.ofWord, ha]; rfl
  · rw [Lexeme.ofWord, ho]; rfl
  · rw [Lexeme.ofWord, hn]; rfl
  · rw [Lexeme.ofWord, hasc]; rfl
  · rw [Lexeme.ofWord, hdesc]; rfl

theorem splits_keyword (p : Nat) {word rest : Text} {kind : Token.Kind}
    (h : (word, kind) ∈ writtenKeywords) (hr : Breaks rest) :
    Splits p word rest [⟨kind, word, p, none⟩] := by
  have hk := ofWord_keyword h rest
  simp only [writtenKeywords, List.mem_cons, Prod.mk.injEq, List.not_mem_nil, or_false] at h
  rcases h with ⟨rfl, rfl⟩ | ⟨rfl, rfl⟩ | ⟨rfl, rfl⟩ | ⟨rfl, rfl⟩ | ⟨rfl, rfl⟩ <;>
    exact splits_word p (by decide) hr rfl (by decide) (by decide) hk (by decide)
      (by decide)

/-- The words that begin a sort clause are one token. -/
theorem splits_sortBy (p : Nat) {rest : Text} (hr : Breaks rest) :
    Splits p "sort by".toList rest [⟨.sortBy, "sort by".toList, p, none⟩] := by
  have hblanks : (" by".toList ++ rest).takeWhile Text.isBlank = [' '] := by
    show (' ' :: 'b' :: ('y' :: rest)).takeWhile Text.isBlank = [' ']
    rw [List.takeWhile_cons_of_pos (by decide), List.takeWhile_cons_of_neg (by decide)]
  have hword : ("by".toList ++ rest).takeWhile Text.isWordChar = "by".toList :=
    takeWhile_word (by decide) hr
  have hby : Lexeme.byLength? (" by".toList ++ rest) = some 3 := by
    have hdrop : List.drop [' '].length (" by".toList ++ rest) = "by".toList ++ rest := rfl
    rw [Lexeme.byLength?, hblanks, hdrop, hword]
    rfl
  have hbreaks : Breaks (" by".toList ++ rest) := breaks_cons (by decide) _
  have hsort : ("ort".toList ++ (" by".toList ++ rest)).takeWhile Text.isWordChar = "ort".toList :=
    takeWhile_word (by decide) hbreaks
  have hafter : ("ort".toList ++ (" by".toList ++ rest)).dropWhile Text.isWordChar =
      " by".toList ++ rest := dropWhile_word (by decide) hbreaks
  have hlower : Text.lower ('s' :: "ort".toList) = "sort".toList := by decide
  have hread : Lexeme.read 's' ("ort by".toList ++ rest) = .ok ⟨.sortBy, 7, none⟩ := by
    show Lexeme.read 's' ("ort".toList ++ (" by".toList ++ rest)) = _
    rw [read_word (by decide), hsort, hafter, if_neg fun h => absurd h.1 (by decide),
      if_neg (by decide), Lexeme.ofWord, hlower, hby]
    rfl
  exact splits_lexeme p (by decide) hread (by decide) (by decide)

/-- The words that begin a sort clause, with the colon and a blank behind them, are two tokens. -/
theorem splits_clause (p : Nat) (rest : Text) :
    ∃ sort colon, Splits p "sort by: ".toList rest [sort, colon] ∧ sort.kind = .sortBy ∧
      colon.kind = .colon := by
  have hcolon : Breaks ([':'] ++ [' '] ++ rest) := breaks_cons (by decide) _
  have hmarks : Splits (p + "sort by".toList.length) ([':'] ++ [' ']) rest _ :=
    (splits_colon _ _).append (splits_blank _ rest (by decide))
  exact ⟨_, _, (splits_sortBy p hcolon).append hmarks, rfl, rfl⟩

end Triage
