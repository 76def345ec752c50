import Triage.Json.Read
import Triage.Json.Write
import Triage.Proofs.Lexing

/-! JSON is read back from its text.

A value makes a row of tokens (`Json.written`). Reading takes them one by one, and
after all of them the value is found where one was needed (`run_written`), whatever
arrays and objects are open around it. Both layouts write these tokens, one without
blanks and one with line feeds and indentation between them, so a value is read back
from either (`read?_compact`, `read?_pretty`) if its strings are texts and its
numbers integers (`Json.Plain`). -/
namespace Triage.Json

/-! ### Tokens of a value -/

mutual

/-- The tokens that a value writes. -/
def written : Json → List Token
  | null => [.null]
  | boolean b => [.boolean b]
  | integer n => [.integer n]
  | number literal => [.number literal]
  | string symbols => [.string symbols]
  | array items => .openBracket :: (writtenItems items ++ [.closeBracket])
  | object members => .openBrace :: (writtenMembers members ++ [.closeBrace])

/-- The tokens of items with commas between them. -/
def writtenItems : List Json → List Token
  | [] => []
  | [item] => item.written
  | item :: more => item.written ++ .comma :: writtenItems more

/-- The tokens of members with commas between them. -/
def writtenMembers : List (List Symbol × Json) → List Token
  | [] => []
  | [(key, value)] => .string key :: .colon :: value.written
  | (key, value) :: more =>
    .string key :: .colon :: (value.written ++ .comma :: writtenMembers more)

end

namespace State

/-- The state after some tokens, if each of them may come. -/
def run (state : State) (tokens : List Token) : Option State := tokens.foldlM next? state

theorem run_cons {s t : State} {token : Token} (h : s.next? token = some t)
    (tokens : List Token) : s.run (token :: tokens) = t.run tokens := by
  rw [run, List.foldlM_cons, h]
  rfl

theorem run_append {s t : State} {ts : List Token} (h : s.run ts = some t) (us : List Token) :
    s.run (ts ++ us) = t.run us := by
  unfold run at h
  rw [run, List.foldlM_append, h]
  rfl

/-- Where an array begins, a token that does not end it begins an item. -/
theorem run_firstItem (outer : List Frame) {token : Token} (h : token ≠ .closeBracket)
    (tokens : List Token) :
    (firstItem outer).run (token :: tokens) =
      (value (.array [] :: outer)).run (token :: tokens) := by
  have hnext : (firstItem outer).next? token = (value (.array [] :: outer)).next? token := by
    cases token <;> first | rfl | exact absurd rfl h
  rw [run, run, List.foldlM_cons, List.foldlM_cons, hnext]

end State

/-- No value begins with the end of an array. -/
theorem exists_cons_written (v : Json) :
    ∃ token tokens, v.written = token :: tokens ∧ token ≠ .closeBracket := by
  cases v <;> exact ⟨_, _, by rw [written], by simp⟩

theorem exists_cons_writtenItems (item : Json) (more : List Json) :
    ∃ token tokens, writtenItems (item :: more) = token :: tokens ∧ token ≠ .closeBracket := by
  obtain ⟨token, tokens, hw, hne⟩ := exists_cons_written item
  cases more with
  | nil => exact ⟨token, tokens, by rw [writtenItems, hw], hne⟩
  | cons next rest => exact ⟨token, _, by rw [writtenItems, hw, List.cons_append]; simp, hne⟩

theorem exists_cons_writtenMembers (member : List Symbol × Json)
    (more : List (List Symbol × Json)) :
    ∃ tokens, writtenMembers (member :: more) = .string member.1 :: tokens := by
  cases more with
  | nil => exact ⟨_, by rw [writtenMembers]⟩
  | cons next rest => exact ⟨_, by rw [writtenMembers]; simp⟩

mutual

/-- The tokens of a value are read as the value, whatever is open around it. -/
theorem run_written (v : Json) (outer : List Frame) :
    (State.value outer).run v.written = some (State.give v outer) := by
  cases v with
  | array items =>
    rw [written, State.run_cons (t := .firstItem outer) rfl]
    cases items with
    | nil => rfl
    | cons item more =>
      have hitems := run_writtenItems (item :: more) (List.cons_ne_nil item more) [] outer
      obtain ⟨token, tokens, hw, hne⟩ := exists_cons_writtenItems item more
      rw [hw, List.cons_append] at hitems ⊢
      rw [State.run_firstItem outer hne, hitems]
      rfl
  | object members =>
    rw [written, State.run_cons (t := .firstKey outer) rfl]
    cases members with
    | nil => rfl
    | cons member more =>
      have hmembers := run_writtenMembers (member :: more) (List.cons_ne_nil member more) [] outer
      obtain ⟨tokens, hw⟩ := exists_cons_writtenMembers member more
      rw [hw, List.cons_append] at hmembers ⊢
      exact hmembers
  | null | boolean _ | integer _ | number _ | string _ =>
    rw [written]
    rfl

/-- The tokens of items are read after those that are read already. -/
theorem run_writtenItems (items : List Json) (hne : items ≠ []) (done : List Json)
    (outer : List Frame) :
    (State.value (.array done :: outer)).run (writtenItems items ++ [.closeBracket]) =
      some (State.give (.array (done.reverse ++ items)) outer) := by
  match items with
  | [] => exact absurd rfl hne
  | [item] =>
    rw [writtenItems, State.run_append (run_written item (.array done :: outer)),
      ← List.reverse_cons]
    rfl
  | item :: next :: rest =>
    have hmore := run_writtenItems (next :: rest) (List.cons_ne_nil next rest) (item :: done) outer
    rw [List.reverse_cons, List.append_assoc] at hmore
    rw [writtenItems, List.append_assoc,
      State.run_append (run_written item (.array done :: outer)), List.cons_append]
    · exact hmore
    · simp

/-- The tokens of members are read after those that are read already. -/
theorem run_writtenMembers (members : List (List Symbol × Json)) (hne : members ≠ [])
    (done : List (List Symbol × Json)) (outer : List Frame) :
    (State.key done outer).run (writtenMembers members ++ [.closeBrace]) =
      some (State.give (.object (done.reverse ++ members)) outer) := by
  match members with
  | [] => exact absurd rfl hne
  | [(key, v)] =>
    have hv := run_written v (.object done key :: outer)
    rw [writtenMembers, ← List.reverse_cons]
    exact State.run_append hv [.closeBrace]
  | (key, v) :: next :: rest =>
    have hv := run_written v (.object done key :: outer)
    have hmore := run_writtenMembers (next :: rest) (List.cons_ne_nil next rest) ((key, v) :: done)
      outer
    rw [List.reverse_cons, List.append_assoc] at hmore
    rw [writtenMembers, List.cons_append, List.cons_append, List.append_assoc]
    · exact (State.run_append hv _).trans hmore
    · simp

end

/-- The tokens of a value are read as the value. -/
theorem ofTokens?_written (v : Json) : ofTokens? v.written = some v := by
  have hrun : v.written.foldlM State.next? (.value []) = some (.finished v) := run_written v []
  rw [ofTokens?, hrun]

/-! ### Pieces of text -/

/-- A piece of text with `rest` behind it makes the tokens `ts`, and then come those of `rest`. -/
def Makes (piece rest : Text) (ts : List Token) : Prop :=
  tokens? (piece ++ rest) = (tokens? rest).map (ts ++ ·)

theorem Makes.append {a b rest : Text} {ts us : List Token} (ha : Makes a (b ++ rest) ts)
    (hb : Makes b rest us) : Makes (a ++ b) rest (ts ++ us) := by
  unfold Makes at *
  rw [List.append_assoc, ha, hb, Option.map_map]
  congr 1
  funext more
  exact (List.append_assoc ts us more).symm

theorem makes_nil (rest : Text) : Makes [] rest [] := by
  rw [Makes, List.nil_append]
  cases tokens? rest <;> rfl

/-- Space between tokens is passed over. -/
theorem makes_spaces {spaces : Text} (h : ∀ c ∈ spaces, isSpace c = true) (rest : Text) :
    Makes spaces rest [] := by
  induction spaces with
  | nil => exact makes_nil rest
  | cons c spaces ih =>
    have hmore := ih fun d hd => h d (List.mem_cons_of_mem c hd)
    unfold Makes at hmore ⊢
    rw [List.cons_append, tokens?, if_pos (h c List.mem_cons_self), hmore]

/-- What is taken off the front as a token makes that token. -/
theorem makes_token {c : Char} {piece rest : Text} {token : Token} (hs : isSpace c = false)
    (h : token? c (piece ++ rest) = some (token, piece.length)) :
    Makes (c :: piece) rest [token] := by
  rw [Makes, List.cons_append, tokens?, if_neg (by rw [hs]; exact Bool.false_ne_true), h]
  simp only [Option.bind_eq_bind, Option.bind_some, List.drop_left]
  cases tokens? rest <;> rfl

/-! ### Strings -/

/-- A short escape is read as the character it names. -/
theorem symbols?_escape {e c : Char} (h : escape? e = some c) (rest : Text) :
    symbols? ('\\' :: e :: rest) =
      (symbols? rest).map fun (symbols, n) => (.char c :: symbols, n + 2) := by
  rw [symbols?]
  · rw [h]
    cases symbols? rest <;> rfl
  · rintro a b d f more rfl -
    cases h

/-- The four digits of a unit are read as the unit. -/
theorem value?_unit {n : Nat} (h : n < 65536) :
    Hexadecimal.value? [Hexadecimal.digit (n / 4096 % 16), Hexadecimal.digit (n / 256 % 16),
      Hexadecimal.digit (n / 16 % 16), Hexadecimal.digit (n % 16)] = some n := by
  have hdigit : ∀ k, Hexadecimal.digitValue? (Hexadecimal.digit (k % 16)) = some (k % 16) :=
    fun k => Hexadecimal.digitValue?_digit (Nat.mod_lt k (by decide))
  simp only [Hexadecimal.value?, List.foldlM_cons, List.foldlM_nil, hdigit, Option.map_some,
    Option.bind_eq_bind, Option.bind_some, Option.pure_def]
  congr 1
  omega

theorem symbols?_unitText {n : Nat} (h : n < 0xD800) (rest : Text) :
    symbols? (unitText n ++ rest) =
      (symbols? rest).map fun (symbols, m) => (.char (Char.ofNat n) :: symbols, m + 6) := by
  have hunit : ofUnit n = .char (Char.ofNat n) := if_neg (by omega)
  simp only [unitText, List.cons_append, List.nil_append]
  rw [symbols?, value?_unit (by omega)]
  simp only [Option.bind_eq_bind, Option.bind_some, hunit]
  cases symbols? rest <;> rfl

/-- A character that needs no escape is read as itself. -/
theorem symbols?_plain {c : Char} (hq : c ≠ '"') (hb : c ≠ '\\') (hc : ¬ c.toNat < 0x20)
    (rest : Text) :
    symbols? (c :: rest) = (symbols? rest).map fun (symbols, n) => (.char c :: symbols, n + 1) := by
  rw [symbols?]
  · rw [if_neg (not_or.2 ⟨hc, hb⟩)]
    cases symbols? rest <;> rfl
  · exact hq
  · exact fun _ _ _ _ _ h _ => hb h
  · exact fun _ _ h _ => hb h

/-- A character is read back from the way it is written. -/
theorem symbols?_charText (c : Char) (rest : Text) :
    symbols? (charText c ++ rest) =
      (symbols? rest).map fun (symbols, n) => (.char c :: symbols, n + (charText c).length) := by
  unfold charText
  split
  case h_8 =>
    split
    · next hc =>
      rw [symbols?_unitText (by omega), Char.ofNat_toNat]
      rfl
    · next hq hb _ _ _ _ _ hc => exact symbols?_plain hq hb hc rest
  all_goals exact symbols?_escape rfl rest

/-- A text is read back up to the quote behind it. -/
theorem symbols?_text (t rest : Text) :
    symbols? (t.flatMap charText ++ '"' :: rest) =
      some (ofText t, (t.flatMap charText).length + 1) := by
  induction t with
  | nil => rfl
  | cons c t ih =>
    have hlength : (t.flatMap charText).length + 1 + (charText c).length =
        (charText c ++ t.flatMap charText).length + 1 := by
      rw [List.length_append]
      omega
    rw [List.flatMap_cons, List.append_assoc, symbols?_charText, ih, ← hlength]
    rfl

theorem joinHalves_ofText (t : Text) : joinHalves (ofText t) = ofText t := by
  induction t with
  | nil => rfl
  | cons c t ih =>
    show joinHalves (.char c :: ofText t) = .char c :: ofText t
    rw [joinHalves, ih]
    simp

theorem flatMap_symbolText_ofText (t : Text) : (ofText t).flatMap symbolText = t.flatMap charText :=
  List.flatMap_map ..

theorem makes_string (t rest : Text) :
    Makes (stringText (ofText t)) rest [.string (ofText t)] := by
  rw [stringText, flatMap_symbolText_ofText, List.cons_append]
  refine makes_token (by decide) ?_
  have htoken : token? '"' (t.flatMap charText ++ '"' :: rest) =
      some (.string (ofText t), (t.flatMap charText).length + 1) := by
    rw [token?, symbols?_text, Option.map_some]
    simp only [joinHalves_ofText]
  rw [List.append_assoc, List.length_append]
  exact htoken

/-! ### Numbers -/

/-- A text that does not go on with a number that stands before it. -/
def EndsNumber (rest : Text) : Prop :=
  ∀ c ∈ rest.head?, c.isDigit = false ∧ c ≠ '.' ∧ c ≠ 'e' ∧ c ≠ 'E'

theorem endsNumber_nil : EndsNumber [] := by
  intro c hc
  exact absurd hc (by simp)

theorem endsNumber_cons {c : Char} (h : c.isDigit = false ∧ c ≠ '.' ∧ c ≠ 'e' ∧ c ≠ 'E')
    (rest : Text) : EndsNumber (c :: rest) := by
  intro d hd
  rw [← Option.some.inj hd]
  exact h

theorem fractionLength?_ends {rest : Text} (h : EndsNumber rest) :
    fractionLength? rest = some 0 := by
  unfold fractionLength?
  split
  · exact absurd rfl (h _ rfl).2.1
  · rfl

theorem exponentLength?_ends {rest : Text} (h : EndsNumber rest) :
    exponentLength? rest = some 0 := by
  unfold exponentLength?
  split
  · exact absurd rfl (h _ rfl).2.2.1
  · exact absurd rfl (h _ rfl).2.2.2
  · rfl

theorem head?_digits_append (n : Nat) (rest : Text) :
    (Decimal.digits n ++ rest).head? = (Decimal.digits n).head? := by
  cases h : Decimal.digits n with
  | nil => exact absurd h (Decimal.digits_ne_nil n)
  | cons c cs => rfl

/-- Only the numeral of zero begins with a zero. -/
theorem eq_zero_of_head?_digits {n : Nat} (h : (Decimal.digits n).head? = some '0') : n = 0 := by
  induction n using Nat.strongRecOn with
  | ind n ih =>
    rw [Decimal.digits] at h
    split at h
    · next hn =>
      have hvalue := congrArg Decimal.digitValue (Option.some.inj h)
      rwa [Decimal.digitValue_digit hn] at hvalue
    · next hn =>
      rw [head?_digits_append] at h
      have := ih (n / 10) (by omega) h
      omega

/-- The digits of a numeral are all taken. -/
theorem wholeLength_digits (n : Nat) :
    (if (Decimal.digits n).head? = some '0' then 1 else (Decimal.digits n).length) =
      (Decimal.digits n).length := by
  split
  · next h =>
    rw [eq_zero_of_head?_digits h, Decimal.digits]
    rfl
  · rfl

/-- A numeral behind a sign or none is read as its integer. -/
theorem number?_digits {sign : Text} {n : Nat} (hs : sign = [] ∨ sign = ['-'] ∧ n ≠ 0)
    {rest : Text} (hr : EndsNumber rest) :
    number? (sign ++ (Decimal.digits n ++ rest)) =
      some (.integer (if sign = [] then n else -n), sign.length + (Decimal.digits n).length) := by
  have hlength : (if (sign ++ (Decimal.digits n ++ rest)).head? = some '-' then 1 else 0) =
      sign.length := by
    obtain rfl | ⟨rfl, -⟩ := hs
    · refine if_neg fun hhead => ?_
      rw [List.nil_append, head?_digits_append] at hhead
      exact absurd (Decimal.isDigit_of_mem_digits (List.mem_of_mem_head? hhead)) (by decide)
    · rfl
  have htake : (Decimal.digits n ++ rest).takeWhile Char.isDigit = Decimal.digits n := by
    rw [List.takeWhile_append_of_pos fun _ => Decimal.isDigit_of_mem_digits,
      takeWhile_of_head fun c hc => (hr c hc).1, List.append_nil]
  have hpos : (Decimal.digits n).length ≠ 0 := fun h =>
    Decimal.digits_ne_nil n (List.length_eq_zero_iff.1 h)
  have hdrop : (sign ++ (Decimal.digits n ++ rest)).drop (sign.length + (Decimal.digits n).length) =
      rest := by
    rw [← List.drop_drop, List.drop_left, List.drop_left]
  simp only [number?, hlength, List.drop_left, htake, wholeLength_digits, hpos, if_false, hdrop,
    fractionLength?_ends hr, exponentLength?_ends hr, Nat.add_zero, List.take_length,
    Decimal.value_digits, Option.bind_eq_bind, Option.bind_some, Option.pure_def, true_and]
  obtain rfl | ⟨rfl, hn⟩ := hs
  · simp
  · simp [hn]

/-- A minus sign or a digit begins a number. -/
theorem token?_number {c : Char} {rest : Text} {token : Token} {n : Nat}
    (hc : c = '-' ∨ c.isDigit = true) (h : number? (c :: rest) = some (token, n + 1)) :
    token? c rest = some (token, n) := by
  unfold token?
  split
  case h_11 =>
    rw [if_pos hc, h]
    rfl
  all_goals exact absurd hc (by decide)

theorem isSpace_of_isDigit {c : Char} (h : c.isDigit = true) : isSpace c = false := by
  rw [Bool.eq_false_iff]
  intro hs
  simp only [isSpace, Bool.or_eq_true, decide_eq_true_eq] at hs
  obtain ((rfl | rfl) | rfl) | rfl := hs <;> exact absurd h (by decide)

theorem makes_integer (n : Int) {rest : Text} (hr : EndsNumber rest) :
    Makes (integerText n) rest [.integer n] := by
  unfold integerText
  split
  · next hn =>
    have hnumber : number? ('-' :: (Decimal.digits n.natAbs ++ rest)) =
        some (.integer (-n.natAbs), 1 + (Decimal.digits n.natAbs).length) :=
      number?_digits (.inr ⟨rfl, by omega⟩) hr
    have hvalue : -((n.natAbs : Nat) : Int) = n := by omega
    rw [hvalue, Nat.add_comm] at hnumber
    exact makes_token (by decide) (token?_number (.inl rfl) hnumber)
  · next hn =>
    have hnumber : number? (Decimal.digits n.natAbs ++ rest) =
        some (.integer n.natAbs, 0 + (Decimal.digits n.natAbs).length) :=
      number?_digits (.inl rfl) hr
    have hvalue : ((n.natAbs : Nat) : Int) = n := by omega
    cases hd : Decimal.digits n.natAbs with
    | nil => exact absurd hd (Decimal.digits_ne_nil _)
    | cons c cs =>
      have hc : c.isDigit = true := Decimal.isDigit_of_mem_digits (hd ▸ List.mem_cons_self)
      rw [hd, hvalue, Nat.zero_add] at hnumber
      exact makes_token (isSpace_of_isDigit hc) (token?_number (.inr hc) hnumber)

/-! ### Layouts -/

mutual

/-- Whether every string of a value is a text and every number an integer. -/
def Plain : Json → Prop
  | null | boolean _ | integer _ => True
  | number _ => False
  | string symbols => ∃ t, symbols = ofText t
  | array items => PlainItems items
  | object members => PlainMembers members

/-- Whether items are plain. -/
def PlainItems : List Json → Prop
  | [] => True
  | item :: more => item.Plain ∧ PlainItems more

/-- Whether the keys of members are texts and their values plain. -/
def PlainMembers : List (List Symbol × Json) → Prop
  | [] => True
  | (key, value) :: more => (∃ t, key = ofText t) ∧ value.Plain ∧ PlainMembers more

end

/-- A mark is read by its one character. -/
theorem makes_mark {c : Char} {token : Token} (hs : isSpace c = false)
    (h : ∀ rest, token? c rest = some (token, 0)) (rest : Text) : Makes [c] rest [token] :=
  makes_token hs (h rest)

theorem makes_openBracket (rest : Text) : Makes ['['] rest [.openBracket] :=
  makes_mark (by decide) (fun _ => rfl) rest

theorem makes_closeBracket (rest : Text) : Makes [']'] rest [.closeBracket] :=
  makes_mark (by decide) (fun _ => rfl) rest

theorem makes_openBrace (rest : Text) : Makes ['\x7b'] rest [.openBrace] :=
  makes_mark (by decide) (fun _ => rfl) rest

theorem makes_closeBrace (rest : Text) : Makes ['\x7d'] rest [.closeBrace] :=
  makes_mark (by decide) (fun _ => rfl) rest

theorem makes_comma (rest : Text) : Makes [','] rest [.comma] :=
  makes_mark (by decide) (fun _ => rfl) rest

theorem makes_colon (rest : Text) : Makes [':'] rest [.colon] :=
  makes_mark (by decide) (fun _ => rfl) rest

/-- The words that are values are read to their ends. -/
theorem makes_word {c : Char} {word : Text} {token : Token} (hs : isSpace c = false)
    (h : ∀ rest, token? c rest = if word.isPrefixOf rest then some (token, word.length) else none)
    (rest : Text) : Makes (c :: word) rest [token] :=
  makes_token hs
    ((h _).trans (if_pos (List.isPrefixOf_iff_prefix.2 (List.prefix_append word rest))))

mutual

/-- On one line a plain value writes its tokens. -/
theorem makes_compact (v : Json) (h : v.Plain) {rest : Text} (hr : EndsNumber rest) :
    Makes v.compact rest v.written := by
  match v with
  | null => exact makes_word (c := 'n') (by decide) (fun _ => rfl) rest
  | boolean true => exact makes_word (c := 't') (by decide) (fun _ => rfl) rest
  | boolean false => exact makes_word (c := 'f') (by decide) (fun _ => rfl) rest
  | integer n => exact makes_integer n hr
  | number literal => exact h.elim
  | string symbols =>
    obtain ⟨t, rfl⟩ := h
    exact makes_string t rest
  | array items =>
    have hitems := makes_compactItems items h (endsNumber_cons (c := ']') (by decide) rest)
    exact (makes_openBracket _).append (hitems.append (makes_closeBracket rest))
  | object members =>
    have hmembers := makes_compactMembers members h (endsNumber_cons (c := '\x7d') (by decide) rest)
    exact (makes_openBrace _).append (hmembers.append (makes_closeBrace rest))

theorem makes_compactItems (items : List Json) (h : PlainItems items) {rest : Text}
    (hr : EndsNumber rest) : Makes (compactItems items) rest (writtenItems items) := by
  match items with
  | [] => exact makes_nil rest
  | [item] => exact makes_compact item h.1 hr
  | item :: next :: more =>
    have hitem := makes_compact item h.1
      (endsNumber_cons (c := ',') (by decide) (compactItems (next :: more) ++ rest))
    exact hitem.append ((makes_comma _).append (makes_compactItems (next :: more) h.2 hr))

theorem makes_compactMembers (members : List (List Symbol × Json)) (h : PlainMembers members)
    {rest : Text} (hr : EndsNumber rest) :
    Makes (compactMembers members) rest (writtenMembers members) := by
  match members with
  | [] => exact makes_nil rest
  | [(key, v)] =>
    obtain ⟨⟨t, rfl⟩, hv, -⟩ := h
    exact (makes_string t _).append ((makes_colon _).append (makes_compact v hv hr))
  | (key, v) :: next :: more =>
    obtain ⟨⟨t, rfl⟩, hv, hmore⟩ := h
    have hvalue := makes_compact v hv
      (endsNumber_cons (c := ',') (by decide) (compactMembers (next :: more) ++ rest))
    exact ((makes_string t _).append ((makes_colon _).append hvalue)).append
      ((makes_comma _).append (makes_compactMembers (next :: more) hmore hr))

end

theorem makes_newLine (level : Nat) (rest : Text) : Makes (newLine level) rest [] := by
  refine makes_spaces (fun c hc => ?_) rest
  rcases List.mem_cons.1 hc with rfl | hc
  · rfl
  · rw [List.eq_of_mem_replicate hc]
    rfl

theorem makes_space (rest : Text) : Makes [' '] rest [] := by
  refine makes_spaces (fun c hc => ?_) rest
  rw [List.mem_singleton.1 hc]
  rfl

/-- A new line behind a piece makes nothing. -/
theorem Makes.newLine {piece rest : Text} {ts : List Token} (level : Nat)
    (h : Makes piece (newLine level ++ rest) ts) : Makes (piece ++ Json.newLine level) rest ts := by
  have hline := h.append (makes_newLine level rest)
  rwa [List.append_nil] at hline

theorem endsNumber_newLine (level : Nat) (rest : Text) : EndsNumber (newLine level ++ rest) :=
  endsNumber_cons (by decide) _

mutual

/-- On many lines a plain value writes the same tokens. -/
theorem makes_pretty (v : Json) (h : v.Plain) (level : Nat) {rest : Text} (hr : EndsNumber rest) :
    Makes (v.pretty level) rest v.written := by
  match v with
  | null => exact makes_compact null trivial hr
  | boolean true => exact makes_compact (boolean true) trivial hr
  | boolean false => exact makes_compact (boolean false) trivial hr
  | integer n => exact makes_integer n hr
  | number literal => exact h.elim
  | string symbols => exact makes_compact (string symbols) h hr
  | array [] => exact makes_compact (array []) h hr
  | array (item :: more) =>
    have hitems := makes_prettyItems (item :: more) h (level + 1)
      (endsNumber_newLine level ([']'] ++ rest))
    exact ((makes_openBracket _).append (hitems.newLine level)).append (makes_closeBracket rest)
  | object [] => exact makes_compact (object []) h hr
  | object (member :: more) =>
    have hmembers := makes_prettyMembers (member :: more) h (level + 1)
      (endsNumber_newLine level (['\x7d'] ++ rest))
    exact ((makes_openBrace _).append (hmembers.newLine level)).append (makes_closeBrace rest)

theorem makes_prettyItems (items : List Json) (h : PlainItems items) (level : Nat) {rest : Text}
    (hr : EndsNumber rest) : Makes (prettyItems level items) rest (writtenItems items) := by
  match items with
  | [] => exact makes_nil rest
  | [item] => exact (makes_newLine level _).append (makes_pretty item h.1 level hr)
  | item :: next :: more =>
    have hitem := makes_pretty item h.1 level
      (endsNumber_cons (c := ',') (by decide) (prettyItems level (next :: more) ++ rest))
    exact ((makes_newLine level _).append hitem).append
      ((makes_comma _).append (makes_prettyItems (next :: more) h.2 level hr))

theorem makes_prettyMembers (members : List (List Symbol × Json)) (h : PlainMembers members)
    (level : Nat) {rest : Text} (hr : EndsNumber rest) :
    Makes (prettyMembers level members) rest (writtenMembers members) := by
  match members with
  | [] => exact makes_nil rest
  | [(key, v)] =>
    obtain ⟨⟨t, rfl⟩, hv, -⟩ := h
    exact ((makes_newLine level _).append (makes_string t _)).append ((makes_colon _).append
      ((makes_space _).append (makes_pretty v hv level hr)))
  | (key, v) :: next :: more =>
    obtain ⟨⟨t, rfl⟩, hv, hmore⟩ := h
    have hvalue := makes_pretty v hv level
      (endsNumber_cons (c := ',') (by decide) (prettyMembers level (next :: more) ++ rest))
    exact (((makes_newLine level _).append (makes_string t _)).append ((makes_colon _).append
      ((makes_space _).append hvalue))).append
        ((makes_comma _).append (makes_prettyMembers (next :: more) hmore level hr))

end

/-- A text with nothing behind it has the tokens that it makes. -/
theorem Makes.tokens?_eq {text : Text} {ts : List Token} (h : Makes text [] ts) :
    tokens? text = some ts := by
  rw [Makes, List.append_nil, tokens?, Option.map_some, List.append_nil] at h
  exact h

/-- A text that makes the tokens of a value is read as the value. -/
theorem Makes.read? {text : Text} {v : Json} (h : Makes text [] v.written) :
    Json.read? text = some v := by
  rw [Json.read?, h.tokens?_eq, Option.bind_some, ofTokens?_written]

/-- A plain value is read back from one line. -/
theorem read?_compact {v : Json} (h : v.Plain) : read? v.compact = some v :=
  (makes_compact v h endsNumber_nil).read?

/-- A plain value is read back from many lines. -/
theorem read?_pretty {v : Json} (h : v.Plain) (level : Nat) : read? (v.pretty level) = some v :=
  (makes_pretty v h level endsNumber_nil).read?

end Triage.Json
