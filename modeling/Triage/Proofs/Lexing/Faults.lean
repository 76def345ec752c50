import Triage.Proofs.Lexing.Leads
import Triage.Proofs.Readers

/-! Where splitting a text fails.

A text that cannot be split is passed over up to the first character that begins no lexeme
(`Cursor.leads_of_error`). The text before that character is split by itself into the tokens
that the steps of a cursor had taken, and what the error complains of is missing from all of the
text behind (`tokenize_take_of_error`). -/
namespace Triage

namespace LexError

/-- The character that stands where an error points. -/
def character : LexError → Char
  | unterminatedString _ => '"'
  | unterminatedBrace _ => '{'
  | danglingSign _ => '-'
  | unexpectedCharacter c _ => c

/-- What a step that meets the error makes of it: only a character that begins no lexeme is still a
token. -/
def step : LexError → Except LexError Token
  | unexpectedCharacter c p => .ok ⟨.error, [c], p, none⟩
  | e => .error e

end LexError

/-- The error of a fault at the offset `p`. -/
def Fault.error (p : Nat) : Fault → LexError
  | openString => .unterminatedString p
  | openBrace => .unterminatedBrace p
  | danglingSign => .danglingSign p

namespace Lexeme

/-- No token begins with the character `c` at the offset `p` and goes on in `rest`. -/
inductive Fails (p : Nat) : Char → Text → LexError → Prop where
  | quoted {rest : Text} : closeQuote rest = none → Fails p '"' rest (.unterminatedString p)
  | braced {rest : Text} : closeBrace rest = none → Fails p '{' rest (.unterminatedBrace p)
  | sign {rest : Text} : rest.head?.any Char.isDigit = false → Fails p '-' rest (.danglingSign p)
  | stray {c : Char} {rest : Text} :
      read c rest = .ok ⟨.error, 1, none⟩ → Fails p c rest (.unexpectedCharacter c p)

variable {p : Nat} {c : Char} {rest : Text}

theorem fails_of_read_error {fault : Fault} (h : read c rest = .error fault) :
    Fails p c rest (fault.error p) := by
  unfold read at h
  split at h
  case h_8 =>
    split at h
    · cases h
    · next hc =>
      cases h
      exact .quoted hc
  case h_9 =>
    split at h
    · cases h
    · next hc =>
      cases h
      exact .braced hc
  case h_10 =>
    split at h
    · next hsign =>
      cases h
      obtain ⟨rfl, hd⟩ := hsign
      exact .sign (by simpa using hd)
    · repeat' split at h
      all_goals cases h
  all_goals cases h

theorem fails_of_kind_error {lexeme : Lexeme} (h : read c rest = .ok lexeme)
    (hk : lexeme.kind = .error) : Fails p c rest (.unexpectedCharacter c p) := by
  have hstray : lexeme = ⟨.error, 1, none⟩ := by
    unfold read at h
    split at h
    case h_10 =>
      repeat' split at h
      all_goals cases h
      · exact absurd hk (kind_ofNumeral_ne _).2
      · exact absurd hk (kind_ofWord_ne _ _).2
      · rfl
    all_goals repeat' split at h
    all_goals cases h
    all_goals first
      | rfl
      | cases hk
  rw [hstray] at h
  exact .stray h

namespace Fails

variable {e : LexError}

theorem position_eq (h : Fails p c rest e) : e.position = p := by cases h <;> rfl

theorem character_eq (h : Fails p c rest e) : e.character = c := by cases h <;> rfl

theorem next_eq (h : Fails p c rest e) (hb : Text.isBlank c = false) :
    (Cursor.next ⟨p, c :: rest⟩).1 = e.step := by
  have hskip := Cursor.skipBlanks_of_not_isBlank p rest hb
  cases h with
  | quoted hc => simp only [Cursor.next, hskip, read, hc, LexError.step]
  | braced hc => simp only [Cursor.next, hskip, read, hc, LexError.step]
  | sign hd =>
    have hread : read '-' rest = .error .danglingSign := by
      rw [read_word (by decide), if_pos ⟨rfl, by simp [hd]⟩]
    simp only [Cursor.next, hskip, hread, LexError.step]
  | stray hr =>
    rw [Cursor.next_lexeme p hb hr]
    rfl

theorem tokens_eq (h : Fails p c rest e) (hb : Text.isBlank c = false) :
    Cursor.tokens ⟨p, c :: rest⟩ = .error e := by
  have hnext := h.next_eq hb
  rw [Cursor.tokens_eq]
  generalize Cursor.next ⟨p, c :: rest⟩ = result at hnext
  obtain ⟨_, after⟩ := result
  obtain rfl := hnext
  cases h <;> rfl

end Fails

end Lexeme

/-! ### The first failure -/

namespace Cursor

variable {p : Nat} {text : Text} {e : LexError}

/-- Where a text that cannot be split goes on with no blank, it fails there or behind a lexeme. -/
theorem fails_or_reads {c : Char} {rest : Text} (hb : Text.isBlank c = false)
    (h : tokens ⟨p, c :: rest⟩ = .error e) :
    Lexeme.Fails p c rest e ∨ ∃ lexeme, Lexeme.Reads c rest lexeme ∧
      tokens ⟨p + lexeme.length, (c :: rest).drop lexeme.length⟩ = .error e := by
  cases hr : Lexeme.read c rest with
  | error fault =>
    have hf := Lexeme.fails_of_read_error (p := p) hr
    obtain rfl := Except.error.inj ((hf.tokens_eq hb).symm.trans h)
    exact .inl hf
  | ok lexeme =>
    by_cases hk : lexeme.kind = .error
    · have hf := Lexeme.fails_of_kind_error (p := p) hr hk
      obtain rfl := Except.error.inj ((hf.tokens_eq hb).symm.trans h)
      exact .inl hf
    · have hreads := Lexeme.reads_of_read hr hk
      refine .inr ⟨lexeme, hreads, ?_⟩
      rw [tokens_reads p hb hreads] at h
      cases ht : tokens ⟨p + lexeme.length, (c :: rest).drop lexeme.length⟩ with
      | ok ts =>
        rw [ht] at h
        cases h
      | error e' =>
        rw [ht] at h
        exact congrArg Except.error (Except.error.inj h)

/-- A text that cannot be split is passed over up to where it fails. -/
theorem leads_of_error (h : tokens ⟨p, text⟩ = .error e) :
    ∃ piece c rest ts, text = piece ++ c :: rest ∧ Leads (c :: rest) p piece ts ∧
      Text.isBlank c = false ∧ Lexeme.Fails (p + piece.length) c rest e := by
  induction hn : text.length using Nat.strongRecOn generalizing p text with
  | ind n ih =>
    cases text with
    | nil =>
      rw [tokens_nil] at h
      cases h
    | cons c rest =>
      cases hb : Text.isBlank c with
      | true =>
        rw [tokens_blank p rest hb] at h
        obtain ⟨piece, d, more, ts, rfl, hleads, hd, hf⟩ :=
          ih rest.length (hn ▸ Nat.lt_succ_self _) h rfl
        rw [Nat.add_assoc, Nat.add_comm 1] at hf
        exact ⟨c :: piece, d, more, ts, rfl, .blank hb hleads, hd, hf⟩
      | false =>
        obtain hf | ⟨lexeme, hr, h⟩ := fails_or_reads hb h
        · exact ⟨[], c, rest, [], rfl, .done, hb, hf⟩
        · obtain ⟨tail, hlen, htext⟩ := hr.exists_tail hr.length_le
          have hshort : ((c :: rest).drop lexeme.length).length < n := by
            have hpos := Lexeme.length_pos_of_read hr.read_eq
            rw [List.length_drop, hn]
            rw [List.length_cons] at hn
            omega
          obtain ⟨piece, d, more, ts, hafter, hleads, hd, hf⟩ := ih _ hshort h rfl
          rw [hafter] at htext
          rw [htext, ← List.append_assoc] at hr ⊢
          refine ⟨c :: tail ++ piece, d, more, _, rfl, .of_reads hb hr hlen hleads, hd, ?_⟩
          rwa [List.length_append, ← hlen, ← Nat.add_assoc]

/-- Steps pass over blanks as well. -/
theorem steps_blank {c : Char} (rest : Text) (hb : Text.isBlank c = true) (n : Nat) :
    steps ⟨p, c :: rest⟩ n = steps ⟨p + 1, rest⟩ n := by
  cases n with
  | zero => rfl
  | succ n => rw [steps, steps, next_blank p rest hb]

end Cursor

/-- As many steps as a piece has tokens take them one by one, and lead behind the piece. -/
theorem Leads.steps_eq {p : Nat} {piece rest : Text} {ts : List Token} (h : Leads rest p piece ts)
    (n : Nat) :
    Cursor.steps ⟨p, piece ++ rest⟩ (ts.length + n) =
      ts.map .ok ++ Cursor.steps ⟨p + piece.length, rest⟩ n := by
  induction h with
  | done => rw [List.length_nil, Nat.zero_add]; rfl
  | @blank p c text ts hb _ ih =>
    rw [List.cons_append, Cursor.steps_blank _ hb, ih, List.length_cons, Nat.add_assoc,
      Nat.add_comm 1]
  | @lexeme p c text lexeme ts hb hr hle _ ih =>
    rw [List.cons_append, List.length_cons, Nat.add_right_comm, Cursor.steps,
      Cursor.next_lexeme p hb hr.read_eq, ← List.cons_append, List.drop_append_of_le_length hle, ih,
      Lexeme.add_length_drop p hle, List.take_append_of_le_length hle]
    rfl

/-! ### What is missing behind an error -/

/-- How many backslashes a text ends with. If they are odd in number, the last one escapes the
character behind the text. -/
def Text.closingBackslashes (text : Text) : Nat := (text.reverse.takeWhile (· = '\\')).length

namespace Text

theorem closingBackslashes_cons (c : Char) (t : Text) :
    closingBackslashes (c :: t) =
      if closingBackslashes t = t.length ∧ c = '\\' then t.length + 1
      else closingBackslashes t := by
  simp only [closingBackslashes, List.reverse_cons, List.takeWhile_append, List.length_reverse]
  by_cases ht : (t.reverse.takeWhile (· = '\\')).length = t.length
  · by_cases hc : c = '\\' <;> simp [ht, hc]
  · simp [ht]

theorem closingBackslashes_le (t : Text) : closingBackslashes t ≤ t.length := by
  rw [← List.length_reverse]
  exact (List.takeWhile_sublist _).length_le

/-- A backslash and the character that it escapes. -/
theorem odd_closingBackslashes_escape {c : Char} {t : Text} (h : closingBackslashes t % 2 = 1) :
    closingBackslashes ('\\' :: c :: t) % 2 = 1 := by
  have hle := closingBackslashes_le t
  rw [closingBackslashes_cons, closingBackslashes_cons, List.length_cons]
  by_cases ht : closingBackslashes t = t.length ∧ c = '\\'
  · rw [if_pos ht, if_pos ⟨rfl, rfl⟩]
    omega
  · rw [if_neg ht, if_neg (by omega)]
    exact h

end Text

/-- Without a closing quote, a quote is one that a backslash escapes. -/
theorem Lexeme.odd_of_closeQuote_eq_none {rest before after : Text} (h : closeQuote rest = none)
    (hrest : rest = before ++ '"' :: after) : before.closingBackslashes % 2 = 1 := by
  fun_induction closeQuote rest generalizing before with
  | case1 => exact absurd hrest (by simp)
  | case2 => cases h
  | case3 =>
    cases before with
    | nil => exact absurd hrest (by simp)
    | cons b before => cases before <;> exact absurd hrest (by simp)
  | case4 c rest ih =>
    cases before with
    | nil => exact absurd hrest (by simp)
    | cons b before =>
      obtain ⟨rfl, htail⟩ := List.cons.inj hrest
      cases before with
      | nil => rfl
      | cons d before =>
        obtain ⟨rfl, hmore⟩ := List.cons.inj htail
        exact Text.odd_closingBackslashes_escape (ih (Option.map_eq_none_iff.1 h) hmore)
  | case5 c rest hq hlast hpair ih =>
    cases before with
    | nil => exact absurd (List.cons.inj hrest).1 hq
    | cons b before =>
      obtain ⟨rfl, htail⟩ := List.cons.inj hrest
      rw [Text.closingBackslashes_cons, if_neg fun hb => ne_backslash hlast hpair hb.2]
      exact ih (Option.map_eq_none_iff.1 h) htail

theorem Lexeme.notMem_of_closeBrace_eq_none {rest : Text} (h : closeBrace rest = none) :
    '}' ∉ rest := by
  fun_induction closeBrace rest with
  | case1 => exact List.not_mem_nil
  | case2 => cases h
  | case3 c rest hc ih =>
    rw [List.mem_cons, not_or]
    exact ⟨Ne.symm hc, ih (Option.map_eq_none_iff.1 h)⟩

/-- What an error says of the text behind the place where it points. -/
def LexError.Says : LexError → Text → Prop
  | unterminatedString _, rest =>
    ∀ before after, rest = before ++ '"' :: after → before.closingBackslashes % 2 = 1
  | unterminatedBrace _, rest => '}' ∉ rest
  | danglingSign _, rest => ∀ c ∈ rest.head?, c.isDigit = false
  | unexpectedCharacter _ _, _ => True

theorem Lexeme.Fails.says {p : Nat} {c : Char} {rest : Text} {e : LexError}
    (h : Fails p c rest e) : e.Says rest := by
  cases h with
  | quoted hc => exact fun _ _ => odd_of_closeQuote_eq_none hc
  | braced hc => exact notMem_of_closeBrace_eq_none hc
  | sign hd =>
    intro c hc
    rw [Option.mem_def.1 hc] at hd
    exact hd
  | stray _ => trivial

/-- **The first fault is the one that is reported.** The steps up to it take the tokens into which
the text before it is split by itself, the next one meets the error, and what the error misses is
nowhere behind. -/
theorem tokenize_take_of_error {text : Text} {e : LexError} (h : tokenize text = .error e) :
    ∃ ts, (Cursor.start text).steps (ts.length + 1) = ts.map .ok ++ [e.step] ∧
      tokenize (text.take e.position) = .ok (ts ++ [⟨.eof, [], e.position, none⟩]) ∧
      e.Says (text.drop (e.position + 1)) := by
  obtain ⟨piece, c, rest, ts, rfl, hleads, hb, hf⟩ := Cursor.leads_of_error h
  have hposition := hf.position_eq
  have hsteps := hleads.steps_eq 1
  have hcut := hleads.cut.yields.tokens_eq
  have hstep : Cursor.steps ⟨0 + piece.length, c :: rest⟩ 1 = [e.step] := by
    rw [Cursor.steps, hf.next_eq hb]
    rfl
  rw [hstep] at hsteps
  rw [Nat.zero_add] at hposition hcut
  refine ⟨ts, hsteps, ?_, ?_⟩
  · rwa [hposition, List.take_left]
  · rw [hposition, ← List.drop_drop, List.drop_left]
    exact hf.says

/-- The word `by` that stands in an open quote does not belong to the word `sort`, and the quote in
front of it is the one that is open, as the other one is escaped. -/
theorem tokenize_take_of_error_sort :
    (Cursor.start "sort \"by\\\" x".toList).steps 2 =
        [.ok ⟨.identifier, "sort".toList, 0, none⟩, .error (.unterminatedString 5)] ∧
      (LexError.unterminatedString 5).Says "by\\\" x".toList := by
  have h : tokenize "sort \"by\\\" x".toList = .error (.unterminatedString 5) := by
    apply eq_error_of_isError
    decide +kernel
  have hsort : tokenize ("sort \"by\\\" x".toList.take 5) =
      .ok ([⟨.identifier, "sort".toList, 0, none⟩] ++ [⟨.eof, [], 5, none⟩]) := by
    apply eq_ok_of_toOption
    decide +kernel
  obtain ⟨ts, hsteps, hcut, hsays⟩ := tokenize_take_of_error h
  obtain ⟨rfl, -⟩ := List.append_inj' (Except.ok.inj (hcut.symm.trans hsort)) rfl
  exact ⟨hsteps, hsays⟩

end Triage
