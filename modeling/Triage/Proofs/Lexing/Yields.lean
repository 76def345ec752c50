import Triage.Proofs.Lexing

/-! Texts that are split into tokens, rule by rule.

`Lexeme.Reads` lists the lexemes that begin tokens, one rule for each way in which a
lexeme is read, and `Yields` puts them together: the end of a text is a token, a
blank is passed over, a lexeme is a token. This is what splitting comes to when it
succeeds (`Yields.iff_tokens`), so what holds of all texts that are split is shown
by induction on the rules: at another offset they yield the same tokens moved
(`Yields.shift`). -/
namespace Triage

/-! ### Lexemes -/

namespace Lexeme

/-- The characters that are tokens by themselves. -/
def marks : List (Char × Token.Kind) :=
  [(':', .colon), (',', .comma), ('*', .star), ('(', .leftParen), (')', .rightParen),
   ('}', .rightBrace)]

/-- A lexeme that begins with the character `c` and goes on in `rest` is a token. -/
inductive Reads : Char → Text → Lexeme → Prop where
  | mark {c : Char} {kind : Token.Kind} {rest : Text} :
      (c, kind) ∈ marks → Reads c rest ⟨kind, 1, none⟩
  | dots {rest : Text} : Reads '.' ('.' :: rest) ⟨.dotDot, 2, none⟩
  | quoted {rest t : Text} {n : Nat} :
      closeQuote rest = some (n, t) → Reads '"' rest ⟨.string, n + 1, some (.text t)⟩
  | braced {rest t : Text} {n : Nat} :
      closeBrace rest = some (n, t) → Reads '{' rest ⟨.string, n + 1, some (.text t)⟩
  | numeral {c : Char} {rest : Text} :
      Text.isWordChar c = true → c.isDigit = true ∨ c = '-' ∧ rest.head?.any Char.isDigit = true →
      Reads c rest (ofNumeral (c :: rest.takeWhile Text.isWordChar))
  | word {c : Char} {rest : Text} :
      Text.isWordChar c = true → c.isDigit = false → c ≠ '-' →
      Reads c rest
        (ofWord (c :: rest.takeWhile Text.isWordChar) (rest.dropWhile Text.isWordChar))

theorem Reads.read_eq {c : Char} {rest : Text} {lexeme : Lexeme} (h : Reads c rest lexeme) :
    read c rest = .ok lexeme := by
  cases h with
  | mark hm =>
    simp only [marks, List.mem_cons, Prod.mk.injEq, List.not_mem_nil, or_false] at hm
    rcases hm with ⟨rfl, rfl⟩ | ⟨rfl, rfl⟩ | ⟨rfl, rfl⟩ | ⟨rfl, rfl⟩ | ⟨rfl, rfl⟩ | ⟨rfl, rfl⟩ <;>
      rfl
  | dots => rfl
  | quoted hc => simp only [read, hc]
  | braced hc => simp only [read, hc]
  | numeral hw hn =>
    have hsign : ¬ (c = '-' ∧ (!rest.head?.any Char.isDigit) = true) := by
      rintro ⟨rfl, hh⟩
      rcases hn with hn | ⟨-, hn⟩
      · exact absurd hn (by decide)
      · rw [hn] at hh
        exact Bool.noConfusion hh
    rw [read_word hw, if_neg hsign, if_pos (hn.symm.imp And.left id)]
  | word hw hd hs => rw [read_word hw, if_neg fun h => hs h.1, if_neg (by simp [hs, hd])]

theorem reads_of_read {c : Char} {rest : Text} {lexeme : Lexeme} (h : read c rest = .ok lexeme)
    (hk : lexeme.kind ≠ .error) : Reads c rest lexeme := by
  by_cases hw : Text.isWordChar c = true
  · rw [read_word hw] at h
    split at h
    · exact absurd h (by simp)
    · next hsign =>
      split at h
      · next hn =>
        obtain rfl := Except.ok.inj h
        refine .numeral hw (hn.symm.imp_right fun hs => ⟨hs, ?_⟩)
        simpa [hs] using hsign
      · next hn =>
        obtain rfl := Except.ok.inj h
        obtain ⟨hs, hd⟩ := not_or.1 hn
        exact .word hw (by simpa using hd) hs
  · unfold read at h
    split at h
    case h_7 =>
      split at h
      · next hdot =>
        obtain rfl := Except.ok.inj h
        cases rest with
        | nil => exact absurd hdot (by simp)
        | cons d rest =>
          obtain rfl : d = '.' := Option.some.inj hdot
          exact .dots
      · obtain rfl := Except.ok.inj h
        exact absurd rfl hk
    case h_8 =>
      split at h
      · next hc =>
        obtain rfl := Except.ok.inj h
        exact .quoted hc
      · exact absurd h (by simp)
    case h_9 =>
      split at h
      · next hc =>
        obtain rfl := Except.ok.inj h
        exact .braced hc
      · exact absurd h (by simp)
    case h_10 =>
      have hdigit : ¬ c.isDigit = true := fun hd => hw (Text.isWordChar_of_isDigit hd)
      have hminus : c ≠ '-' := by
        rintro rfl
        exact hw (by decide)
      simp only [hminus, hdigit, hw, false_and, or_self, if_false, Bool.false_eq_true] at h
      obtain rfl := Except.ok.inj h
      exact absurd rfl hk
    all_goals
      obtain rfl := Except.ok.inj h
      exact .mark (by decide)

theorem kind_ofNumeral_ne (word : Text) :
    (ofNumeral word).kind ≠ .eof ∧ (ofNumeral word).kind ≠ .error := by
  simp only [ofNumeral]
  split <;> simp

theorem kind_ofWord_ne (word rest : Text) :
    (ofWord word rest).kind ≠ .eof ∧ (ofWord word rest).kind ≠ .error := by
  simp only [ofWord]
  repeat' split
  all_goals simp

/-- No token is read as the end of the text or as an error. -/
theorem Reads.kind_ne {c : Char} {rest : Text} {lexeme : Lexeme} (h : Reads c rest lexeme) :
    lexeme.kind ≠ .eof ∧ lexeme.kind ≠ .error := by
  cases h with
  | mark hm =>
    have hkinds : ∀ mark ∈ marks, mark.2 ≠ .eof ∧ mark.2 ≠ .error := by decide
    exact hkinds _ hm
  | dots => decide
  | quoted _ => simp
  | braced _ => simp
  | numeral _ _ => exact kind_ofNumeral_ne _
  | word _ _ _ => exact kind_ofWord_ne _ _

/-! ### How long lexemes are -/

theorem length_le_of_closeQuote {rest t : Text} {n : Nat} (h : closeQuote rest = some (n, t)) :
    n ≤ rest.length := by
  fun_induction closeQuote rest generalizing n t with
  | case1 => exact absurd h (by simp)
  | case2 =>
    obtain ⟨rfl, -⟩ := Prod.mk.inj (Option.some.inj h)
    exact Nat.succ_le_succ (Nat.zero_le _)
  | case3 => exact absurd h (by simp)
  | case4 c rest ih =>
    obtain ⟨⟨m, u⟩, hm, heq⟩ := Option.map_eq_some_iff.1 h
    obtain ⟨rfl, -⟩ := Prod.mk.inj heq
    exact Nat.add_le_add_right (ih hm) 2
  | case5 c rest _ _ _ ih =>
    obtain ⟨⟨m, u⟩, hm, heq⟩ := Option.map_eq_some_iff.1 h
    obtain ⟨rfl, -⟩ := Prod.mk.inj heq
    exact Nat.succ_le_succ (ih hm)

theorem length_le_of_closeBrace {rest t : Text} {n : Nat} (h : closeBrace rest = some (n, t)) :
    n ≤ rest.length := by
  fun_induction closeBrace rest generalizing n t with
  | case1 => exact absurd h (by simp)
  | case2 =>
    obtain ⟨rfl, -⟩ := Prod.mk.inj (Option.some.inj h)
    exact Nat.succ_le_succ (Nat.zero_le _)
  | case3 c rest _ ih =>
    obtain ⟨⟨m, u⟩, hm, heq⟩ := Option.map_eq_some_iff.1 h
    obtain ⟨rfl, -⟩ := Prod.mk.inj heq
    exact Nat.succ_le_succ (ih hm)

theorem length_le_of_byLength? {rest : Text} {n : Nat} (h : byLength? rest = some n) :
    n ≤ rest.length := by
  have hblanks : (rest.takeWhile Text.isBlank).length ≤ rest.length :=
    (List.takeWhile_sublist _).length_le
  have hword : ((rest.drop (rest.takeWhile Text.isBlank).length).takeWhile
      Text.isWordChar).length ≤ _ := (List.takeWhile_sublist _).length_le
  rw [List.length_drop] at hword
  simp only [byLength?] at h
  split at h
  · obtain rfl := Option.some.inj h
    omega
  · exact absurd h (by simp)

theorem length_ofWord_le (word rest : Text) :
    (ofWord word rest).length ≤ word.length + rest.length := by
  simp only [ofWord]
  repeat' split
  all_goals first
    | exact Nat.le_add_right _ _
    | next h => exact Nat.add_le_add_left (length_le_of_byLength? h) _

theorem length_ofNumeral (word : Text) : (ofNumeral word).length = word.length := by
  simp only [ofNumeral]
  split <;> rfl

/-- A lexeme is no longer than the text. -/
theorem Reads.length_le {c : Char} {rest : Text} {lexeme : Lexeme} (h : Reads c rest lexeme) :
    lexeme.length ≤ (c :: rest).length := by
  cases h with
  | mark _ => exact Nat.succ_le_succ (Nat.zero_le _)
  | dots => exact Nat.succ_le_succ (Nat.succ_le_succ (Nat.zero_le _))
  | quoted hc => exact Nat.succ_le_succ (length_le_of_closeQuote hc)
  | braced hc => exact Nat.succ_le_succ (length_le_of_closeBrace hc)
  | numeral _ _ =>
    rw [length_ofNumeral]
    exact Nat.succ_le_succ (List.takeWhile_sublist _).length_le
  | word _ _ _ =>
    refine Nat.le_trans (length_ofWord_le _ _) ?_
    have hsplit := length_takeWhile_add_dropWhile Text.isWordChar rest
    simp only [List.length_cons]
    omega

end Lexeme

/-! ### Texts -/

/-- The token that a lexeme at the front of a text makes at the offset `p`. -/
def Lexeme.token (lexeme : Lexeme) (p : Nat) (text : Text) : Token :=
  ⟨lexeme.kind, text.take lexeme.length, p, lexeme.literal⟩

/-- The text at the offset `p` is split into the tokens `ts`. -/
inductive Yields : Nat → Text → List Token → Prop where
  | done {p : Nat} : Yields p [] [⟨.eof, [], p, none⟩]
  | blank {p : Nat} {c : Char} {rest : Text} {ts : List Token} :
      Text.isBlank c = true → Yields (p + 1) rest ts → Yields p (c :: rest) ts
  | lexeme {p : Nat} {c : Char} {rest : Text} {lexeme : Lexeme} {ts : List Token} :
      Text.isBlank c = false → Lexeme.Reads c rest lexeme →
      Yields (p + lexeme.length) ((c :: rest).drop lexeme.length) ts →
      Yields p (c :: rest) (lexeme.token p (c :: rest) :: ts)

theorem Cursor.tokens_reads (p : Nat) {c : Char} {rest : Text} {lexeme : Lexeme}
    (hb : Text.isBlank c = false) (h : Lexeme.Reads c rest lexeme) :
    tokens ⟨p, c :: rest⟩ = (tokens ⟨p + lexeme.length, (c :: rest).drop lexeme.length⟩).map
      (lexeme.token p (c :: rest) :: ·) :=
  tokens_lexeme p hb h.read_eq h.kind_ne.1 h.kind_ne.2

/-- Where no blank stands, a text that is split begins with a lexeme. -/
theorem Cursor.exists_reads {p : Nat} {c : Char} {rest : Text} {all : List Token}
    (hb : Text.isBlank c = false) (h : tokens ⟨p, c :: rest⟩ = .ok all) :
    ∃ lexeme ts, Lexeme.Reads c rest lexeme ∧
      tokens ⟨p + lexeme.length, (c :: rest).drop lexeme.length⟩ = .ok ts ∧
      all = lexeme.token p (c :: rest) :: ts := by
  cases hr : Lexeme.read c rest with
  | error fault =>
    rw [Cursor.tokens_eq] at h
    cases fault <;> simp [next, skipBlanks_of_not_isBlank p rest hb, hr] at h
  | ok lexeme =>
    by_cases hk : lexeme.kind = .error
    · rw [Cursor.tokens_eq] at h
      simp [next, skipBlanks_of_not_isBlank p rest hb, hr, hk] at h
    · have hreads := Lexeme.reads_of_read hr hk
      rw [tokens_reads p hb hreads] at h
      cases ht : tokens ⟨p + lexeme.length, (c :: rest).drop lexeme.length⟩ with
      | error e =>
        rw [ht] at h
        exact absurd h (by simp [Except.map])
      | ok ts =>
        rw [ht] at h
        exact ⟨lexeme, ts, hreads, ht, (Except.ok.inj h).symm⟩

/-- A token further on in the text. -/
def Token.shift (n : Nat) (token : Token) : Token := { token with position := n + token.position }

namespace Yields

theorem tokens_eq {p : Nat} {text : Text} {ts : List Token} (h : Yields p text ts) :
    Cursor.tokens ⟨p, text⟩ = .ok ts := by
  induction h with
  | done => exact Cursor.tokens_nil _
  | blank hb _ ih => rw [Cursor.tokens_blank _ _ hb, ih]
  | lexeme hb hr _ ih =>
    rw [Cursor.tokens_reads _ hb hr, ih]
    rfl

theorem of_tokens {p : Nat} {text : Text} {ts : List Token}
    (h : Cursor.tokens ⟨p, text⟩ = .ok ts) : Yields p text ts := by
  induction hn : text.length using Nat.strongRecOn generalizing p text ts with
  | ind n ih =>
    cases text with
    | nil =>
      rw [Cursor.tokens_nil] at h
      obtain rfl := Except.ok.inj h
      exact .done
    | cons c rest =>
      cases hb : Text.isBlank c with
      | true =>
        rw [Cursor.tokens_blank p rest hb] at h
        exact .blank hb (ih rest.length (hn ▸ Nat.lt_succ_self _) h rfl)
      | false =>
        obtain ⟨lexeme, more, hr, hmore, rfl⟩ := Cursor.exists_reads hb h
        refine .lexeme hb hr (ih _ ?_ hmore rfl)
        have hpos := Lexeme.length_pos_of_read hr.read_eq
        have hn0 : 0 < n := hn ▸ Nat.succ_pos rest.length
        rw [List.length_drop, hn]
        omega

theorem iff_tokens {p : Nat} {text : Text} {ts : List Token} :
    Yields p text ts ↔ Cursor.tokens ⟨p, text⟩ = .ok ts :=
  ⟨tokens_eq, of_tokens⟩

/-- At an offset further on, a text yields the same tokens moved. -/
theorem shift (n : Nat) {p : Nat} {text : Text} {ts : List Token} (h : Yields p text ts) :
    Yields (n + p) text (ts.map (Token.shift n)) := by
  induction h with
  | done => exact .done
  | blank hb _ ih => exact .blank hb ih
  | @lexeme p c rest lexeme ts hb hr _ ih =>
    rw [← Nat.add_assoc] at ih
    exact .lexeme hb hr ih

/-- What a text yields at an offset further on is what it yields, moved. -/
theorem exists_shift {n p : Nat} {text : Text} {ts : List Token} (h : Yields (n + p) text ts) :
    ∃ us, Yields p text us ∧ us.map (Token.shift n) = ts := by
  generalize hq : n + p = q at h
  induction h generalizing p with
  | done =>
    subst hq
    exact ⟨_, .done, rfl⟩
  | blank hb _ ih =>
    obtain ⟨us, hus, rfl⟩ := ih (p := p + 1) (by omega)
    exact ⟨us, .blank hb hus, rfl⟩
  | lexeme hb hr _ ih =>
    subst hq
    obtain ⟨us, hus, rfl⟩ := ih (Nat.add_assoc n p _).symm
    exact ⟨_, .lexeme hb hr hus, rfl⟩

end Yields
end Triage
