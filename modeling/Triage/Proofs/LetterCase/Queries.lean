import Triage.Proofs.LetterCase.Values
import Triage.Selection

/-! Queries that differ in the case of ASCII letters.

Texts of the same letters are split at the same places into tokens of the same kinds
and letters (`Yields.sameLetters`), since words are cut by tables that ignore case,
keywords are known by their lower case and numbers have no letters. What such tokens
write is alike, so the two queries are both read or both refused, and they select the
same issues in the same order (`Query.run_eq_of_equalAsciiCase`). -/
namespace Triage
open Text

/-! ### Lexemes -/

namespace Lexeme

/-- Lexemes of one kind and length that stand for the same letters. -/
structure SameLetters (a b : Lexeme) : Prop where
  kind : b.kind = a.kind
  length : b.length = a.length
  literal : Token.LikeLiteral Text.SameLetters a.literal b.literal

theorem SameLetters.refl (lexeme : Lexeme) : SameLetters lexeme lexeme :=
  ⟨rfl, rfl, Token.likeLiteral_refl Text.SameLetters.refl _⟩

variable {s t u v : Text} {n : Nat}

theorem closeQuote_sameLetters (h : Text.SameLetters s t) (hs : closeQuote s = some (n, u)) :
    ∃ v, closeQuote t = some (n, v) ∧ Text.SameLetters u v := by
  fun_induction closeQuote s generalizing t n u with
  | case1 => exact absurd hs (by simp)
  | case2 rest =>
    obtain ⟨rfl, rfl⟩ := Prod.mk.inj (Option.some.inj hs)
    obtain _ | ⟨hq, -⟩ := h
    obtain rfl := hq.eq rfl
    exact ⟨[], rfl, .nil⟩
  | case3 => exact absurd hs (by simp)
  | case4 c rest ih =>
    obtain ⟨⟨m, w⟩, hm, heq⟩ := Option.map_eq_some_iff.1 hs
    obtain ⟨rfl, rfl⟩ := Prod.mk.inj heq
    obtain _ | ⟨hslash, _ | @⟨_, d, _, t, hc, hrest⟩⟩ := h
    obtain rfl := hslash.eq rfl
    obtain ⟨v, hv, hwv⟩ := ih hrest hm
    have hescaped : (c = '"' ∨ c = '\\') ↔ (d = '"' ∨ d = '\\') := by
      rw [hc.eq_iff (e := '"') rfl, hc.eq_iff (e := '\\') rfl]
    refine ⟨_, by rw [closeQuote, hv]; rfl, ?_⟩
    -- The backslash is dropped in both texts or kept in both.
    simp only [hescaped]
    split
    · exact .cons hc hwv
    · exact .cons hslash (.cons hc hwv)
  | case5 c rest hq hlast hpair ih =>
    have hb := ne_backslash hlast hpair
    obtain ⟨⟨m, w⟩, hm, heq⟩ := Option.map_eq_some_iff.1 hs
    obtain ⟨rfl, rfl⟩ := Prod.mk.inj heq
    obtain _ | @⟨_, d, _, t, hc, hrest⟩ := h
    obtain ⟨v, hv, hwv⟩ := ih hrest hm
    refine ⟨d :: v, ?_, .cons hc hwv⟩
    rw [closeQuote_cons (mt (hc.eq_iff rfl).2 hq) (mt (hc.eq_iff rfl).2 hb), hv]
    rfl

theorem closeBrace_sameLetters (h : Text.SameLetters s t) (hs : closeBrace s = some (n, u)) :
    ∃ v, closeBrace t = some (n, v) ∧ Text.SameLetters u v := by
  fun_induction closeBrace s generalizing t n u with
  | case1 => exact absurd hs (by simp)
  | case2 rest =>
    obtain ⟨rfl, rfl⟩ := Prod.mk.inj (Option.some.inj hs)
    obtain _ | ⟨hbrace, -⟩ := h
    obtain rfl := hbrace.eq rfl
    exact ⟨[], rfl, .nil⟩
  | case3 c rest hbrace ih =>
    obtain ⟨⟨m, w⟩, hm, heq⟩ := Option.map_eq_some_iff.1 hs
    obtain ⟨rfl, rfl⟩ := Prod.mk.inj heq
    obtain _ | @⟨_, d, _, t, hc, hrest⟩ := h
    obtain ⟨v, hv, hwv⟩ := ih hrest hm
    refine ⟨d :: v, ?_, .cons hc hwv⟩
    rw [closeBrace, hv]
    · rfl
    · exact mt (hc.eq_iff rfl).2 hbrace

theorem byLength?_eq (h : Text.SameLetters s t) : byLength? s = byLength? t := by
  have hblanks := h.takeWhile ignoresCase_isBlank
  have hword := Text.SameLetters.takeWhile
    (List.forall₂_drop (s.takeWhile isBlank).length h) ignoresCase_isWordChar
  simp only [byLength?, equalAsciiCase, hblanks.isEmpty_eq, ← hblanks.length_eq, hword.length_eq,
    hword.map_eq fun _ _ hc => hc]

theorem ofWord_eq (hword : Text.SameLetters s t) (hrest : Text.SameLetters u v) :
    ofWord s u = ofWord t v := by
  simp only [ofWord, hword.lower_eq, hword.length_eq, byLength?_eq hrest]

theorem integer?_eq (h : Text.SameLetters s t) : integer? s = integer? t := by
  cases h with
  | nil => rfl
  | @cons c d s t hc hrest =>
    have hrest : Text.SameLetters s t := hrest
    have hword : Text.SameLetters (c :: s) (d :: t) := .cons hc hrest
    simp only [integer?, List.head?_cons, List.tail_cons, Option.some.injEq,
      hc.eq_iff (e := '-') rfl, allDigits, Integer.read?_eq hword]
    split
    · rw [hrest.all_eq ignoresCase_isDigit]
    · rw [hword.all_eq ignoresCase_isDigit]

theorem ofNumeral_eq (h : Text.SameLetters s t) : ofNumeral s = ofNumeral t := by
  simp only [ofNumeral, integer?_eq h, h.length_eq]

/-- Lexemes of the same letters begin texts of the same letters. -/
theorem Reads.sameLetters {c d : Char} {lexeme : Lexeme} (h : Reads c s lexeme)
    (hc : SameLetter c d) (hs : Text.SameLetters s t) :
    ∃ other, Reads d t other ∧ SameLetters lexeme other := by
  cases h with
  | mark hm =>
    have hmarks : ∀ mark ∈ marks, mark.1.isAlpha = false := by decide
    obtain rfl := hc.eq (hmarks _ hm)
    exact ⟨_, .mark hm, .refl _⟩
  | dots =>
    obtain rfl := hc.eq rfl
    obtain _ | ⟨hdot, -⟩ := hs
    obtain rfl := hdot.eq rfl
    exact ⟨_, .dots, .refl _⟩
  | quoted hq =>
    obtain rfl := hc.eq rfl
    obtain ⟨v, hv, huv⟩ := closeQuote_sameLetters hs hq
    exact ⟨_, .quoted hv, rfl, rfl, .text huv⟩
  | braced hb =>
    obtain rfl := hc.eq rfl
    obtain ⟨v, hv, huv⟩ := closeBrace_sameLetters hs hb
    exact ⟨_, .braced hv, rfl, rfl, .text huv⟩
  | numeral hw hn =>
    have hn' : d.isDigit = true ∨ d = '-' ∧ t.head?.any Char.isDigit = true := by
      rwa [← ignoresCase_isDigit c d hc, ← hc.eq_iff (e := '-') rfl,
        ← hs.head_any_eq ignoresCase_isDigit]
    refine ⟨_, .numeral ((ignoresCase_isWordChar c d hc).symm.trans hw) hn', ?_⟩
    rw [ofNumeral_eq (.cons hc (hs.takeWhile ignoresCase_isWordChar))]
    exact .refl _
  | word hw hd hm =>
    refine ⟨_, .word ((ignoresCase_isWordChar c d hc).symm.trans hw)
      ((ignoresCase_isDigit c d hc).symm.trans hd) (mt (hc.eq_iff rfl).2 hm), ?_⟩
    rw [ofWord_eq (.cons hc (hs.takeWhile ignoresCase_isWordChar))
      (hs.dropWhile ignoresCase_isWordChar)]
    exact .refl _

end Lexeme

/-! ### Tokens -/

/-- Texts of the same letters yield tokens of the same letters. -/
theorem Yields.sameLetters {p : Nat} {a b : Text} {ts : List Token} (h : Yields p a ts)
    (hab : SameLetters a b) :
    ∃ us, Yields p b us ∧ List.Forall₂ (Token.Like SameLetters) ts us := by
  induction h generalizing b with
  | done =>
    cases hab
    exact ⟨_, .done, .cons ⟨rfl, .nil, .none⟩ .nil⟩
  | blank hb _ ih =>
    obtain _ | ⟨hc, hrest⟩ := hab
    obtain ⟨us, hus, hlike⟩ := ih hrest
    exact ⟨us, .blank ((ignoresCase_isBlank _ _ hc).symm.trans hb) hus, hlike⟩
  | @lexeme p c rest lexeme ts hb hr _ ih =>
    obtain _ | @⟨_, d, _, rest', hc, hrest⟩ := hab
    obtain ⟨other, hother, hlike⟩ := hr.sameLetters hc hrest
    obtain ⟨us, hus, htokens⟩ := ih (List.forall₂_drop lexeme.length (.cons hc hrest))
    rw [← hlike.length] at hus
    refine ⟨_, .lexeme ((ignoresCase_isBlank c d hc).symm.trans hb) hother hus,
      .cons ⟨hlike.kind, ?_, hlike.literal⟩ htokens⟩
    show SameLetters _ ((d :: rest').take other.length)
    rw [hlike.length]
    exact List.forall₂_take _ (.cons hc hrest)

/-! ### Queries -/

namespace Query

theorem run_eq_of_like {q r : Query} (h : Query.Like SameLetters q r) (now : Moment)
    (issues : List Issue) : q.run now issues = r.run now issues := by
  have hkeeps : q.keeps now = r.keeps now := by
    funext issue
    obtain ⟨filter, sort⟩ := q
    obtain ⟨filter', sort'⟩ := r
    obtain ⟨hfilter, -⟩ := h
    cases hfilter with
    | none => rfl
    | some hf => exact Filter.accepts_eq now issue hf
  rw [run, run, hkeeps, h.sort]

/-- **The case of ASCII letters in a query never matters.** Of two texts that are equal but for the
case of their ASCII letters, either both are read, as queries that select the same issues in the
same order at any time, or both are refused. -/
theorem run_eq_of_equalAsciiCase {a b : Text} (h : equalAsciiCase a b = true) :
    (∃ q r, parse a = .ok q ∧ parse b = .ok r ∧
      ∀ now issues, q.run now issues = r.run now issues) ∨
    ((∃ e, parse a = .error e) ∧ ∃ e, parse b = .error e) := by
  have hab := equalAsciiCase_iff.1 h
  cases ha : parse a with
  | ok q =>
    obtain ⟨r, hr, hlike⟩ := parse_like harmless_sameLetters (fun _ hy => hy.sameLetters hab) ha
    exact .inl ⟨q, r, rfl, hr, run_eq_of_like hlike⟩
  | error e =>
    -- Having the same letters is symmetric: were the second text read, the first would be.
    cases hb : parse b with
    | ok r =>
      obtain ⟨q, hq, -⟩ := parse_like harmless_sameLetters
        (fun _ hy => hy.sameLetters hab.symm) hb
      exact absurd (ha.symm.trans hq) (by simp)
    | error e' => exact .inr ⟨⟨e, rfl⟩, e', rfl⟩

/-- Keywords, field names, a word for null and a search word in different cases. -/
theorem run_eq_of_equalAsciiCase_mixed :
    ∃ q r,
      parse "not DUE:null or aΣ Sort by:Id".toList = .ok q ∧
      parse "NOT due:NULL OR AΣ sort By:id".toList = .ok r ∧
      ∀ now issues, q.run now issues = r.run now issues := by
  have h : equalAsciiCase "not DUE:null or aΣ Sort by:Id".toList
      "NOT due:NULL OR AΣ sort By:id".toList = true := by decide
  have hread : (parse "not DUE:null or aΣ Sort by:Id".toList).toOption.isSome = true := by
    decide +kernel
  rcases run_eq_of_equalAsciiCase h with h | ⟨⟨e, he⟩, -⟩
  · exact h
  · rw [he] at hread
    exact absurd hread (by simp [Except.toOption])

end Query
end Triage
