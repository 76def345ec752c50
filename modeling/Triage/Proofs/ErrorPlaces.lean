import Triage.Proofs.Grammar.Soundness
import Triage.Proofs.Lexing.Places

/-! Where errors point.

A reader that fails reports a token it has met, or the end. `ParseError.Points` says
which tokens an error can be about, and each reader's errors point among the tokens
it was given (`disjunction_points` and the lemmas beside it). An open group is the
one error about a token further back. The parentheses that are open at a place are
counted by `openGroups`, which what has been read as an expression does not change
(`Phrase.balanced`), so the group reported is the innermost one open where the
filter ends. -/
namespace Triage

/-! ### Open groups -/

/-- Whether the filter ends before a token of this kind. -/
def Token.Kind.endsFilter (kind : Token.Kind) : Bool := kind = .sortBy || kind = .eof

namespace Grammar

/-- The parentheses that are open where the filter ends, the innermost first, if `groups` are open
before the tokens. -/
def openGroups (groups : List Token) : List Token → List Token
  | [] => groups
  | token :: rest =>
    if token.kind.endsFilter then groups
    else if token.kind = .leftParen then openGroups (token :: groups) rest
    else if token.kind = .rightParen then openGroups groups.tail rest
    else openGroups groups rest

theorem openGroups_ends (groups : List Token) {tokens : List Token}
    (h : (Parse.nextKind tokens).endsFilter = true) : openGroups groups tokens = groups := by
  cases tokens with
  | nil => rfl
  | cons token rest => exact if_pos h

theorem openGroups_leftParen (groups : List Token) {first : Token} (rest : List Token)
    (h : first.kind = .leftParen) :
    openGroups groups (first :: rest) = openGroups (first :: groups) rest := by
  rw [openGroups, if_neg (by rw [h]; decide), if_pos h]

theorem openGroups_rightParen (groups : List Token) {last : Token} (rest : List Token)
    (h : last.kind = .rightParen) :
    openGroups groups (last :: rest) = openGroups groups.tail rest := by
  rw [openGroups, if_neg (by rw [h]; decide), if_neg (by rw [h]; decide), if_pos h]

theorem openGroups_other (groups : List Token) {token : Token} (rest : List Token)
    (he : token.kind.endsFilter = false) (hl : token.kind ≠ .leftParen)
    (hr : token.kind ≠ .rightParen) :
    openGroups groups (token :: rest) = openGroups groups rest := by
  rw [openGroups, if_neg (by rw [he]; exact Bool.false_ne_true), if_neg hl, if_neg hr]

/-- Tokens before the end of the filter open and close groups one after another. -/
theorem openGroups_append {ts : List Token} (h : ∀ token ∈ ts, token.kind.endsFilter = false)
    (groups rest : List Token) :
    openGroups groups (ts ++ rest) = openGroups (openGroups groups ts) rest := by
  induction ts generalizing groups with
  | nil => rfl
  | cons token ts ih =>
    have he := h token List.mem_cons_self
    have ih := ih fun t ht => h t (List.mem_cons_of_mem token ht)
    rw [List.cons_append]
    by_cases hl : token.kind = .leftParen
    · rw [openGroups_leftParen groups _ hl, openGroups_leftParen groups _ hl, ih]
    · by_cases hr : token.kind = .rightParen
      · rw [openGroups_rightParen groups _ hr, openGroups_rightParen groups _ hr, ih]
      · rw [openGroups_other groups _ he hl hr, openGroups_other groups _ he hl hr, ih]

/-- Behind the end of a text nothing is opened or closed. -/
theorem openGroups_eof (groups : List Token) {last : Token} (ts : List Token)
    (h : last.kind = .eof) : openGroups groups (ts ++ [last]) = openGroups groups ts := by
  induction ts generalizing groups with
  | nil => exact openGroups_ends groups (by rw [List.nil_append, Parse.nextKind, h]; rfl)
  | cons token ts ih => simp only [List.cons_append, openGroups, ih]

/-! ### Balanced tokens -/

/-- Tokens before the end of the filter that close the groups they open, and no others. -/
structure Balanced (ts : List Token) : Prop where
  stays : ∀ token ∈ ts, token.kind.endsFilter = false
  openGroups_eq : ∀ groups, openGroups groups ts = groups

namespace Balanced

theorem nil : Balanced [] := ⟨fun _ ht => absurd ht List.not_mem_nil, fun _ => rfl⟩

theorem append {ts us : List Token} (ht : Balanced ts) (hu : Balanced us) :
    Balanced (ts ++ us) where
  stays token hmem := (List.mem_append.1 hmem).elim (ht.stays token) (hu.stays token)
  openGroups_eq groups := by
    rw [openGroups_append ht.stays, ht.openGroups_eq, hu.openGroups_eq]

theorem cons {token : Token} {ts : List Token} (he : token.kind.endsFilter = false)
    (hl : token.kind ≠ .leftParen) (hr : token.kind ≠ .rightParen) (h : Balanced ts) :
    Balanced (token :: ts) where
  stays := by
    intro t ht
    rcases List.mem_cons.1 ht with rfl | ht
    · exact he
    · exact h.stays t ht
  openGroups_eq groups := by
    rw [openGroups_other groups ts he hl hr, h.openGroups_eq]

/-- A value token opens and closes nothing. -/
theorem value {token : Token} {ts : List Token} (hv : token.kind.isValue = true)
    (h : Balanced ts) : Balanced (token :: ts) := by
  have hkinds : ∀ kind : Token.Kind, kind.isValue = true →
      kind.endsFilter = false ∧ kind ≠ .leftParen ∧ kind ≠ .rightParen := by
    intro kind hkind
    cases kind <;> first | exact Bool.noConfusion hkind | decide
  obtain ⟨he, hl, hr⟩ := hkinds token.kind hv
  exact h.cons he hl hr

/-- A mark or an operator opens and closes nothing unless it is a parenthesis. -/
theorem mark {token : Token} {ts : List Token} (kind : Token.Kind) (hk : token.kind = kind)
    (hkind : kind.endsFilter = false ∧ kind ≠ .leftParen ∧ kind ≠ .rightParen)
    (h : Balanced ts) : Balanced (token :: ts) := by
  subst hk
  exact h.cons hkind.1 hkind.2.1 hkind.2.2

theorem group {first last : Token} {ts : List Token} (hf : first.kind = .leftParen)
    (h : Balanced ts) (hl : last.kind = .rightParen) : Balanced (first :: (ts ++ [last])) where
  stays := by
    intro token ht
    rcases List.mem_cons.1 ht with rfl | ht
    · rw [hf]
      rfl
    · rcases List.mem_append.1 ht with ht | ht
      · exact h.stays token ht
      · rw [List.mem_singleton.1 ht, hl]
        rfl
  openGroups_eq groups := by
    rw [openGroups_leftParen _ _ hf, openGroups_append h.stays, h.openGroups_eq,
      openGroups_rightParen _ _ hl]
    rfl

end Balanced

theorem Further.balanced {field : Field} {ts : List Token} {vs : List Value}
    (h : Further field ts vs) : Balanced ts := by
  induction h with
  | nil => exact .nil
  | cons hc hs _ ih => exact (ih.value hs.1).mark .comma hc (by decide)

theorem Values.balanced {field : Field} {ts : List Token} {f : Filter} (h : Values field ts f) :
    Balanced ts := by
  cases h with
  | item _ hs => exact Balanced.nil.value hs.1
  | search _ hs => exact Balanced.nil.value hs.1
  | equal _ _ hs => exact Balanced.nil.value hs.1
  | range _ hs hd hl => exact ((Balanced.nil.value hl.1).mark .dotDot hd (by decide)).value hs.1
  | list hs hf _ => exact hf.balanced.value hs.1

/-- An expression closes the groups it opens, and no others. -/
theorem Phrase.balanced {level : Level} {ts : List Token} {f : Filter} (h : Phrase level ts f) :
    Balanced ts := by
  induction h with
  | conjunction _ ih => exact ih
  | negation _ ih => exact ih
  | primary _ ih => exact ih
  | or _ ho _ ihf ihg => exact ihf.append (ihg.mark .or ho (by decide))
  | and _ ha _ ihf ihg => exact ihf.append (ihg.mark .and ha (by decide))
  | implied _ _ ihf ihg => exact ihf.append ihg
  | not hn _ ih => exact ih.mark .not hn (by decide)
  | group hf _ hl ih => exact ih.group hf hl
  | field hn hc _ hv =>
    exact (hv.balanced.mark .colon hc (by decide)).mark .identifier hn (by decide)
  | term hv => exact Balanced.nil.value hv

end Grammar

/-! ### Errors among tokens -/

namespace ParseError
open Grammar

/-- What an error says is so of a token at its position, or of the end. -/
def Points (finish : Nat) (tokens : List Token) : ParseError → Prop
  | unknownField name p _ => ∃ token ∈ tokens, token.lexeme = name ∧ token.position = p
  | missingValue _ p =>
    p = finish ∨ ∃ token ∈ tokens, token.kind.isValue = false ∧ token.position = p
  | unterminatedGroup p =>
    ∃ token ∈ tokens, token.kind = .leftParen ∧ token.position = p ∧
      ∀ groups, (openGroups groups tokens).head? = some token
  | unexpectedToken lexeme p => ∃ token ∈ tokens, token.lexeme = lexeme ∧ token.position = p
  | unexpectedEnd _ => True
  | invalidValue _ p => ∃ token ∈ tokens, token.kind.isValue = true ∧ token.position = p
  | invalidRange _ p => ∃ token ∈ tokens, token.kind = .dotDot ∧ token.position = p
  | invalidCharacter _ _ => ∃ token ∈ tokens, token.kind = .error

variable {finish : Nat} {tokens : List Token} {e : ParseError}

/-- Whether an error is about a group that is not closed. -/
def isOpenGroup : ParseError → Bool
  | unterminatedGroup _ => true
  | _ => false

/-- An error about a token is one among more tokens. -/
theorem Points.mono {more : List Token} (h : e.Points finish tokens) (he : e.isOpenGroup = false)
    (hs : tokens ⊆ more) : e.Points finish more := by
  cases e with
  | unterminatedGroup p => exact Bool.noConfusion he
  | unexpectedEnd expected => trivial
  | missingValue field p =>
    exact h.imp_right fun ⟨token, ht, hp⟩ => ⟨token, hs ht, hp⟩
  | unknownField | unexpectedToken | invalidValue | invalidRange | invalidCharacter =>
    obtain ⟨token, ht, hp⟩ := h
    exact ⟨token, hs ht, hp⟩

/-- An error that points among tokens, whatever stands around them. -/
structure PointsLocally (finish : Nat) (tokens : List Token) (e : ParseError) : Prop where
  points : e.Points finish tokens
  not_group : e.isOpenGroup = false

theorem PointsLocally.mono {more : List Token} (h : e.PointsLocally finish tokens)
    (hs : tokens ⊆ more) : e.PointsLocally finish more :=
  ⟨h.points.mono h.not_group hs, h.not_group⟩

/-- An error among the tokens after some of the filter is one among all of them. -/
theorem Points.append {ts : List Token} (h : e.Points finish tokens)
    (hts : ∀ token ∈ ts, token.kind.endsFilter = false) : e.Points finish (ts ++ tokens) := by
  cases hg : e.isOpenGroup with
  | false => exact h.mono hg (List.subset_append_right ts tokens)
  | true =>
    cases e with
    | unterminatedGroup p =>
      obtain ⟨token, ht, hk, hp, hopen⟩ := h
      refine ⟨token, List.mem_append_right ts ht, hk, hp, fun groups => ?_⟩
      rw [openGroups_append hts]
      exact hopen _
    | _ => exact Bool.noConfusion hg

theorem Points.cons {token : Token} (h : e.Points finish tokens)
    (ht : token.kind.endsFilter = false) : e.Points finish (token :: tokens) :=
  h.append fun _ hmem => List.mem_singleton.1 hmem ▸ ht

/-- What stands where something else is needed is the next token, or the end. -/
theorem unexpected_cases (expected : String) (tokens : List Token) :
    Parse.unexpected expected tokens = .unexpectedEnd expected ∨
      ∃ token ∈ tokens,
        Parse.unexpected expected tokens = .unexpectedToken token.lexeme token.position ∨
          token.kind = .error ∧
            Parse.unexpected expected tokens = .invalidCharacter token.lexeme token.position := by
  cases tokens with
  | nil => exact .inl rfl
  | cons token rest =>
    simp only [Parse.unexpected]
    split
    · exact .inl rfl
    · next hk => exact .inr ⟨token, List.mem_cons_self, .inr ⟨hk, rfl⟩⟩
    · exact .inr ⟨token, List.mem_cons_self, .inl rfl⟩

theorem points_unexpected (finish : Nat) (expected : String) (tokens : List Token) :
    (Parse.unexpected expected tokens).PointsLocally finish tokens := by
  obtain h | ⟨token, ht, h | ⟨hk, h⟩⟩ := unexpected_cases expected tokens
  · rw [h]
    exact ⟨trivial, rfl⟩
  · rw [h]
    exact ⟨⟨token, ht, rfl, rfl⟩, rfl⟩
  · rw [h]
    exact ⟨⟨token, ht, hk⟩, rfl⟩

end ParseError

/-! ### Errors of readers -/

namespace Parse
open Outcome Grammar

variable {finish : Nat} {e : ParseError}

theorem value_points {field : Field} {name : Token} {tokens rest : List Token}
    (h : (value finish field name tokens).outcome = (.error e, rest)) :
    e.PointsLocally finish tokens := by
  cases tokens with
  | nil =>
    cases h
    exact ⟨.inl rfl, rfl⟩
  | cons token after =>
    by_cases hk : token.kind.isValue = true
    · rw [value_cons finish field name token after hk] at h
      cases hf : (rawValue field token).fit field with
      | ok v =>
        rw [hf] at h
        cases h
      | error misfit =>
        rw [hf] at h
        cases h
        exact ⟨⟨token, List.mem_cons_self, hk, rfl⟩, rfl⟩
    · simp only [value, hk] at h
      cases h
      exact ⟨.inr ⟨token, List.mem_cons_self, Bool.eq_false_iff.2 hk, rfl⟩, rfl⟩

theorem moreValues_points {field : Field} {name : Token} {vs : List Value}
    {tokens rest : List Token}
    (h : (moreValues finish field name vs tokens).outcome = (.error e, rest)) :
    e.PointsLocally finish tokens := by
  by_cases hc : nextKind tokens = .comma
  · obtain ⟨comma, after, htokens, hk, hlen⟩ := exists_cons_of_nextKind hc (by decide)
    rw [htokens, moreValues_comma finish field name vs after hk] at h
    rw [htokens]
    obtain h | ⟨v, left, hv, h⟩ := andThen_eq_error_iff.1 h
    · exact (value_points h).mono (List.subset_cons_self comma after)
    · obtain ⟨token, hafter, -⟩ := (value_found_iff finish).1 hv
      have hlt : left.length < after.length := by rw [hafter]; exact Nat.lt_succ_self _
      refine (moreValues_points h).mono ?_
      rw [hafter]
      exact List.subset_cons_of_subset comma (List.subset_cons_self token left)
  · rw [moreValues_stop finish field name vs hc] at h
    cases h
termination_by tokens.length

theorem values_points {field : Field} {name : Token} {tokens rest : List Token}
    (h : (values finish field name tokens).outcome = (.error e, rest)) :
    e.PointsLocally finish tokens := by
  rw [values_outcome] at h
  rw [andThen_eq_error_iff] at h
  obtain h | ⟨first, left, hfirst, h⟩ := h
  · exact value_points h
  · obtain ⟨token, rfl, -⟩ := (value_found_iff finish).1 hfirst
    have hleft := List.subset_cons_self token left
    split at h
    · next hd =>
      obtain ⟨dots, after, rfl, hk, -⟩ := exists_cons_of_nextKind hd (by decide)
      split at h
      · obtain h | ⟨last, more, -, h⟩ := andThen_eq_error_iff.1 h
        · exact (value_points h).mono (fun t ht => hleft (List.mem_cons_of_mem dots ht))
        · cases h
      · cases h
        exact ⟨⟨dots, hleft List.mem_cons_self, hk, rfl⟩, rfl⟩
    · obtain h | ⟨vs, more, -, h⟩ := andThen_eq_error_iff.1 h
      · exact (moreValues_points h).mono hleft
      · cases h
    · cases h

theorem resolveField_points {tokens : List Token} {token : Token}
    (h : resolveField token = .error e) (ht : token ∈ tokens) :
    e.PointsLocally finish tokens := by
  unfold resolveField at h
  split at h
  · cases h
  · cases h
    exact ⟨⟨token, ht, rfl, rfl⟩, rfl⟩

/-- A condition on a field fails at its name or among its values. -/
theorem fieldTerm_points {name : Token} {tokens rest : List Token}
    (h : (fieldTerm finish name tokens).outcome = (.error e, rest)) :
    e.PointsLocally finish (name :: tokens) := by
  rw [fieldTerm_outcome] at h
  cases hr : resolveField name with
  | error e' =>
    rw [hr] at h
    cases h
    exact resolveField_points hr List.mem_cons_self
  | ok field =>
    rw [hr] at h
    exact (values_points h).mono (fun t ht => List.mem_cons_of_mem name (List.mem_of_mem_tail ht))

mutual

theorem disjunction_points {tokens rest : List Token}
    (h : (disjunction finish tokens).outcome = (.error e, rest)) :
    e.Points finish tokens := by
  rw [disjunction_outcome] at h
  obtain h | ⟨left, middle, hl, h⟩ := andThen_eq_error_iff.1 h
  · exact conjunction_points h
  · have hlt := Reading.length_lt_of_outcome hl
    obtain ⟨ts, htokens, ht⟩ := conjunction_sound hl
    rw [htokens]
    exact (moreDisjuncts_points h).append ht.balanced.stays
termination_by 5 * tokens.length + 4

theorem moreDisjuncts_points {left : Filter} {tokens rest : List Token}
    (h : (moreDisjuncts finish left tokens).outcome = (.error e, rest)) :
    e.Points finish tokens := by
  by_cases ho : nextKind tokens = .or
  · obtain ⟨or, after, htokens, hk, hlen⟩ := exists_cons_of_nextKind ho (by decide)
    have hor : or.kind.endsFilter = false := by rw [hk]; rfl
    rw [htokens, moreDisjuncts_or finish left after hk] at h
    rw [htokens]
    obtain h | ⟨right, middle, hr, h⟩ := andThen_eq_error_iff.1 h
    · exact (conjunction_points h).cons hor
    · have hlt := Reading.length_lt_of_outcome hr
      obtain ⟨ts, hafter, ht⟩ := conjunction_sound hr
      rw [hafter]
      exact ((moreDisjuncts_points h).append ht.balanced.stays).cons hor
  · rw [moreDisjuncts_stop finish left ho] at h
    cases h
termination_by 5 * tokens.length + 3

theorem conjunction_points {tokens rest : List Token}
    (h : (conjunction finish tokens).outcome = (.error e, rest)) :
    e.Points finish tokens := by
  rw [conjunction_outcome] at h
  obtain h | ⟨left, middle, hl, h⟩ := andThen_eq_error_iff.1 h
  · exact negation_points h
  · have hlt := Reading.length_lt_of_outcome hl
    obtain ⟨ts, htokens, ht⟩ := negation_sound hl
    rw [htokens]
    exact (moreConjuncts_points h).append ht.balanced.stays
termination_by 5 * tokens.length + 3

theorem moreConjuncts_points {left : Filter} {tokens rest : List Token}
    (h : (moreConjuncts finish left tokens).outcome = (.error e, rest)) :
    e.Points finish tokens := by
  by_cases ha : nextKind tokens = .and
  · obtain ⟨and, after, htokens, hk, hlen⟩ := exists_cons_of_nextKind ha (by decide)
    have hand : and.kind.endsFilter = false := by rw [hk]; rfl
    rw [htokens, moreConjuncts_and finish left after hk] at h
    rw [htokens]
    obtain h | ⟨right, middle, hr, h⟩ := andThen_eq_error_iff.1 h
    · exact (negation_points h).cons hand
    · have hlt := Reading.length_lt_of_outcome hr
      obtain ⟨ts, hafter, ht⟩ := negation_sound hr
      rw [hafter]
      exact ((moreConjuncts_points h).append ht.balanced.stays).cons hand
  · by_cases hs : (nextKind tokens).startsTerm = true
    · rw [moreConjuncts_term finish left hs] at h
      obtain h | ⟨right, middle, hr, h⟩ := andThen_eq_error_iff.1 h
      · exact negation_points h
      · have hlt := Reading.length_lt_of_outcome hr
        obtain ⟨ts, htokens, ht⟩ := negation_sound hr
        rw [htokens]
        exact (moreConjuncts_points h).append ht.balanced.stays
    · rw [moreConjuncts_stop finish left ha (Bool.eq_false_iff.2 hs)] at h
      cases h
termination_by 5 * tokens.length + 2

theorem negation_points {tokens rest : List Token}
    (h : (negation finish tokens).outcome = (.error e, rest)) :
    e.Points finish tokens := by
  by_cases hn : nextKind tokens = .not
  · obtain ⟨not, after, htokens, hk, hlen⟩ := exists_cons_of_nextKind hn (by decide)
    rw [htokens, negation_not finish after hk] at h
    rw [htokens]
    obtain h | ⟨child, middle, -, h⟩ := andThen_eq_error_iff.1 h
    · exact (negation_points h).cons (by rw [hk]; rfl)
    · cases h
  · rw [negation_primary finish hn] at h
    exact primary_points h
termination_by 5 * tokens.length + 1

theorem primary_points {tokens rest : List Token}
    (h : (primary finish tokens).outcome = (.error e, rest)) :
    e.Points finish tokens := by
  by_cases hp : nextKind tokens = .leftParen
  · obtain ⟨first, after, htokens, hk, hlen⟩ := exists_cons_of_nextKind hp (by decide)
    have hfirst : first.kind.endsFilter = false := by rw [hk]; rfl
    rw [htokens, primary_group finish after hk] at h
    rw [htokens]
    obtain h | ⟨filter, middle, hd, h⟩ := andThen_eq_error_iff.1 h
    · exact (disjunction_points h).cons hfirst
    · obtain ⟨ts, hafter, ht⟩ := disjunction_sound hd
      rw [hafter]
      split at h
      · cases h
      · split at h
        · next hend =>
          -- The group is the last one opened, and what was read in it has closed its own.
          cases h
          refine ⟨first, List.mem_cons_self, hk, rfl, fun groups => ?_⟩
          have hstop : (nextKind rest).endsFilter = true := by
            obtain hend | hend := hend <;> rw [hend] <;> rfl
          rw [openGroups_leftParen groups _ hk, openGroups_append ht.balanced.stays,
            ht.balanced.openGroups_eq, openGroups_ends _ hstop]
          rfl
        · cases h
          have hp := (ParseError.points_unexpected finish "')'" rest).points
          exact (hp.append ht.balanced.stays).cons hfirst
  · by_cases hv : (nextKind tokens).isValue = true
    · obtain ⟨term, after, rfl, -, -⟩ := exists_cons_of_nextKind rfl (by
        intro he
        rw [he] at hv
        exact Bool.noConfusion hv)
      by_cases hc : term.kind = .identifier ∧ nextKind after = .colon
      · rw [primary_field finish after hc.1 hc.2] at h
        exact (fieldTerm_points h).points
      · rw [primary_term finish after hv hc] at h
        cases h
    · rw [primary_unexpected finish hp (Bool.eq_false_iff.2 hv)] at h
      cases h
      exact (ParseError.points_unexpected finish _ tokens).points
termination_by 5 * tokens.length

end

/-! ### Errors of the sort clause -/

theorem sortKey_points {tokens rest : List Token}
    (h : (sortKey tokens).outcome = (.error e, rest)) :
    e.PointsLocally finish tokens := by
  by_cases hn : nextKind tokens = .identifier
  · obtain ⟨name, after, rfl, hk, -⟩ := exists_cons_of_nextKind hn (by decide)
    rw [sortKey_name after hk] at h
    cases hr : resolveField name with
    | error e' =>
      rw [hr] at h
      cases h
      exact resolveField_points hr List.mem_cons_self
    | ok field =>
      simp only [hr] at h
      split at h
      · cases h
      · split at h <;> cases h
  · rw [sortKey_unexpected hn] at h
    cases h
    exact ParseError.points_unexpected finish _ tokens

theorem sortKeys_points {tokens rest : List Token}
    (h : (sortKeys tokens).outcome = (.error e, rest)) :
    e.PointsLocally finish tokens := by
  rw [sortKeys_outcome] at h
  obtain h | ⟨key, middle, hk, h⟩ := andThen_eq_error_iff.1 h
  · exact sortKey_points h
  · have hlt := Reading.length_lt_of_outcome hk
    obtain ⟨ts, htokens, -⟩ := sortKey_sound hk
    split at h
    · next hc =>
      obtain ⟨comma, after, hmiddle, -, hlen⟩ := exists_cons_of_nextKind hc (by decide)
      rw [hmiddle, List.tail_cons] at h
      obtain h | ⟨keys, more, -, h⟩ := andThen_eq_error_iff.1 h
      · refine (sortKeys_points h).mono ?_
        rw [htokens, hmiddle]
        exact fun t ht' => List.mem_append_right ts (List.mem_cons_of_mem comma ht')
      · cases h
    · cases h
termination_by tokens.length

theorem sortClause_points {tokens rest : List Token}
    (h : (sortClause tokens).outcome = (.error e, rest)) :
    e.PointsLocally finish tokens := by
  by_cases hc : nextKind tokens = .colon
  · obtain ⟨colon, after, rfl, hk, -⟩ := exists_cons_of_nextKind hc (by decide)
    rw [sortClause_colon after hk] at h
    exact (sortKeys_points h).mono (List.subset_cons_self colon after)
  · rw [sortClause_unexpected hc] at h
    cases h
    exact ParseError.points_unexpected finish _ tokens

/-- What is left after a sort clause is the end of the tokens. -/
theorem suffix_of_sortClause {keys : List SortKey} {tokens rest : List Token}
    (h : (sortClause tokens).outcome = (.ok keys, rest)) : rest <:+ tokens := by
  by_cases hc : nextKind tokens = .colon
  · obtain ⟨colon, after, rfl, hk, -⟩ := exists_cons_of_nextKind hc (by decide)
    rw [sortClause_colon after hk] at h
    obtain ⟨ts, rfl, -⟩ := sortKeys_sound h
    exact ⟨colon :: ts, rfl⟩
  · exact absurd h ((sortClause_fails hc).ne_ok keys rest)

/-- After the filter no error is about a group. -/
theorem ending_points {tokens : List Token} (h : ending tokens = .error e) :
    e.PointsLocally finish tokens := by
  by_cases hs : nextKind tokens = .sortBy
  · obtain ⟨sort, after, rfl, hk, -⟩ := exists_cons_of_nextKind hs (by decide)
    have hafter := List.subset_cons_self sort after
    rw [ending_sort after hk] at h
    split at h
    · next hc =>
      cases h
      exact (sortClause_points hc).mono hafter
    · cases h
    · next keys left _ hc =>
      cases h
      have hleft := (suffix_of_sortClause hc).subset
      exact (ParseError.points_unexpected finish _ left).mono (List.Subset.trans hleft hafter)
  · by_cases hne : tokens = []
    · rw [hne] at h
      cases h
    · rw [ending_unexpected hne hs] at h
      cases h
      exact ParseError.points_unexpected finish _ tokens

end Parse

/-- The error of a stream points among its tokens, or at its end. -/
theorem Stream.query_points {stream : Stream} {e : ParseError} (h : stream.query = .error e) :
    e.Points stream.finish stream.tokens := by
  by_cases hne : stream.tokens = []
  · rw [query_nil hne] at h
    cases h
  · by_cases hs : Parse.nextKind stream.tokens = .sortBy
    · rw [query_sort hs] at h
      cases he : Parse.ending stream.tokens with
      | ok keys =>
        rw [he] at h
        cases h
      | error e' =>
        rw [he] at h
        cases h
        exact (Parse.ending_points he).points
    · rw [query_filter hne hs] at h
      split at h
      · next hd =>
        cases h
        exact Parse.disjunction_points hd
      · next f rest hd =>
        cases he : Parse.ending rest with
        | ok keys =>
          rw [he] at h
          cases h
        | error e' =>
          rw [he] at h
          cases h
          obtain ⟨ts, htokens, ht⟩ := Grammar.disjunction_sound hd
          rw [htokens]
          exact (Parse.ending_points he).points.append ht.balanced.stays

/-! ### Errors in the text -/

/-- The offset that an error reports, if it reports one. -/
def ParseError.position? : ParseError → Option Nat
  | unexpectedEnd _ => none
  | unknownField _ p _ | missingValue _ p | unterminatedGroup p | unexpectedToken _ p
  | invalidValue _ p | invalidRange _ p | invalidCharacter _ p => some p

namespace QueryError

/-- The offset that an error reports, if it reports one. -/
def position? : QueryError → Option Nat
  | lex e => some e.position
  | parse e => e.position?

/-- A token of a text that is not its end stands at the offset `p`. -/
def TokenAt (text : Text) (p : Nat) (token : Token) : Prop :=
  (∃ tokens, tokenize text = .ok tokens ∧ token ∈ tokens) ∧ token.position = p ∧
    token.lexeme ≠ [] ∧ Text.StandsAt token.lexeme p text

/-- At the offset that an error reports stands what the error names. -/
def PointsInto (text : Text) : QueryError → Prop
  | lex e => Text.StandsAt [e.character] e.position text
  | parse (.unknownField name p _) => name ≠ [] ∧ Text.StandsAt name p text
  | parse (.unexpectedToken lexeme p) => lexeme ≠ [] ∧ Text.StandsAt lexeme p text
  | parse (.missingValue _ p) =>
    p = text.length ∨ ∃ token, TokenAt text p token ∧ token.kind.isValue = false
  | parse (.invalidValue _ p) => ∃ token, TokenAt text p token ∧ token.kind.isValue = true
  | parse (.invalidRange _ p) => Text.StandsAt "..".toList p text
  | parse (.unterminatedGroup p) =>
    Text.StandsAt "(".toList p text ∧
      ∃ tokens token, tokenize text = .ok tokens ∧
        (Grammar.openGroups [] tokens).head? = some token ∧ token.position = p
  | parse (.unexpectedEnd _) => True
  | parse (.invalidCharacter _ _) => False

/-- What stands in a text stands no further on than its end. -/
theorem PointsInto.position_le {text : Text} {e : QueryError} (h : e.PointsInto text) {p : Nat}
    (hp : e.position? = some p) : p ≤ text.length := by
  cases e with
  | lex e =>
    obtain rfl := Option.some.inj hp
    exact Nat.le_of_lt (Text.StandsAt.lt_length h (List.cons_ne_nil _ _))
  | parse e =>
    cases e with
    | unexpectedEnd _ => cases hp
    | invalidCharacter _ _ => exact h.elim
    | unknownField _ _ _ | unexpectedToken _ _ =>
      obtain rfl := Option.some.inj hp
      exact Nat.le_of_lt (h.2.lt_length h.1)
    | invalidRange _ _ =>
      obtain rfl := Option.some.inj hp
      exact Nat.le_of_lt (Text.StandsAt.lt_length h (by decide))
    | unterminatedGroup _ =>
      obtain rfl := Option.some.inj hp
      exact Nat.le_of_lt (h.1.lt_length (by decide))
    | invalidValue _ _ =>
      obtain rfl := Option.some.inj hp
      obtain ⟨token, ⟨-, -, hne, hstands⟩, -⟩ := h
      exact Nat.le_of_lt (hstands.lt_length hne)
    | missingValue _ _ =>
      obtain rfl := Option.some.inj hp
      obtain rfl | ⟨token, ⟨-, -, hne, hstands⟩, -⟩ := h
      · exact Nat.le_refl _
      · exact Nat.le_of_lt (hstands.lt_length hne)

end QueryError

/-- An error about a token of a text points into the text. -/
theorem ParseError.Points.into {text : Text} {ts : List Token} {last : Token} {e : ParseError}
    (h : e.Points text.length ts) (htokens : tokenize text = .ok (ts ++ [last]))
    (hts : ∀ token ∈ ts, token.kind ≠ .eof) (hlast : last.kind = .eof) :
    (QueryError.parse e).PointsInto text := by
  have hplaced : ∀ token ∈ ts, token.Placed text := fun token ht =>
    placed_of_tokenize htokens token (List.mem_append_left [last] ht)
  have hat : ∀ token ∈ ts, QueryError.TokenAt text token.position token := fun token ht =>
    ⟨⟨_, htokens, List.mem_append_left [last] ht⟩, rfl,
      (hplaced token ht).lexeme_ne_nil (hts token ht), (hplaced token ht).standsAt⟩
  cases e with
  | unexpectedEnd _ => trivial
  | unknownField _ _ _ | unexpectedToken _ _ =>
    obtain ⟨token, ht, rfl, rfl⟩ := h
    exact (hat token ht).2.2
  | missingValue _ _ =>
    refine h.imp_right ?_
    rintro ⟨token, ht, hk, rfl⟩
    exact ⟨token, hat token ht, hk⟩
  | invalidValue _ _ =>
    obtain ⟨token, ht, hk, rfl⟩ := h
    exact ⟨token, hat token ht, hk⟩
  | invalidRange _ _ =>
    obtain ⟨token, ht, hk, rfl⟩ := h
    have hstands := (hplaced token ht).standsAt
    rwa [(hplaced token ht).lexeme_dotDot hk] at hstands
  | unterminatedGroup _ =>
    obtain ⟨token, ht, hk, rfl, hopen⟩ := h
    have hstands := (hplaced token ht).standsAt
    rw [(hplaced token ht).lexeme_leftParen hk] at hstands
    refine ⟨hstands, _, token, htokens, ?_, rfl⟩
    rw [Grammar.openGroups_eof [] ts hlast]
    exact hopen []
  | invalidCharacter _ _ =>
    obtain ⟨token, ht, hk⟩ := h
    exact (hplaced token ht).kind_ne_error hk

namespace Query

/-- **The error of a text that is no query points at what it names.** What an error reports as its
place lies inside the text or at its end, and there stands the character, the word, the dots or
the parenthesis that the error is about. The group of an open parenthesis is the innermost one
that is still open where the filter ends. -/
theorem parse_error_pointsInto {text : Text} {e : QueryError} (h : parse text = .error e) :
    e.PointsInto text ∧ ∀ p, e.position? = some p → p ≤ text.length := by
  suffices hinto : e.PointsInto text from ⟨hinto, fun p hp => hinto.position_le hp⟩
  unfold parse at h
  cases ht : tokenize text with
  | error fault =>
    rw [ht] at h
    cases h
    exact Cursor.standsAt_of_tokens_error (p := 0) ht
  | ok tokens =>
    obtain ⟨ts, rfl, hts⟩ := exists_end_of_tokenize ht
    simp only [ht] at h
    cases hq : ofTokens (ts ++ [⟨.eof, [], text.length, none⟩]) with
    | ok query =>
      rw [hq] at h
      cases h
    | error fault =>
      rw [hq] at h
      cases h
      have hpoints := Stream.query_points hq
      rw [Stream.tokens_ofTokens_append hts rfl] at hpoints
      have hfinish : (Stream.ofTokens (ts ++ [⟨.eof, [], text.length, none⟩])).finish =
          text.length := by
        have hnone : ts.find? (fun token => token.kind = .eof) = none :=
          List.find?_eq_none.2 fun token hmem => by simpa using hts token hmem
        simp [Stream.ofTokens, List.find?_append, hnone]
      rw [hfinish] at hpoints
      exact hpoints.into ht hts rfl

/-- A group is open where the filter ends although another one and a quoted parenthesis come
before and in it, and its place is counted in characters. -/
theorem parse_error_pointsInto_group :
    parse "é (a) (b OR (\"(\" c) sort by: id".toList = .error (.parse (.unterminatedGroup 6)) ∧
      Text.StandsAt "(".toList 6 "é (a) (b OR (\"(\" c) sort by: id".toList ∧
      6 ≤ "é (a) (b OR (\"(\" c) sort by: id".toList.length := by
  have h : parse "é (a) (b OR (\"(\" c) sort by: id".toList =
      .error (.parse (.unterminatedGroup 6)) := by
    apply eq_error_of_isError
    decide +kernel
  obtain ⟨hinto, hle⟩ := parse_error_pointsInto h
  exact ⟨h, hinto.1, hle 6 rfl⟩

end Query
end Triage
