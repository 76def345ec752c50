import Triage.Proofs.Grammar

/-! What is read is derived.

Each reader that finds something has taken a row of tokens off the front that its
rule of the grammar covers, with the meaning it found (`disjunction_sound` and the
lemmas beside it), so a stream that reads as a query derives it
(`derives_of_ofTokens`). The loops carry the tokens read before them. -/
namespace Triage.Grammar
open Parse Outcome

variable {finish : Nat}

/-! ### Values -/

/-- The loop takes values after commas, at least one if it starts at a comma. -/
theorem moreValues_sound {field : Field} {name : Token} {vs all : List Value}
    {tokens rest : List Token}
    (h : (moreValues finish field name vs tokens).outcome = (.ok all, rest)) :
    ∃ ts more, tokens = ts ++ rest ∧ Further field ts more ∧ all = vs ++ more ∧
      (nextKind tokens = .comma → more ≠ []) := by
  by_cases hc : nextKind tokens = .comma
  · obtain ⟨comma, after, htokens, hk, hlen⟩ := exists_cons_of_nextKind hc (by decide)
    rw [htokens, moreValues_comma finish field name vs after hk, andThen_eq_ok_iff] at h
    obtain ⟨v, left, hv, h⟩ := h
    obtain ⟨token, hafter, hs⟩ := (value_found_iff finish).1 hv
    have hlt : left.length < after.length := by rw [hafter]; exact Nat.lt_succ_self _
    obtain ⟨ts, more, hleft, hf, hall, -⟩ := moreValues_sound h
    refine ⟨comma :: token :: ts, v :: more, ?_, .cons hk hs hf, ?_,
      fun _ => List.cons_ne_nil v more⟩
    · rw [htokens, hafter, hleft]
      rfl
    · rw [hall, List.append_assoc]
      rfl
  · rw [moreValues_stop finish field name vs hc] at h
    obtain ⟨ha, rfl⟩ := Prod.mk.inj h
    refine ⟨[], [], rfl, .nil, ?_, fun hk => absurd hk hc⟩
    rw [List.append_nil]
    exact (Except.ok.inj ha).symm
termination_by tokens.length

theorem values_sound {field : Field} {name : Token} {f : Filter} {tokens rest : List Token}
    (h : (values finish field name tokens).outcome = (.ok f, rest)) :
    ∃ ts, tokens = ts ++ rest ∧ Values field ts f := by
  rw [values_outcome, andThen_eq_ok_iff] at h
  obtain ⟨first, left, hfirst, h⟩ := h
  obtain ⟨token, rfl, hs⟩ := (value_found_iff finish).1 hfirst
  split at h
  · next hd =>
    obtain ⟨dots, after, rfl, hd, -⟩ := exists_cons_of_nextKind hd (by decide)
    split at h
    · next ho =>
      obtain ⟨last, left, hlast, h⟩ := andThen_eq_ok_iff.1 h
      obtain ⟨hf, rfl⟩ := Prod.mk.inj h
      obtain ⟨second, hafter, hl⟩ := (value_found_iff finish).1 hlast
      rw [List.tail_cons] at hafter
      subst hafter
      exact ⟨[token, dots, second], rfl, Except.ok.inj hf ▸ .range ho hs hd hl⟩
    · exact absurd (congrArg Prod.fst h) (by simp)
  · next hc =>
    obtain ⟨vs, after, hvs, h⟩ := andThen_eq_ok_iff.1 h
    obtain ⟨hf, rfl⟩ := Prod.mk.inj h
    obtain ⟨ts, more, rfl, hm, rfl, hne⟩ := moreValues_sound hvs
    exact ⟨token :: ts, rfl, Except.ok.inj hf ▸ .list hs hm (hne hc)⟩
  · obtain ⟨hf, rfl⟩ := Prod.mk.inj h
    exact ⟨[token], rfl, Except.ok.inj hf ▸ values_single hs⟩

/-! ### Expressions -/

/-- A condition on a field, from its name on. -/
theorem fieldTerm_sound {name : Token} {f : Filter} {tokens rest : List Token}
    (hn : name.kind = .identifier) (hc : nextKind tokens = .colon)
    (h : (fieldTerm finish name tokens).outcome = (.ok f, rest)) :
    ∃ ts, name :: tokens = ts ++ rest ∧ Phrase .primary ts f := by
  obtain ⟨colon, after, rfl, hc, -⟩ := exists_cons_of_nextKind hc (by decide)
  rw [fieldTerm_outcome, List.tail_cons] at h
  cases hr : resolveField name with
  | error e =>
    rw [hr] at h
    exact absurd (congrArg Prod.fst h) (by simp)
  | ok field =>
    rw [hr] at h
    obtain ⟨ts, rfl, hv⟩ := values_sound h
    exact ⟨name :: colon :: ts, rfl, .field hn hc (resolveField_eq_ok_iff.1 hr) hv⟩

mutual

theorem disjunction_sound {f : Filter} {tokens rest : List Token}
    (h : (disjunction finish tokens).outcome = (.ok f, rest)) :
    ∃ ts, tokens = ts ++ rest ∧ Phrase .disjunction ts f := by
  rw [disjunction_outcome, andThen_eq_ok_iff] at h
  obtain ⟨left, middle, hl, hm⟩ := h
  have hlt := Reading.length_lt_of_outcome hl
  obtain ⟨ts, htokens, ht⟩ := conjunction_sound hl
  obtain ⟨us, hmiddle, hu⟩ := moreDisjuncts_sound (.conjunction ht) hm
  exact ⟨ts ++ us, by rw [htokens, hmiddle, List.append_assoc], hu⟩
termination_by 5 * tokens.length + 4

theorem moreDisjuncts_sound {left f : Filter} {before tokens rest : List Token}
    (hb : Phrase .disjunction before left)
    (h : (moreDisjuncts finish left tokens).outcome = (.ok f, rest)) :
    ∃ ts, tokens = ts ++ rest ∧ Phrase .disjunction (before ++ ts) f := by
  by_cases ho : nextKind tokens = .or
  · obtain ⟨or, after, htokens, hk, hlen⟩ := exists_cons_of_nextKind ho (by decide)
    rw [htokens, moreDisjuncts_or finish left after hk, andThen_eq_ok_iff] at h
    obtain ⟨right, middle, hr, hm⟩ := h
    have hlt := Reading.length_lt_of_outcome hr
    obtain ⟨ts, hafter, ht⟩ := conjunction_sound hr
    obtain ⟨us, hmiddle, hu⟩ := moreDisjuncts_sound (.or hb hk ht) hm
    refine ⟨or :: (ts ++ us), ?_, by simpa using hu⟩
    rw [htokens, hafter, hmiddle, List.cons_append, List.append_assoc]
  · rw [moreDisjuncts_stop finish left ho] at h
    obtain ⟨hf, rfl⟩ := Prod.mk.inj h
    refine ⟨[], rfl, ?_⟩
    rw [List.append_nil]
    exact Except.ok.inj hf ▸ hb
termination_by 5 * tokens.length + 3

theorem conjunction_sound {f : Filter} {tokens rest : List Token}
    (h : (conjunction finish tokens).outcome = (.ok f, rest)) :
    ∃ ts, tokens = ts ++ rest ∧ Phrase .conjunction ts f := by
  rw [conjunction_outcome, andThen_eq_ok_iff] at h
  obtain ⟨left, middle, hl, hm⟩ := h
  have hlt := Reading.length_lt_of_outcome hl
  obtain ⟨ts, htokens, ht⟩ := negation_sound hl
  obtain ⟨us, hmiddle, hu⟩ := moreConjuncts_sound (.negation ht) hm
  exact ⟨ts ++ us, by rw [htokens, hmiddle, List.append_assoc], hu⟩
termination_by 5 * tokens.length + 3

theorem moreConjuncts_sound {left f : Filter} {before tokens rest : List Token}
    (hb : Phrase .conjunction before left)
    (h : (moreConjuncts finish left tokens).outcome = (.ok f, rest)) :
    ∃ ts, tokens = ts ++ rest ∧ Phrase .conjunction (before ++ ts) f := by
  by_cases ha : nextKind tokens = .and
  · obtain ⟨and, after, htokens, hk, hlen⟩ := exists_cons_of_nextKind ha (by decide)
    rw [htokens, moreConjuncts_and finish left after hk, andThen_eq_ok_iff] at h
    obtain ⟨right, middle, hr, hm⟩ := h
    have hlt := Reading.length_lt_of_outcome hr
    obtain ⟨ts, hafter, ht⟩ := negation_sound hr
    obtain ⟨us, hmiddle, hu⟩ := moreConjuncts_sound (.and hb hk ht) hm
    refine ⟨and :: (ts ++ us), ?_, by simpa using hu⟩
    rw [htokens, hafter, hmiddle, List.cons_append, List.append_assoc]
  · by_cases hs : (nextKind tokens).startsTerm = true
    · rw [moreConjuncts_term finish left hs, andThen_eq_ok_iff] at h
      obtain ⟨right, middle, hr, hm⟩ := h
      have hlt := Reading.length_lt_of_outcome hr
      obtain ⟨ts, htokens, ht⟩ := negation_sound hr
      obtain ⟨us, hmiddle, hu⟩ := moreConjuncts_sound (.implied hb ht) hm
      exact ⟨ts ++ us, by rw [htokens, hmiddle, List.append_assoc], by simpa using hu⟩
    · rw [moreConjuncts_stop finish left ha (Bool.eq_false_iff.2 hs)] at h
      obtain ⟨hf, rfl⟩ := Prod.mk.inj h
      refine ⟨[], rfl, ?_⟩
      rw [List.append_nil]
      exact Except.ok.inj hf ▸ hb
termination_by 5 * tokens.length + 2

theorem negation_sound {f : Filter} {tokens rest : List Token}
    (h : (negation finish tokens).outcome = (.ok f, rest)) :
    ∃ ts, tokens = ts ++ rest ∧ Phrase .negation ts f := by
  by_cases hn : nextKind tokens = .not
  · obtain ⟨not, after, htokens, hk, hlen⟩ := exists_cons_of_nextKind hn (by decide)
    rw [htokens, negation_not finish after hk, andThen_eq_ok_iff] at h
    obtain ⟨child, middle, hc, hm⟩ := h
    obtain ⟨hf, rfl⟩ := Prod.mk.inj hm
    obtain ⟨ts, hafter, ht⟩ := negation_sound hc
    refine ⟨not :: ts, ?_, Except.ok.inj hf ▸ .not hk ht⟩
    rw [htokens, hafter, List.cons_append]
  · rw [negation_primary finish hn] at h
    obtain ⟨ts, htokens, ht⟩ := primary_sound h
    exact ⟨ts, htokens, .primary ht⟩
termination_by 5 * tokens.length + 1

theorem primary_sound {f : Filter} {tokens rest : List Token}
    (h : (primary finish tokens).outcome = (.ok f, rest)) :
    ∃ ts, tokens = ts ++ rest ∧ Phrase .primary ts f := by
  by_cases hp : nextKind tokens = .leftParen
  · obtain ⟨first, after, htokens, hk, hlen⟩ := exists_cons_of_nextKind hp (by decide)
    rw [htokens, primary_group finish after hk, andThen_eq_ok_iff] at h
    obtain ⟨filter, middle, hd, hm⟩ := h
    obtain ⟨ts, hafter, ht⟩ := disjunction_sound hd
    by_cases hr : nextKind middle = .rightParen
    · obtain ⟨last, left, rfl, hl, -⟩ := exists_cons_of_nextKind hr (by decide)
      rw [if_pos hr] at hm
      obtain ⟨hf, rfl⟩ := Prod.mk.inj hm
      refine ⟨first :: (ts ++ [last]), ?_, Except.ok.inj hf ▸ .group hk ht hl⟩
      rw [htokens, hafter, List.tail_cons, List.cons_append, List.append_assoc]
      rfl
    · rw [if_neg hr] at hm
      split at hm <;> exact absurd (congrArg Prod.fst hm) (by simp)
  · by_cases hv : (nextKind tokens).isValue = true
    · obtain ⟨term, after, rfl, -, -⟩ := exists_cons_of_nextKind rfl (by
        intro he
        rw [he] at hv
        exact Bool.noConfusion hv)
      by_cases hc : term.kind = .identifier ∧ nextKind after = .colon
      · rw [primary_field finish after hc.1 hc.2] at h
        exact fieldTerm_sound hc.1 hc.2 h
      · rw [primary_term finish after hv hc] at h
        obtain ⟨hf, rfl⟩ := Prod.mk.inj h
        exact ⟨[term], rfl, Except.ok.inj hf ▸ .term hv⟩
    · exact absurd h ((primary_fails finish hp (Bool.eq_false_iff.2 hv)).ne_ok f rest)
termination_by 5 * tokens.length

end

/-! ### Sort clause -/

theorem sortKey_sound {key : SortKey} {tokens rest : List Token}
    (h : (sortKey tokens).outcome = (.ok key, rest)) :
    ∃ ts, tokens = ts ++ rest ∧ Key ts key := by
  by_cases hn : nextKind tokens = .identifier
  · obtain ⟨name, after, rfl, hk, -⟩ := exists_cons_of_nextKind hn (by decide)
    rw [sortKey_name after hk] at h
    cases hr : resolveField name with
    | error e =>
      rw [hr] at h
      exact absurd (congrArg Prod.fst h) (by simp)
    | ok field =>
      have hfield := resolveField_eq_ok_iff.1 hr
      simp only [hr] at h
      by_cases ha : nextKind after = .asc
      · obtain ⟨direction, left, rfl, hd, -⟩ := exists_cons_of_nextKind ha (by decide)
        rw [if_pos ha] at h
        obtain ⟨hkey, rfl⟩ := Prod.mk.inj h
        exact ⟨[name, direction], rfl, Except.ok.inj hkey ▸ .asc hk hfield hd⟩
      · rw [if_neg ha] at h
        by_cases hd : nextKind after = .desc
        · obtain ⟨direction, left, rfl, hd', -⟩ := exists_cons_of_nextKind hd (by decide)
          rw [if_pos hd] at h
          obtain ⟨hkey, rfl⟩ := Prod.mk.inj h
          exact ⟨[name, direction], rfl, Except.ok.inj hkey ▸ .desc hk hfield hd'⟩
        · rw [if_neg hd] at h
          obtain ⟨hkey, rfl⟩ := Prod.mk.inj h
          exact ⟨[name], rfl, Except.ok.inj hkey ▸ .plain hk hfield⟩
  · exact absurd h ((sortKey_fails hn).ne_ok key rest)

theorem sortKeys_sound {keys : List SortKey} {tokens rest : List Token}
    (h : (sortKeys tokens).outcome = (.ok keys, rest)) :
    ∃ ts, tokens = ts ++ rest ∧ Keys ts keys := by
  rw [sortKeys_outcome, andThen_eq_ok_iff] at h
  obtain ⟨key, middle, hk, h⟩ := h
  have hlt := Reading.length_lt_of_outcome hk
  obtain ⟨ts, htokens, ht⟩ := sortKey_sound hk
  by_cases hc : nextKind middle = .comma
  · obtain ⟨comma, after, hmiddle, hcomma, hlen⟩ := exists_cons_of_nextKind hc (by decide)
    rw [if_pos hc, hmiddle, List.tail_cons, andThen_eq_ok_iff] at h
    obtain ⟨more, left, hm, h⟩ := h
    obtain ⟨hkeys, rfl⟩ := Prod.mk.inj h
    obtain ⟨us, hafter, hu⟩ := sortKeys_sound hm
    refine ⟨ts ++ comma :: us, ?_, Except.ok.inj hkeys ▸ .more ht hcomma hu⟩
    rw [htokens, hmiddle, hafter, List.append_assoc, List.cons_append]
  · rw [if_neg hc] at h
    obtain ⟨hkeys, rfl⟩ := Prod.mk.inj h
    exact ⟨ts, htokens, Except.ok.inj hkeys ▸ .one ht⟩
termination_by tokens.length

theorem ending_sound {keys : List SortKey} {tokens : List Token}
    (h : ending tokens = .ok keys) : SortPart tokens keys := by
  obtain ⟨rfl, rfl⟩ | ⟨sort, rest, rfl, hs, hc⟩ := ending_eq_ok_iff.1 h
  · exact .none
  · by_cases hk : nextKind rest = .colon
    · obtain ⟨colon, after, rfl, hcolon, -⟩ := exists_cons_of_nextKind hk (by decide)
      rw [sortClause_colon after hcolon] at hc
      obtain ⟨ts, hts, ht⟩ := sortKeys_sound hc
      rw [List.append_nil] at hts
      exact .some hs hcolon (hts ▸ ht)
    · exact absurd hc ((sortClause_fails hk).ne_ok keys [])

/-! ### Queries -/

theorem query_sound {stream : Stream} {query : Query} (h : stream.query = .ok query) :
    Derives stream.tokens query := by
  by_cases hne : stream.tokens = []
  · rw [Stream.query_nil hne] at h
    rw [hne, ← Except.ok.inj h]
    exact .intro .none .none
  · by_cases hs : nextKind stream.tokens = .sortBy
    · rw [Stream.query_sort hs] at h
      cases he : ending stream.tokens with
      | error e =>
        rw [he] at h
        cases h
      | ok keys =>
        rw [he] at h
        rw [← Except.ok.inj h]
        exact .intro .none (ending_sound he)
    · rw [Stream.query_filter hne hs] at h
      split at h
      · cases h
      · next f rest hd =>
        cases he : ending rest with
        | error e =>
          rw [he] at h
          cases h
        | ok keys =>
          rw [he] at h
          obtain ⟨ts, hts, ht⟩ := disjunction_sound hd
          rw [hts, ← Except.ok.inj h]
          exact .intro (.some ht) (ending_sound he)

/-- A row of tokens that reads as a query derives it. -/
theorem derives_of_ofTokens {tokens : List Token} {query : Query}
    (hend : ∀ token ∈ tokens, token.kind ≠ .eof) (h : Query.ofTokens tokens = .ok query) :
    Derives tokens query := by
  have := query_sound h
  rwa [Stream.tokens_ofTokens hend] at this

end Triage.Grammar
