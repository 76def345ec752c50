import Triage.Proofs.Grammar.Soundness

/-! What is derived is read.

A reader stops where its phrase ends only if what follows cannot go on with it. A
term goes on at a colon, comma or dots, a conjunction also at an `AND` or another
term, a disjunction also at an `OR`. `Reads` says for each level what reading the
tokens of a phrase comes to before anything that does not go on with it, and
`Phrase.reads` that it does so for every derivation. With the converse, the parser
accepts exactly what the grammar derives. -/
namespace Triage.Grammar
open Parse Outcome

variable (finish : Nat)

/-! ### What may follow -/

/-- A token of this kind goes on with a term. -/
def extendsTerm (kind : Token.Kind) : Bool := kind = .colon || kind = .comma || kind = .dotDot

/-- A token of this kind goes on with a conjunction. -/
def extendsConjunction (kind : Token.Kind) : Bool :=
  extendsTerm kind || kind = .and || kind.startsTerm

theorem extendsTerm_of_startsTerm {kind : Token.Kind} (h : kind.startsTerm = true) :
    extendsTerm kind = false := by
  cases kind <;> first | rfl | exact absurd h (by decide)

/-! ### Values -/

theorem value_said {field : Field} {token : Token} {v : Value} (h : Says field token v)
    (name : Token) (rest : List Token) :
    (value finish field name (token :: rest)).outcome = (.ok v, rest) :=
  (value_found_iff finish).2 ⟨token, rfl, h⟩

theorem Further.nextKind {field : Field} {ts : List Token} {vs : List Value}
    (h : Further field ts vs) (hne : vs ≠ []) (rest : List Token) :
    nextKind (ts ++ rest) = .comma := by
  cases h with
  | nil => exact absurd rfl hne
  | cons hk _ _ => exact hk

theorem moreValues_further {field : Field} {name : Token} {ts rest : List Token}
    {more : List Value} (h : Further field ts more) (vs : List Value)
    (hr : nextKind rest ≠ .comma) :
    (moreValues finish field name vs (ts ++ rest)).outcome = (.ok (vs ++ more), rest) := by
  induction h generalizing vs with
  | nil =>
    rw [List.nil_append, List.append_nil]
    exact moreValues_stop finish field name vs hr
  | @cons comma token v ts more hc hs _ ih =>
    rw [List.cons_append, List.cons_append, moreValues_comma finish field name vs _ hc,
      value_said finish hs, andThen_ok, ih (vs ++ [v]), List.append_assoc]
    rfl

theorem values_single_said {field : Field} {token : Token} {v : Value} (h : Says field token v)
    (name : Token) {rest : List Token} (hr : extendsTerm (nextKind rest) = false) :
    (values finish field name (token :: rest)).outcome = (.ok (single field v), rest) := by
  rw [values_outcome, value_said finish h, andThen_ok]
  split
  · next hd => exact absurd hr (by rw [hd]; decide)
  · next hc => exact absurd hr (by rw [hc]; decide)
  · rfl

theorem values_complete {field : Field} {name : Token} {ts rest : List Token} {f : Filter}
    (h : Values field ts f) (hr : extendsTerm (nextKind rest) = false) :
    (values finish field name (ts ++ rest)).outcome = (.ok f, rest) := by
  cases h with
  | @item token v hl hs =>
    rw [List.singleton_append, values_single_said finish hs name hr]
    simp [single, hl]
  | @search token t hf hs =>
    rw [List.singleton_append, values_single_said finish hs name hr, single_of_isFreeText hf]
  | @equal token v hl hn hs =>
    rw [List.singleton_append, values_single_said finish hs name hr, single_of_not_search hl hn]
  | @range first dots last min max ho hs hd hm =>
    have hk : nextKind (dots :: last :: rest) = .dotDot := hd
    rw [List.cons_append, List.cons_append, List.singleton_append, values_outcome,
      value_said finish hs, andThen_ok, hk]
    simp only [ho, if_true, List.tail_cons]
    rw [value_said finish hm, andThen_ok]
  | @list first v ts vs hs hf hne =>
    have hk := hf.nextKind hne rest
    have hc : nextKind rest ≠ .comma := by
      intro hc
      rw [hc] at hr
      exact absurd hr (by decide)
    rw [List.cons_append, values_outcome, value_said finish hs, andThen_ok, hk]
    simp only
    rw [moreValues_further finish hf [v] hc, andThen_ok]
    rfl

/-! ### Expressions -/

/-- What reading the tokens of a phrase comes to, whatever follows that does not go on with it. At
the two levels of loops it comes to the loop with the phrase on its left. -/
def Reads : Level → List Token → Filter → Prop
  | .disjunction, ts, f => ∀ rest, extendsConjunction (nextKind rest) = false →
      (disjunction finish (ts ++ rest)).outcome = (moreDisjuncts finish f rest).outcome
  | .conjunction, ts, f => ∀ rest, extendsTerm (nextKind rest) = false →
      (conjunction finish (ts ++ rest)).outcome = (moreConjuncts finish f rest).outcome
  | .negation, ts, f => ∀ rest, extendsTerm (nextKind rest) = false →
      (negation finish (ts ++ rest)).outcome = (.ok f, rest)
  | .primary, ts, f => ∀ rest, extendsTerm (nextKind rest) = false →
      (primary finish (ts ++ rest)).outcome = (.ok f, rest)

/-- A conjunction before what does not go on with it. -/
theorem Reads.conjunction_found {ts rest : List Token} {f : Filter}
    (h : Reads finish .conjunction ts f) (hr : extendsConjunction (nextKind rest) = false) :
    (conjunction finish (ts ++ rest)).outcome = (.ok f, rest) := by
  simp only [extendsConjunction, Bool.or_eq_false_iff, decide_eq_false_iff_not] at hr
  rw [h rest hr.1.1, moreConjuncts_stop finish f hr.1.2 hr.2]

/-- A disjunction before what does not go on with it. -/
theorem Reads.disjunction_found {ts rest : List Token} {f : Filter}
    (h : Reads finish .disjunction ts f) (hr : extendsConjunction (nextKind rest) = false)
    (ho : nextKind rest ≠ .or) :
    (disjunction finish (ts ++ rest)).outcome = (.ok f, rest) := by
  rw [h rest hr, moreDisjuncts_stop finish f ho]

theorem Phrase.nextKind {level : Level} {ts : List Token} {f : Filter} (h : Phrase level ts f)
    (rest : List Token) : (nextKind (ts ++ rest)).startsTerm = true := by
  obtain ⟨token, more, rfl, ht⟩ := h.startsTerm
  exact ht

theorem Phrase.nextKind_ne_not {ts : List Token} {f : Filter} (h : Phrase .primary ts f)
    (rest : List Token) : Parse.nextKind (ts ++ rest) ≠ .not := by
  intro hn
  cases h with
  | group hk _ _ => exact Token.Kind.noConfusion (hk.symm.trans hn)
  | field hk _ _ _ => exact Token.Kind.noConfusion (hk.symm.trans hn)
  | @term token hv =>
    rw [show token.kind = .not from hn] at hv
    exact Bool.noConfusion hv

/-- Every derivation of a phrase is read. -/
theorem Phrase.reads {level : Level} {ts : List Token} {f : Filter} (h : Phrase level ts f) :
    Reads finish level ts f := by
  induction h with
  | conjunction _ ih =>
    intro rest hr
    rw [disjunction_outcome, ih.conjunction_found finish hr, andThen_ok]
  | @or ts us or f g _ ho _ ihf ihg =>
    intro rest hr
    have hk : extendsConjunction (Parse.nextKind (or :: (us ++ rest))) = false := by
      rw [show Parse.nextKind (or :: (us ++ rest)) = .or from ho]
      rfl
    rw [List.append_assoc, List.cons_append, ihf _ hk, moreDisjuncts_or finish f _ ho,
      ihg.conjunction_found finish hr, andThen_ok]
  | negation _ ih =>
    intro rest hr
    rw [conjunction_outcome, ih rest hr, andThen_ok]
  | @and ts us and f g _ ha _ ihf ihg =>
    intro rest hr
    have hk : extendsTerm (Parse.nextKind (and :: (us ++ rest))) = false := by
      rw [show Parse.nextKind (and :: (us ++ rest)) = .and from ha]
      rfl
    rw [List.append_assoc, List.cons_append, ihf _ hk, moreConjuncts_and finish f _ ha,
      ihg rest hr, andThen_ok]
  | @implied ts us f g _ hg ihf ihg =>
    intro rest hr
    have hs := hg.nextKind rest
    rw [List.append_assoc, ihf _ (extendsTerm_of_startsTerm hs), moreConjuncts_term finish f hs,
      ihg rest hr, andThen_ok]
  | not hn _ ih =>
    intro rest hr
    rw [List.cons_append, negation_not finish _ hn, ih rest hr, andThen_ok]
  | @primary ts f hp ih =>
    intro rest hr
    rw [negation_primary finish (hp.nextKind_ne_not rest), ih rest hr]
  | @group ts first last f hf _ hl ih =>
    intro rest hr
    have hk : Parse.nextKind (last :: rest) = .rightParen := hl
    have hd : (disjunction finish (ts ++ (last :: rest))).outcome = (.ok f, last :: rest) :=
      ih.disjunction_found finish (by rw [hk]; rfl) (by rw [hk]; decide)
    rw [List.cons_append, List.append_assoc, List.singleton_append, primary_group finish _ hf, hd,
      andThen_ok, if_pos hk, List.tail_cons]
  | @field ts name colon field f hn hc hfield hv =>
    intro rest hr
    have hk : Parse.nextKind (colon :: (ts ++ rest)) = .colon := hc
    rw [List.cons_append, List.cons_append, primary_field finish _ hn hk, fieldTerm_outcome,
      resolveField_eq_ok_iff.2 hfield]
    exact values_complete finish hv hr
  | @term token hv =>
    intro rest hr
    refine primary_term finish rest hv ?_
    intro h
    have hc := h.2
    rw [hc] at hr
    exact absurd hr (by decide)

/-! ### Sort clause -/

theorem sortKey_complete {ts rest : List Token} {key : SortKey} (h : Key ts key)
    (ha : nextKind rest ≠ .asc) (hd : nextKind rest ≠ .desc) :
    (sortKey (ts ++ rest)).outcome = (.ok key, rest) := by
  cases h with
  | plain hn hfield =>
    rw [List.singleton_append, sortKey_name rest hn, resolveField_eq_ok_iff.2 hfield]
    simp only [ha, hd, if_false]
  | @asc name direction field hn hfield hk =>
    have hnext : nextKind (direction :: rest) = .asc := hk
    rw [List.cons_append, List.singleton_append, sortKey_name _ hn,
      resolveField_eq_ok_iff.2 hfield]
    simp only [hnext, if_true, List.tail_cons]
  | @desc name direction field hn hfield hk =>
    have hnext : nextKind (direction :: rest) = .desc := hk
    rw [List.cons_append, List.singleton_append, sortKey_name _ hn,
      resolveField_eq_ok_iff.2 hfield]
    simp [hnext]

theorem sortKeys_complete {ts : List Token} {keys : List SortKey} (h : Keys ts keys) :
    (sortKeys ts).outcome = (.ok keys, []) := by
  induction h with
  | @one ts key hkey =>
    have hk : (sortKey (ts ++ [])).outcome = (.ok key, []) :=
      sortKey_complete hkey (by decide) (by decide)
    rw [List.append_nil] at hk
    rw [sortKeys_outcome, hk, andThen_ok, if_neg (by decide)]
  | @more ts us comma key keys hkey hc _ ih =>
    have hnext : nextKind (comma :: us) = .comma := hc
    have hk : (sortKey (ts ++ comma :: us)).outcome = (.ok key, comma :: us) :=
      sortKey_complete hkey (by rw [hnext]; decide) (by rw [hnext]; decide)
    rw [sortKeys_outcome, hk, andThen_ok, if_pos hnext, List.tail_cons, ih, andThen_ok]

theorem ending_complete {ts : List Token} {keys : List SortKey} (h : SortPart ts keys) :
    ending ts = .ok keys := by
  rw [ending_eq_ok_iff]
  cases h with
  | none => exact .inl ⟨rfl, rfl⟩
  | some hs hc hk =>
    refine .inr ⟨_, _, rfl, hs, ?_⟩
    rw [sortClause_colon _ hc]
    exact sortKeys_complete hk

/-- After the filter comes the end or the words `sort by`. -/
theorem SortPart.nextKind {ts : List Token} {keys : List SortKey} (h : SortPart ts keys) :
    Parse.nextKind ts = .eof ∨ Parse.nextKind ts = .sortBy := by
  cases h with
  | none => exact .inl rfl
  | some hs _ _ => exact .inr hs

/-! ### Queries -/

theorem query_complete {stream : Stream} {tokens : List Token} {query : Query}
    (ht : stream.tokens = tokens) (h : Derives tokens query) : stream.query = .ok query := by
  cases h with
  | @intro ts us filter sort hf hs =>
    cases hf with
    | none =>
      rw [List.nil_append] at ht
      cases hs with
      | none => exact Stream.query_nil ht
      | some hk hc hkeys =>
        rw [Stream.query_sort (by rw [ht]; exact hk), ht, ending_complete (.some hk hc hkeys)]
        rfl
    | @some ts f hf =>
      have hstarts := hf.nextKind us
      rw [← ht] at hstarts
      have hfound : (disjunction stream.finish (ts ++ us)).outcome = (.ok f, us) := by
        apply (hf.reads stream.finish).disjunction_found
        · obtain hu | hu := hs.nextKind <;> rw [hu] <;> rfl
        · obtain hu | hu := hs.nextKind <;> rw [hu] <;> decide
      rw [Stream.query_term hstarts, ht, hfound]
      simp only [ending_complete hs]
      rfl

/-- A row of tokens that derives a query reads as that query. -/
theorem ofTokens_of_derives {tokens : List Token} {query : Query}
    (hend : ∀ token ∈ tokens, token.kind ≠ .eof) (h : Derives tokens query) :
    Query.ofTokens tokens = .ok query :=
  query_complete (Stream.tokens_ofTokens hend) h

/-- **The parser accepts exactly its grammar.** Tokens of any kinds without an end among them read
as a query if and only if the grammar derives that query from them, and it derives no other. -/
theorem accepts_iff_derives (tokens : List Token) (hend : ∀ token ∈ tokens, token.kind ≠ .eof) :
    (∀ query, Query.ofTokens tokens = .ok query ↔ Derives tokens query) ∧
      ∀ query other, Derives tokens query → Derives tokens other → query = other := by
  constructor
  · intro query
    exact ⟨derives_of_ofTokens hend, ofTokens_of_derives hend⟩
  · intro query other hq ho
    have hread := ofTokens_of_derives hend hq
    rw [ofTokens_of_derives hend ho] at hread
    exact (Except.ok.inj hread).symm

/-- The tokens of `NOT a p:0..2 OR {b c} sort by: due desc`. -/
def sampleTokens : List Token :=
  [⟨.not, "NOT".toList, 0, none⟩, ⟨.identifier, ['a'], 4, none⟩,
   ⟨.identifier, ['p'], 6, none⟩, ⟨.colon, [':'], 7, none⟩, ⟨.number, ['0'], 8, some (.integer 0)⟩,
   ⟨.dotDot, "..".toList, 9, none⟩, ⟨.number, ['2'], 11, some (.integer 2)⟩,
   ⟨.or, "OR".toList, 13, none⟩, ⟨.string, "\x7bb c\x7d".toList, 16, some (.text "b c".toList)⟩,
   ⟨.sortBy, "sort by".toList, 22, none⟩, ⟨.colon, [':'], 29, none⟩,
   ⟨.identifier, "due".toList, 31, none⟩, ⟨.desc, "desc".toList, 35, none⟩]

/-- The negation binds tightest, the implied `AND` next, and the `OR` last. -/
theorem sampleTokens_derive : (∀ token ∈ sampleTokens, token.kind ≠ .eof) ∧
    Derives sampleTokens
      ⟨some (.or (.and (.not (.contains none ['a'] false))
        (.range .priority (.integer 0) (.integer 2))) (.contains none "b c".toList false)),
        [⟨.due, .desc⟩]⟩ := by
  have hend : ∀ token ∈ sampleTokens, token.kind ≠ .eof := by decide
  refine ⟨hend, ((accepts_iff_derives sampleTokens hend).1 _).1 ?_⟩
  apply eq_ok_of_toOption
  decide +kernel

end Triage.Grammar
