import Triage.Command.Filter
import Triage.Proofs.Grammar.Kinds
import Triage.Proofs.Insertion
import Triage.Proofs.Spacing

/-! Default sort keys beside a sort clause behind the query.

A text in front of a sort clause is split as it is by itself (`Leads.before_word`), and no
filter goes past the words `sort by`. So a text that is read as a filter keeps it when a
clause is put behind it, and the clause brings the keys that its own text writes, whatever
text that is (`Query.parse_sortedBy_iff`). Default keys are read by themselves, behind the
same words with no filter in front, which comes to the same (`queryWithDefault_appended`). -/
namespace Triage

/-! ### What the grammar derives -/

namespace Grammar

/-- No sort clause begins in a filter. -/
theorem FilterPart.kind_ne_sortBy {ts : List Token} {filter : Option Filter}
    (h : FilterPart ts filter) : ∀ token ∈ ts, token.kind ≠ .sortBy := by
  cases h with
  | none => exact fun token ht => absurd ht List.not_mem_nil
  | some hphrase => exact hphrase.kind_ne_sortBy

/-- A phrase is read to its end. -/
theorem Phrase.found {ts : List Token} {f : Filter} (h : Phrase .disjunction ts f) :
    (Parse.disjunction 0 (ts ++ [])).outcome = (.ok f, []) :=
  (h.reads 0).disjunction_found 0 rfl (by decide)

/-- Tokens are those of one filter at most. -/
theorem FilterPart.unique {ts : List Token} {filter other : Option Filter}
    (h : FilterPart ts filter) (ho : FilterPart ts other) : filter = other := by
  cases h with
  | none =>
    cases ho with
    | none => rfl
    | some hg =>
      obtain ⟨_, _, heq, -⟩ := hg.startsTerm
      cases heq
  | some hf =>
    cases ho with
    | none =>
      obtain ⟨_, _, heq, -⟩ := hf.startsTerm
      cases heq
    | some hg =>
      have hfound := hf.found
      rw [hg.found] at hfound
      rw [Except.ok.inj (Prod.mk.inj hfound).1]

/-- Two rows of tokens that go on at the first words `sort by` are one row up to there. -/
theorem append_sortBy_inj {ts us vs ws : List Token} {sort other : Token}
    (hts : ∀ token ∈ ts, token.kind ≠ .sortBy) (hvs : ∀ token ∈ vs, token.kind ≠ .sortBy)
    (hs : sort.kind = .sortBy) (ho : other.kind = .sortBy)
    (h : ts ++ sort :: us = vs ++ other :: ws) : ts = vs ∧ sort :: us = other :: ws := by
  have htake : ∀ (row rest : List Token) (token : Token), (∀ t ∈ row, t.kind ≠ .sortBy) →
      token.kind = .sortBy → (row ++ token :: rest).takeWhile (·.kind ≠ .sortBy) = row := by
    intro row rest token hrow htoken
    rw [List.takeWhile_append_of_pos (by simpa using hrow),
      List.takeWhile_cons_of_neg (by simpa using htoken), List.append_nil]
  have hsame : ts = vs := by
    rw [← htake ts us sort hts hs, h, htake vs ws other hvs ho]
  subst hsame
  exact ⟨rfl, List.append_cancel_left h⟩

/-- Behind the tokens of a filter, the words `sort by` and a colon come the tokens of the keys. -/
theorem derives_sortedBy_iff {ts us : List Token} {filter : Option Filter} {sort colon : Token}
    (hf : FilterPart ts filter) (hs : sort.kind = .sortBy) (hc : colon.kind = .colon)
    {query : Query} :
    Derives (ts ++ sort :: colon :: us) query ↔ query.filter = filter ∧ Keys us query.sort := by
  constructor
  · intro h
    generalize htokens : ts ++ sort :: colon :: us = tokens at h
    cases h with
    | intro hfilter hsort =>
      cases hsort with
      | none =>
        have hmem : sort ∈ ts ++ sort :: colon :: us := by simp
        rw [htokens, List.append_nil] at hmem
        exact absurd hs (hfilter.kind_ne_sortBy sort hmem)
      | some hs' _ hkeys =>
        obtain ⟨rfl, hrest⟩ :=
          append_sortBy_inj hf.kind_ne_sortBy hfilter.kind_ne_sortBy hs hs' htokens
        cases hrest
        exact ⟨hfilter.unique hf, hkeys⟩
  · intro h
    obtain ⟨filter', keys⟩ := query
    obtain ⟨rfl, hkeys⟩ := h
    exact .intro hf (.some hs hc hkeys)

/-- Where tokens stand does not matter. -/
theorem Derives.congr {ts us : List Token} {query : Query} (h : Derives ts query)
    (hmap : us.map Token.unplaced = ts.map Token.unplaced) : Derives us query := by
  obtain ⟨other, hother, hlike⟩ := h.like harmless_eq (Token.forall₂_like hmap)
  rwa [Query.eq_of_like hlike]

end Grammar

theorem Token.map_unplaced_shift (n : Nat) (ts : List Token) :
    (ts.map (Token.shift n)).map Token.unplaced = ts.map Token.unplaced :=
  List.map_map

/-! ### What is read -/

namespace Query

/-- A text behind a piece is read with the tokens of the piece in front of its own. -/
theorem parse_append_iff {piece text : Text} {ts : List Token} (h : Splits 0 piece text ts)
    {query : Query} :
    parse (piece ++ text) = .ok query ↔
      ∃ us, tokenize text = .ok (us ++ [⟨.eof, [], text.length, none⟩]) ∧
        Grammar.Derives (ts ++ us) query := by
  have hplaces : ∀ us : List Token,
      (ts ++ us.map (Token.shift piece.length)).map Token.unplaced =
        (ts ++ us).map Token.unplaced := by
    intro us
    rw [List.map_append, List.map_append, Token.map_unplaced_shift]
  rw [parse_iff_derives]
  constructor
  · intro hparse
    obtain ⟨all, hall, hderives⟩ := hparse
    have htokens := h.symm.trans hall.tokens_eq
    cases hmore : Cursor.tokens ⟨0 + piece.length, text⟩ with
    | error e =>
      rw [hmore] at htokens
      cases htokens
    | ok more =>
      rw [hmore] at htokens
      rw [Nat.add_comm] at hmore
      obtain ⟨us, hus, rfl⟩ := (Yields.of_tokens hmore).exists_shift
      obtain ⟨us, rfl, -⟩ := hus.leads
      rw [List.map_append] at htokens
      obtain ⟨rfl, -⟩ := List.append_inj'
        ((List.append_assoc _ _ _).trans (Except.ok.inj htokens)) rfl
      rw [Nat.zero_add] at hus
      exact ⟨us, hus.tokens_eq, hderives.congr (hplaces us).symm⟩
  · intro htext
    obtain ⟨us, hus, hderives⟩ := htext
    refine ⟨_, .of_tokens ?_, hderives.congr (hplaces us)⟩
    have htokens := h.tokenize_append hus
    rw [List.map_append, ← List.append_assoc] at htokens
    rw [List.length_append]
    exact htokens

/-- The sort keys that a text writes. -/
def WritesKeys (text : Text) (keys : List SortKey) : Prop :=
  ∃ ts, tokenize text = .ok (ts ++ [⟨.eof, [], text.length, none⟩]) ∧ Grammar.Keys ts keys

/-- Behind a piece that makes the tokens of a filter and begins a sort clause, a text brings the
keys that it writes. -/
theorem parse_sortedBy_iff {piece text : Text} {ts : List Token} {filter : Option Filter}
    {sort colon : Token} (h : Splits 0 piece text (ts ++ [sort, colon]))
    (hf : Grammar.FilterPart ts filter) (hs : sort.kind = .sortBy) (hc : colon.kind = .colon)
    {query : Query} :
    parse (piece ++ text) = .ok query ↔ query.filter = filter ∧ WritesKeys text query.sort := by
  rw [parse_append_iff h]
  simp only [List.append_assoc, List.cons_append, List.nil_append,
    Grammar.derives_sortedBy_iff hf hs hc]
  constructor
  · intro hread
    obtain ⟨us, hus, hfilter, hkeys⟩ := hread
    exact ⟨hfilter, us, hus, hkeys⟩
  · intro hwrites
    obtain ⟨hfilter, us, hus, hkeys⟩ := hwrites
    exact ⟨us, hus, hfilter, hkeys⟩

/-- A sort clause by itself is read as a query without a filter. -/
theorem parse_clause_iff {text : Text} {query : Query} :
    parse ("sort by: ".toList ++ text) = .ok query ↔
      query.filter = none ∧ WritesKeys text query.sort := by
  obtain ⟨sort, colon, hsplits, hs, hc⟩ := splits_clause 0 text
  rw [← List.nil_append [sort, colon]] at hsplits
  exact parse_sortedBy_iff hsplits .none hs hc

/-- A sort clause behind a query that has none leaves its filter as it is. -/
theorem parse_append_clause_iff {a text : Text} {filter : Option Filter}
    (h : parse a = .ok ⟨filter, []⟩) {query : Query} :
    parse (a ++ " sort by: ".toList ++ text) = .ok query ↔
      query.filter = filter ∧ WritesKeys text query.sort := by
  obtain ⟨ts, hyields, hderives⟩ := parse_iff_derives.1 h
  obtain ⟨ts, heq, hleads⟩ := hyields.leads
  obtain ⟨rfl, -⟩ := List.append_inj' heq rfl
  have hbreaks : Breaks (" sort by: ".toList ++ text) := breaks_cons (by decide) _
  have hword : Text.firstWord (" sort by: ".toList ++ text) = "sort".toList := by
    have hafter : Breaks (" by: ".toList ++ text) := breaks_cons (by decide) _
    have htake : ("sort".toList ++ (" by: ".toList ++ text)).takeWhile Text.isWordChar =
        "sort".toList := takeWhile_word (by decide) hafter
    exact htake
  have hbefore := hleads.before_word hbreaks (by rw [hword]; decide)
  have hblank := splits_blank (0 + a.length) ("sort by: ".toList ++ text) (c := ' ') (by decide)
  obtain ⟨sort, colon, hclause, hs, hc⟩ := splits_clause (0 + a.length + 1) text
  exact parse_sortedBy_iff (hbefore.splits.append (hblank.append hclause)) hderives.filterPart hs hc

end Query

namespace Command

/-- To a query without sort keys come those that the default text writes. -/
theorem queryWithDefault_eq_ok_iff {text defaultSort : Text} {filter : Option Filter}
    (h : Query.parse text = .ok ⟨filter, []⟩) {result : Query} :
    queryWithDefault text (some defaultSort) = .ok result ↔
      result.filter = filter ∧ Query.WritesKeys defaultSort result.sort := by
  simp only [queryWithDefault, h, List.isEmpty_nil, if_true]
  have hwrites : Query.WritesKeys defaultSort result.sort →
      Query.parse ("sort by: ".toList ++ defaultSort) = .ok ⟨none, result.sort⟩ := fun hkeys =>
    Query.parse_clause_iff.2 ⟨rfl, hkeys⟩
  constructor
  · intro hresult
    split at hresult
    · cases hresult
    · next defaults hdefaults =>
      obtain rfl := Except.ok.inj hresult
      exact ⟨rfl, (Query.parse_clause_iff.1 hdefaults).2⟩
  · intro hresult
    obtain ⟨rfl, hkeys⟩ := hresult
    rw [hwrites hkeys]

/-- **Default sort keys act as a sort clause behind the query.** A query that is not read fails as
it does by itself, and one with sort keys stays as it is, whatever the default keys. A query without
sort keys is read with the default ones exactly as the text is that has them behind it in a sort
clause, or neither is read. The filter is always that of the query. -/
theorem queryWithDefault_appended (text defaultSort : Text) :
    (∀ e, Query.parse text = .error e →
      queryWithDefault text (some defaultSort) = .error (.query e)) ∧
    ∀ query, Query.parse text = .ok query →
      (query.sort ≠ [] → queryWithDefault text (some defaultSort) = .ok query) ∧
      (query.sort = [] → ∀ result, queryWithDefault text (some defaultSort) = .ok result ↔
        Query.parse (text ++ " sort by: ".toList ++ defaultSort) = .ok result) ∧
      ∀ result, queryWithDefault text (some defaultSort) = .ok result →
        result.filter = query.filter := by
  refine ⟨fun e he => by simp only [queryWithDefault, he], fun query hquery => ?_⟩
  obtain ⟨filter, keys⟩ := query
  cases keys with
  | nil =>
    refine ⟨fun hne => absurd rfl hne, fun _ result => ?_, fun result hresult => ?_⟩
    · rw [queryWithDefault_eq_ok_iff hquery, Query.parse_append_clause_iff hquery]
    · exact ((queryWithDefault_eq_ok_iff hquery).1 hresult).1
  | cons key keys =>
    have hkept : queryWithDefault text (some defaultSort) = .ok ⟨filter, key :: keys⟩ := by
      simp [queryWithDefault, hquery]
    refine ⟨fun _ => hkept, fun hnil => absurd hnil (List.cons_ne_nil _ _), fun _ hresult => ?_⟩
    rw [← Except.ok.inj (hkept.symm.trans hresult)]

/-- A query that ends with the word `sort`, which the clause behind it does not complete. -/
theorem queryWithDefault_appended_sort :
    Query.parse ("x sort".toList ++ " sort by: ".toList ++ "due desc,p".toList) =
      .ok ⟨some (.and (.contains none "x".toList false) (.contains none "sort".toList false)),
        [⟨.due, .desc⟩, ⟨.priority, .asc⟩]⟩ := by
  have hquery : Query.parse "x sort".toList = .ok ⟨some
      (.and (.contains none "x".toList false) (.contains none "sort".toList false)), []⟩ := by
    apply eq_ok_of_toOption
    decide +kernel
  obtain ⟨-, happended, -⟩ :=
    (queryWithDefault_appended "x sort".toList "due desc,p".toList).2 _ hquery
  refine (happended rfl _).1 ?_
  apply eq_ok_of_toOption
  decide +kernel

end Command
end Triage
