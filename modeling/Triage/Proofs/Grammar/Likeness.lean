import Mathlib.Data.List.Forall2
import Triage.Proofs.Grammar.Completeness
import Triage.Proofs.Lexing.Leads
import Triage.Proofs.Shape

/-! What a row of tokens says, up to a likeness of texts.

Tokens are alike if they are of one kind and their texts are related, wherever they
stand. A relation of texts is harmless (`Harmless`) if related names mean the same
field and alike tokens say alike values. Then whatever the grammar derives from a row
of tokens it derives, up to the same likeness, from any row that is alike token by
token (`Derives.like`). Equality is harmless, so where tokens stand does not matter
(`Phrase.congr`). -/
namespace Triage

/-! ### Likeness -/

section Likeness

variable (R : Text → Text → Prop)

/-- What two tokens stand for beside their own texts: the same, up to the texts. -/
inductive Token.LikeLiteral : Option Token.Literal → Option Token.Literal → Prop where
  | none : LikeLiteral none none
  | integer {n : Int64} : LikeLiteral (some (.integer n)) (some (.integer n))
  | text {s t : Text} : R s t → LikeLiteral (some (.text s)) (some (.text t))

/-- Tokens of one kind with related texts. -/
structure Token.Like (a b : Token) : Prop where
  kind : b.kind = a.kind
  lexeme : R a.lexeme b.lexeme
  literal : LikeLiteral R a.literal b.literal

/-- Related texts, or the same value of another kind. -/
inductive Value.Like : Value → Value → Prop where
  | text {s t : Text} : R s t → Like (text s) (text t)
  | same {v : Value} : (∀ t, v ≠ text t) → Like v v

/-- Filters that differ in related texts only. Only searches in which case does not count are
compared, as no query writes another. -/
inductive Filter.Like : Filter → Filter → Prop where
  | and {f f' g g' : Filter} : Like f f' → Like g g' → Like (and f g) (and f' g')
  | or {f f' g g' : Filter} : Like f f' → Like g g' → Like (or f g) (or f' g')
  | not {f f' : Filter} : Like f f' → Like (not f) (not f')
  | equals {field : Field} {v w : Value} : Value.Like R v w → Like (equals field v) (equals field w)
  | oneOf {field : Field} {vs ws : List Value} :
      List.Forall₂ (Value.Like R) vs ws → Like (oneOf field vs) (oneOf field ws)
  | range {field : Field} {min min' max max' : Value} :
      Value.Like R min min' → Value.Like R max max' →
      Like (range field min max) (range field min' max')
  | contains {field : Option Field} {s t : Text} :
      R s t → Like (contains field s false) (contains field t false)
  | has {field : Field} {v w : Value} : Value.Like R v w → Like (has field v) (has field w)

/-- Queries with filters alike and the same sort keys. -/
structure Query.Like (q r : Query) : Prop where
  filter : Option.Rel (Filter.Like R) q.filter r.filter
  sort : r.sort = q.sort

/-- A relation of texts that changes neither which field a name means nor, beyond itself, which
value a token says. -/
structure Harmless : Prop where
  name {s t : Text} : R s t → Field.ofName? t = Field.ofName? s
  value {field : Field} {a b : Token} {v : Value} :
    Token.Like R a b → Grammar.Says field a v → ∃ w, Grammar.Says field b w ∧ Value.Like R v w

end Likeness

/-- A row alike to two rows put together is two such rows put together. -/
theorem forall₂_append_inv {R : α → β → Prop} {as bs : List α} {cs : List β}
    (h : List.Forall₂ R (as ++ bs) cs) :
    ∃ ds es, cs = ds ++ es ∧ List.Forall₂ R as ds ∧ List.Forall₂ R bs es := by
  induction as generalizing cs with
  | nil => exact ⟨[], cs, rfl, .nil, h⟩
  | cons a as ih =>
    cases h with
    | cons hab h =>
      obtain ⟨ds, es, rfl, hd, he⟩ := ih h
      exact ⟨_ :: ds, es, rfl, .cons hab hd, he⟩

variable {R : Text → Text → Prop}

theorem Token.likeLiteral_refl (hR : ∀ t, R t t) (literal : Option Token.Literal) :
    Token.LikeLiteral R literal literal := by
  cases literal with
  | none => exact .none
  | some literal =>
    cases literal with
    | integer _ => exact .integer
    | text t => exact .text (hR t)

theorem Value.like_refl (hR : ∀ t, R t t) (v : Value) : Value.Like R v v := by
  cases v with
  | text t => exact .text (hR t)
  | _ => exact .same fun _ => Value.noConfusion

theorem Token.Like.text {a b : Token} (h : Token.Like R a b) : R a.text b.text := by
  obtain ⟨kind, lexeme, position, literal⟩ := a
  obtain ⟨kind', lexeme', position', literal'⟩ := b
  obtain ⟨-, hlexeme, hliteral⟩ := h
  cases hliteral with
  | none => exact hlexeme
  | integer => exact hlexeme
  | text h => exact h

namespace Grammar

/-! ### Derivations -/

section Derivations

variable (hR : Harmless R)
include hR

theorem Further.like {field : Field} {ts us : List Token} {vs : List Value}
    (h : Further field ts vs) (hl : List.Forall₂ (Token.Like R) ts us) :
    ∃ ws, Further field us ws ∧ List.Forall₂ (Value.Like R) vs ws := by
  induction h generalizing us with
  | nil =>
    cases hl
    exact ⟨[], .nil, .nil⟩
  | cons hc hs _ ih =>
    obtain _ | ⟨hcomma, _ | ⟨htoken, hl⟩⟩ := hl
    obtain ⟨w, hw, hvw⟩ := hR.value htoken hs
    obtain ⟨ws, hws, hvws⟩ := ih hl
    exact ⟨w :: ws, .cons (hcomma.kind.trans hc) hw hws, .cons hvw hvws⟩

theorem Values.like {field : Field} {ts us : List Token} {f : Filter} (h : Values field ts f)
    (hl : List.Forall₂ (Token.Like R) ts us) : ∃ g, Values field us g ∧ Filter.Like R f g := by
  cases h with
  | item ht hs =>
    obtain _ | ⟨htoken, _ | _⟩ := hl
    obtain ⟨w, hw, hvw⟩ := hR.value htoken hs
    exact ⟨_, .item ht hw, .has hvw⟩
  | search hf hs =>
    obtain _ | ⟨htoken, _ | _⟩ := hl
    obtain ⟨w, hw, hvw⟩ := hR.value htoken hs
    cases hvw with
    | text hst => exact ⟨_, .search hf hw, .contains hst⟩
    | same hne => exact absurd rfl (hne _)
  | equal ht hn hs =>
    obtain _ | ⟨htoken, _ | _⟩ := hl
    obtain ⟨w, hw, hvw⟩ := hR.value htoken hs
    -- If the other value were a text to search for, this one would be, too.
    refine ⟨_, .equal ht (fun hsearch => hn ⟨hsearch.1, ?_⟩) hw, .equals hvw⟩
    obtain ⟨-, t, rfl⟩ := hsearch
    cases hvw with
    | text _ => exact ⟨_, rfl⟩
    | same hne => exact absurd rfl (hne t)
  | range ho hmin hd hmax =>
    obtain _ | ⟨hlow, _ | ⟨hdots, _ | ⟨hhigh, _ | _⟩⟩⟩ := hl
    obtain ⟨low, hw, hvw⟩ := hR.value hlow hmin
    obtain ⟨high, hx, hvx⟩ := hR.value hhigh hmax
    exact ⟨_, .range ho hw (hdots.kind.trans hd) hx, .range hvw hvx⟩
  | list hs hf hne =>
    obtain _ | ⟨htoken, hl⟩ := hl
    obtain ⟨w, hw, hvw⟩ := hR.value htoken hs
    obtain ⟨ws, hws, hvws⟩ := hf.like hR hl
    refine ⟨_, .list hw hws ?_, .oneOf (.cons hvw hvws)⟩
    rintro rfl
    cases hvws
    exact hne rfl

/-- Rows of alike tokens are phrases of the same level, with filters alike. -/
theorem Phrase.like {level : Level} {ts us : List Token} {f : Filter} (h : Phrase level ts f)
    (hl : List.Forall₂ (Token.Like R) ts us) : ∃ g, Phrase level us g ∧ Filter.Like R f g := by
  induction h generalizing us with
  | conjunction _ ih =>
    obtain ⟨g, hg, hfg⟩ := ih hl
    exact ⟨g, .conjunction hg, hfg⟩
  | negation _ ih =>
    obtain ⟨g, hg, hfg⟩ := ih hl
    exact ⟨g, .negation hg, hfg⟩
  | primary _ ih =>
    obtain ⟨g, hg, hfg⟩ := ih hl
    exact ⟨g, .primary hg, hfg⟩
  | or _ ho _ ihf ihg =>
    obtain ⟨us, _, rfl, hleft, hrest⟩ := forall₂_append_inv hl
    obtain _ | ⟨hword, hright⟩ := hrest
    obtain ⟨f', hf, hff⟩ := ihf hleft
    obtain ⟨g', hg, hgg⟩ := ihg hright
    exact ⟨_, .or hf (hword.kind.trans ho) hg, .or hff hgg⟩
  | and _ ha _ ihf ihg =>
    obtain ⟨us, _, rfl, hleft, hrest⟩ := forall₂_append_inv hl
    obtain _ | ⟨hword, hright⟩ := hrest
    obtain ⟨f', hf, hff⟩ := ihf hleft
    obtain ⟨g', hg, hgg⟩ := ihg hright
    exact ⟨_, .and hf (hword.kind.trans ha) hg, .and hff hgg⟩
  | implied _ _ ihf ihg =>
    obtain ⟨us, vs, rfl, hleft, hright⟩ := forall₂_append_inv hl
    obtain ⟨f', hf, hff⟩ := ihf hleft
    obtain ⟨g', hg, hgg⟩ := ihg hright
    exact ⟨_, .implied hf hg, .and hff hgg⟩
  | not hn _ ih =>
    obtain _ | ⟨hword, hl⟩ := hl
    obtain ⟨g, hg, hfg⟩ := ih hl
    exact ⟨_, .not (hword.kind.trans hn) hg, .not hfg⟩
  | group hfirst _ hlast ih =>
    obtain _ | ⟨hopen, hl⟩ := hl
    obtain ⟨us, _, rfl, hinner, hend⟩ := forall₂_append_inv hl
    obtain _ | ⟨hclose, _ | _⟩ := hend
    obtain ⟨g, hg, hfg⟩ := ih hinner
    exact ⟨g, .group (hopen.kind.trans hfirst) hg (hclose.kind.trans hlast), hfg⟩
  | field hn hc hfield hv =>
    obtain _ | ⟨hname, _ | ⟨hcolon, hl⟩⟩ := hl
    obtain ⟨g, hg, hfg⟩ := hv.like hR hl
    exact ⟨g, .field (hname.kind.trans hn) (hcolon.kind.trans hc)
      ((hR.name hname.lexeme).trans hfield) hg, hfg⟩
  | term hv =>
    obtain _ | ⟨htoken, _ | _⟩ := hl
    exact ⟨_, .term (htoken.kind ▸ hv), .contains htoken.text⟩

theorem Key.like {ts us : List Token} {key : SortKey} (h : Key ts key)
    (hl : List.Forall₂ (Token.Like R) ts us) : Key us key := by
  cases h with
  | plain hn hfield =>
    obtain _ | ⟨hname, _ | _⟩ := hl
    exact .plain (hname.kind.trans hn) ((hR.name hname.lexeme).trans hfield)
  | asc hn hfield hk =>
    obtain _ | ⟨hname, _ | ⟨hword, _ | _⟩⟩ := hl
    exact .asc (hname.kind.trans hn) ((hR.name hname.lexeme).trans hfield) (hword.kind.trans hk)
  | desc hn hfield hk =>
    obtain _ | ⟨hname, _ | ⟨hword, _ | _⟩⟩ := hl
    exact .desc (hname.kind.trans hn) ((hR.name hname.lexeme).trans hfield) (hword.kind.trans hk)

theorem Keys.like {ts us : List Token} {keys : List SortKey} (h : Keys ts keys)
    (hl : List.Forall₂ (Token.Like R) ts us) : Keys us keys := by
  induction h generalizing us with
  | one hkey => exact .one (hkey.like hR hl)
  | more hkey hc _ ih =>
    obtain ⟨us, _, rfl, hfirst, hrest⟩ := forall₂_append_inv hl
    obtain _ | ⟨hcomma, hmore⟩ := hrest
    exact .more (hkey.like hR hfirst) (hcomma.kind.trans hc) (ih hmore)

theorem SortPart.like {ts us : List Token} {keys : List SortKey} (h : SortPart ts keys)
    (hl : List.Forall₂ (Token.Like R) ts us) : SortPart us keys := by
  cases h with
  | none =>
    cases hl
    exact .none
  | some hs hc hkeys =>
    obtain _ | ⟨hsort, _ | ⟨hcolon, hl⟩⟩ := hl
    exact .some (hsort.kind.trans hs) (hcolon.kind.trans hc) (hkeys.like hR hl)

/-- Rows of alike tokens derive alike queries. -/
theorem Derives.like {ts us : List Token} {query : Query} (h : Derives ts query)
    (hl : List.Forall₂ (Token.Like R) ts us) : ∃ r, Derives us r ∧ Query.Like R query r := by
  cases h with
  | intro hfilter hsort =>
    obtain ⟨us, vs, rfl, hfirst, hrest⟩ := forall₂_append_inv hl
    have hsort := hsort.like hR hrest
    cases hfilter with
    | none =>
      cases hfirst
      exact ⟨_, .intro .none hsort, .none, rfl⟩
    | some hp =>
      obtain ⟨g, hg, hfg⟩ := hp.like hR hfirst
      exact ⟨_, .intro (.some hg) hsort, .some hfg, rfl⟩

end Derivations

end Grammar

/-! ### Equal texts -/

theorem Token.eq_of_likeLiteral {l m : Option Token.Literal} (h : Token.LikeLiteral Eq l m) :
    m = l := by
  cases h with
  | none => rfl
  | integer => rfl
  | text h => rw [h]

theorem harmless_eq : Harmless Eq where
  name h := congrArg Field.ofName? h.symm
  value := by
    intro field a b v h hv
    have hb : b = { a with position := b.position } := by
      rw [← h.kind, h.lexeme, ← Token.eq_of_likeLiteral h.literal]
    exact ⟨v, hb ▸ hv, Value.like_refl (fun _ => rfl) v⟩

theorem Value.eq_of_like {v w : Value} (h : Value.Like Eq v w) : v = w := by
  cases h with
  | text h => rw [h]
  | same _ => rfl

theorem Filter.eq_of_like {f g : Filter} (h : Filter.Like Eq f g) : f = g := by
  induction h with
  | and _ _ ihf ihg => rw [ihf, ihg]
  | or _ _ ihf ihg => rw [ihf, ihg]
  | not _ ih => rw [ih]
  | equals hv => rw [Value.eq_of_like hv]
  | oneOf hvs =>
    have hvs := hvs.imp fun _ _ => Value.eq_of_like
    rw [List.forall₂_eq_eq_eq] at hvs
    rw [hvs]
  | range hmin hmax => rw [Value.eq_of_like hmin, Value.eq_of_like hmax]
  | contains h => rw [h]
  | has hv => rw [Value.eq_of_like hv]

theorem Query.eq_of_like {q r : Query} (h : Query.Like Eq q r) : q = r := by
  obtain ⟨filter, sort⟩ := q
  obtain ⟨filter', sort'⟩ := r
  obtain ⟨hfilter, rfl : sort' = sort⟩ := h
  cases hfilter with
  | none => rfl
  | some hf => rw [Filter.eq_of_like hf]

/-- Where the tokens of a phrase stand does not matter. -/
theorem Grammar.Phrase.congr {level : Level} {ts us : List Token} {f : Filter}
    (h : Phrase level ts f) (hl : List.Forall₂ (Token.Like Eq) ts us) : Phrase level us f := by
  obtain ⟨g, hg, hfg⟩ := h.like harmless_eq hl
  rwa [Filter.eq_of_like hfg]

/-! ### Texts -/

namespace Query

/-- A text is read as the queries that the grammar derives from its tokens before their end. -/
theorem parse_iff_derives {text : Text} {query : Query} :
    parse text = .ok query ↔
      ∃ ts, Yields 0 text (ts ++ [⟨.eof, [], text.length, none⟩]) ∧ Grammar.Derives ts query := by
  have htokens : ∀ ts, Yields 0 text (ts ++ [⟨.eof, [], text.length, none⟩]) →
      (Stream.ofTokens (ts ++ [⟨.eof, [], text.length, none⟩])).tokens = ts := fun ts hy =>
    Stream.tokens_ofTokens_append (Cursor.kind_ne_eof_of_tokens (Yields.iff_tokens.1 hy)) rfl
  rw [parse_eq_ok_iff]
  constructor
  · intro h
    obtain ⟨all, hall, hread⟩ := h
    have hy : Yields 0 text all := Yields.iff_tokens.2 hall
    obtain ⟨ts, rfl, -⟩ := hy.splits closes_nil
    rw [Nat.zero_add] at hy hread
    refine ⟨ts, hy, ?_⟩
    have hderives := Grammar.query_sound hread
    rwa [htokens ts hy] at hderives
  · intro h
    obtain ⟨ts, hy, hderives⟩ := h
    exact ⟨_, Yields.iff_tokens.1 hy, Grammar.query_complete (htokens ts hy) hderives⟩

/-- Texts that are split into alike tokens are read as alike queries. -/
theorem parse_like (hR : Harmless R) {a b : Text}
    (hb : ∀ ts, Yields 0 a ts → ∃ us, Yields 0 b us ∧ List.Forall₂ (Token.Like R) ts us)
    {query : Query} (h : parse a = .ok query) :
    ∃ other, parse b = .ok other ∧ query.Like R other := by
  obtain ⟨ts, hy, hderives⟩ := parse_iff_derives.1 h
  obtain ⟨all, hall, hlike⟩ := hb _ hy
  obtain ⟨us, last, rfl, hus, hlast⟩ := forall₂_append_inv hlike
  obtain ⟨other, hother, hquery⟩ := hderives.like hR hus
  -- The one token that is left of `b` is its end, wherever that stands.
  obtain ⟨vs, heq, -⟩ := hall.splits closes_nil
  obtain ⟨rfl, rfl⟩ := List.append_inj' heq hlast.length_eq.symm
  rw [Nat.zero_add] at hall
  exact ⟨other, parse_iff_derives.2 ⟨us, hall, hother⟩, hquery⟩

end Query
end Triage
