import Triage.Proofs.Mismatch
import Triage.Selection

/-! The order that sort keys make.

`Content.Before` says which of two contents of a field comes first: the smaller
number, the earlier instant, the text or list that comes first character by
character in lower case, and anything before nothing. A key puts one issue first by
it or by its reverse, and the first key that tells two issues apart decides
(`Issue.Ahead`). Comparing by keys computes that order
(`Issue.compareBy_eq_lt_iff`, `Issue.compareBy_eq_eq_iff`).

Contents of different kinds are tied by default, so the order of contents alone is
not transitive. The order of issues is, because a field holds contents of one kind
or nothing (`Issue.alike_get`) and the default is never reached
(`Issue.compareBy?_eq`): it is a total preorder under any keys
(`Issue.compareBy_totalPreorder`). -/
namespace Triage

/-! ### Lists -/

/-- Lists are compared item by item, and a list comes before one that goes on after it. -/
theorem compare_list_eq_lt_iff [Ord α] [Std.LawfulEqOrd α] [LT α]
    (h : ∀ a b : α, compare a b = .lt ↔ a < b) (as bs : List α) :
    compare as bs = .lt ↔ as < bs := by
  induction as generalizing bs with
  | nil => cases bs <;> simp
  | cons a as ih =>
    cases bs with
    | nil => simp
    | cons b bs =>
      rw [List.compare_cons_cons, Ordering.then_eq_lt, h, ih, List.cons_lt_cons_iff,
        Std.compare_eq_iff_eq]

/-- Lists are compared by what their items are compared by. -/
theorem compare_list_map [Ord α] [Ord β] {f : α → β}
    (h : ∀ a b : α, compare a b = compare (f a) (f b)) (as bs : List α) :
    compare as bs = compare (as.map f) (bs.map f) := by
  induction as generalizing bs with
  | nil => cases bs <;> simp
  | cons a as ih =>
    cases bs with
    | nil => simp
    | cons b bs =>
      rw [List.map_cons, List.map_cons, List.compare_cons_cons, List.compare_cons_cons, h, ih]

/-- Of two things one comes first or they are tied. -/
theorem isLE_total (cmp : α → α → Ordering) [Std.OrientedCmp cmp] (a b : α) :
    ((cmp a b).isLE || (cmp b a).isLE) = true := by
  have hswap : cmp b a = (cmp a b).swap := Std.OrientedCmp.eq_swap
  rw [hswap]
  cases cmp a b <;> rfl

/-! ### Texts and instants -/

namespace Text

/-- The code points of the characters of a text, each character in lower case by itself. -/
def codes (text : Text) : List Nat := text.fold.map Char.toNat

theorem compare_char (c d : Char) : compare c d = compare c.toNat d.toNat := by
  have hlt : c < d ↔ c.toNat < d.toNat := Iff.rfl
  show compareOfLessAndEq c d = compareOfLessAndEq c.toNat d.toNat
  simp only [compareOfLessAndEq, hlt, Char.toNat_inj]

theorem compare_fold (a b : Text) : compare a.fold b.fold = compare a.codes b.codes :=
  compare_list_map compare_char a.fold b.fold

theorem compare_fold_eq_lt_iff (a b : Text) : compare a.fold b.fold = .lt ↔ a.codes < b.codes := by
  rw [compare_fold]
  exact compare_list_eq_lt_iff (fun _ _ => Nat.compare_eq_lt) _ _

theorem compare_folds_eq_lt_iff (as bs : List Text) :
    compare (as.map fold) (bs.map fold) = .lt ↔ as.map codes < bs.map codes := by
  have hcodes : ∀ ts : List Text, (ts.map fold).map (List.map Char.toNat) = ts.map codes :=
    fun ts => List.map_map
  have hitems : ∀ a b : Text, compare a b = compare (a.map Char.toNat) (b.map Char.toNat) :=
    compare_list_map compare_char
  rw [compare_list_map hitems, hcodes, hcodes]
  exact compare_list_eq_lt_iff (compare_list_eq_lt_iff fun _ _ => Nat.compare_eq_lt) _ _

end Text

namespace Instant

instance : Std.TransCmp Instant.compare :=
  inferInstanceAs (Std.TransCmp (compareLex (compareOn Instant.second) (compareOn Instant.nano)))

theorem compare_eq_lt_iff (t u : Instant) : t.compare u = .lt ↔ t.before u = true := by
  simp [compare, before, Ordering.then_eq_lt, Int.compare_eq_lt, Nat.compare_eq_lt]

end Instant

/-! ### Contents -/

namespace Content

/-- Which of two contents of the same field comes first in ascending order. -/
inductive Before : Content → Content → Prop where
  | integer {n m : Int64} : n.toInt < m.toInt → Before (integer n) (integer m)
  | instant {t u : Instant} : t.before u = true → Before (instant t) (instant u)
  | text {a b : Text} : a.codes < b.codes → Before (text a) (text b)
  | list {as bs : List Text} : as.map Text.codes < bs.map Text.codes → Before (list as) (list bs)
  /-- What is absent comes last. -/
  | absent {content : Content} : content ≠ absent → Before content absent

/-- Two contents of one kind, or one of them absent. -/
def Alike : Content → Content → Prop
  | absent, _ | _, absent => True
  | integer _, integer _ | instant _, instant _ | text _, text _ | list _, list _ => True
  | _, _ => False

/-- The order of two contents, with no answer where they are of different kinds. -/
def compare? : Content → Content → Option Ordering
  | absent, absent => some .eq
  | absent, _ => some .gt
  | _, absent => some .lt
  | integer n, integer m => some (Ord.compare n.toInt m.toInt)
  | instant t, instant u => some (t.compare u)
  | text a, text b => some (Ord.compare a.fold b.fold)
  | list as, list bs => some (Ord.compare (as.map Text.fold) (bs.map Text.fold))
  | _, _ => none

/-- Where there is no answer, contents are taken for tied. -/
theorem getD_compare? (a b : Content) : (a.compare? b).getD .eq = a.compare b := by
  cases a <;> cases b <;> rfl

theorem isSome_compare?_iff {a b : Content} : (a.compare? b).isSome = true ↔ a.Alike b := by
  cases a <;> cases b <;> simp [compare?, Alike]

theorem Alike.compare?_eq {a b : Content} (h : a.Alike b) :
    a.compare? b = some (a.compare b) := by
  obtain ⟨o, ho⟩ := Option.isSome_iff_exists.1 (isSome_compare?_iff.2 h)
  rw [← getD_compare?, ho, Option.getD_some]

theorem compare_eq_lt_iff (a b : Content) : a.compare b = .lt ↔ a.Before b := by
  constructor
  · intro h
    cases a <;> cases b <;> try exact Ordering.noConfusion h
    case integer.integer n m => exact .integer (Int.compare_eq_lt.1 h)
    case instant.instant t u => exact .instant ((t.compare_eq_lt_iff u).1 h)
    case text.text a b => exact .text ((Text.compare_fold_eq_lt_iff a b).1 h)
    case list.list as bs => exact .list ((Text.compare_folds_eq_lt_iff as bs).1 h)
    all_goals exact .absent Content.noConfusion
  · intro h
    cases h with
    | integer h => exact Int.compare_eq_lt.2 h
    | @instant t u h => exact (t.compare_eq_lt_iff u).2 h
    | text h => exact (Text.compare_fold_eq_lt_iff _ _).2 h
    | list h => exact (Text.compare_folds_eq_lt_iff _ _).2 h
    | absent h => cases a <;> first | rfl | exact absurd rfl h

theorem compare_swap (a b : Content) : a.compare b = (b.compare a).swap := by
  cases a <;> cases b <;> try rfl
  case integer.integer n m => exact Std.OrientedOrd.eq_swap
  case instant.instant t u =>
    show t.compare u = (u.compare t).swap
    exact Std.OrientedCmp.eq_swap
  case text.text a b => exact Std.OrientedOrd.eq_swap
  case list.list as bs => exact Std.OrientedOrd.eq_swap

/-- The order is transitive where it compares contents of one kind. -/
theorem isLE_trans {a b c : Content} (hab : a.Alike b) (hbc : b.Alike c)
    (h : (a.compare b).isLE = true) (h' : (b.compare c).isLE = true) :
    (a.compare c).isLE = true := by
  cases a <;> cases b <;> cases c <;>
    first
    | rfl
    | exact hab.elim
    | exact hbc.elim
    | exact Bool.noConfusion h
    | exact Bool.noConfusion h'
    | skip
  case integer.integer.integer n m k => exact Std.TransOrd.isLE_trans h h'
  case instant.instant.instant t u v =>
    have h : (t.compare u).isLE = true := h
    have h' : (u.compare v).isLE = true := h'
    show (t.compare v).isLE = true
    exact Std.TransCmp.isLE_trans h h'
  case text.text.text a b c => exact Std.TransOrd.isLE_trans h h'
  case list.list.list as bs cs => exact Std.TransOrd.isLE_trans h h'

end Content

/-- Contents that fields of one type hold are of one kind or absent. -/
theorem FieldType.alike_of_holds {type : FieldType} {a b : Content} (ha : type.holds a = true)
    (hb : type.holds b = true) : a.Alike b := by
  cases a <;> cases b <;> try trivial
  all_goals cases type <;> first | exact Bool.noConfusion ha | exact Bool.noConfusion hb

namespace Issue

/-- What a field holds in two issues is of one kind or absent. -/
theorem alike_get (a b : Issue) (field : Field) : (a.get field).Alike (b.get field) :=
  FieldType.alike_of_holds (a.holds_get field) (b.holds_get field)

end Issue

/-! ### Keys -/

namespace SortKey

/-- A key puts one issue before another by what its field holds, or by the reverse of that. -/
def PutsFirst (key : SortKey) (a b : Issue) : Prop :=
  match key.direction with
  | .asc => (a.get key.field).Before (b.get key.field)
  | .desc => (b.get key.field).Before (a.get key.field)

/-- A key tells two issues apart if it puts either one first. -/
def Distinguishes (key : SortKey) (a b : Issue) : Prop := key.PutsFirst a b ∨ key.PutsFirst b a

/-- The reverse of what a field holds puts the contents in the other order. -/
theorem compare_desc (field : Field) (a b : Issue) :
    SortKey.compare ⟨field, .desc⟩ a b = (b.get field).compare (a.get field) :=
  (Content.compare_swap _ _).symm

theorem compare_eq_lt_iff (key : SortKey) (a b : Issue) :
    key.compare a b = .lt ↔ key.PutsFirst a b := by
  obtain ⟨field, direction⟩ := key
  cases direction with
  | asc => exact Content.compare_eq_lt_iff _ _
  | desc =>
    rw [compare_desc]
    exact Content.compare_eq_lt_iff _ _

instance (key : SortKey) : Std.TransCmp key.compare where
  eq_swap := by
    obtain ⟨field, direction⟩ := key
    intro a b
    cases direction with
    | asc => exact Content.compare_swap _ _
    | desc => exact congrArg Ordering.swap (Content.compare_swap _ _)
  isLE_trans := by
    obtain ⟨field, direction⟩ := key
    intro a b c h h'
    cases direction with
    | asc => exact Content.isLE_trans (a.alike_get b field) (b.alike_get c field) h h'
    | desc =>
      rw [compare_desc] at h h' ⊢
      exact Content.isLE_trans (c.alike_get b field) (b.alike_get a field) h' h

/-- The order of two issues under one key, with no answer where its field holds contents of
different kinds. -/
def compare? (key : SortKey) (a b : Issue) : Option Ordering :=
  ((a.get key.field).compare? (b.get key.field)).map key.direction.apply

theorem compare?_eq (key : SortKey) (a b : Issue) : key.compare? a b = some (key.compare a b) := by
  rw [compare?, (a.alike_get b key.field).compare?_eq]
  rfl

theorem compare_eq_eq_iff (key : SortKey) (a b : Issue) :
    key.compare a b = .eq ↔ ¬ key.Distinguishes a b := by
  have hgt : key.compare b a = .lt ↔ key.compare a b = .gt := Std.OrientedCmp.gt_iff_lt.symm
  rw [Distinguishes, ← compare_eq_lt_iff, ← compare_eq_lt_iff, hgt]
  cases key.compare a b <;> simp

end SortKey

namespace Issue

/-- The first key that tells two issues apart puts the first of them first. -/
def Ahead (keys : List SortKey) (a b : Issue) : Prop :=
  ∃ passed key more, keys = passed ++ key :: more ∧
    (∀ k ∈ passed, ¬ k.Distinguishes a b) ∧ key.PutsFirst a b

/-- No key tells two issues apart. -/
def Tied (keys : List SortKey) (a b : Issue) : Prop := ∀ key ∈ keys, ¬ key.Distinguishes a b

theorem ahead_cons {key : SortKey} {more : List SortKey} {a b : Issue} :
    Ahead (key :: more) a b ↔
      key.PutsFirst a b ∨ ¬ key.Distinguishes a b ∧ Ahead more a b := by
  constructor
  · rintro ⟨passed, k, rest, heq, hpassed, hk⟩
    cases passed with
    | nil =>
      obtain ⟨rfl, -⟩ := List.cons.inj heq
      exact .inl hk
    | cons first passed =>
      obtain ⟨rfl, rfl⟩ := List.cons.inj heq
      obtain ⟨hfirst, hpassed⟩ := List.forall_mem_cons.1 hpassed
      exact .inr ⟨hfirst, passed, k, rest, rfl, hpassed, hk⟩
  · rintro (h | ⟨hkey, passed, k, rest, rfl, hpassed, hk⟩)
    · exact ⟨[], key, more, rfl, fun k hk => absurd hk List.not_mem_nil, h⟩
    · exact ⟨key :: passed, k, rest, rfl, List.forall_mem_cons.2 ⟨hkey, hpassed⟩, hk⟩

theorem compareBy_eq_lt_iff (keys : List SortKey) (a b : Issue) :
    compareBy keys a b = .lt ↔ Ahead keys a b := by
  induction keys with
  | nil => simp [compareBy, Ahead]
  | cons key more ih =>
    rw [compareBy, Ordering.then_eq_lt, key.compare_eq_lt_iff, key.compare_eq_eq_iff, ih,
      ahead_cons]

theorem compareBy_eq_eq_iff (keys : List SortKey) (a b : Issue) :
    compareBy keys a b = .eq ↔ Tied keys a b := by
  induction keys with
  | nil => simp [compareBy, Tied]
  | cons key more ih =>
    rw [compareBy, Ordering.then_eq_eq, key.compare_eq_eq_iff, ih, Tied, Tied,
      List.forall_mem_cons]

/-- The order by keys is one, whatever the issues: each key keeps it transitive. -/
instance (keys : List SortKey) : Std.TransCmp (compareBy keys) := by
  induction keys with
  | nil => exact { eq_swap := rfl, isLE_trans := fun _ _ => rfl }
  | cons key more ih =>
    have : compareBy (key :: more) = compareLex key.compare (compareBy more) := rfl
    rw [this]
    infer_instance

/-- The order of two issues under some keys, with no answer if one of them finds contents of
different kinds before any has told the issues apart. -/
def compareBy? : List SortKey → Issue → Issue → Option Ordering
  | [], _, _ => some .eq
  | key :: more, a, b =>
    match key.compare? a b with
    | some .eq => compareBy? more a b
    | answer => answer

/-- No key finds contents of different kinds in two issues. -/
theorem compareBy?_eq (keys : List SortKey) (a b : Issue) :
    compareBy? keys a b = some (compareBy keys a b) := by
  induction keys with
  | nil => rfl
  | cons key more ih =>
    rw [compareBy?, compareBy, key.compare?_eq]
    -- Both comparisons end with the first key that tells the issues apart.
    cases key.compare a b with
    | lt => rfl
    | eq => exact ih
    | gt => rfl

/-- **The order by keys is a total preorder.** Under any keys an issue is tied with itself, two
issues compared the other way round come in the reverse order, and an issue that does not come after
another, which does not come after a third, does not come after the third either. No two issues have
contents of different kinds to compare. -/
theorem compareBy_totalPreorder (keys : List SortKey) (a b c : Issue) :
    compareBy keys a a = .eq ∧ compareBy keys b a = (compareBy keys a b).swap ∧
      (compareBy keys a b ≠ .gt → compareBy keys b c ≠ .gt → compareBy keys a c ≠ .gt) ∧
      compareBy? keys a b = some (compareBy keys a b) := by
  refine ⟨Std.ReflCmp.compare_self, Std.OrientedCmp.eq_swap, fun hab hbc => ?_,
    compareBy?_eq keys a b⟩
  have hle : (compareBy keys a c).isLE = true :=
    Std.TransCmp.isLE_trans (Ordering.isLE_iff_ne_gt.2 hab) (Ordering.isLE_iff_ne_gt.2 hbc)
  exact Ordering.isLE_iff_ne_gt.1 hle

/-- What has no date first, then by title. -/
def undatedFirst : List SortKey := [⟨.due, .desc⟩, ⟨.title, .asc⟩]

/-- An issue with a date. -/
def dated : Issue := { Issue.new [] [] with due := some .epoch }

/-- Two undated issues whose titles are the same in lower case, one of them in a character less,
and a dated one behind them. -/
theorem compareBy_totalPreorder_undated :
    compareBy undatedFirst (.new [] ['İ']) (.new [] ['i', '\u0307']) ≠ .gt ∧
      compareBy undatedFirst (.new [] ['i', '\u0307']) dated ≠ .gt ∧
      compareBy undatedFirst (.new [] ['İ']) dated ≠ .gt := by
  have hab : compareBy undatedFirst (.new [] ['İ']) (.new [] ['i', '\u0307']) ≠ .gt := by
    decide +kernel
  have hbc : compareBy undatedFirst (.new [] ['i', '\u0307']) dated ≠ .gt := by
    decide +kernel
  obtain ⟨-, -, htrans, -⟩ :=
    compareBy_totalPreorder undatedFirst (.new [] ['İ']) (.new [] ['i', '\u0307']) dated
  exact ⟨hab, hbc, htrans hab hbc⟩

/-- Sorted issues stand in the order of the keys. -/
theorem pairwise_sortBy (keys : List SortKey) (issues : List Issue) :
    (sortBy keys issues).Pairwise fun a b => (compareBy keys a b).isLE = true :=
  List.pairwise_mergeSort (fun _ _ _ => Std.TransCmp.isLE_trans) (isLE_total (compareBy keys)) issues

end Issue
end Triage
