import Triage.Proofs.Order

/-! Which texts are the same, for equality and for sorting.

Equality compares texts in lower case, where a capital sigma that ends a word becomes
`ς`, and takes hyphens for underscores in the names of a status or type. Sorting
compares them character by character in lower case and does neither. The two agree on
plain texts, in which no capital sigma ends a word and, in a field of such names, no
hyphen stands (`Text.Plain`), and any other text equals one that it is not tied with
(`Issue.tied_iff_same`). -/
namespace Triage

namespace Text

/-! ### Where a word ends -/

/-- Characters that casing does not tell apart when it looks for the end of a word. -/
def SameRole (c d : Char) : Prop := isCased c = isCased d ∧ isCaseIgnorable c = isCaseIgnorable d

theorem meetsCased_cons (c : Char) (t : Text) :
    meetsCased (c :: t) = if isCaseIgnorable c then meetsCased t else isCased c := by
  cases hc : isCaseIgnorable c <;> simp [meetsCased, hc]

variable {c d : Char}

theorem meetsCased_of_role (h : SameRole c d) (front rest : Text) :
    meetsCased (front ++ c :: rest) = meetsCased (front ++ d :: rest) := by
  induction front with
  | nil => rw [List.nil_append, List.nil_append, meetsCased_cons, meetsCased_cons, h.1, h.2]
  | cons e front ih => rw [List.cons_append, List.cons_append, meetsCased_cons, meetsCased_cons, ih]

theorem lowerAfter_of_role (h : SameRole c d) (front rest t : Text) :
    lowerAfter (front ++ c :: rest) t = lowerAfter (front ++ d :: rest) t := by
  induction t generalizing front with
  | nil => rfl
  | cons e t ih =>
    have hmore := ih (e :: front)
    rw [List.cons_append, List.cons_append] at hmore
    rw [lowerAfter, lowerAfter, lowerBetween, lowerBetween, meetsCased_of_role h, hmore]

/-- What stands around a character is lowered the same for any character of its role. -/
theorem exists_lowerAfter_around (c : Char) (front after before : Text) :
    ∃ left right, ∀ d, SameRole c d → lowerAfter before (front ++ d :: after) =
      left ++ lowerBetween (front.reverse ++ before) d after ++ right := by
  induction front generalizing before with
  | nil =>
    refine ⟨[], lowerAfter (c :: before) after, fun d h => ?_⟩
    have hmore := lowerAfter_of_role h [] before after
    rw [List.nil_append, List.nil_append] at hmore
    rw [List.nil_append, List.nil_append, List.reverse_nil, List.nil_append, lowerAfter, hmore]
  | cons e front ih =>
    obtain ⟨left, right, ih⟩ := ih (e :: before)
    refine ⟨lowerBetween before e (front ++ c :: after) ++ left, right, fun d h => ?_⟩
    have hfirst : lowerBetween before e (front ++ d :: after) =
        lowerBetween before e (front ++ c :: after) := by
      rw [lowerBetween, lowerBetween, meetsCased_of_role h]
    rw [List.cons_append, lowerAfter, hfirst, ih d h, List.reverse_cons]
    simp only [List.append_assoc, List.singleton_append]

/-- Whether a capital sigma ends a word of a text. -/
def HasFinalSigma (t : Text) : Prop :=
  ∃ front after, t = front ++ 'Σ' :: after ∧ meetsCased front.reverse = true ∧
    meetsCased after = false

theorem lowerChar_sigma : lowerChar 'Σ' = ['σ'] ∧ lowerChar 'ς' = ['ς'] := by
  constructor <;> decide +kernel

theorem lowerAfter_eq_fold {before t : Text}
    (h : ∀ front after, t = front ++ 'Σ' :: after →
      ¬ (meetsCased (front.reverse ++ before) = true ∧ meetsCased after = false)) :
    lowerAfter before t = t.fold := by
  induction t generalizing before with
  | nil => rfl
  | cons c rest ih =>
    have hrest : lowerAfter (c :: before) rest = fold rest := by
      refine ih fun front after heq => ?_
      have := h (c :: front) after (by rw [heq, List.cons_append])
      rwa [List.reverse_cons, List.append_assoc] at this
    have hchar : lowerBetween before c rest = lowerChar c := by
      unfold lowerBetween
      split
      · next hc =>
        subst hc
        have hsigma := h [] rest rfl
        rw [List.reverse_nil, List.nil_append] at hsigma
        rw [lowerChar_sigma.1, if_neg (by simpa using hsigma)]
      · rfl
    rw [lowerAfter, hchar, hrest]
    rfl

/-- Where no capital sigma ends a word, a text in lower case is its characters in lower case. -/
theorem lower_eq_fold {t : Text} (h : ¬ HasFinalSigma t) : t.lower = t.fold := by
  refine lowerAfter_eq_fold fun front after heq hs => h ⟨front, after, heq, ?_⟩
  rwa [List.append_nil] at hs

/-! ### Plain texts -/

open Lowercase in
theorem mem_of_runOf? {runs : List Run} {run : Run} {n : Nat} (h : runOf? runs n = some run) :
    run ∈ runs ∧ run.first ≤ n := by
  induction runs with
  | nil => exact absurd h (by simp [runOf?])
  | cons first more ih =>
    simp only [runOf?] at h
    split at h
    · exact absurd h (by simp)
    · next hn =>
      split at h
      · obtain rfl := Option.some.inj h
        exact ⟨List.mem_cons_self, Nat.not_lt.1 hn⟩
      · exact (ih h).imp_left (List.mem_cons_of_mem _)

/-- A code point of a character other than the null character is its number. -/
theorem eq_of_ofNat {n : Nat} {c : Char} (h : Char.ofNat n = c) (hc : c ≠ '\x00') :
    n = c.toNat := by
  subst h
  by_cases hv : n.isValidChar
  · rw [Char.ofNat, dif_pos hv]
    rfl
  · exact absurd (dif_neg hv) hc

/-- The small letters of the table lie behind the ASCII capitals, and so behind the hyphen. -/
theorem eq_hyphen_of_mem_lowerChar {c : Char} (h : '-' ∈ lowerChar c) : c = '-' := by
  have hsmall : ∀ run ∈ Lowercase.runs, 0x61 ≤ (run.first : Int) + run.shift := by decide +kernel
  unfold lowerChar at h
  split at h
  · exact absurd h (by decide)
  · have hc : smallLetter c = '-' := (List.mem_singleton.1 h).symm
    unfold smallLetter at hc
    split at hc
    · next run hrun =>
      obtain ⟨hmem, hfirst⟩ := mem_of_runOf? hrun
      have hle := hsmall run hmem
      have hcode := eq_of_ofNat hc (by decide)
      have hhyphen : '-'.toNat = 45 := rfl
      omega
    · exact hc

theorem lowerChar_marks : lowerChar '-' = ['-'] ∧ lowerChar '_' = ['_'] := by
  constructor <;> decide +kernel

/-- What equality compares a text by. -/
def sameKey (isEnum : Bool) (t : Text) : Text := if isEnum then Status.foldName t else t.lower

theorem same_iff {isEnum : Bool} {s t : Text} :
    same isEnum s t = true ↔ sameKey isEnum s = sameKey isEnum t := by
  unfold same sameKey
  split <;> exact decide_eq_true_iff

/-- A text in which no capital sigma ends a word and, if it is a name of a status or type, no hyphen
stands. -/
def Plain (isEnum : Bool) (t : Text) : Prop := ¬ HasFinalSigma t ∧ (isEnum = true → '-' ∉ t)

/-- A plain text is compared by its characters in lower case. -/
theorem Plain.sameKey_eq {isEnum : Bool} {t : Text} (h : Plain isEnum t) :
    sameKey isEnum t = t.fold := by
  unfold sameKey
  split
  · next he =>
    have hkeep : ∀ c ∈ t.fold, (if c = '-' then '_' else c) = c := by
      intro c hc
      obtain ⟨d, hd, hcd⟩ := List.mem_flatMap.1 hc
      refine if_neg ?_
      rintro rfl
      exact h.2 he (eq_hyphen_of_mem_lowerChar hcd ▸ hd)
    rw [Status.foldName, replace, lower_eq_fold h.1, List.map_congr_left hkeep, List.map_id']
  · exact lower_eq_fold h.1

theorem fold_around (front : Text) (c : Char) (after : Text) :
    fold (front ++ c :: after) = fold front ++ (lowerChar c ++ fold after) := by
  rw [fold, List.flatMap_append, List.flatMap_cons]
  rfl

/-- A text in which a capital sigma ends a word is the same as the one with `ς` in its place. -/
theorem same_of_finalSigma (isEnum : Bool) {front after : Text}
    (hfront : meetsCased front.reverse = true) (hafter : meetsCased after = false) :
    same isEnum (front ++ 'Σ' :: after) (front ++ 'ς' :: after) = true := by
  obtain ⟨left, right, haround⟩ := exists_lowerAfter_around 'Σ' front after []
  have hrole : SameRole 'Σ' 'ς' := by constructor <;> decide +kernel
  have hbetween : lowerBetween (front.reverse ++ []) 'Σ' after =
      lowerBetween (front.reverse ++ []) 'ς' after := by
    simp [lowerBetween, hfront, hafter, lowerChar_sigma.2]
  have hlower : lower (front ++ 'Σ' :: after) = lower (front ++ 'ς' :: after) := by
    rw [lower, lower, haround 'Σ' ⟨rfl, rfl⟩, haround 'ς' hrole, hbetween]
  rw [same_iff, sameKey, sameKey, Status.foldName, Status.foldName, hlower]

/-- As a name, a text with a hyphen is the same as the one with an underscore in its place. -/
theorem same_of_hyphen (front after : Text) :
    same true (front ++ '-' :: after) (front ++ '_' :: after) = true := by
  obtain ⟨left, right, haround⟩ := exists_lowerAfter_around '-' front after []
  have hrole : SameRole '-' '_' := by constructor <;> decide +kernel
  have hhyphen := haround '-' ⟨rfl, rfl⟩
  have hline := haround '_' hrole
  rw [lowerBetween, if_neg (by decide), lowerChar_marks.1] at hhyphen
  rw [lowerBetween, if_neg (by decide), lowerChar_marks.2] at hline
  rw [same_iff, sameKey, sameKey, if_pos rfl, if_pos rfl, Status.foldName, Status.foldName, lower,
    lower, hhyphen, hline]
  simp [replace]

/-- A text that is not plain is the same as one with other characters in lower case. -/
theorem exists_same_of_not_plain {isEnum : Bool} {s : Text} (h : ¬ Plain isEnum s) :
    ∃ t, same isEnum s t = true ∧ s.fold ≠ t.fold := by
  by_cases hs : HasFinalSigma s
  · obtain ⟨front, after, rfl, hfront, hafter⟩ := hs
    refine ⟨front ++ 'ς' :: after, same_of_finalSigma isEnum hfront hafter, fun heq => ?_⟩
    rw [fold_around, fold_around, lowerChar_sigma.1, lowerChar_sigma.2] at heq
    have hchar := (List.cons.inj (List.append_cancel_left heq)).1
    exact absurd hchar (by decide)
  · obtain ⟨rfl, hmem⟩ : isEnum = true ∧ '-' ∈ s := by
      simpa [Plain, hs] using h
    obtain ⟨front, after, rfl⟩ := List.append_of_mem hmem
    refine ⟨front ++ '_' :: after, same_of_hyphen front after, fun heq => ?_⟩
    rw [fold_around, fold_around, lowerChar_marks.1, lowerChar_marks.2] at heq
    have hchar := (List.cons.inj (List.append_cancel_left heq)).1
    exact absurd hchar (by decide)

end Text

/-! ### Fields -/

namespace Content

/-- Texts are tied in sorting if their characters are the same in lower case. -/
theorem compare_text_eq_eq_iff (s t : Text) :
    (text s).compare (text t) = .eq ↔ s.fold = t.fold := Std.compare_eq_iff_eq

end Content

namespace Issue

/-- An issue with another text in a field, where any text may stand. -/
def put (issue : Issue) (field : Field) (t : Text) : Issue :=
  match field with
  | .id => { issue with id := t }
  | .title => { issue with title := t }
  | .description => { issue with description := t }
  | .issueType => { issue with issueType := t }
  | .assignee => { issue with assignee := some t }
  | .externalRef => { issue with externalRef := some t }
  | .sourceRepo => { issue with sourceRepo := some t }
  | .design => { issue with design := some t }
  | .acceptance => { issue with acceptance := some t }
  | .notes => { issue with notes := some t }
  | .status | .priority | .created | .updated | .due | .closed | .labels | .estimate => issue

theorem plain_name (status : Status) : Text.Plain true status.name := by
  have hmarks : 'Σ' ∉ status.name ∧ '-' ∉ status.name := by cases status <;> decide
  refine ⟨?_, fun _ => hmarks.2⟩
  rintro ⟨front, after, heq, -, -⟩
  exact hmarks.1 (by rw [heq]; simp)

/-- Where a text stands that is not plain, any other may stand. -/
theorem get_put {issue : Issue} {field : Field} {s : Text} (h : issue.get field = .text s)
    (hs : ¬ Text.Plain field.type.isEnum s) (t : Text) :
    (issue.put field t).get field = .text t := by
  have hholds := issue.holds_get field
  rw [h] at hholds
  cases field with
  | status =>
    obtain rfl := Content.text.inj h
    exact absurd (plain_name issue.status) hs
  | priority | created | updated | due | closed | labels | estimate => exact Bool.noConfusion hholds
  | _ => rfl

variable {a b : Issue} {field : Field} {s t : Text}

theorem tied_of_plain (ha : a.get field = .text s) (hb : b.get field = .text t)
    (hs : Text.Plain field.type.isEnum s) (ht : Text.Plain field.type.isEnum t) :
    (a.get field).compare (b.get field) = .eq ↔ Text.same field.type.isEnum s t = true := by
  rw [ha, hb, Content.compare_text_eq_eq_iff, Text.same_iff, hs.sameKey_eq, ht.sameKey_eq]

/-- Texts that equal one value are the same. -/
theorem same_of_equals (ha : a.get field = .text s) (hb : b.get field = .text t) {now : Moment}
    {v : Value} (hav : (a.get field).equals now field.type.isEnum v = true)
    (hbv : (b.get field).equals now field.type.isEnum v = true) :
    Text.same field.type.isEnum s t = true := by
  rw [ha] at hav
  rw [hb] at hbv
  cases v with
  | text u => exact Text.same_iff.2 ((Text.same_iff.1 hav).trans (Text.same_iff.1 hbv).symm)
  | _ => exact Bool.noConfusion hav

/-- Between two issues that are tied only issues tied with them are sorted. -/
theorem tied_of_between {keys : List SortKey} {c : Issue} (h : compareBy keys a b = .eq)
    {issues : List Issue} (hs : [a, c, b].Sublist (sortBy keys issues)) :
    compareBy keys a c = .eq := by
  have hsorted := (pairwise_sortBy keys issues).sublist hs
  obtain ⟨hac, hcb⟩ : (compareBy keys a c).isLE = true ∧ (compareBy keys c b).isLE = true := by
    simp only [List.pairwise_cons, List.mem_cons, forall_eq_or_imp] at hsorted
    exact ⟨hsorted.1.1, hsorted.2.1.1⟩
  have hba : (compareBy keys b a).isLE = true := by
    have hswap : compareBy keys b a = (compareBy keys a b).swap := Std.OrientedCmp.eq_swap
    rw [hswap, h]
    rfl
  exact Std.OrientedCmp.isLE_antisymm hac (Std.TransCmp.isLE_trans hcb hba)

/-- **Sorting and equality agree on plain texts, and on no others.** Two issues with plain texts in
a field are tied under that field exactly if equality takes the texts for the same, so what one
value selects is tied in either direction and stays together. A text that is not plain equals one
that may stand in its place and that sorting tells apart from it. -/
theorem tied_iff_same (ha : a.get field = .text s) (hb : b.get field = .text t) :
    (Text.Plain field.type.isEnum s → Text.Plain field.type.isEnum t →
      ((a.get field).compare (b.get field) = .eq ↔ Text.same field.type.isEnum s t = true) ∧
      ∀ now v, (a.get field).equals now field.type.isEnum v = true →
        (b.get field).equals now field.type.isEnum v = true →
        ∀ direction, compareBy [⟨field, direction⟩] a b = .eq ∧
          ∀ issues c, [a, c, b].Sublist (sortBy [⟨field, direction⟩] issues) →
            compareBy [⟨field, direction⟩] a c = .eq) ∧
    (¬ Text.Plain field.type.isEnum s → ∃ (c : Issue) (u : Text), c.get field = .text u ∧
      Text.same field.type.isEnum s u = true ∧ (a.get field).compare (c.get field) ≠ .eq) := by
  constructor
  · intro hs ht
    have htied := tied_of_plain ha hb hs ht
    refine ⟨htied, fun now v hav hbv direction => ?_⟩
    have heq := htied.2 (same_of_equals ha hb hav hbv)
    have hkey : compareBy [⟨field, direction⟩] a b = .eq := by
      rw [compareBy, compareBy, Ordering.then_eq, SortKey.compare, heq]
      cases direction <;> rfl
    exact ⟨hkey, fun issues c hc => tied_of_between hkey hc⟩
  · intro hs
    obtain ⟨u, hsame, hfold⟩ := Text.exists_same_of_not_plain hs
    refine ⟨a.put field u, u, get_put ha hs u, hsame, ?_⟩
    rw [ha, get_put ha hs u]
    exact mt (Content.compare_text_eq_eq_iff s u).1 hfold

/-- Titles of one word in two cases are tied, the last sigma being small in both. -/
theorem tied_iff_same_title :
    Text.Plain false "Λόγος".toList ∧ Text.Plain false "ΛΌΓΟς".toList ∧
      (((Issue.new [] "Λόγος".toList).get .title).compare
        ((Issue.new [] "ΛΌΓΟς".toList).get .title) = .eq ↔
          Text.same false "Λόγος".toList "ΛΌΓΟς".toList = true) := by
  have hplain : ∀ t : Text, 'Σ' ∉ t → Text.Plain false t := by
    intro t ht
    refine ⟨?_, fun he => Bool.noConfusion he⟩
    rintro ⟨front, after, rfl, -, -⟩
    exact ht (by simp)
  have hs := hplain "Λόγος".toList (by decide)
  have ht := hplain "ΛΌΓΟς".toList (by decide)
  have ha : (Issue.new [] "Λόγος".toList).get .title = .text "Λόγος".toList := rfl
  have hb : (Issue.new [] "ΛΌΓΟς".toList).get .title = .text "ΛΌΓΟς".toList := rfl
  exact ⟨hs, ht, ((tied_iff_same ha hb).1 hs ht).1⟩

/-- Two types that equality takes for one are not tied in sorting. -/
theorem not_tied_of_hyphen :
    ¬ ∀ (a b : Issue) (field : Field) (s t : Text), a.get field = .text s → b.get field = .text t →
      ((a.get field).compare (b.get field) = .eq ↔ Text.same field.type.isEnum s t = true) := by
  intro h
  have hagree := h { Issue.new [] [] with issueType := "pull-request".toList }
    { Issue.new [] [] with issueType := "pull_request".toList } .issueType _ _ rfl rfl
  revert hagree
  decide +kernel

end Issue
end Triage
