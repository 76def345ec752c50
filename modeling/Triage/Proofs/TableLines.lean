import Triage.Issue.Listing
import Triage.Proofs.Lexing

/-! The lines of a table.

Every row of a table is ended by a line feed, so the lines of a table are the lines of its rows,
one row after another (`Text.splitOn_ended`). A row has the line feeds of the texts that its issue
brings into it, the id, the type, the title and the labels, and no others (`Issue.count_row`). So
an issue takes one line exactly if these texts hold no line feed, and the lines are the rows
exactly if every issue takes one (`Issue.splitOn_table_eq_rows_iff`). -/
namespace Triage

/-! ### Texts between line feeds -/

namespace Text

/-- Every character at which a text is split is between two pieces. -/
theorem length_splitOn (c : Char) (text : Text) :
    (text.splitOn c).length = text.count c + 1 := by
  induction text with
  | nil => rfl
  | cons d rest ih =>
    rw [List.splitOn_cons_eq_if_modifyHead, List.count_cons]
    split
    · rw [List.length_cons, ih]
    · rw [List.length_modifyHead, ih, Nat.add_zero]

/-- The character at which a text is split is in none of the pieces. -/
theorem notMem_of_mem_splitOn {c : Char} {text piece : Text} (h : piece ∈ text.splitOn c) :
    c ∉ piece := by
  induction text generalizing piece with
  | nil =>
    rw [List.splitOn_nil, List.mem_singleton] at h
    rw [h]
    exact List.not_mem_nil
  | cons d rest ih =>
    rw [List.splitOn_cons_eq_if_modifyHead] at h
    split at h
    · rcases List.mem_cons.1 h with rfl | h
      · exact List.not_mem_nil
      · exact ih h
    · next hd =>
      cases hpieces : rest.splitOn c with
      | nil => exact absurd hpieces (List.splitOn_ne_nil c rest)
      | cons first more =>
        rw [hpieces, List.modifyHead_cons] at h
        rw [hpieces] at ih
        rcases List.mem_cons.1 h with rfl | h
        · intro hc
          rcases List.mem_cons.1 hc with rfl | hc
          · exact hd (beq_self_eq_true c)
          · exact ih List.mem_cons_self hc
        · exact ih (List.mem_cons_of_mem first h)

/-- Rows that are each ended by a line feed are split as each of them is, and nothing is left behind
the last one. -/
theorem splitOn_ended (rows : List Text) :
    (rows.flatMap fun row => row ++ ['\n']).splitOn '\n' =
      (rows.flatMap fun row => row.splitOn '\n') ++ [[]] := by
  induction rows with
  | nil => rfl
  | cons row rows ih =>
    rw [List.flatMap_cons, List.flatMap_cons, List.append_assoc, List.singleton_append,
      List.splitOn_append_cons_self, ih, List.append_assoc]

/-- The rows come back as they are exactly if none of them holds a line feed. -/
theorem splitOn_ended_eq_iff (rows : List Text) :
    (rows.flatMap fun row => row ++ ['\n']).splitOn '\n' = rows ++ [[]] ↔
      ∀ row ∈ rows, '\n' ∉ row := by
  rw [splitOn_ended, List.append_left_inj]
  constructor
  · intro h row hrow
    rw [← h] at hrow
    obtain ⟨whole, -, hpiece⟩ := List.mem_flatMap.1 hrow
    exact notMem_of_mem_splitOn hpiece
  · intro h
    induction rows with
    | nil => rfl
    | cons row rows ih =>
      rw [List.flatMap_cons, List.splitOn_eq_singleton (h row List.mem_cons_self),
        ih fun other hother => h other (List.mem_cons_of_mem row hother), List.singleton_append]

theorem count_padRight (width : Nat) (text : Text) :
    (padRight width text).count '\n' = text.count '\n' := by
  have hspaces : (List.replicate (width - text.length) ' ').count '\n' = 0 := by
    rw [List.count_eq_zero]
    intro h
    exact absurd (List.eq_of_mem_replicate h) (by decide)
  rw [padRight, List.count_append, hspaces, Nat.add_zero]

/-- Between texts a separator without line feeds adds none. -/
theorem count_join {separator : Text} (h : '\n' ∉ separator) (texts : List Text) :
    (join separator texts).count '\n' = texts.flatten.count '\n' := by
  induction texts with
  | nil => rfl
  | cons text texts ih =>
    cases texts with
    | nil => rw [join, List.intercalate_singleton, List.flatten_singleton]
    | cons next more =>
      rw [List.flatten_cons, List.count_append, ← ih, join, List.intercalate_cons_cons,
        List.count_append, List.count_append, List.count_eq_zero.2 h, Nat.add_zero, join]

end Text

/-! ### Rows -/

theorem Status.count_name (status : Status) : status.name.count '\n' = 0 := by
  cases status <;> decide

theorem Integer.count_text (n : Int64) : (text n).count '\n' = 0 := by
  rw [List.count_eq_zero]
  intro h
  exact absurd (List.all_eq_true.1 (all_isWordChar_text n) _ h) (by decide)

namespace Issue

/-- The line feeds that an issue brings into its row. -/
def lineFeeds (issue : Issue) : Nat :=
  (issue.id ++ issue.issueType ++ issue.title ++ issue.labels.flatten).count '\n'

/-- The columns and what stands between them add no line feeds of their own. -/
theorem count_row (width : Nat) (issue : Issue) :
    (row width issue).count '\n' = issue.lineFeeds := by
  have hgap : "  ".toList.count '\n' = 0 ∧ "  P".toList.count '\n' = 0 := ⟨rfl, rfl⟩
  have hlabels : (if issue.labels.isEmpty then []
      else "  [".toList ++ Text.join ", ".toList issue.labels ++ [']']).count '\n' =
        issue.labels.flatten.count '\n' := by
    split
    · next h =>
      rw [List.isEmpty_iff.1 h]
      rfl
    · rw [List.count_append, List.count_append, Text.count_join (by decide)]
      exact Nat.zero_add _
  simp only [row, lineFeeds, List.count_append, List.count_cons_of_ne, ne_eq, Char.reduceEq,
    not_false_eq_true, Text.count_padRight, Status.count_name, Integer.count_text, hgap, hlabels,
    Nat.add_zero, Nat.add_assoc]

/-- **The lines of a table are its rows if the issues hold no line feeds, and only then.** The lines
are those of the rows in order and nothing behind the last one, and each issue takes one line more
than it brings line feeds into its row. -/
theorem splitOn_table_eq_rows_iff (issues : List Issue) :
    (table issues).splitOn '\n' =
        (issues.flatMap fun issue => (issue.row (idWidth issues)).splitOn '\n') ++ [[]] ∧
      (∀ issue : Issue,
        ((issue.row (idWidth issues)).splitOn '\n').length = issue.lineFeeds + 1) ∧
      ((table issues).splitOn '\n' = issues.map (row (idWidth issues)) ++ [[]] ↔
        ∀ issue ∈ issues, issue.lineFeeds = 0) := by
  have htable : table issues =
      (issues.map (row (idWidth issues))).flatMap fun row => row ++ ['\n'] := by
    rw [table, List.flatMap_map]
  refine ⟨?_, fun issue => ?_, ?_⟩
  · rw [htable, Text.splitOn_ended, List.flatMap_map]
  · rw [Text.length_splitOn, count_row]
  · rw [htable, Text.splitOn_ended_eq_iff, List.forall_mem_map]
    simp only [← count_row (idWidth issues), List.count_eq_zero]

/-- Two issues without line feeds, one with labels. -/
def plainIssues : List Issue :=
  [Issue.new "bd-1".toList "Fix login".toList,
   { Issue.new "bd-12".toList "Crash".toList with labels := ["editor".toList, "ui".toList] }]

/-- Issues without line feeds take a line each. -/
theorem splitOn_table_eq_rows_plain :
    (∀ issue ∈ plainIssues, issue.lineFeeds = 0) ∧
      (table plainIssues).splitOn '\n' =
        ["bd-1   open         P2  task     Fix login".toList,
         "bd-12  open         P2  task     Crash  [editor, ui]".toList, []] := by
  have hplain : ∀ issue ∈ plainIssues, issue.lineFeeds = 0 := by decide
  have hrows : plainIssues.map (row (idWidth plainIssues)) =
      ["bd-1   open         P2  task     Fix login".toList,
       "bd-12  open         P2  task     Crash  [editor, ui]".toList] := by
    decide +kernel
  refine ⟨hplain, ?_⟩
  rw [(splitOn_table_eq_rows_iff plainIssues).2.2.2 hplain, hrows]
  rfl

/-- A title with a line feed makes two lines of one issue. -/
theorem not_splitOn_table_of_lineFeed :
    ¬ ∀ issues : List Issue,
      (table issues).splitOn '\n' = issues.map (row (idWidth issues)) ++ [[]] := by
  intro h
  have hbroken := h [Issue.new "bd-1".toList "Fix\nlogin".toList]
  revert hbroken
  decide +kernel

end Issue
end Triage
