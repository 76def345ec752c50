import Mathlib.Data.List.TakeWhile
import Triage.Issue.Record
import Triage.Proofs.JsonRows

/-! Issues in lines and in arrays.

A text is written in lines that end with a line feed, with a carriage return before it or
not, and perhaps a last one without an end; every text is so in one way
(`Text.inLines_iff`). The first character of a text that is not blank is that of its
first line that is not blank, so the text is read line by line unless this line begins
like an array. Then the lines that are not blank are the records of its issues, which
are read as well from the array of these lines, and the first line that is no record is
named if there is one (`Issue.readAll_inLines`). -/
namespace Triage

/-! ### Lines -/

namespace Text

/-- Some lines, without their endings, and the text that they make. -/
inductive InLines : List Text → Text → Prop where
  | nil : InLines [] []
  /-- A last line without an ending. -/
  | last {line : Text} : '\n' ∉ line → line ≠ [] → InLines [line] line
  /-- A line that ends with a line feed alone. -/
  | lineFeed {line rest : Text} {more : List Text} : '\n' ∉ line → line.getLast? ≠ some '\r' →
    InLines more rest → InLines (line :: more) (line ++ '\n' :: rest)
  /-- A line that ends with a carriage return and a line feed. -/
  | carriageReturn {line rest : Text} {more : List Text} : '\n' ∉ line →
    InLines more rest → InLines (line :: more) (line ++ '\r' :: '\n' :: rest)

/-- A character in front of a text goes on its first line unless a line ends with it. -/
theorem lines_cons {c : Char} {text : Text} (hc : c ≠ '\n')
    (hr : c = '\r' → ∀ rest, text ≠ '\n' :: rest) :
    lines (c :: text) =
      match lines text with
      | [] => [[c]]
      | line :: more => (c :: line) :: more :=
  lines.eq_4 c text hc fun rest hreturn hfeed => hr hreturn rest hfeed

/-- Characters in front of a text go on its first line unless a line ends in or behind them. -/
theorem lines_append {line text first : Text} {more : List Text} (hline : '\n' ∉ line)
    (hr : line.getLast? = some '\r' → ∀ rest, text ≠ '\n' :: rest)
    (h : lines text = first :: more) : lines (line ++ text) = (line ++ first) :: more := by
  induction line with
  | nil => exact h
  | cons c line ih =>
    obtain ⟨hc, hline⟩ := not_or.1 (mt List.mem_cons.2 hline)
    cases line with
    | nil =>
      rw [List.singleton_append, lines_cons (Ne.symm hc) fun heq => hr (congrArg some heq), h]
      rfl
    | cons d line =>
      have hd := (not_or.1 (mt List.mem_cons.2 hline)).1
      have hnext : ∀ rest, d :: line ++ text ≠ '\n' :: rest := fun rest heq =>
        hd (List.cons.inj heq).1.symm
      rw [List.cons_append, lines_cons (Ne.symm hc) fun _ => hnext, ih hline hr]
      rfl

theorem lines_singleton {c : Char} (hc : c ≠ '\n') : lines [c] = [[c]] :=
  lines_cons hc fun _ rest heq => List.cons_ne_nil _ rest heq.symm

theorem InLines.lines_eq {rows : List Text} {text : Text} (h : InLines rows text) :
    lines text = rows := by
  induction h with
  | nil => rfl
  | @last line hline hne =>
    have hmem : line.getLast hne ≠ '\n' := fun heq => hline (heq ▸ List.getLast_mem hne)
    have hinit : '\n' ∉ line.dropLast := fun hin => hline (List.dropLast_subset line hin)
    have hlines := lines_append hinit (fun _ rest heq => hmem (List.cons.inj heq).1)
      (lines_singleton hmem)
    rwa [List.dropLast_append_getLast] at hlines
  | @lineFeed line rest more hline hlast h ih =>
    rw [lines_append hline (fun heq => absurd heq hlast) rfl, ih, List.append_nil]
  | @carriageReturn line rest more hline h ih =>
    have hreturn : ∀ behind, '\r' :: '\n' :: rest ≠ '\n' :: behind := fun behind heq =>
      absurd (List.cons.inj heq).1 (by decide)
    rw [lines_append hline (fun _ => hreturn) rfl, ih, List.append_nil]

theorem inLines_lines (text : Text) : InLines (lines text) text := by
  fun_induction lines text with
  | case1 => exact .nil
  | case2 rest ih => exact .lineFeed List.not_mem_nil (by simp) ih
  | case3 rest ih => exact .carriageReturn List.not_mem_nil ih
  | case4 c rest hc hr hnone ih =>
    rw [hnone] at ih
    cases ih with
    | nil => exact .last (by simpa using Ne.symm hc) (List.cons_ne_nil c [])
  | case5 c rest hc hr line more hlines ih =>
    rw [hlines] at ih
    have hmem : ∀ {line : Text}, '\n' ∉ line → '\n' ∉ c :: line := fun hline hin =>
      (List.mem_cons.1 hin).elim (fun heq => hc heq.symm) hline
    cases ih with
    | last hline hne => exact .last (hmem hline) (List.cons_ne_nil c _)
    | lineFeed hline hlast h =>
      refine .lineFeed (hmem hline) ?_ h
      cases line with
      | nil => exact fun heq => hr _ (Option.some.inj heq) rfl
      | cons d line => exact hlast
    | carriageReturn hline h => exact .carriageReturn (hmem hline) h

/-- Every text is written in lines in one way. -/
theorem inLines_iff {rows : List Text} {text : Text} : InLines rows text ↔ lines text = rows :=
  ⟨InLines.lines_eq, fun h => h ▸ inLines_lines text⟩

/-! ### The first character that is not blank -/

theorem head?_trimStart (text : Text) : (trimStart text).head? = text.find? fun c => !isBlank c :=
  (List.find?_not_eq_head?_dropWhile isBlank text).symm

theorem head?_trimStart_append (front back : Text) :
    (trimStart (front ++ back)).head? = (trimStart front).head?.or (trimStart back).head? := by
  simp only [head?_trimStart, List.find?_append]

/-- A text begins, behind blanks, like the first of its lines that is not blank. -/
theorem InLines.head?_trimStart_eq {rows : List Text} {text : Text} (h : InLines rows text) :
    (trimStart text).head? = rows.findSome? fun row => (trimStart row).head? := by
  induction h with
  | nil => rfl
  | last => simp
  | @lineFeed line rest more _ _ _ ih =>
    have hending : trimStart ('\n' :: rest) = trimStart rest := rfl
    rw [head?_trimStart_append, hending, ih, List.findSome?_cons]
    cases (trimStart line).head? <;> rfl
  | @carriageReturn line rest more _ _ ih =>
    have hending : trimStart ('\r' :: '\n' :: rest) = trimStart rest := rfl
    rw [head?_trimStart_append, hending, ih, List.findSome?_cons]
    cases (trimStart line).head? <;> rfl

theorem head?_trimStart_eq_none_iff {text : Text} :
    (trimStart text).head? = none ↔ isBlankText text = true := by
  rw [List.head?_eq_none_iff, trimStart, List.dropWhile_eq_nil_iff, isBlankText, List.all_eq_true]

end Text

/-! ### Records in lines -/

namespace Issue

/-- The lines that are not blank. -/
def recordLines (rows : List Text) : List Text := rows.filter fun row => !Text.isBlankText row

theorem mem_recordLines {row : Text} {rows : List Text} :
    row ∈ recordLines rows ↔ row ∈ rows ∧ ¬ Text.isBlankText row = true := by
  simp [recordLines]

theorem recordLines_cons (row : Text) (rows : List Text) :
    recordLines (row :: rows) =
      if Text.isBlankText row then recordLines rows else row :: recordLines rows := by
  rw [recordLines, List.filter_cons]
  cases Text.isBlankText row <;> rfl

/-- The first line that is not blank is the first with a character that is not blank. -/
theorem head?_recordLines (rows : List Text) :
    (rows.findSome? fun row => (Text.trimStart row).head?) =
      (recordLines rows).head?.bind fun row => (Text.trimStart row).head? := by
  induction rows with
  | nil => rfl
  | cons row rows ih =>
    rw [List.findSome?_cons, recordLines_cons]
    cases hhead : (Text.trimStart row).head? with
    | none => rw [if_pos (Text.head?_trimStart_eq_none_iff.1 hhead), ← ih]
    | some c =>
      have hrow : ¬ Text.isBlankText row = true := fun hblank => by
        rw [Text.head?_trimStart_eq_none_iff.2 hblank] at hhead
        exact absurd hhead (by simp)
      rw [if_neg hrow, List.head?_cons, Option.bind_some, hhead]

theorem readLines_eq_ok_iff (number : Nat) (rows : List Text) (issues : List Issue) :
    readLines number rows = .ok issues ↔
      List.Forall₂ (fun row issue => read? row = some issue) (recordLines rows) issues := by
  induction rows generalizing number issues with
  | nil => simp [readLines, recordLines, eq_comm]
  | cons row rows ih =>
    rw [readLines, recordLines_cons]
    split
    · exact ih (number + 1) issues
    · rw [List.forall₂_cons_left_iff]
      cases hread : read? row with
      | none => simp
      | some issue =>
        simp only [← ih (number + 1)]
        cases readLines (number + 1) rows <;> simp [Except.map, eq_comm]

/-- Whether a line is neither blank nor a record. -/
def isFault (row : Text) : Bool := !Text.isBlankText row && (read? row).isNone

theorem isFault_iff {row : Text} :
    isFault row = true ↔ ¬ Text.isBlankText row = true ∧ read? row = none := by
  simp [isFault]

/-- The first line that is neither blank nor a record is named. -/
theorem readLines_of_fault {rows : List Text} (h : ∃ row ∈ rows, isFault row = true)
    (number : Nat) :
    readLines number rows = .error (.line (number + rows.findIdx isFault)) := by
  induction rows generalizing number with
  | nil => exact absurd h (by simp)
  | cons row rows ih =>
    rw [readLines, List.findIdx_cons]
    cases hfault : isFault row with
    | true =>
      obtain ⟨hblank, hnone⟩ := isFault_iff.1 hfault
      rw [if_neg hblank, hnone]
      rfl
    | false =>
      have hmore : ∃ other ∈ rows, isFault other = true := by simpa [hfault] using h
      rw [cond_false, ih hmore, Nat.add_assoc, Nat.add_comm 1]
      split
      · rfl
      · next hblank =>
        cases hread : read? row with
        | some issue => rfl
        | none => exact absurd (isFault_iff.2 ⟨hblank, hread⟩) (by rw [hfault]; simp)

/-- A text is read line by line unless its first line that is not blank begins like an array. -/
theorem readAll_eq_readLines {rows : List Text} {text : Text} (h : Text.InLines rows text)
    (hfirst : ∀ row ∈ (recordLines rows).head?, (Text.trimStart row).head? ≠ some '[') :
    readAll text = readLines 1 rows := by
  have hhead : (Text.trimStart text).head? =
      (recordLines rows).head?.bind fun row => (Text.trimStart row).head? := by
    rw [h.head?_trimStart_eq, head?_recordLines]
  rw [readAll]
  split
  · next hnone =>
    rw [hnone] at hhead
    have hblank : recordLines rows = [] := by
      cases hrecords : recordLines rows with
      | nil => rfl
      | cons row more =>
        rw [hrecords] at hhead
        have hrow : row ∈ recordLines rows := hrecords ▸ List.mem_cons_self
        exact absurd (Text.head?_trimStart_eq_none_iff.1 hhead.symm) (mem_recordLines.1 hrow).2
    exact ((readLines_eq_ok_iff 1 rows []).2 (hblank ▸ .nil)).symm
  · next rest hopen =>
    rw [hopen, List.head?_cons, eq_comm, Option.bind_eq_some_iff] at hhead
    obtain ⟨row, hrow, hbracket⟩ := hhead
    exact absurd hbracket (hfirst row hrow)
  · rw [h.lines_eq]

/-- The array of lines that are read one by one is read as the same issues. -/
theorem readAll_array {rows : List Text} {issues : List Issue}
    (h : List.Forall₂ (fun row issue => read? row = some issue) rows issues) :
    readAll ('[' :: Text.join [','] rows ++ [']']) = .ok issues := by
  obtain ⟨values, hvalues, hissues⟩ : ∃ values,
      List.Forall₂ (fun row value => Json.read? row = some value) rows values ∧
        values.mapM ofJson? = some issues := by
    induction h with
    | nil => exact ⟨[], .nil, rfl⟩
    | cons hread _ ih =>
      obtain ⟨value, hvalue, hissue⟩ := Option.bind_eq_some_iff.1 hread
      obtain ⟨values, hvalues, hissues⟩ := ih
      exact ⟨value :: values, .cons hvalue hvalues, by simp [hissue, hissues]⟩
  have hread : readArray? ('[' :: (Text.join [','] rows ++ [']'])) = some issues := by
    rw [readArray?, ← List.cons_append, Json.read?_array hvalues]
    exact hissues
  exact readAll_of_readArray? hread

/-- **The lines that are not blank are the records of a text, and the first that is no record is
named.** The text is written in these lines, and the first one that is not blank does not begin
like an array. If the lines that are not blank read as issues, these are read from the text, and
from the array of the lines as well. If one of them does not, there is an error with the number of
the first such line, which counts the blank lines before it too. -/
theorem readAll_inLines {rows : List Text} {text : Text} (h : Text.InLines rows text)
    (hfirst : ∀ row ∈ (recordLines rows).head?, (Text.trimStart row).head? ≠ some '[') :
    (∀ issues, List.Forall₂ (fun row issue => read? row = some issue) (recordLines rows) issues →
        readAll text = .ok issues ∧
          readAll ('[' :: Text.join [','] (recordLines rows) ++ [']']) = .ok issues) ∧
      ((∃ row ∈ recordLines rows, read? row = none) →
        readAll text = .error (.line (rows.findIdx isFault + 1))) := by
  rw [readAll_eq_readLines h hfirst]
  refine ⟨fun issues hread => ⟨(readLines_eq_ok_iff 1 rows issues).2 hread, readAll_array hread⟩, ?_⟩
  rintro ⟨row, hrow, hnone⟩
  obtain ⟨hmem, hblank⟩ := mem_recordLines.1 hrow
  rw [readLines_of_fault ⟨row, hmem, isFault_iff.2 ⟨hblank, hnone⟩⟩, Nat.add_comm]

/-- The record of an issue in one line as an object. -/
def objectLine : Text :=
  "\x7b\"id\":\"a\",\"title\":\"T\",\"priority\":2,".toList ++
    "\"createdAt\":\"1970-01-01T00:00:00Z\",\"updatedAt\":\"1970-01-01T00:00:00Z\"\x7d".toList

/-- The record of another issue in one line as the array of its parts. -/
def partsLine : Text :=
  "[\"b\",\"T\",\"\",\"open\",2,\"task\",null,".toList ++
    "\"1970-01-01T00:00:00Z\",\"1970-01-01T00:00:00Z\"]".toList

/-- The issues of the two lines. -/
def lineIssues : List Issue := [new "a".toList "T".toList, new "b".toList "T".toList]

theorem forall₂_lineIssues :
    List.Forall₂ (fun row issue => read? row = some issue) [objectLine, partsLine] lineIssues := by
  decide +kernel

/-- The two records in lines with different endings, and blank lines before and between them. -/
def mixedRows : List Text := ["\u00A0".toList, objectLine, [], partsLine]

/-- The text of these lines. -/
def mixedText : Text :=
  "\u00A0\n".toList ++ objectLine ++ "\r\n\n".toList ++ partsLine ++ "\n".toList

/-- The same lines with one behind them that lost its bracket, and a record behind this one. -/
def brokenRows : List Text := mixedRows ++ [partsLine.tail, objectLine]

/-- The text of these lines. -/
def brokenText : Text := mixedText ++ partsLine.tail ++ "\r\n".toList ++ objectLine

/-- Two records among blank lines are read, and the fifth line is named when it is none. -/
theorem readAll_inLines_mixed :
    Text.InLines mixedRows mixedText ∧
      (∀ row ∈ (recordLines mixedRows).head?, (Text.trimStart row).head? ≠ some '[') ∧
      List.Forall₂ (fun row issue => read? row = some issue) (recordLines mixedRows) lineIssues ∧
      readAll mixedText = .ok lineIssues ∧
      readAll ('[' :: Text.join [','] (recordLines mixedRows) ++ [']']) = .ok lineIssues ∧
      Text.InLines brokenRows brokenText ∧
      (∀ row ∈ (recordLines brokenRows).head?, (Text.trimStart row).head? ≠ some '[') ∧
      (∃ row ∈ recordLines brokenRows, read? row = none) ∧
      readAll brokenText = .error (.line 5) := by
  have hmixed : Text.InLines mixedRows mixedText := Text.inLines_iff.2 (by decide +kernel)
  have hbroken : Text.InLines brokenRows brokenText := Text.inLines_iff.2 (by decide +kernel)
  have hfirst : ∀ row ∈ (recordLines mixedRows).head?, (Text.trimStart row).head? ≠ some '[' := by
    decide +kernel
  have hfirst' : ∀ row ∈ (recordLines brokenRows).head?, (Text.trimStart row).head? ≠ some '[' := by
    decide +kernel
  have hrecords : recordLines mixedRows = [objectLine, partsLine] := by decide +kernel
  have hboth : List.Forall₂ (fun row issue => read? row = some issue) (recordLines mixedRows)
      lineIssues := hrecords ▸ forall₂_lineIssues
  have hbad : ∃ row ∈ recordLines brokenRows, read? row = none :=
    ⟨partsLine.tail, by decide +kernel, by decide +kernel⟩
  have hfourth : brokenRows.findIdx isFault = 4 := by decide +kernel
  obtain ⟨hread, harray⟩ := (readAll_inLines hmixed hfirst).1 lineIssues hboth
  have herror := (readAll_inLines hbroken hfirst').2 hbad
  rw [hfourth] at herror
  exact ⟨hmixed, hfirst, hboth, hread, harray, hbroken, hfirst', hbad, herror⟩

/-- Whether a line writes an object. -/
def isObject (row : Text) : Bool :=
  match Json.read? row with
  | some (.object _) => true
  | _ => false

/-- A line that is no object need not be named: the parts of a record may come as an array. -/
theorem not_error_of_partsLine :
    ¬ ∀ (rows : List Text) (text : Text), Text.InLines rows text →
      (∀ row ∈ (recordLines rows).head?, (Text.trimStart row).head? ≠ some '[') →
      (∃ row ∈ recordLines rows, isObject row = false) →
      ∃ number, readAll text = .error (.line number) := by
  intro h
  have hlines : Text.InLines [objectLine, partsLine] (objectLine ++ '\n' :: partsLine) :=
    Text.inLines_iff.2 (by decide +kernel)
  have hfirst : ∀ row ∈ (recordLines [objectLine, partsLine]).head?,
      (Text.trimStart row).head? ≠ some '[' := by
    decide +kernel
  have hrecords : recordLines [objectLine, partsLine] = [objectLine, partsLine] := by
    decide +kernel
  have hok : readAll (objectLine ++ '\n' :: partsLine) = .ok lineIssues := by
    rw [readAll_eq_readLines hlines hfirst, readLines_eq_ok_iff, hrecords]
    exact forall₂_lineIssues
  obtain ⟨number, herror⟩ := h _ _ hlines hfirst ⟨partsLine, by decide +kernel, by decide +kernel⟩
  rw [hok] at herror
  exact absurd herror (by simp)

end Issue
end Triage
