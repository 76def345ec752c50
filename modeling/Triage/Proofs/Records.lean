import Triage.Issue.Listing
import Triage.Proofs.JsonText
import Triage.Proofs.TimeText

/-! Issues are read back from their records.

The record of an issue has a member for each part that is there, under keys that
are all different, so each part is found again under its key and a part without a
member is absent again (`find?_present`). Every part is read back from its own
value, and with the parts the issue (`ofJson?_toJson`). In either layout a list of
issues is an array of plain records, which is read back as the list
(`readAll_compactJson`, `readAll_prettyJson`). -/
namespace Triage.Issue

/-! ### Values of parts -/

theorem readText?_jsonText (t : Text) : readText? (jsonText t) = some t := Json.text?_ofText t

theorem readInteger?_integer (n : Int64) : readInteger? (.integer n.toInt) = some n :=
  Integer.ofInt?_toInt n

theorem readInstant?_recordText (i : Instant) :
    readInstant? (jsonText i.recordText) = some i := by
  rw [readInstant?, readText?_jsonText, Option.bind_eq_bind, Option.bind_some,
    Moment.readRecord?_recordText]
  rfl

/-- A status is read from the text of a record as it is from any text. -/
theorem readStatus?_jsonText (t : Text) : readStatus? (jsonText t) = Status.ofName? t := by
  rw [readStatus?, readText?_jsonText, Option.bind_some]

theorem readStatus?_name (status : Status) : readStatus? (jsonText status.name) = some status := by
  rw [readStatus?_jsonText, Status.ofName?_name]

/-- Values that are read back one by one are read back together. -/
theorem mapM_map_eq_some {read : β → Option α} {write : α → β}
    (h : ∀ a, read (write a) = some a) (items : List α) :
    (items.map write).mapM read = some items := by
  induction items with
  | nil => rfl
  | cons a items ih =>
    rw [List.map_cons, List.mapM_cons, h, ih]
    rfl

theorem readLabels?_array (labels : List Text) :
    readLabels? (.array (labels.map jsonText)) = some labels :=
  mapM_map_eq_some readText?_jsonText labels

/-! ### Members -/

/-- The parts of an issue under the keys of its record, in order. -/
def parts (issue : Issue) : List (String × Option Json) :=
  [("id", some (jsonText issue.id)), ("title", some (jsonText issue.title)),
   ("description", some (jsonText issue.description)),
   ("status", some (jsonText issue.status.name)),
   ("priority", some (.integer issue.priority.toInt)),
   ("issueType", some (jsonText issue.issueType)), ("assignee", issue.assignee.map jsonText),
   ("createdAt", some (jsonText issue.created.recordText)),
   ("updatedAt", some (jsonText issue.updated.recordText)),
   ("dueDate", issue.due.map fun t => jsonText t.recordText),
   ("closedAt", issue.closed.map fun t => jsonText t.recordText),
   ("labels", some (.array (issue.labels.map jsonText))),
   ("estimatedMinutes", issue.estimate.map fun n => .integer n.toInt),
   ("externalRef", issue.externalRef.map jsonText), ("sourceRepo", issue.sourceRepo.map jsonText),
   ("design", issue.design.map jsonText), ("acceptanceCriteria", issue.acceptance.map jsonText),
   ("notes", issue.notes.map jsonText)]

/-- The members of the parts that are there. -/
def present (parts : List (String × Option Json)) : List (Text × Json) :=
  parts.filterMap fun part => part.2.map (part.1.toList, ·)

theorem toJson_eq (issue : Issue) :
    issue.toJson = .object ((present issue.parts).map fun m => (Json.ofText m.1, m.2)) := by
  have hmembers : ∀ parts : List (String × Option Json),
      (present parts).map (fun m => (Json.ofText m.1, m.2)) =
        parts.flatMap fun part => optionalMember part.1 part.2 := by
    intro parts
    induction parts with
    | nil => rfl
    | cons part parts ih =>
      obtain ⟨key, value⟩ := part
      rw [List.flatMap_cons, ← ih]
      cases value <;> rfl
  rw [hmembers, toJson]
  simp only [parts, List.flatMap_cons, List.flatMap_nil, List.append_nil, optionalMember,
    List.append_assoc]

theorem nodup_keys : keys.Nodup := by decide +kernel

theorem map_fst_present_sublist (parts : List (String × Option Json)) :
    ((present parts).map Prod.fst).Sublist (parts.map fun part => part.1.toList) := by
  induction parts with
  | nil => exact .slnil
  | cons part parts ih =>
    obtain ⟨key, value⟩ := part
    cases value with
    | none => exact ih.cons _
    | some v => exact ih.cons_cons _

/-- No key of a record comes twice. -/
theorem nodup_map_fst_present (issue : Issue) :
    ((present issue.parts).map Prod.fst).Nodup :=
  nodup_keys.sublist (map_fst_present_sublist issue.parts)

theorem members?_present (issue : Issue) :
    members? ((present issue.parts).map fun m => (Json.ofText m.1, m.2)) =
      some (present issue.parts) := by
  have hread : ∀ m : Text × Json, (do return (← Json.text? (Json.ofText m.1), m.2)) = some m := by
    intro m
    rw [Json.text?_ofText]
    rfl
  have honce : (keys.all fun key => (present issue.parts).countP (·.1 = key) ≤ 1) = true := by
    refine List.all_eq_true.2 fun key _ => decide_eq_true ?_
    have hcount := List.nodup_iff_count.1 (nodup_map_fst_present issue) key
    rw [List.count, List.countP_map] at hcount
    refine Nat.le_trans (Nat.le_of_eq (List.countP_congr fun m _ => ?_)) hcount
    rw [decide_eq_true_iff, Function.comp, beq_iff_eq]
  rw [members?, mapM_map_eq_some hread]
  exact if_pos honce

/-- Under a key that no part has there is no member. -/
theorem find?_present_of_not_mem {parts : List (String × Option Json)} {key : String}
    (h : key.toList ∉ parts.map fun part => part.1.toList) : find? (present parts) key = none := by
  have hnone : (present parts).find? (·.1 = key.toList) = none := by
    refine List.find?_eq_none.2 fun m hm hkey => h ?_
    rw [← of_decide_eq_true hkey]
    exact (map_fst_present_sublist parts).subset (List.mem_map_of_mem hm)
  rw [find?, hnone]
  rfl

/-- What a record has under the key of a part is the part. -/
theorem find?_present {parts : List (String × Option Json)}
    (hnodup : (parts.map fun part => part.1.toList).Nodup) {key : String} {value : Option Json}
    (h : (key, value) ∈ parts) : find? (present parts) key = value := by
  induction parts with
  | nil => exact absurd h List.not_mem_nil
  | cons part parts ih =>
    obtain ⟨other, found⟩ := part
    rw [List.map_cons] at hnodup
    obtain ⟨habsent, hnodup⟩ := List.nodup_cons.1 hnodup
    rcases List.mem_cons.1 h with heq | h
    · obtain ⟨rfl, rfl⟩ := Prod.mk.inj heq
      cases value with
      | none =>
        show find? (present parts) key = none
        exact find?_present_of_not_mem habsent
      | some v => simp [present, find?]
    · have hne : other.toList ≠ key.toList := by
        intro heq
        refine habsent ?_
        rw [heq]
        exact List.mem_map_of_mem h
      rw [← ih hnodup h]
      cases found with
      | none => rfl
      | some v => simp [present, find?, hne]

/-! ### Records -/

theorem required?_eq {members : List (Text × Json)} {key : String} {read : Json → Option α}
    {json : Json} {a : α} (h : find? members key = some json) (hr : read json = some a) :
    required? members key read = some a := by
  rw [required?, h, Option.bind_some, hr]

theorem withDefault?_eq {members : List (Text × Json)} {key : String} {default : α}
    {read : Json → Option α} {json : Json} {a : α} (h : find? members key = some json)
    (hr : read json = some a) : withDefault? members key default read = some a := by
  rw [withDefault?, h]
  exact hr

/-- A part that may be absent is read back, and absent if it has no member. -/
theorem optional?_eq {members : List (Text × Json)} {key : String} {read : Json → Option α}
    {write : α → Json} {part : Option α} (h : find? members key = part.map write)
    (hr : ∀ a, read (write a) = some a) (hn : ∀ a, write a ≠ .null) :
    optional? members key read = some part := by
  rw [optional?, withDefault?, h]
  cases part with
  | none => rfl
  | some a =>
    have hnullable : readNullable? read (write a) = (read (write a)).map some := by
      have hne := hn a
      cases hw : write a <;> first | exact absurd hw hne | rfl
    exact hnullable.trans (by rw [hr]; rfl)

/-- **A record is read back as the issue that it is of.** -/
theorem ofJson?_toJson (issue : Issue) : ofJson? issue.toJson = some issue := by
  have hnodup : (issue.parts.map fun part => part.1.toList).Nodup := nodup_keys
  have hfind : ∀ i : Fin 18,
      find? (present issue.parts) (issue.parts.get i).1 = (issue.parts.get i).2 :=
    fun i => find?_present hnodup (List.get_mem issue.parts i)
  have htext : ∀ t, jsonText t ≠ .null := fun t h => Json.noConfusion h
  have hinteger : ∀ n : Int64, Json.integer n.toInt ≠ .null := fun n h => Json.noConfusion h
  have hid : required? (present issue.parts) "id" readText? = some issue.id :=
    required?_eq (hfind 0) (readText?_jsonText issue.id)
  have htitle : required? (present issue.parts) "title" readText? = some issue.title :=
    required?_eq (hfind 1) (readText?_jsonText issue.title)
  have hdescription : withDefault? (present issue.parts) "description" [] readText? =
      some issue.description :=
    withDefault?_eq (hfind 2) (readText?_jsonText issue.description)
  have hstatus : withDefault? (present issue.parts) "status" .opened readStatus? =
      some issue.status :=
    withDefault?_eq (hfind 3) (readStatus?_name issue.status)
  have hpriority : withDefault? (present issue.parts) "priority" 0 readInteger? =
      some issue.priority :=
    withDefault?_eq (hfind 4) (readInteger?_integer issue.priority)
  have htype : withDefault? (present issue.parts) "issueType" defaultType readText? =
      some issue.issueType :=
    withDefault?_eq (hfind 5) (readText?_jsonText issue.issueType)
  have hassignee : optional? (present issue.parts) "assignee" readText? = some issue.assignee :=
    optional?_eq (hfind 6) readText?_jsonText htext
  have hcreated : required? (present issue.parts) "createdAt" readInstant? = some issue.created :=
    required?_eq (hfind 7) (readInstant?_recordText issue.created)
  have hupdated : required? (present issue.parts) "updatedAt" readInstant? = some issue.updated :=
    required?_eq (hfind 8) (readInstant?_recordText issue.updated)
  have hdue : optional? (present issue.parts) "dueDate" readInstant? = some issue.due :=
    optional?_eq (hfind 9) readInstant?_recordText fun t => htext t.recordText
  have hclosed : optional? (present issue.parts) "closedAt" readInstant? = some issue.closed :=
    optional?_eq (hfind 10) readInstant?_recordText fun t => htext t.recordText
  have hlabels : withDefault? (present issue.parts) "labels" [] readLabels? = some issue.labels :=
    withDefault?_eq (hfind 11) (readLabels?_array issue.labels)
  have hestimate : optional? (present issue.parts) "estimatedMinutes" readInteger? =
      some issue.estimate :=
    optional?_eq (hfind 12) readInteger?_integer hinteger
  have hexternal : optional? (present issue.parts) "externalRef" readText? =
      some issue.externalRef :=
    optional?_eq (hfind 13) readText?_jsonText htext
  have hsource : optional? (present issue.parts) "sourceRepo" readText? = some issue.sourceRepo :=
    optional?_eq (hfind 14) readText?_jsonText htext
  have hdesign : optional? (present issue.parts) "design" readText? = some issue.design :=
    optional?_eq (hfind 15) readText?_jsonText htext
  have hacceptance : optional? (present issue.parts) "acceptanceCriteria" readText? =
      some issue.acceptance :=
    optional?_eq (hfind 16) readText?_jsonText htext
  have hnotes : optional? (present issue.parts) "notes" readText? = some issue.notes :=
    optional?_eq (hfind 17) readText?_jsonText htext
  rw [toJson_eq, ofJson?, members?_present, Option.bind_some, ofMembers?, hid, htitle,
    hdescription, hstatus, hpriority, htype, hassignee, hcreated, hupdated, hdue, hclosed, hlabels,
    hestimate, hexternal, hsource, hdesign, hacceptance, hnotes]
  rfl

/-! ### Lists of records -/

theorem plainMembers_of_forall {members : List (List Json.Symbol × Json)}
    (h : ∀ m ∈ members, (∃ t, m.1 = Json.ofText t) ∧ m.2.Plain) : Json.PlainMembers members := by
  induction members with
  | nil => trivial
  | cons m members ih =>
    obtain ⟨hkey, hvalue⟩ := h m List.mem_cons_self
    exact ⟨hkey, hvalue, ih fun n hn => h n (List.mem_cons_of_mem m hn)⟩

theorem plainItems_map {write : α → Json} (h : ∀ a, (write a).Plain) (items : List α) :
    Json.PlainItems (items.map write) := by
  induction items with
  | nil => trivial
  | cons a items ih => exact ⟨h a, ih⟩

theorem plain_jsonText (t : Text) : (jsonText t).Plain := ⟨t, rfl⟩

/-- The parts of an issue are texts, integers and an array of texts. -/
theorem plain_parts (issue : Issue) : ∀ part ∈ issue.parts, ∀ v ∈ part.2, v.Plain := by
  have hmap : ∀ {α : Type} {part : Option α} {write : α → Json}, (∀ a, (write a).Plain) →
      ∀ v ∈ part.map write, v.Plain := by
    intro α part write h v hv
    obtain ⟨a, -, rfl⟩ := Option.map_eq_some_iff.1 hv
    exact h a
  have hinteger : ∀ n : Int64, (Json.integer n.toInt).Plain := fun n => trivial
  simp only [parts, List.forall_mem_cons, Option.mem_some_iff, forall_eq']
  exact ⟨plain_jsonText _, plain_jsonText _, plain_jsonText _, plain_jsonText _, hinteger _,
    plain_jsonText _, hmap plain_jsonText, plain_jsonText _, plain_jsonText _,
    hmap fun t => plain_jsonText t.recordText, hmap fun t => plain_jsonText t.recordText,
    plainItems_map plain_jsonText _, hmap hinteger, hmap plain_jsonText, hmap plain_jsonText,
    hmap plain_jsonText, hmap plain_jsonText, hmap plain_jsonText,
    fun part h => absurd h List.not_mem_nil⟩

/-- The record of every issue in an array is plain. -/
theorem plain_arrayJson (issues : List Issue) : (arrayJson issues).Plain := by
  refine plainItems_map (fun issue => ?_) issues
  rw [toJson_eq]
  refine plainMembers_of_forall fun m hm => ?_
  obtain ⟨n, hn, rfl⟩ := List.mem_map.1 hm
  obtain ⟨part, hpart, hsome⟩ := List.mem_filterMap.1 hn
  obtain ⟨v, hv, rfl⟩ := Option.map_eq_some_iff.1 hsome
  exact ⟨⟨_, rfl⟩, issue.plain_parts part hpart v hv⟩

/-- A text that is read as the array of some issues is read as the issues. -/
theorem readAll_of_read? {rest : Text} {issues : List Issue}
    (h : Json.read? ('[' :: rest) = some (arrayJson issues)) :
    readAll ('[' :: rest) = .ok issues := by
  refine readAll_of_readArray? ?_
  rw [readArray?, h, arrayJson]
  exact mapM_map_eq_some ofJson?_toJson issues

/-- Issues are read back from one line. -/
theorem readAll_compactJson (issues : List Issue) : readAll (compactJson issues) = .ok issues :=
  readAll_of_read? (Json.read?_compact (plain_arrayJson issues))

/-- Issues are read back from many lines. -/
theorem readAll_prettyJson (issues : List Issue) : readAll (prettyJson issues) = .ok issues := by
  have hread : Json.read? (prettyJson issues) = some (arrayJson issues) :=
    Json.read?_pretty (plain_arrayJson issues) 0
  cases issues with
  | nil => exact readAll_of_read? hread
  | cons issue more => exact readAll_of_read? hread

end Triage.Issue
