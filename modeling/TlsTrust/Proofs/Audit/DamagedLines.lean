import TlsTrust.Proofs.Audit.LogName
import TlsTrust.Proofs.Audit.RecordLine
import TlsTrust.Proofs.Table
import TlsTrust.Proofs.Text.Digits

/-!
A line that is no record is passed over where it is text, and nothing at all is read where it is
not.
-/

namespace TlsTrust

open Text

namespace LogFile

variable {bytes : List UInt8}

def lineRecord? (line : List UInt8) : Option AuditRecord :=
  (ofUtf8? line).bind AuditRecord.parse?

/-- The records on the lines that hold one, whatever the other lines are. -/
def legible (bytes : List UInt8) : List AuditRecord :=
  (byteLines bytes).filterMap lineRecord?

/-- Every line is text, be it a record or not. -/
def IsText (bytes : List UInt8) : Prop :=
  ∀ line ∈ byteLines bytes, (ofUtf8? line).isSome = true

instance : Decidable (IsText bytes) :=
  inferInstanceAs (Decidable (∀ line ∈ byteLines bytes, (ofUtf8? line).isSome = true))

lemma legible_append (as bs : List UInt8) :
    legible (as ++ 10 :: bs) = legible (as ++ [10]) ++ legible bs := by
  rw [legible, byteLines_append, List.filterMap_append]
  rfl

lemma isText_append {as bs : List UInt8} :
    IsText (as ++ 10 :: bs) ↔ IsText (as ++ [10]) ∧ IsText bs := by
  rw [IsText, byteLines_append, List.forall_mem_append]
  rfl

lemma legible_line {line : List UInt8} (h : 10 ∉ line) :
    legible (line ++ [10]) = (lineRecord? (withoutReturn line)).toList := by
  rw [legible, byteLines_line h]
  rfl

lemma legible_around (before after : List UInt8) {line : List UInt8} (h : 10 ∉ line) :
    legible (before ++ 10 :: (line ++ 10 :: after)) =
      legible (before ++ [10]) ++ (lineRecord? (withoutReturn line)).toList ++ legible after := by
  rw [legible_append, legible_append line, legible_line h, List.append_assoc]

lemma lineRecord?_line {r : AuditRecord} (h : r.time.InCalendar) :
    lineRecord? (utf8 r.line) = some { r with time := r.time.settled } := by
  rw [lineRecord?, ofUtf8?_utf8, Option.bind_some, AuditRecord.parse?_line h]

lemma byteLines_record {r : AuditRecord} (h : r.time.InCalendar) :
    byteLines (utf8 r.line ++ [10]) = [utf8 r.line] ∧ byteLines (utf8 r.line) = [utf8 r.line] := by
  have hsame : withoutReturn (utf8 r.line) = utf8 r.line :=
    if_neg fun hlast => r.isLine_utf8.2 (beq_iff_eq.1 hlast)
  have hne : utf8 r.line ≠ [] := by
    intro hempty
    have hnone : lineRecord? [] = none := by decide +kernel
    have hrecord := lineRecord?_line h
    rw [hempty, hnone] at hrecord
    cases hrecord
  exact ⟨by rw [byteLines_line r.isLine_utf8.1, hsame], byteLines_unended r.isLine_utf8.1 hne⟩

lemma legible_record {r : AuditRecord} (h : r.time.InCalendar)
    (hleap : r.time.isLeap = true → r.time.second % 60 = 59) :
    legible (utf8 r.line ++ [10]) = [r] ∧ legible (utf8 r.line) = [r] := by
  obtain ⟨hended, hunended⟩ := byteLines_record h
  rw [legible, legible, hended, hunended, List.filterMap_cons, lineRecord?_line h,
    Instant.settled_eq_self hleap]
  exact ⟨rfl, rfl⟩

lemma isText_record {r : AuditRecord} (h : r.time.InCalendar) :
    IsText (utf8 r.line ++ [10]) ∧ IsText (utf8 r.line) := by
  obtain ⟨hended, hunended⟩ := byteLines_record h
  rw [IsText, IsText, hended, hunended, List.forall_mem_singleton, ofUtf8?_utf8]
  exact ⟨rfl, rfl⟩

lemma records?_of_isText (h : IsText bytes) : records? bytes = some (legible bytes) := by
  have hlines : (byteLines bytes).mapM ofUtf8? =
      some ((byteLines bytes).map fun line => (ofUtf8? line).getD "") := by
    refine mapM_eq_some_map fun line hline => ?_
    obtain ⟨s, hs⟩ := Option.isSome_iff_exists.1 (h line hline)
    rw [hs, Option.getD_some]
  simp only [records?, hlines, Option.bind_eq_bind, Option.bind_some, Option.pure_def,
    List.filterMap_map, legible]
  refine congrArg some (List.filterMap_congr fun line hline => ?_)
  obtain ⟨s, hs⟩ := Option.isSome_iff_exists.1 (h line hline)
  rw [Function.comp_apply, lineRecord?, hs, Option.getD_some, Option.bind_some]

lemma records?_of_not_isText (h : ¬ IsText bytes) : records? bytes = none := by
  obtain ⟨line, hline, hnone⟩ : ∃ line ∈ byteLines bytes, ofUtf8? line = none := by
    simpa [IsText] using h
  simp only [records?, mapM_eq_none_of_mem hline hnone, Option.bind_eq_bind, Option.bind_none]

end LogFile

namespace LogFolder

variable {f : LogFolder} {names : List String}

def bytesOf (f : LogFolder) (name : String) : List UInt8 :=
  match f.paths.get? name with
  | some (.file bytes) => bytes
  | _ => []

lemma read_eq {name : String} {bytes : List UInt8} (h : f.paths.get? name = some (.file bytes)) :
    f.read name = .ok (f.bytesOf name) := by
  rw [read, bytesOf, h]

lemma recordsOf_of_isText (hread : ∀ name ∈ names, f.read name = .ok (f.bytesOf name))
    (htext : ∀ name ∈ names, LogFile.IsText (f.bytesOf name)) :
    f.recordsOf names = .ok (names.flatMap fun name => LogFile.legible (f.bytesOf name)) := by
  induction names with
  | nil => rfl
  | cons name names ih =>
    rw [List.forall_mem_cons] at hread htext
    simp only [recordsOf, hread.1, LogFile.records?_of_isText htext.1, ih hread.2 htext.2,
      List.flatMap_cons, bind, Except.bind, pure, Except.pure]

lemma recordsOf_of_not_isText (hread : ∀ name ∈ names, f.read name = .ok (f.bytesOf name))
    (htext : ∃ name ∈ names, ¬ LogFile.IsText (f.bytesOf name)) :
    f.recordsOf names = .error .notText := by
  induction names with
  | nil => simp at htext
  | cons name names ih =>
    rw [List.forall_mem_cons] at hread
    by_cases hname : LogFile.IsText (f.bytesOf name)
    · -- the records of this file are lost with those of a later one
      have hrest := ih hread.2 (by simpa [hname] using htext)
      simp only [recordsOf, hread.1, LogFile.records?_of_isText hname, hrest, bind, Except.bind]
    · simp only [recordsOf, hread.1, LogFile.records?_of_not_isText hname, bind, Except.bind]

lemma readRecords_eq (h : f.logFiles LogFile.defaultBase = .ok names) :
    f.readRecords = f.recordsOf names := by
  rw [readRecords, h]
  rfl

/-- The log files are those with a stamped name, in order of their names. Where all of their lines are
text, the records on them are read in that order, and lines without a record make no difference;
where one line is not, nothing is read. -/
theorem lines_of_text_are_read (hfolder : f ≠ .isFile)
    (hfiles : ∀ name t, LogFile.IsStamped LogFile.defaultBase name t →
      f.paths.get? name ≠ some .folder) :
    ∃ names, f.logFiles LogFile.defaultBase = .ok names ∧ names.Pairwise (· < ·) ∧
      (∀ name, name ∈ names ↔ (∃ bytes, f.paths.get? name = some (.file bytes)) ∧
        ∃ t, LogFile.IsStamped LogFile.defaultBase name t) ∧
      ((∀ name ∈ names, LogFile.IsText (f.bytesOf name)) →
        f.readRecords = .ok (names.flatMap fun name => LogFile.legible (f.bytesOf name))) ∧
      ((∃ name ∈ names, ¬ LogFile.IsText (f.bytesOf name)) → f.readRecords = .error .notText) ∧
      ∀ (before after line : List UInt8), 10 ∉ line →
        LogFile.legible (before ++ 10 :: (line ++ 10 :: after)) =
          LogFile.legible (before ++ [10]) ++ (LogFile.lineRecord? (withoutReturn line)).toList ++
            LogFile.legible after := by
  have hnames := logFiles_eq_ok hfolder LogFile.defaultBase
  have hmem : ∀ name, name ∈ f.paths.keys.filter (LogFile.isName LogFile.defaultBase) ↔
      (∃ bytes, f.paths.get? name = some (.file bytes)) ∧
        ∃ t, LogFile.IsStamped LogFile.defaultBase name t := by
    intro name
    rw [List.mem_filter, Table.mem_keys, LogFile.isName_iff]
    refine and_congr_left fun ⟨t, ht⟩ => ⟨fun ⟨e, he⟩ => ?_, fun ⟨bytes, hbytes⟩ => ⟨_, hbytes⟩⟩
    cases e with
    | file bytes => exact ⟨bytes, he⟩
    | folder => exact absurd he (hfiles name t ht)
  have hread : ∀ name ∈ f.paths.keys.filter (LogFile.isName LogFile.defaultBase),
      f.read name = .ok (f.bytesOf name) := by
    intro name hname
    obtain ⟨⟨bytes, hbytes⟩, -⟩ := (hmem name).1 hname
    exact read_eq hbytes
  refine ⟨_, hnames, (Table.pairwise_keys _).filter _, hmem, fun htext => ?_, fun htext => ?_,
    fun before after _ => LogFile.legible_around before after⟩
  · rw [readRecords_eq hnames]
    exact recordsOf_of_isText hread htext
  · rw [readRecords_eq hnames]
    exact recordsOf_of_not_isText hread htext

theorem records_around_garbage_are_read :
    let name := "security-audit-20250301-093000.000.jsonl"
    let r : AuditRecord := .new ⟨default, .atSecond 1740821400⟩ .securityDecision "a.example.com"
    let s : AuditRecord := .new ⟨default, .atSecond 1740821460⟩ .securityDecision "b.example.com"
    let bytes := utf8 r.line ++ 10 :: (utf8 "garbage" ++ 10 :: utf8 s.line)
    let f : LogFolder := .present (.ofList [(name, .file bytes), ("notes.txt", .file [255]),
      ("other-20250301-093000.000.jsonl", .file [255])])
    (f ≠ .isFile ∧ (∀ name t, LogFile.IsStamped LogFile.defaultBase name t →
      f.paths.get? name ≠ some .folder) ∧ LogFile.IsText (f.bytesOf name)) ∧
    f.readRecords = .ok [r, s] := by
  intro name r s bytes f
  have hfolder : f ≠ .isFile := nofun
  have hfiles : ∀ name t, LogFile.IsStamped LogFile.defaultBase name t →
      f.paths.get? name ≠ some .folder := by
    have hentries : ∀ e ∈ f.paths.entries, e.2 ≠ .folder := by decide +kernel
    exact fun name t _ hentry => hentries _ (Table.mem_entries_of_get? hentry) rfl
  have hr : r.time.InCalendar := by decide +kernel
  have hs : s.time.InCalendar := by decide +kernel
  have hnames : f.logFiles LogFile.defaultBase = .ok [name] := by decide +kernel
  have hbytes : f.bytesOf name = bytes := by
    have hentry : f.paths.get? name = some (.file bytes) := by
      change Table.get? (((Table.empty.insert name _).insert _ _).insert _ _) name = _
      rw [Table.get?_insert_of_ne _ (by decide), Table.get?_insert_of_ne _ (by decide),
        Table.get?_insert_self]
    rw [bytesOf, hentry]
  have htext : LogFile.IsText (f.bytesOf name) := by
    have hgarbage : LogFile.IsText (utf8 "garbage" ++ [10]) := by decide +kernel
    rw [hbytes]
    exact LogFile.isText_append.2 ⟨(LogFile.isText_record hr).1,
      LogFile.isText_append.2 ⟨hgarbage, (LogFile.isText_record hs).2⟩⟩
  have hlegible : LogFile.legible (f.bytesOf name) = [r, s] := by
    have hgarbage : LogFile.lineRecord? (withoutReturn (utf8 "garbage")) = none := by decide +kernel
    rw [hbytes, LogFile.legible_around _ _ (by decide +kernel), hgarbage,
      (LogFile.legible_record hr (by decide)).1, (LogFile.legible_record hs (by decide)).2]
    rfl
  obtain ⟨names, hlisted, -, -, hread, -⟩ := lines_of_text_are_read hfolder hfiles
  obtain rfl : [name] = names := Except.ok.inj (hnames.symm.trans hlisted)
  have hrecords := hread (List.forall_mem_singleton.2 htext)
  rw [List.flatMap_singleton, hlegible] at hrecords
  exact ⟨⟨hfolder, hfiles, htext⟩, hrecords⟩

/-- A line that breaks off within a character hides the records of both files. -/
theorem torn_line_hides_records :
    let r : AuditRecord := .new ⟨default, .atSecond 1740821400⟩ .securityDecision "a.example.com"
    let s : AuditRecord := .new ⟨default, .atSecond 1740825000⟩ .securityDecision "b.example.com"
    let first := "security-audit-20250301-093000.000.jsonl"
    let second := "security-audit-20250301-103000.000.jsonl"
    let torn := utf8 "\x7b\"hostname\":\"b" ++ [195]
    let f : LogFolder := .present (.ofList [(first, .file (utf8 r.line ++ 10 :: torn)),
      (second, .file (utf8 s.line ++ [10]))])
    f.logFiles LogFile.defaultBase = .ok [first, second] ∧
    LogFile.legible (f.bytesOf first) ++ LogFile.legible (f.bytesOf second) = [r, s] ∧
    f.readRecords = .error .notText := by
  intro r s first second torn f
  have hnames : f.logFiles LogFile.defaultBase = .ok [first, second] := by decide +kernel
  have hfirst : f.paths.get? first = some (.file (utf8 r.line ++ 10 :: torn)) := by
    change Table.get? ((Table.empty.insert first _).insert _ _) first = _
    rw [Table.get?_insert_of_ne _ (by decide), Table.get?_insert_self]
  have hsecond : f.paths.get? second = some (.file (utf8 s.line ++ [10])) :=
    Table.get?_insert_self _ _ _
  have htorn : LogFile.legible torn = [] ∧ ¬ LogFile.IsText torn := by decide +kernel
  have hspoilt : ¬ LogFile.IsText (f.bytesOf first) := by
    rw [bytesOf, hfirst]
    exact fun htext => htorn.2 (LogFile.isText_append.1 htext).2
  have hread : ∀ name ∈ [first, second], f.read name = .ok (f.bytesOf name) := by
    rw [List.forall_mem_cons, List.forall_mem_singleton]
    exact ⟨read_eq hfirst, read_eq hsecond⟩
  refine ⟨hnames, ?_, ?_⟩
  · rw [bytesOf, bytesOf, hfirst, hsecond, LogFile.legible_append, htorn.1,
      (LogFile.legible_record (by decide +kernel) (by decide)).1,
      (LogFile.legible_record (by decide +kernel) (by decide)).1]
    rfl
  · rw [readRecords_eq hnames]
    exact recordsOf_of_not_isText hread ⟨first, List.mem_cons_self, hspoilt⟩

end LogFolder

end TlsTrust
