import TlsTrust.Proofs.Audit.Listing

/-!
The search for a free name ends, and under each name a file is found again as a log file of the time
that its stamp shows.
-/

namespace TlsTrust

open Text

namespace LogWriter

variable {w : LogWriter} {entries : Table FolderEntry} {m n : Nat}

inductive Tries (w : LogWriter) (entries : Table FolderEntry) : Nat → Nat → Prop
  | free {n : Nat} : entries.contains (LogFile.name w.config.base w.now n) = false → Tries w entries n n
  | taken {m n : Nat} : entries.contains (LogFile.name w.config.base w.now m) = true →
      Tries w entries (m + 1) n → Tries w entries m n

lemma Tries.unique {n' : Nat} (h : w.Tries entries m n) (k : w.Tries entries m n') : n = n' := by
  induction h with
  | free hfree =>
    cases k with
    | free => rfl
    | taken htaken => exact absurd htaken (by rw [hfree]; decide)
  | taken htaken _ ih =>
    cases k with
    | free hfree => exact absurd htaken (by rw [hfree]; decide)
    | taken _ hrest => exact ih hrest

lemma tries_of_taken (hfree : entries.contains (LogFile.name w.config.base w.now n) = false)
    (htaken : ∀ k < n, entries.contains (LogFile.name w.config.base w.now k) = true) (hle : m ≤ n) :
    w.Tries entries m n := by
  induction hle using Nat.decreasingInduction with
  | self => exact .free hfree
  | of_succ k hk ih => exact .taken (htaken k hk) ih

lemma name_mem_logFiles (hbase : w.config.base.toList.contains '/' = false)
    (htime : w.now.HasStamp) {f : LogFolder} {e : FolderEntry}
    (he : f.paths.get? (LogFile.name w.config.base w.now n) = some e) :
    ∃ names, f.logFiles w.config.base = .ok names ∧
      LogFile.name w.config.base w.now n ∈ names := by
  have hf : f ≠ .isFile := by
    rintro rfl
    cases he
  refine ⟨_, LogFolder.logFiles_eq_ok hf _, List.mem_filter.2 ⟨Table.mem_keys.2 ⟨e, he⟩, ?_⟩⟩
  exact LogFile.isName_name htime hbase n

/-- Whatever the number in it, a name for a file that is opened in one of the years 0 to 9999 is that of
a log file, and the file is listed. Its time is that of the opening to the millisecond, but for a leap
second off the minute, which is read as the second after it. The search for a free name ends after no
more names than there are entries, with a new file under the first name that was free. -/
theorem opened_names_are_recognized (hbase : w.config.base.toList.contains '/' = false)
    (htime : w.now.HasStamp) :
    (∀ n, LogFile.stamp? w.config.base (LogFile.name w.config.base w.now n) =
        some w.now.settled.toMillis ∧
      ((w.now.isLeap = true → w.now.second % 60 = 59) →
        LogFile.stamp? w.config.base (LogFile.name w.config.base w.now n) = some w.now.toMillis) ∧
      ∀ (f : LogFolder) e, f.paths.get? (LogFile.name w.config.base w.now n) = some e →
        ∃ names, f.logFiles w.config.base = .ok names ∧
          LogFile.name w.config.base w.now n ∈ names) ∧
    ∀ f, w.folder.create = .ok f → ∃ n ≤ f.paths.size, w.Tries f.paths 0 n ∧
      w.openNew = .ok { w with
        folder := .present (f.paths.insert (LogFile.name w.config.base w.now n) (.file []))
        current := some ⟨LogFile.name w.config.base w.now n, w.now, 0⟩ } := by
  refine ⟨fun n => ?_, ?_⟩
  · have hstamp := LogFile.stamp?_name htime w.config.base n
    refine ⟨hstamp, fun hleap => ?_, fun f e => name_mem_logFiles hbase htime⟩
    rw [hstamp, Instant.settled_eq_self hleap]
  intro f hcreate
  obtain ⟨w', hopen⟩ := exists_openNew hcreate hbase
  obtain rfl := create_eq_ok hcreate
  obtain ⟨n, hle, hname, hfree, htaken⟩ := w.freeName_least w.folder.paths
  refine ⟨n, hle, tries_of_taken hfree htaken (Nat.zero_le n), ?_⟩
  rw [hopen, openNew_eq_ok hopen, hname]
  rfl

theorem leap_second_is_recognized :
    let w : LogWriter := {
      config := { base := "-é" }
      folder := .present (.ofList [("-é-00001231-235960.999.jsonl", .file [7]),
        ("-é-00001231-235960.999-1.jsonl", .folder)])
      now := ⟨-62135596801, 1999999999, by decide⟩ }
    w.config.base.toList.contains '/' = false ∧ w.now.HasStamp ∧
      LogFile.name w.config.base w.now 2 = "-é-00001231-235960.999-2.jsonl" ∧
      LogFile.stamp? w.config.base (LogFile.name w.config.base w.now 2) =
        some ⟨-62135596801, 1999000000, by decide⟩ ∧
      ∃ w', w.openNew = .ok w' ∧ w'.current = some ⟨LogFile.name w.config.base w.now 2, w.now, 0⟩ := by
  intro w
  have hbase : w.config.base.toList.contains '/' = false := by decide +kernel
  have htime : w.now.HasStamp := by decide +kernel
  obtain ⟨hnames, hopen⟩ := opened_names_are_recognized hbase htime
  obtain ⟨n, -, htries, hopen⟩ := hopen _ rfl
  have htwo : w.Tries w.folder.paths 0 2 :=
    .taken (by decide +kernel) (.taken (by decide +kernel) (.free (by decide +kernel)))
  obtain rfl := htries.unique htwo
  have hmillis : some w.now.toMillis = some ⟨-62135596801, 1999000000, by decide⟩ := by decide +kernel
  exact ⟨hbase, htime, by decide +kernel, ((hnames 2).2.1 (by decide)).trans hmillis, _, hopen, rfl⟩

/-- A file that is opened in the leap second after the tenth second of a minute is found again as one
of the eleventh. -/
theorem leap_second_off_minute_is_mistaken :
    let w : LogWriter := { now := ⟨10, 1500000000, by decide⟩ }
    let name := LogFile.name w.config.base w.now 0
    w.config.base.toList.contains '/' = false ∧ w.now.HasStamp ∧
      name = "security-audit-19700101-000011.500.jsonl" ∧
      LogFile.stamp? w.config.base name = some ⟨11, 500000000, by decide⟩ ∧
      LogFile.stamp? w.config.base name ≠ some w.now.toMillis := by
  decide +kernel

end LogWriter

end TlsTrust
