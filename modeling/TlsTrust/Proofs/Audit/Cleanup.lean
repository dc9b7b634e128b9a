import TlsTrust.Proofs.Audit.LogName
import TlsTrust.Proofs.Audit.Rotation
import TlsTrust.Proofs.Table

namespace TlsTrust

namespace LogWriter

variable {w : LogWriter} {name : String} {o : OpenLog} {e : FolderEntry}

/-- A log file that is not being written and whose stamp is past the retention. -/
structure Expires (w : LogWriter) (name : String) : Prop where
  isFile : ∃ bytes, w.folder.paths.get? name = some (.file bytes)
  ne_current : ∀ o, w.current = some o → name ≠ o.path
  outdated : ∃ t, LogFile.IsStamped w.config.base name t ∧ w.config.retention < w.now.since t

def expired (w : LogWriter) : List String :=
  (w.folder.paths.filter w.isExpired).keys

lemma isExpired_of_current (h : w.current = some o) (e : FolderEntry) :
    w.isExpired o.path e = false := by
  simp [isExpired, h]

lemma isExpired_of_not_outdated (h : w.isOutdated name = false) (e : FolderEntry) :
    w.isExpired name e = false := by
  simp [isExpired, h]

lemma isExpired_iff : w.isExpired name e = true ↔ (∃ bytes, e = .file bytes) ∧
    (∀ o, w.current = some o → name ≠ o.path) ∧
    ∃ t, LogFile.IsStamped w.config.base name t ∧ w.config.retention < w.now.since t := by
  have hfile : (e != .folder) = true ↔ ∃ bytes, e = .file bytes := by
    cases e <;> simp
  have hcurrent : (!w.current.any fun o => o.path == name) = true ↔
      ∀ o, w.current = some o → name ≠ o.path := by
    cases w.current <;> simp [eq_comm (a := name)]
  have houtdated : LogFile.isName w.config.base name = true ∧ w.isOutdated name = true ↔
      ∃ t, LogFile.IsStamped w.config.base name t ∧ w.config.retention < w.now.since t := by
    simp only [LogFile.isStamped_iff, LogFile.isName, isOutdated]
    cases LogFile.stamp? w.config.base name <;> simp
  simp only [isExpired, Bool.and_eq_true, hfile, hcurrent, ← houtdated]
  tauto

lemma expires_iff (h : w.folder.paths.get? name = some e) :
    w.Expires name ↔ w.isExpired name e = true := by
  rw [isExpired_iff]
  constructor
  · rintro ⟨⟨bytes, hfile⟩, hcurrent, houtdated⟩
    exact ⟨⟨bytes, Option.some.inj (h.symm.trans hfile)⟩, hcurrent, houtdated⟩
  · rintro ⟨⟨bytes, rfl⟩, hcurrent, houtdated⟩
    exact ⟨⟨bytes, h⟩, hcurrent, houtdated⟩

lemma mem_expired : name ∈ w.expired ↔ w.Expires name := by
  simp only [expired, Table.mem_keys, Table.get?_filter]
  constructor
  · rintro ⟨e, hentry, hexpired⟩
    exact (expires_iff hentry).2 hexpired
  · intro h
    obtain ⟨bytes, hfile⟩ := h.isFile
    exact ⟨_, hfile, (expires_iff hfile).1 h⟩

lemma cleaned_eq (w : LogWriter) : w.cleaned = { w with folder := w.cleaned.folder } := by
  unfold cleaned cleanup
  cases w.folder <;> rfl

lemma get?_cleaned : w.cleaned.folder.paths.get? name = some e ↔
    w.folder.paths.get? name = some e ∧ w.isExpired name e = false := by
  unfold cleaned cleanup
  cases hfolder : w.folder with
  | present entries =>
    dsimp only
    rw [LogFolder.paths_present, Table.get?_filter, Bool.not_eq_true']
    rfl
  | _ => simp [hfolder, LogFolder.paths]

lemma cleanup_eq (h : w.folder ≠ .isFile) : w.cleanup = .ok (w.expired.length, w.cleaned) := by
  unfold cleaned cleanup expired
  cases hfolder : w.folder with
  | isFile => exact absurd hfolder h
  | present entries =>
    dsimp only
    rw [Table.size_sub_filter, LogFolder.paths_present, Table.keys, List.length_map]
    rfl
  | _ => rfl

lemma isExpired_cleaned (h : w.cleaned.folder.paths.get? name = some e) :
    w.cleaned.isExpired name e = false := by
  rw [cleaned_eq]
  exact (get?_cleaned.1 h).2

lemma expired_cleaned (w : LogWriter) : w.cleaned.expired = [] := by
  refine List.eq_nil_iff_forall_not_mem.2 fun name hname => ?_
  obtain ⟨e, hentry⟩ := Table.mem_keys.1 hname
  obtain ⟨hkept, hexpired⟩ := Table.get?_filter.1 hentry
  rw [isExpired_cleaned hkept] at hexpired
  cases hexpired

/-- A cleanup deletes the files that are past their retention, counts them, and leaves every other
entry as it is. A second one at the same time finds nothing to delete. -/
theorem cleanup_deletes_expired (h : w.folder ≠ .isFile) :
    ∃ (removed : List String) (w' : LogWriter), w.cleanup = .ok (removed.length, w') ∧ removed.Nodup ∧
      (∀ name, name ∈ removed ↔ w.Expires name) ∧
      (∀ name e, w'.folder.paths.get? name = some e ↔
        w.folder.paths.get? name = some e ∧ ¬ w.Expires name) ∧
      w' = { w with folder := w'.folder } ∧
      w'.cleanup = .ok (0, w') := by
  have hfolder : w.cleaned.folder ≠ .isFile := by
    unfold cleaned cleanup
    cases hw : w.folder with
    | isFile => exact absurd hw h
    | _ => simp [hw]
  refine ⟨w.expired, w.cleaned, cleanup_eq h, ?_, fun _ => mem_expired, fun name e => ?_, cleaned_eq w,
    ?_⟩
  · exact (Table.pairwise_keys _).imp fun hlt => String.ne_of_lt hlt
  · rw [get?_cleaned]
    exact and_congr_right fun hentry => by rw [expires_iff hentry, Bool.not_eq_true]
  · rw [cleanup_eq hfolder, expired_cleaned,
      cleaned_eq_self fun e he => isExpired_cleaned (Table.get?_of_mem_entries he), List.length_nil]

theorem five_of_six_files_stay :
    let current := "security-audit-20250101-000000.000.jsonl"
    let old := "security-audit-20250101-000000.000-1.jsonl"
    let others := [current, "security-audit-20250301-093000.000.jsonl", "security-audit-today.jsonl",
      "other-20250101-000000.000.jsonl", "security-audit-20250101-000000.000.log"]
    let w : LogWriter := {
      folder := .present (.ofList ((old :: others).map fun name => (name, .file [])))
      now := .atSecond 1740821400
      current := some ⟨current, .atSecond 1735689600, 0⟩ }
    w.folder ≠ .isFile ∧ ∃ w', w.cleanup = .ok (1, w') ∧ w'.folder.paths.get? old = none ∧
      (∀ name ∈ others, w'.folder.paths.get? name = some (.file [])) ∧
      w'.cleanup = .ok (0, w') := by
  intro current old others w
  have hfolder : w.folder ≠ .isFile := by decide
  obtain ⟨removed, w', hcleanup, hnodup, hremoved, hkept, -, hagain⟩ := cleanup_deletes_expired hfolder
  have hexpired : w.expired = [old] := by decide +kernel
  have hold : ∀ name, w.Expires name ↔ name ∈ [old] := fun name => by rw [← hexpired, mem_expired]
  have hothers : ∀ name ∈ others,
      w.folder.paths.get? name = some (.file []) ∧ name ∉ [old] := by decide +kernel
  have hlength : removed.length = 1 :=
    ((List.perm_ext_iff_of_nodup hnodup (List.nodup_singleton old)).2 fun name => by
      rw [hremoved, hold]).length_eq
  refine ⟨hfolder, w', hlength ▸ hcleanup, ?_, fun name hname => ?_, hagain⟩
  · refine Option.eq_none_iff_forall_ne_some.2 fun e hentry => ?_
    exact ((hkept _ _).1 hentry).2 ((hold _).2 (List.mem_singleton_self _))
  · obtain ⟨hentry, hne⟩ := hothers name hname
    exact (hkept _ _).2 ⟨hentry, fun hold' => hne ((hold _).1 hold')⟩

end LogWriter

end TlsTrust
