import TlsTrust.Audit.LogFolder
import TlsTrust.Proofs.Text.Cut
import TlsTrust.Proofs.Text.Utf8

namespace TlsTrust

open Text

namespace LogFile

variable {base name : String} {t : Instant}

/-- The base, a dash, a stamp and anything up to the extension, in the folder itself. -/
def IsStamped (base name : String) (t : Instant) : Prop :=
  '/' ∉ name.toList ∧ (∃ stamp rest : String, name = base ++ "-" ++ stamp ++ rest ∧
    (utf8 stamp).length = stampLength ∧ Instant.ofStamp? stamp.toList = some t) ∧
  ∃ stem : String, stem ≠ "" ∧ name = stem ++ ".jsonl"

lemma stamp?_eq_some_iff : stamp? base name = some t ↔
    ∃ stamp rest : String, name = base ++ "-" ++ stamp ++ rest ∧
      (utf8 stamp).length = stampLength ∧ Instant.ofStamp? stamp.toList = some t := by
  simp only [stamp?, Option.bind_eq_bind, Option.bind_eq_some_iff, stripStart?_eq_some_iff,
    takeBytes?_eq_some_iff]
  constructor
  · rintro ⟨_, hname, stamp, ⟨⟨rest, rfl⟩, hsize⟩, hstamp⟩
    refine ⟨.ofList stamp, .ofList rest, ?_, ?_, by rwa [String.toList_ofList]⟩
    · rw [← String.toList_inj, hname]
      simp
    · rwa [utf8_eq_flatMap, String.toList_ofList]
  · rintro ⟨stamp, rest, rfl, hsize, hstamp⟩
    rw [utf8_eq_flatMap] at hsize
    exact ⟨stamp.toList ++ rest.toList, by simp, stamp.toList,
      ⟨List.prefix_append _ _, hsize⟩, hstamp⟩

lemma hasExtension_iff : hasExtension name = true ↔
    ∃ stem : String, stem ≠ "" ∧ name = stem ++ ".jsonl" := by
  unfold hasExtension
  constructor
  · intro h
    split at h
    case h_1 stem ending hsplit =>
      obtain ⟨hstem, hending⟩ := Bool.and_eq_true_iff.1 h
      obtain ⟨hname, -⟩ := splitLast?_eq_some_iff.1 hsplit
      refine ⟨.ofList stem, fun hempty => ?_, ?_⟩
      · rw [← String.toList_inj, String.toList_ofList] at hempty
        simp [hempty] at hstem
      · rw [← String.toList_inj, hname, beq_iff_eq.1 hending]
        simp
    case h_2 => cases h
  · rintro ⟨stem, hstem, rfl⟩
    have hsplit : splitLast? '.' (stem ++ ".jsonl").toList = some (stem.toList, "jsonl".toList) :=
      splitLast?_eq_some_iff.2 ⟨by simp, by decide⟩
    rw [hsplit]
    simpa using hstem

lemma isStamped_iff : IsStamped base name t ↔
    ('/' ∉ name.toList ∧ hasExtension name = true) ∧ stamp? base name = some t := by
  rw [hasExtension_iff, stamp?_eq_some_iff, IsStamped, and_assoc, and_congr_right_iff]
  exact fun _ => and_comm

lemma isName_iff : isName base name = true ↔ ∃ t, IsStamped base name t := by
  simp only [isName, isStamped_iff, Bool.and_eq_true, Bool.not_eq_true', List.contains_eq_mem,
    decide_eq_false_iff_not, Option.isSome_iff_exists, exists_and_left]

end LogFile

lemma LogFolder.logFiles_eq_ok {f : LogFolder} (h : f ≠ .isFile) (base : String) :
    f.logFiles base = .ok (f.paths.keys.filter (LogFile.isName base)) := by
  cases f with
  | isFile => exact absurd rfl h
  | _ => rfl

end TlsTrust
