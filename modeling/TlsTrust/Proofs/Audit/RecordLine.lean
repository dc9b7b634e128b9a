import TlsTrust.Audit.Record
import TlsTrust.Proofs.IpAddress
import TlsTrust.Proofs.Json.Record
import TlsTrust.Proofs.Json.Rendering
import TlsTrust.Proofs.Table
import TlsTrust.Proofs.Text.Utf8
import TlsTrust.Proofs.Time.Reading

/-!
A record is one line, which reads back as the record, and a certificate reads back from its JSON,
but for leap seconds off the minute.
-/

namespace TlsTrust

open Text

namespace RecordId

lemma digits?_hexDigit (ds : List (Fin 16)) : digits? (ds.map fun d => hexDigit d.val) = some ds :=
  mapM_map_eq_some fun d _ => by simp [hexDigit?_hexDigit d.isLt]

lemma ofGroups?_append {as bs cs ds es : List Char} (ha : as.length = 8) (hb : bs.length = 4)
    (hc : cs.length = 4) (hd : ds.length = 4) (he : es.length = 12) :
    ofGroups? (as ++ '-' :: (bs ++ '-' :: (cs ++ '-' :: (ds ++ '-' :: es)))) =
      ofDigits? (as ++ bs ++ cs ++ ds ++ es) := by
  have hdash (l : List Char) : ('-' :: l)[0]? = some '-' := rfl
  generalize hall : as ++ '-' :: (bs ++ '-' :: (cs ++ '-' :: (ds ++ '-' :: es))) = l
  have h₈ : l[8]? = some '-' := by
    simp (disch := omega) [← hall, List.getElem?_append_right, hdash, ha]
  have h₁₃ : l[13]? = some '-' := by
    simp (disch := omega) [← hall, List.getElem?_append_right, hdash, ha, hb]
  have h₁₈ : l[18]? = some '-' := by
    simp (disch := omega) [← hall, List.getElem?_append_right, hdash, ha, hb, hc]
  have h₂₃ : l[23]? = some '-' := by
    simp (disch := omega) [← hall, List.getElem?_append_right, hdash, ha, hb, hc, hd]
  have hlength : l.length = 36 := by simp [← hall, ha, hb, hc, hd, he]
  have hdigits : l.take 8 ++ (l.drop 9).take 4 ++ (l.drop 14).take 4 ++ (l.drop 19).take 4 ++
      l.drop 24 = as ++ bs ++ cs ++ ds ++ es := by
    simp (disch := omega) [← hall, List.drop_append, List.drop_eq_nil_of_le, ha, hb, hc, hd]
  rw [ofGroups?, hlength, h₈, h₁₃, h₁₈, h₂₃, hdigits]
  rfl

theorem parse?_text (i : RecordId) : parse? i.text = some i := by
  have hread := digits?_hexDigit i.digits
  have hlength : (i.digits.map fun d => hexDigit d.val).length = 32 := by
    rw [List.length_map, i.length_eq]
  have hgroups : ofGroups? i.text.toList = some i := by
    simp only [text, String.toList_ofList]
    generalize (i.digits.map fun d => hexDigit d.val) = cs at hread hlength
    have hcut (m n : Nat) : (cs.drop m).take n ++ cs.drop (m + n) = cs.drop m := by
      rw [← List.drop_drop, List.take_append_drop]
    have hall : cs.take 8 ++ (cs.drop 8).take 4 ++ (cs.drop 12).take 4 ++ (cs.drop 16).take 4 ++
        cs.drop 20 = cs := by
      simp only [List.append_assoc, hcut, List.take_append_drop]
    rw [ofGroups?_append (by simp [hlength]) (by simp [hlength]) (by simp [hlength])
      (by simp [hlength]) (by simp [hlength]), hall]
    simp [ofDigits?, hread, i.length_eq]
  have hchars : i.text.toList.length = 36 := by simp [text, hlength]
  rw [parse?, hchars]
  exact hgroups

end RecordId

lemma Severity.word?_name (s : Severity) : Json.word? all name (.string s.name) = some s :=
  Json.word?_string (by cases s <;> decide) (by cases s <;> decide)

lemma EventType.word?_name (e : EventType) : Json.word? all name (.string e.name) = some e :=
  Json.word?_string e.mem_all (by cases e <;> decide)

lemma FailureKind.word?_name (k : FailureKind) : Json.word? all name (.string k.name) = some k :=
  Json.word?_string k.mem_all (by cases k <;> decide)

lemma Risk.word?_name (r : Risk) : Json.word? all name (.string r.name) = some r :=
  Json.word?_string r.mem_all (by cases r <;> decide)

namespace AuditRecord

lemma details?_object (t : Table String) :
    details? (.object (t.entries.map fun e => (e.1, .string e.2))) = some t := by
  have hread : (t.entries.map fun e => (e.1, Json.string e.2)).mapM
      (fun f => f.2.string?.map (f.1, ·)) = some t.entries :=
    mapM_map_eq_some fun _ _ => rfl
  simp only [details?, hread, Option.bind_eq_bind, Option.bind_some, Table.ofList_entries]
  rfl

lemma defaulted_details (t : Table String) :
    Json.defaulted .empty details? (if t.isEmpty then none
      else some (.object (t.entries.map fun e => (e.1, .string e.2)))) = some t := by
  cases h : t.isEmpty with
  | true =>
    have hentries : t.entries = [] := List.isEmpty_iff.1 h
    exact congrArg some (Table.ext hentries.symm)
  | false => exact details?_object t

lemma optionalField_kind (kind : Option FailureKind) :
    Json.optionalField (Json.word? FailureKind.all FailureKind.name)
      (kind.map fun k => .string k.name) = some kind := by
  cases kind with
  | none => rfl
  | some k =>
    show (Json.word? FailureKind.all FailureKind.name (.string k.name)).map some = some (some k)
    rw [FailureKind.word?_name]
    rfl

lemma ofJson?_toJson {r : AuditRecord} (h : r.time.InCalendar) :
    ofJson? r.toJson = some { r with time := r.time.settled } := by
  have hnodup : (fields.map (·.name)).Nodup := by decide
  unfold ofJson? toJson
  rw [Json.recordValues?_compactObject hnodup rfl]
  simp only [List.map_cons, List.map_nil, Option.bind_eq_bind, Option.bind_some, Json.required,
    Json.string?, Json.bool?, RecordId.parse?_text, Certificate.instant?, Instant.parse?_text h,
    Severity.word?_name, EventType.word?_name, Risk.word?_name, optionalField_kind,
    Json.optionalField_string, defaulted_details, Option.pure_def]

lemma notMem_line {c : Char} (h : c.toNat < 32) (r : AuditRecord) : c ∉ r.line.toList :=
  Json.not_mem_render h r.toJson

lemma isLine_utf8 (r : AuditRecord) : 10 ∉ utf8 r.line ∧ (utf8 r.line).getLast? ≠ some 13 := by
  have hreturn := notMem_utf8 (c := '\r') (by decide) (r.notMem_line (by decide))
  exact ⟨notMem_utf8 (c := '\n') (by decide) (r.notMem_line (by decide)),
    fun hlast => hreturn (List.mem_of_getLast? hlast)⟩

lemma parse?_line {r : AuditRecord} (h : r.time.InCalendar) :
    parse? r.line = some { r with time := r.time.settled } := by
  simp only [parse?, line, Json.parse?_render, Option.bind_eq_bind, Option.bind_some,
    ofJson?_toJson h]

lemma line_settled (r : AuditRecord) : { r with time := r.time.settled }.line = r.line := by
  simp only [line, toJson, Instant.text_settled]

lemma parse?_line_self {r : AuditRecord} (h : r.time.InCalendar)
    (hleap : r.time.isLeap = true → r.time.second % 60 = 59) : parse? r.line = some r := by
  rw [parse?_line h, Instant.settled_eq_self hleap]

lemma isPlainValue_toJson (r : AuditRecord) : r.toJson.isPlainValue = true := by
  have hdetails : ∀ j, (if r.details.isEmpty then none else some (Json.object
      (r.details.entries.map fun e => (e.1, .string e.2)))) = some j →
        j.isReadable = true ∧ j.depth ≤ 1 := by
    intro j hj
    split at hj
    · cases hj
    · obtain rfl := Option.some.inj hj
      have hstrings : ∀ f ∈ r.details.entries.map fun e => (e.1, some (Json.string e.2)),
          ∀ j, f.2 = some j → j.isReadable = true ∧ j.depth ≤ 0 := by
        intro f hf j hj
        obtain ⟨e, -, rfl⟩ := List.mem_map.1 hf
        obtain rfl := Option.some.inj hj
        exact ⟨rfl, Nat.le_refl 0⟩
      have htexts := Json.compact_readable hstrings
      simpa [List.filterMap_map, Function.comp_def, Json.isReadable, Json.depth] using htexts
  unfold toJson
  apply Json.isPlainValue_compactObject
  simp only [List.forall_mem_cons, Option.some.injEq, forall_eq', Option.map_eq_some_iff]
  refine ⟨⟨rfl, Nat.zero_le 1⟩, ⟨rfl, Nat.zero_le 1⟩, ⟨rfl, Nat.zero_le 1⟩, ⟨rfl, Nat.zero_le 1⟩,
    ⟨rfl, Nat.zero_le 1⟩, ?_, ?_, ?_, ⟨rfl, Nat.zero_le 1⟩, ⟨rfl, Nat.zero_le 1⟩, ?_, hdetails,
    by simp⟩
  all_goals
    rintro j ⟨_, -, rfl⟩
    exact ⟨rfl, Nat.zero_le 1⟩

lemma time_of_ofJson? {j : Json} {r : AuditRecord} (h : ofJson? j = some r) :
    r.time.InCalendar ∧ (r.time.isLeap = true → r.time.second % 60 = 59) := by
  unfold ofJson? at h
  obtain ⟨values, -, h⟩ := Option.bind_eq_some_iff.1 h
  split at h
  case h_1 =>
    simp only [Option.bind_eq_bind, Option.bind_eq_some_iff, Option.pure_def, Option.some.injEq] at h
    obtain ⟨id, -, time, htime, severity, -, event, -, host, -, kind, -, strategy, -, attempt, -,
      risk, -, allowed, -, actor, -, details, -, rfl⟩ := h
    obtain ⟨j, -, hread⟩ := Json.exists_of_required htime
    obtain ⟨text, -, hparse⟩ := Option.bind_eq_some_iff.1 hread
    exact Instant.of_parse?_eq_some hparse
  case h_2 => cases h

end AuditRecord

namespace Certificate

variable {c : Certificate}

lemma defaulted_strings (names : List String) :
    Json.defaulted [] Json.strings? (if names.isEmpty then none
      else some (.array (names.map .string))) = some names := by
  cases names with
  | nil => rfl
  | cons name names => exact Json.strings?_string (name :: names)

lemma defaulted_addresses (ips : List IpAddress) :
    Json.defaulted [] (fun j => j.array?.bind (·.mapM ipAddress?)) (if ips.isEmpty then none
      else some (.array (ips.map fun ip => .string ip.text))) = some ips := by
  cases ips with
  | nil => rfl
  | cons ip ips => exact mapM_map_eq_some fun ip _ => IpAddress.parse?_text ip

lemma ofJson?_toJson (hbefore : c.notBefore.InCalendar) (hafter : c.notAfter.InCalendar) :
    ofJson? c.toJson =
      some { c with notBefore := c.notBefore.settled, notAfter := c.notAfter.settled } := by
  have hnodup : (fields.map (·.name)).Nodup := by decide
  unfold ofJson? toJson
  rw [Json.recordValues?_compactObject hnodup rfl]
  simp only [List.map_cons, List.map_nil, Option.bind_eq_bind, Option.bind_some, Json.required,
    Json.string?, Json.bool?, instantJson, instant?, Instant.parse?_text hbefore,
    Instant.parse?_text hafter, Json.optionalField_string, defaulted_strings, defaulted_addresses,
    Option.pure_def]

end Certificate

/-- A record is one line. Records and certificates read back as they are, but that a leap second off
the minute becomes the second after it; a record that was read is written as a line that reads the
same. -/
theorem records_and_certificates_read_back :
    (∀ r : AuditRecord, '\n' ∉ r.line.toList ∧ '\r' ∉ r.line.toList) ∧
    (∀ r : AuditRecord, r.time.InCalendar →
      AuditRecord.parse? r.line = some { r with time := r.time.settled }) ∧
    (∀ c : Certificate, c.notBefore.InCalendar → c.notAfter.InCalendar →
      (Json.parse? c.toJson.render).bind Certificate.ofJson? =
        some { c with notBefore := c.notBefore.settled, notAfter := c.notAfter.settled }) ∧
    (∀ t : Instant, t.settled = t ↔ (t.isLeap = true → t.second % 60 = 59)) ∧
    ∀ line r, AuditRecord.parse? line = some r → AuditRecord.parse? r.line = some r := by
  refine ⟨fun r => ⟨r.notMem_line (by decide), r.notMem_line (by decide)⟩,
    fun r h => AuditRecord.parse?_line h, fun c hbefore hafter => ?_,
    fun t => Instant.settled_eq_self_iff, fun line r h => ?_⟩
  · rw [Json.parse?_render, Option.bind_some, Certificate.ofJson?_toJson hbefore hafter]
  · obtain ⟨j, -, h⟩ := Option.bind_eq_some_iff.1 h
    obtain ⟨hcalendar, hleap⟩ := AuditRecord.time_of_ofJson? h
    exact AuditRecord.parse?_line_self hcalendar hleap

theorem unusual_times_read_back :
    (∃ r : AuditRecord, r.time.isLeap = true ∧ r.time.InCalendar ∧
      AuditRecord.parse? r.line = some r ∧
      ∃ line, AuditRecord.parse? line = some r ∧ AuditRecord.parse? r.line = some r) ∧
    ∃ c : Certificate, (c.notBefore.InCalendar ∧ c.notBefore.date.year = -1) ∧
      (c.notAfter.InCalendar ∧ c.notAfter.date.year = 10000) ∧
      (Json.parse? c.toJson.render).bind Certificate.ofJson? = some c := by
  obtain ⟨-, hrecords, hcertificates, hsettled, hlines⟩ := records_and_certificates_read_back
  have hr := hrecords (.new ⟨default, ⟨1483228799, 1500000000, by decide⟩⟩ .riskAccepted "h\n")
    (by decide)
  rw [(hsettled _).2 (by decide)] at hr
  refine ⟨⟨_, by decide, by decide, hr, _, hr, hlines _ _ hr⟩, ?_⟩
  refine ⟨{ subject := "a", issuer := "b", ipAddresses := [.v4 127 0 0 1]
            notBefore := .atSecond (-62198755200), notAfter := .atSecond 253402300800 },
    by decide, by decide, ?_⟩
  have hc := hcertificates { subject := "a", issuer := "b", ipAddresses := [.v4 127 0 0 1]
                             notBefore := .atSecond (-62198755200)
                             notAfter := .atSecond 253402300800 } (by decide) (by decide)
  rwa [(hsettled _).2 (by decide), (hsettled _).2 (by decide)] at hc

/-- The leap second after the tenth second of a minute reads back as the eleventh. -/
theorem leap_second_off_minute_reads_back_as_next :
    let r : AuditRecord := .new ⟨default, ⟨10, 1500000000, by decide⟩⟩ .riskAccepted "h"
    r.time.InCalendar ∧
      AuditRecord.parse? r.line = some { r with time := ⟨11, 500000000, by decide⟩ } ∧
      AuditRecord.parse? r.line ≠ some r := by
  intro r
  have hcalendar : r.time.InCalendar := by decide
  have hread := AuditRecord.parse?_line hcalendar
  have htime : r.time.settled = ⟨11, 500000000, by decide⟩ := by decide
  rw [htime] at hread
  refine ⟨hcalendar, hread, fun hself => ?_⟩
  have hsame := congrArg AuditRecord.time (Option.some.inj (hread.symm.trans hself))
  exact absurd hsame (by decide)

end TlsTrust
