import TlsTrust.Proofs.Consent.Confirmation
import TlsTrust.Proofs.Time.Reading
import Mathlib.Data.List.Induction

/-!
Runs of calls on a manager of consents, under a clock that moves at will, between the calls and
while a line is read.
-/

namespace TlsTrust

namespace ConsentManager

open Trail

inductive Call where
  | confirm (host : String)
  | revoke (host : String)
  | consent (host : String)
  | isInsecure (host : String)
  | insecureHosts
  | statusReport
  | clock (now : Instant)
  | answer (o : ReadOutcome)

structure Session where
  manager : ConsentManager
  desk : Desk

namespace Session

variable {s : Session} {key : String} {c : Consent}

def perform (s : Session) : Call → Session
  | .confirm host => ⟨(s.manager.confirm s.desk host).2.1, (s.manager.confirm s.desk host).2.2⟩
  | .revoke host => ⟨(s.manager.revoke s.desk host).2.1, (s.manager.revoke s.desk host).2.2⟩
  | .consent host => { s with manager := (s.manager.consent s.desk.now host).2 }
  | .isInsecure host => { s with manager := (s.manager.isInsecure s.desk.now host).2 }
  | .insecureHosts => { s with manager := (s.manager.insecureHosts s.desk.now).2 }
  | .statusReport => { s with manager := (s.manager.statusReport s.desk.now).2 }
  | .clock now => { s with desk := { s.desk with now } }
  | .answer o => { s with desk := { s.desk with input := s.desk.input ++ [o] } }

def run (s : Session) (calls : List Call) : Session :=
  calls.foldl perform s

lemma perform_confirm_manager (s : Session) (host : String) :
    (s.perform (.confirm host)).manager = (s.manager.confirm s.desk host).2.1 := by
  simp only [perform]

lemma perform_confirm_desk (s : Session) (host : String) :
    (s.perform (.confirm host)).desk = (s.manager.confirm s.desk host).2.2 := by
  simp only [perform]

lemma perform_insecureHosts (s : Session) :
    s.perform .insecureHosts = { s with manager := s.manager.pruned s.desk.now } := rfl

lemma perform_statusReport (s : Session) :
    s.perform .statusReport = { s with manager := s.manager.pruned s.desk.now } := rfl

@[simp] lemma run_nil (s : Session) : s.run [] = s := rfl

@[simp] lemma run_append (s : Session) (xs ys : List Call) : s.run (xs ++ ys) = (s.run xs).run ys := by
  simp [run]

@[simp] lemma run_singleton (s : Session) (x : Call) : s.run [x] = s.perform x := rfl

lemma run_cons (s : Session) (x : Call) (calls : List Call) :
    s.run (x :: calls) = (s.perform x).run calls := rfl

def times (s : Session) : List Call → List Instant
  | [] => []
  | x :: calls => (s.perform x).desk.now :: (s.perform x).times calls

lemma times_append (s : Session) (xs ys : List Call) :
    s.times (xs ++ ys) = s.times xs ++ (s.run xs).times ys := by
  induction xs generalizing s with
  | nil => rfl
  | cons x xs ih => rw [List.cons_append, times, ih, times, run_cons, List.cons_append]

lemma run_now_mem (s : Session) (calls : List Call) :
    (s.run calls).desk.now ∈ s.desk.now :: s.times calls := by
  induction calls generalizing s with
  | nil => exact .head _
  | cons x calls ih => exact .tail _ (ih (s.perform x))

lemma perform_settings (s : Session) (x : Call) : s.manager.SameSettings (s.perform x).manager := by
  cases x with
  | confirm host =>
    rw [perform_confirm_manager]
    exact s.manager.confirm_settings _ _
  | revoke host =>
    simp only [perform, revoke]
    split <;> exact ⟨rfl, rfl⟩
  | consent host => exact s.manager.remembered_settings _ _
  | isInsecure host =>
    simp only [perform, isInsecure]
    split
    · exact .refl _
    · exact s.manager.remembered_settings _ _
  | insecureHosts => rw [perform_insecureHosts]; exact ⟨rfl, rfl⟩
  | statusReport => rw [perform_statusReport]; exact ⟨rfl, rfl⟩
  | clock now => exact .refl _
  | answer o => exact .refl _

lemma run_settings (s : Session) (calls : List Call) :
    s.manager.SameSettings (s.run calls).manager := by
  induction calls using List.reverseRecOn with
  | nil => exact .refl _
  | append_singleton calls x ih => simpa using ih.trans ((s.run calls).perform_settings x)

lemma get?_perform {x : Call} (h : (s.perform x).manager.consents.get? key = some c) :
    (s.manager.consents.get? key = some c ∧ ∀ host, x = .revoke host → Host.key host ≠ key) ∨
      ∃ host, x = .confirm host ∧ Host.key host = key ∧ c.time = (s.perform x).desk.now ∧
        (s.manager.remembered s.desk.now key).1 = none ∧
        c.confirmed = (s.manager.confirm s.desk host).1 := by
  cases x with
  | confirm host =>
    rw [perform_confirm_manager] at h
    rcases get?_confirm h with h | ⟨hk, ht, hr, ha⟩
    · exact .inl ⟨h, by simp⟩
    · exact .inr ⟨host, rfl, hk, ht.trans (congrArg Desk.now (s.perform_confirm_desk host)).symm, hr, ha⟩
  | revoke host =>
    left
    simp only [perform, revoke] at h
    split at h
    · obtain ⟨h, hne⟩ := Table.get?_erase.1 h
      refine ⟨h, ?_⟩
      rintro _ ⟨⟩
      exact Ne.symm hne
    case isFalse hno =>
      refine ⟨h, ?_⟩
      rintro _ ⟨⟩ rfl
      simp [Table.contains_eq_isSome_get?, h] at hno
  | consent host => exact .inl ⟨get?_remembered h, by simp⟩
  | isInsecure host =>
    left
    simp only [perform, isInsecure] at h
    split at h
    · exact ⟨h, by simp⟩
    · exact ⟨get?_remembered h, by simp⟩
  | insecureHosts =>
    rw [perform_insecureHosts] at h
    exact .inl ⟨(Table.get?_filter.1 h).1, by simp⟩
  | statusReport =>
    rw [perform_statusReport] at h
    exact .inl ⟨(Table.get?_filter.1 h).1, by simp⟩
  | clock now => exact .inl ⟨h, by simp⟩
  | answer o => exact .inl ⟨h, by simp⟩

lemma exists_confirm (hempty : s.manager.consents = .empty) (calls : List Call) :
    ∀ c, (s.run calls).manager.consents.get? key = some c →
      ∃ pre host post, calls = pre ++ .confirm host :: post ∧ Host.key host = key ∧
        c.time = (s.run (pre ++ [.confirm host])).desk.now ∧
        ((s.run pre).manager.remembered (s.run pre).desk.now key).1 = none ∧
        c.confirmed = ((s.run pre).manager.confirm (s.run pre).desk host).1 ∧
        ∀ h, .revoke h ∈ post → Host.key h ≠ key := by
  induction calls using List.reverseRecOn with
  | nil =>
    intro c h
    rw [run_nil, hempty, Table.get?_empty] at h
    cases h
  | append_singleton calls x ih =>
    intro c h
    rw [run_append, run_singleton] at h
    rcases get?_perform h with ⟨h, hx⟩ | ⟨host, rfl, hkey, htime, hnone, hanswer⟩
    · obtain ⟨pre, host, post, rfl, hkey, htime, hnone, hanswer, hpost⟩ := ih c h
      refine ⟨pre, host, post ++ [x], by simp, hkey, htime, hnone, hanswer, fun h' hmem => ?_⟩
      rcases List.mem_append.1 hmem with hmem | hmem
      · exact hpost h' hmem
      · exact hx h' (List.mem_singleton.1 hmem).symm
    · rw [← run_singleton, ← run_append] at htime
      exact ⟨calls, host, [], rfl, hkey, htime, hnone, hanswer, by simp⟩

lemma time_mem_times (hempty : s.manager.consents = .empty) (calls : List Call)
    (h : (s.run calls).manager.consents.get? key = some c) : c.time ∈ s.desk.now :: s.times calls := by
  obtain ⟨pre, host, post, rfl, -, htime, -⟩ := exists_confirm hempty calls c h
  rw [List.append_cons, times_append, ← List.cons_append, htime]
  exact List.mem_append_left _ (s.run_now_mem _)

/-- Where the clock always shows a time from which a lifetime stays in the calendar, every consent kept
ends in the calendar. -/
theorem expiry_inCalendar (hempty : s.manager.consents = .empty) (calls : List Call)
    (hrange : ∀ t ∈ s.desk.now :: s.times calls, (s.manager.expiry t).InCalendar)
    (h : (s.run calls).manager.consents.get? key = some c) :
    ((s.run calls).manager.expiry c.time).InCalendar := by
  have hlifetime := congrArg ConsentConfig.lifetime (s.run_settings calls).config
  rw [expiry, hlifetime]
  exact hrange c.time (time_mem_times hempty calls h)

/-- In a run from `s`, an operator typed a consent for a key at a time, which is that of the clock
when the line was read, and no call revoked it since. -/
def TypedAt (s : Session) (calls : List Call) (key : String) (time : Instant) : Prop :=
  ∃ pre host post, calls = pre ++ .confirm host :: post ∧ Host.key host = key ∧
    (s.run pre).manager.ReadsYes (s.run pre).desk host ∧
    (s.run (pre ++ [.confirm host])).desk.now = time ∧ ∀ h, .revoke h ∈ post → Host.key h ≠ key

lemma consents_typed (hempty : s.manager.consents = .empty)
    (hreq : s.manager.config.requireConfirmation = true)
    (hover : s.manager.overrides.allows key = false) (calls : List Call) :
    ∀ c, (s.run calls).manager.consents.get? key = some c → c.confirmed = true →
      s.TypedAt calls key c.time := by
  intro c h hconf
  obtain ⟨pre, host, post, rfl, rfl, htime, hnone, hanswer, hpost⟩ := exists_confirm hempty calls c h
  have hset := s.run_settings pre
  refine ⟨pre, host, post, rfl, rfl, ?_, htime.symm, hpost⟩
  rcases confirm_eq_true (hset.config ▸ hreq) (hset.overrides ▸ hover) (hanswer.symm.trans hconf) with
    ⟨c', hc', _⟩ | hyes
  · rw [hnone] at hc'
    cases hc'
  · exact hyes

/-- Where consent has to be asked for and no variable covers a host, verification is turned off for
it only on a line typed in this call, or in an earlier one that is younger than the lifetime and has
not been revoked; each call for a host hands one record of its answer to the logger. -/
theorem confirm_rests_on_typed_consent (m : ConsentManager) (d : Desk)
    (hempty : m.consents = .empty) (hreq : m.config.requireConfirmation = true)
    (calls : List Call) (host : String) :
    let s := (Session.mk m d).run calls
    let answer := (s.manager.confirm s.desk host).1
    (m.overrides.allows (Host.key host) = false → answer = true →
      s.manager.ReadsYes s.desk host ∨
        ∃ time, (Session.mk m d).TypedAt calls (Host.key host) time ∧
          s.desk.now.since time < m.config.lifetime) ∧
    (Host.key host ≠ "" → ∃ es, s.desk.Extends (s.perform (.confirm host)).desk es ∧
      ∃ r, recordsOf .insecureModeUsed es = [r] ∧ r.host = Host.key host ∧ r.allowed = answer) := by
  intro s answer
  have hset := (Session.mk m d).run_settings calls
  constructor
  · intro hover hyes
    rcases confirm_eq_true (hset.config ▸ hreq) (hset.overrides ▸ hover) hyes with ⟨c, hc, hconf⟩ | hy
    · right
      obtain ⟨hget, hlive⟩ := remembered_eq_some hc
      refine ⟨c.time, consents_typed hempty hreq hover calls c hget hconf, ?_⟩
      rw [hset.config] at hlive
      simpa [Consent.isExpiredAt] using hlive
    · exact .inl hy
  · intro hkey
    obtain ⟨es, he, hu⟩ := s.manager.confirm_trail s.desk hkey
    rw [perform_confirm_desk]
    exact ⟨es, he, hu.use⟩

theorem typed_consent_is_reused :
    let m : ConsentManager := { config := {}, overrides := {} }
    let d := Desk.bare [.line " Yes"]
    let calls : List Call := [.confirm "Dev.Local", .clock { second := 1800 }]
    let s := (Session.mk m d).run calls
    (m.consents = .empty ∧ m.config.requireConfirmation = true) ∧
      (m.overrides.allows (Host.key "dev.local.") = false ∧
        (s.manager.confirm s.desk "dev.local.").1 = true) ∧
      (s.manager.ReadsYes s.desk "dev.local." ∨
        ∃ time, (Session.mk m d).TypedAt calls (Host.key "dev.local.") time ∧
          s.desk.now.since time < m.config.lifetime) := by
  refine ⟨⟨rfl, rfl⟩, ⟨by decide, by decide +kernel⟩, ?_⟩
  exact (confirm_rests_on_typed_consent _ _ rfl rfl _ "dev.local.").1 (by decide) (by decide +kernel)

end Session

end ConsentManager

end TlsTrust
