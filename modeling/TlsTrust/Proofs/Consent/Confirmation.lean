import TlsTrust.Consent.Manager
import TlsTrust.Proofs.Desk.Trail

/-! What one request to turn verification off leaves behind. -/

namespace TlsTrust

namespace ConsentManager

open Trail

variable {m : ConsentManager} {d : Desk} {key host : String} {now : Instant} {c : Consent}

/-- The operator types a consent when asked by a call of `confirm`. -/
def ReadsYes (m : ConsentManager) (d : Desk) (host : String) : Prop :=
  ∃ es line, d.Extends (m.confirm d host).2.2 es ∧ .read (.line line) ∈ es ∧
    Text.sameLetters (Text.trim line) "yes" = true

structure SameSettings (m m' : ConsentManager) : Prop where
  config : m'.config = m.config
  overrides : m'.overrides = m.overrides

lemma SameSettings.refl (m : ConsentManager) : m.SameSettings m := ⟨rfl, rfl⟩

lemma SameSettings.trans {m₁ m₂ : ConsentManager} (h : m.SameSettings m₁)
    (k : m₁.SameSettings m₂) : m.SameSettings m₂ :=
  ⟨k.config.trans h.config, k.overrides.trans h.overrides⟩

lemma store_settings (m : ConsentManager) (now : Instant) (c : Consent) :
    m.SameSettings (m.store now c) := by
  unfold store
  split <;> exact ⟨rfl, rfl⟩

lemma remembered_settings (m : ConsentManager) (now : Instant) (key : String) :
    m.SameSettings (m.remembered now key).2 := by
  unfold remembered
  repeat' split
  all_goals exact ⟨rfl, rfl⟩

lemma refuse_settings (m : ConsentManager) (d : Desk) (key reason : String) (remember : Bool) :
    m.SameSettings (m.refuse d key reason remember).1 := by
  cases remember with
  | true => exact m.store_settings _ _
  | false => exact .refl m

lemma act_settings (m : ConsentManager) (d : Desk) (key : String) (o : ReadOutcome) :
    m.SameSettings (m.act d key o).2.1 := by
  unfold act
  split
  · split
    · exact m.store_settings _ _
    · exact m.refuse_settings _ _ _ _
  all_goals exact m.refuse_settings _ _ _ _

lemma decideAnew_settings (m : ConsentManager) (d : Desk) (key : String) :
    m.SameSettings (m.decideAnew d key).2.1 := by
  unfold decideAnew
  split
  · exact m.store_settings _ _
  · split
    · exact m.act_settings _ _ _
    · exact m.store_settings _ _

lemma confirm_settings (m : ConsentManager) (d : Desk) (host : String) :
    m.SameSettings (m.confirm d host).2.1 := by
  have hr := m.remembered_settings d.now (Host.key host)
  unfold confirm
  dsimp only
  split
  · exact .refl m
  · split
    case h_1 heq => exact (heq ▸ hr :)
    case h_2 m' heq => exact SameSettings.trans (heq ▸ hr :) (m'.decideAnew_settings _ _)

lemma get?_store {k : String} {c' : Consent} (h : (m.store now c).consents.get? k = some c') :
    (k = c.host ∧ c' = c) ∨ m.consents.get? k = some c' := by
  unfold store at h
  split at h
  · by_cases hk : k = c.host
    · subst hk
      rw [Table.get?_insert_self] at h
      exact .inl ⟨rfl, (Option.some.inj h).symm⟩
    · rw [Table.get?_insert_of_ne _ hk] at h
      exact .inr (Table.get?_filter.1 h).1
  · exact .inr h

lemma get?_remembered {k : String} (h : (m.remembered now key).2.consents.get? k = some c) :
    m.consents.get? k = some c := by
  unfold remembered at h
  repeat' split at h
  case h_1.isTrue => exact (Table.get?_erase.1 h).1
  all_goals exact h

lemma remembered_eq_some (h : (m.remembered now key).1 = some c) :
    m.consents.get? key = some c ∧ c.isExpiredAt now m.config.lifetime = false := by
  unfold remembered at h
  split at h
  · split at h
    case h_1 c' hc =>
      split at h
      · cases h
      case isFalse hexp =>
        obtain rfl := Option.some.inj h
        exact ⟨hc, by simpa using hexp⟩
    · cases h
  · cases h

lemma ask_reads (m : ConsentManager) (d : Desk) (key : String) :
    ∃ o d', m.ask d key = m.act d' key o ∧
      ∃ es, d.Extends d' es ∧ visible es = [] ∧ .read o ∈ es := by
  unfold ask
  dsimp only
  obtain ⟨shown, hshown, hvis⟩ : ∃ shown, d.Extends (if m.config.showWarnings then d.write
      (SecurityWarning.render (SecurityWarning.forHost key)) else d) shown ∧ visible shown = [] := by
    split
    · exact ⟨_, d.write_extends _, rfl⟩
    · exact ⟨_, .refl d, rfl⟩
  generalize (if m.config.showWarnings then d.write
    (SecurityWarning.render (SecurityWarning.forHost key)) else d) = d₁ at hshown ⊢
  have hwrite := d₁.write_extends (question key m.config.confirmationTimeout)
  have hread := (d₁.write (question key m.config.confirmationTimeout)).readLine_extends
  exact ⟨_, _, rfl, _, hshown.trans (hwrite.trans hread), by simp [hvis], by simp⟩

lemma act_now (m : ConsentManager) (d : Desk) (key : String) (o : ReadOutcome) :
    (m.act d key o).2.2.now = d.now := by
  cases o with
  | line text =>
    unfold act
    dsimp only
    split <;> rfl
  | timedOut => rfl
  | closed => rfl
  | failed reason => rfl

lemma ask_now (m : ConsentManager) (d : Desk) (key : String) :
    (m.ask d key).2.2.now = d.arrivals.headD d.now := by
  unfold ask
  dsimp only
  rw [act_now]
  split <;> rfl

lemma get?_act {k : String} {o : ReadOutcome}
    (h : (m.act d key o).2.1.consents.get? k = some c) :
    m.consents.get? k = some c ∨
      key = k ∧ c.time = (m.act d key o).2.2.now ∧ c.confirmed = (m.act d key o).1 := by
  rw [act_now]
  unfold act at h ⊢
  cases o with
  | line text =>
    dsimp only at h ⊢
    split at h
    · rcases get?_store h with ⟨rfl, rfl⟩ | h
      · exact .inr ⟨rfl, rfl, by simp [*]⟩
      · exact .inl h
    · rcases get?_store h with ⟨rfl, rfl⟩ | h
      · exact .inr ⟨rfl, rfl, by simp [*]⟩
      · exact .inl h
  | timedOut => exact .inl h
  | closed => exact .inl h
  | failed reason => exact .inl h

lemma get?_decideAnew {k : String} (h : (m.decideAnew d key).2.1.consents.get? k = some c) :
    m.consents.get? k = some c ∨ key = k ∧ c.time = (m.decideAnew d key).2.2.now ∧
      c.confirmed = (m.decideAnew d key).1 := by
  unfold decideAnew at h ⊢
  split at h
  · rcases get?_store h with ⟨rfl, rfl⟩ | h
    · exact .inr ⟨rfl, rfl, rfl⟩
    · exact .inl h
  · split at h
    case isTrue hreq =>
      obtain ⟨o, d', hask, -⟩ := m.ask_reads d key
      rw [hask] at h
      simpa [hreq, hask] using get?_act h
    case isFalse hreq =>
      rcases get?_store h with ⟨rfl, rfl⟩ | h
      · exact .inr ⟨rfl, by rw [if_neg hreq]; rfl, by simp [hreq]⟩
      · exact .inl h

lemma get?_confirm {k : String} (h : (m.confirm d host).2.1.consents.get? k = some c) :
    m.consents.get? k = some c ∨ Host.key host = k ∧ c.time = (m.confirm d host).2.2.now ∧
      (m.remembered d.now k).1 = none ∧ c.confirmed = (m.confirm d host).1 := by
  have hold := @get?_remembered m (Host.key host) d.now c k
  unfold confirm at h ⊢
  dsimp only at h ⊢
  split at h
  · exact .inl h
  case isFalse hkey =>
    simp only [hkey, Bool.false_eq_true, ↓reduceIte]
    rcases hr : m.remembered d.now (Host.key host) with ⟨_ | c', m'⟩
    · rw [hr] at hold
      simp only [hr] at h ⊢
      rcases get?_decideAnew h with h | ⟨rfl, ht, ha⟩
      · exact .inl (hold h)
      · exact .inr ⟨rfl, ht, by rw [hr], ha⟩
    · rw [hr] at hold
      simp only [hr] at h
      exact .inl (hold h)

lemma grant_trail (m : ConsentManager) (d : Desk) (key : String) (source : ConsentSource)
    (reason : String) (sessionScoped : Bool) :
    ∃ es, d.Extends (m.grant d key source reason sessionScoped).2 es ∧ Consented key true (visible es) := by
  refine ⟨_, ((d.audit_extends _).trans (Desk.audit_extends _ _)).trans (Desk.write_extends _ _), ?_⟩
  exact ⟨_, [_], rfl, rfl, rfl, rfl, Nat.le_refl _, List.forall_mem_singleton.2 ⟨rfl, rfl⟩⟩

lemma refuse_trail (m : ConsentManager) (d : Desk) (key reason : String) (remember : Bool) :
    ∃ es, d.Extends (m.refuse d key reason remember).2 es ∧ Consented key false (visible es) := by
  refine ⟨_, (d.audit_extends _).trans (Desk.audit_extends _ _), ?_⟩
  exact ⟨_, [_], rfl, rfl, rfl, rfl, Nat.le_refl _, List.forall_mem_singleton.2 ⟨rfl, rfl⟩⟩

lemma act_trail (m : ConsentManager) (d : Desk) (key : String) (o : ReadOutcome) :
    ∃ es, d.Extends (m.act d key o).2.2 es ∧ Consented key (m.act d key o).1 (visible es) := by
  unfold act
  cases o with
  | line text =>
    dsimp only
    split
    · exact m.grant_trail _ _ _ _ _
    · exact m.refuse_trail _ _ _ _
  | timedOut =>
    obtain ⟨es, he, hu⟩ := m.refuse_trail (d.write _) key "confirmation timed out" false
    exact ⟨_, (d.write_extends _).trans he, hu⟩
  | closed => exact m.refuse_trail _ _ _ _
  | failed reason => exact m.refuse_trail _ _ _ _

lemma act_eq_true {o : ReadOutcome} (h : (m.act d key o).1 = true) :
    ∃ line, o = .line line ∧ isConsent line = true := by
  cases o with
  | line text =>
    cases hyes : isConsent text with
    | true => exact ⟨text, rfl, hyes⟩
    | false => simp [act, hyes] at h
  | timedOut => cases h
  | closed => cases h
  | failed reason => cases h

lemma ask_trail (m : ConsentManager) (d : Desk) (key : String) :
    ∃ es, d.Extends (m.ask d key).2.2 es ∧ Consented key (m.ask d key).1 (visible es) ∧
      ((m.ask d key).1 = true → ∃ line, .read (.line line) ∈ es ∧ isConsent line = true) := by
  obtain ⟨o, d', hask, es, he, hvis, hread⟩ := m.ask_reads d key
  obtain ⟨fs, hf, hu⟩ := m.act_trail d' key o
  rw [hask]
  refine ⟨es ++ fs, he.trans hf, by simpa [hvis] using hu, ?_⟩
  intro h
  obtain ⟨line, rfl, hyes⟩ := act_eq_true h
  exact ⟨line, List.mem_append_left _ hread, hyes⟩

lemma decideAnew_trail (m : ConsentManager) (d : Desk) (key : String) :
    ∃ es, d.Extends (m.decideAnew d key).2.2 es ∧ Consented key (m.decideAnew d key).1 (visible es) := by
  unfold decideAnew
  split
  · exact m.grant_trail _ _ _ _ _
  · split
    · obtain ⟨es, he, hu, _⟩ := m.ask_trail d key
      exact ⟨es, he, hu⟩
    · exact m.grant_trail _ _ _ _ _

lemma confirm_consented (m : ConsentManager) (d : Desk) (hkey : Host.key host ≠ "") :
    ∃ es, d.Extends (m.confirm d host).2.2 es ∧
      Consented (Host.key host) (m.confirm d host).1 (visible es) := by
  have hne : (Host.key host).isEmpty = false := by simpa using hkey
  unfold confirm
  simp only [hne, Bool.false_eq_true, ↓reduceIte]
  split
  · exact ⟨_, d.audit_extends _, _, [], rfl, rfl, rfl, rfl, Nat.zero_le _, by simp⟩
  case h_2 m' _ => exact m'.decideAnew_trail d _

lemma confirm_trail (m : ConsentManager) (d : Desk) (hkey : Host.key host ≠ "") :
    ∃ es, d.Extends (m.confirm d host).2.2 es ∧
      RecordsUse (Host.key host) (m.confirm d host).1 es := by
  obtain ⟨es, he, hcons⟩ := m.confirm_consented d hkey
  exact ⟨es, he, hcons.recordsUse⟩

lemma confirm_eq_true (hreq : m.config.requireConfirmation = true)
    (hover : m.overrides.allows (Host.key host) = false) (h : (m.confirm d host).1 = true) :
    (∃ c, (m.remembered d.now (Host.key host)).1 = some c ∧ c.confirmed = true) ∨
      m.ReadsYes d host := by
  have hset := m.remembered_settings d.now (Host.key host)
  unfold ReadsYes
  unfold confirm at h ⊢
  dsimp only at h ⊢
  split at h
  · cases h
  case isFalse hkey =>
    simp only [hkey, Bool.false_eq_true, ↓reduceIte]
    rcases hr : m.remembered d.now (Host.key host) with ⟨_ | c, m'⟩
    · right
      rw [hr] at hset
      replace hset : m.SameSettings m' := hset
      have hsource : m'.overrides.sourceFor (Host.key host) = none := by
        simpa [hset.overrides, Overrides.allows] using hover
      have hreq' : m'.config.requireConfirmation = true := by rw [hset.config, hreq]
      have hask : m'.decideAnew d (Host.key host) = m'.ask d (Host.key host) := by
        simp [decideAnew, hsource, hreq']
      simp only [hr, hask] at h ⊢
      obtain ⟨es, he, -, hyes⟩ := m'.ask_trail d (Host.key host)
      obtain ⟨line, hline, hcons⟩ := hyes h
      exact ⟨es, line, he, hline, hcons⟩
    · left
      simp only [hr] at h
      exact ⟨c, rfl, h⟩

end ConsentManager

end TlsTrust
