import TlsTrust.Proofs.Consent.Session
import TlsTrust.Proofs.Table

/-!
A manager that drops old answers at several places gives the results of a plain book that loses none
but by revocation, as long as no answer grows younger.
-/

namespace TlsTrust

namespace ConsentManager

/-- Readings of a clock by which the time since an earlier reading never shrinks. -/
def Steady : List Instant → Prop
  | [] => True
  | r :: rs => (r :: rs).Pairwise (fun t u => t.since r ≤ u.since r) ∧ Steady rs

lemma since_le_since {r t u : Instant} (hr : r.isLeap = false) (ht : t.isLeap = false)
    (hu : u.isLeap = false) (h : t ≤ u) : t.since r ≤ u.since r := by
  have hnano : ∀ {s : Instant}, s.isLeap = false → s.nano < 1000000000 := by
    intro s hs
    simpa [Instant.isLeap] using hs
  have ht' := hnano ht
  have hu' := hnano hu
  have hle : t.second * 2000000000 + t.nano ≤ u.second * 2000000000 + u.nano := h
  have hsince : ∀ {s : Instant}, s.isLeap = false →
      s.since r = (s.second - r.second) * 1000000000 + ((s.nano : Int) - r.nano) := by
    intro s hs
    simp only [Instant.since, hr, hs, Bool.false_eq_true, and_false, if_false, Int.add_zero]
  have hlt : (t.second - r.second) * 1000000000 + ((t.nano : Int) - r.nano) ≤
      (u.second - r.second) * 1000000000 + (u.nano - r.nano) := by omega
  rwa [hsince ht, hsince hu]

lemma steady_of_le {ts : List Instant} (hleap : ∀ t ∈ ts, t.isLeap = false)
    (h : ts.Pairwise (· ≤ ·)) : Steady ts := by
  induction ts with
  | nil => trivial
  | cons r rs ih =>
    refine ⟨?_, ih (fun t ht => hleap t (.tail _ ht)) (List.pairwise_cons.1 h).2⟩
    exact h.imp_of_mem fun ht hu => since_le_since (hleap r (.head _)) (hleap _ ht) (hleap _ hu)

inductive Reply where
  | flag (b : Bool)
  | consent (c : Option Consent)
  | hosts (names : List String)
deriving DecidableEq, Repr

lemma confirm_of_rejected {m : ConsentManager} {d : Desk} {host : String} {c : Consent}
    (h : (m.remembered d.now (Host.key host)).1 = some c) (hno : c.confirmed = false) :
    (m.confirm d host).1 = false ∧ (m.confirm d host).2.2.readings = d.readings := by
  unfold confirm
  dsimp only
  split
  · exact ⟨rfl, rfl⟩
  · rcases hr : m.remembered d.now (Host.key host) with ⟨_ | c', m'⟩
    · rw [hr] at h
      cases h
    · rw [hr] at h
      obtain rfl := Option.some.inj h
      exact ⟨hno, d.readings_audit _⟩

namespace Session

/-- What is observed of a call: nothing of a report, a revocation or a change at the desk. -/
def reply? (s : Session) : Call → Option Reply
  | .confirm host => some (.flag (s.manager.confirm s.desk host).1)
  | .consent host => some (.consent (s.manager.consent s.desk.now host).1)
  | .isInsecure host => some (.flag (s.manager.isInsecure s.desk.now host).1)
  | .insecureHosts => some (.hosts (s.manager.insecureHosts s.desk.now).1)
  | _ => none

def replies (s : Session) : List Call → List (Option Reply)
  | [] => []
  | x :: calls => s.reply? x :: (s.perform x).replies calls

end Session

/-- The last answer for every key, with the desk as far as it matters. -/
structure AnswerBook where
  config : ConsentConfig
  overrides : Overrides
  now : Instant
  input : List ReadOutcome
  arrivals : List Instant
  readings : List ReadOutcome
  answers : Table Consent

namespace AnswerBook

def live? (b : AnswerBook) (key : String) : Option Consent :=
  (b.answers.get? key).filter fun c => b.now.since c.time < b.config.lifetime

def note (b : AnswerBook) (key : String) (confirmed : Bool) (source : ConsentSource)
    (reason : String) (sessionScoped : Bool) : AnswerBook :=
  { b with
    answers := b.answers.insert key ⟨key, confirmed, b.now, reason, source, sessionScoped⟩ }

def read (b : AnswerBook) : ReadOutcome × AnswerBook :=
  (b.input.headD .closed, { b with
    now := b.arrivals.headD b.now
    input := b.input.tail
    arrivals := b.arrivals.tail
    readings := b.readings ++ [b.input.headD .closed] })

def hear (b : AnswerBook) (key : String) : ReadOutcome → Bool × AnswerBook
  | .line text =>
    if isConsent text then (true, b.note key true .interactive "confirmed by operator" true)
    else (false, b.note key false .interactive "rejected by operator" true)
  | .timedOut | .closed | .failed _ => (false, b)

def decideAnew (b : AnswerBook) (key : String) : Bool × AnswerBook :=
  match b.overrides.sourceFor key with
  | some name => (true, b.note key true .environmentOverride s!"{name} is set" false)
  | none =>
    if b.config.requireConfirmation then b.read.2.hear key b.read.1
    else (true, b.note key true .configuration "confirmation not required by configuration" true)

def confirm (b : AnswerBook) (host : String) : Bool × AnswerBook :=
  if (Host.key host).isEmpty then (false, b)
  else
    match b.live? (Host.key host) with
    | some c => (c.confirmed, b)
    | none => b.decideAnew (Host.key host)

def perform (b : AnswerBook) : Call → AnswerBook
  | .confirm host => (b.confirm host).2
  | .revoke host => { b with answers := b.answers.erase (Host.key host) }
  | .clock now => { b with now }
  | .answer o => { b with input := b.input ++ [o] }
  | .consent _ | .isInsecure _ | .insecureHosts | .statusReport => b

def run (b : AnswerBook) (calls : List Call) : AnswerBook :=
  calls.foldl perform b

def reply? (b : AnswerBook) : Call → Option Reply
  | .confirm host => some (.flag (b.confirm host).1)
  | .consent host => some (.consent (b.live? (Host.key host)))
  | .isInsecure host => some (.flag
      (b.overrides.allows (Host.key host) || (b.live? (Host.key host)).any (·.confirmed)))
  | .insecureHosts => some (.hosts ((b.answers.entries.filter fun e =>
      decide (b.now.since e.2.time < b.config.lifetime) && e.2.confirmed).map (·.1)))
  | _ => none

def replies (b : AnswerBook) : List Call → List (Option Reply)
  | [] => []
  | x :: calls => b.reply? x :: (b.perform x).replies calls

def start (m : ConsentManager) (d : Desk) : AnswerBook where
  config := m.config
  overrides := m.overrides
  now := d.now
  input := d.input
  arrivals := d.arrivals
  readings := d.readings
  answers := .empty

end AnswerBook

/-- What is kept of the book's answers are all but some that are past their lifetime, and none of
them grows younger by the readings to come. -/
structure Mirrors (rest : List Instant) (s : Session) (b : AnswerBook) : Prop where
  config : b.config = s.manager.config
  overrides : b.overrides = s.manager.overrides
  remembers : s.manager.config.rememberDecisions = true
  now : b.now = s.desk.now
  input : b.input = s.desk.input
  arrivals : b.arrivals = s.desk.arrivals
  readings : b.readings = s.desk.readings
  kept : ∀ k c, s.manager.consents.get? k = some c → b.answers.get? k = some c
  dropped : ∀ k c, b.answers.get? k = some c → s.manager.consents.get? k = some c ∨
    c.isExpiredAt s.desk.now s.manager.config.lifetime = true
  aging : ∀ k c, b.answers.get? k = some c →
    (s.desk.now :: rest).Pairwise fun t u => t.since c.time ≤ u.since c.time
  steady : Steady (s.desk.now :: rest)

namespace Mirrors

variable {t : Instant} {rest : List Instant} {s : Session} {m : ConsentManager} {d : Desk}
  {b : AnswerBook}

lemma live_iff (h : Mirrors rest s b) (c : Consent) :
    c.isExpiredAt s.desk.now s.manager.config.lifetime = false ↔
      b.now.since c.time < b.config.lifetime := by
  rw [h.now, h.config, Consent.isExpiredAt, decide_eq_false_iff_not, Int.not_le]

lemma live_eq (h : Mirrors rest s b) (key : String) :
    (s.manager.remembered s.desk.now key).1 = b.live? key := by
  unfold remembered AnswerBook.live?
  rw [if_pos h.remembers]
  cases hget : s.manager.consents.get? key with
  | some c =>
    rw [h.kept key c hget]
    cases hc : c.isExpiredAt s.desk.now s.manager.config.lifetime with
    | true =>
      have hno := mt (h.live_iff c).2 (by simp [hc])
      simp [Option.filter_some, hc, hno]
    | false =>
      have hyes := (h.live_iff c).1 hc
      simp [Option.filter_some, hc, hyes]
  | none =>
    cases hanswer : b.answers.get? key with
    | none => rfl
    | some c =>
      have hc := (h.dropped key c hanswer).resolve_left (by simp [hget])
      have hno := mt (h.live_iff c).2 (by simp [hc])
      simp [Option.filter_some, hno]

lemma forget (h : Mirrors rest ⟨m, d⟩ b) {consents : Table Consent}
    (hsub : ∀ k c, consents.get? k = some c → m.consents.get? k = some c)
    (hlost : ∀ k c, m.consents.get? k = some c →
      consents.get? k = some c ∨ c.isExpiredAt d.now m.config.lifetime = true) :
    Mirrors rest ⟨{ m with consents }, d⟩ b := by
  refine { h with kept := fun k c hk => h.kept k c (hsub k c hk), dropped := fun k c hk => ?_ }
  rcases h.dropped k c hk with hk | hexpired
  · exact hlost k c hk
  · exact .inr hexpired

lemma pruned (h : Mirrors rest ⟨m, d⟩ b) : Mirrors rest ⟨m.pruned d.now, d⟩ b := by
  refine h.forget (fun k c hk => (Table.get?_filter.1 hk).1) fun k c hk => ?_
  cases hc : c.isExpiredAt d.now m.config.lifetime with
  | true => exact .inr rfl
  | false => exact .inl (Table.get?_filter.2 ⟨hk, by simp [hc]⟩)

lemma remembered (h : Mirrors rest ⟨m, d⟩ b) (key : String) :
    Mirrors rest ⟨(m.remembered d.now key).2, d⟩ b := by
  unfold ConsentManager.remembered
  rw [if_pos h.remembers]
  cases hget : m.consents.get? key with
  | none => exact h
  | some c =>
    cases hc : c.isExpiredAt d.now m.config.lifetime with
    | false => simpa [hc] using h
    | true =>
      simp only [hc, if_true]
      refine h.forget (fun k c' hk => (Table.get?_erase.1 hk).1) fun k c' hk => ?_
      by_cases hkey : k = key
      · subst hkey
        obtain rfl := Option.some.inj (hget.symm.trans hk)
        exact .inr hc
      · exact .inl (Table.get?_erase.2 ⟨hk, hkey⟩)

lemma clock (h : Mirrors (t :: rest) ⟨m, d⟩ b) :
    Mirrors rest ⟨m, { d with now := t }⟩ { b with now := t } := by
  refine { h with now := rfl, dropped := ?_, aging := ?_, steady := h.steady.2 }
  · intro k c hk
    refine (h.dropped k c hk).imp_right fun hexpired => ?_
    have hage := (List.pairwise_cons.1 (h.aging k c hk)).1 t (.head _)
    simp only [Consent.isExpiredAt, decide_eq_true_eq] at hexpired ⊢
    exact Int.le_trans hexpired hage
  · exact fun k c hk => (List.pairwise_cons.1 (h.aging k c hk)).2

lemma stay (h : Mirrors (t :: rest) s b) (ht : s.desk.now = t) : Mirrors rest s b := by
  subst ht
  refine { h with aging := fun k c hk => ?_, steady := h.steady.2 }
  exact (List.pairwise_cons.1 (h.aging k c hk)).2

lemma moved (h : Mirrors rest ⟨m, d⟩ b) (d' : Desk) (hnow : d'.now = d.now) :
    Mirrors rest ⟨m, d'⟩ { b with
      input := d'.input, arrivals := d'.arrivals, readings := d'.readings } := by
  refine { h with
    now := ?_, input := rfl, arrivals := rfl, readings := rfl, dropped := ?_, aging := ?_, steady := ?_ }
  · exact h.now.trans hnow.symm
  · exact hnow ▸ h.dropped
  · exact hnow ▸ h.aging
  · exact hnow ▸ h.steady

lemma at_desk (h : Mirrors rest ⟨m, d⟩ b) {d' : Desk} (hnow : d'.now = d.now)
    (hinput : d'.input = d.input) (harrivals : d'.arrivals = d.arrivals)
    (hreadings : d'.readings = d.readings) : Mirrors rest ⟨m, d'⟩ b := by
  have hin : b.input = d.input := h.input
  have harr : b.arrivals = d.arrivals := h.arrivals
  have hread : b.readings = d.readings := h.readings
  have hmoved := h.moved d' hnow
  rwa [hinput, harrivals, hreadings, ← hin, ← harr, ← hread] at hmoved

lemma write (h : Mirrors rest ⟨m, d⟩ b) (text : String) : Mirrors rest ⟨m, d.write text⟩ b :=
  h.at_desk rfl rfl rfl (d.readings_write text)

lemma store (h : Mirrors rest ⟨m, d⟩ b) (key : String) (confirmed : Bool) (source : ConsentSource)
    (reason : String) (sessionScoped : Bool) :
    Mirrors rest ⟨m.store d.now ⟨key, confirmed, d.now, reason, source, sessionScoped⟩, d⟩
      (b.note key confirmed source reason sessionScoped) := by
  have hp := h.pruned
  have hnow : b.now = d.now := h.now
  unfold ConsentManager.store AnswerBook.note
  rw [if_pos h.remembers, hnow]
  refine { hp with now := rfl, kept := ?_, dropped := ?_, aging := ?_ }
  · intro k c hk
    by_cases hkey : k = key
    · subst hkey
      simpa using hk
    · rw [Table.get?_insert_of_ne _ hkey] at hk ⊢
      exact hp.kept k c hk
  · intro k c hk
    by_cases hkey : k = key
    · subst hkey
      exact .inl (by simpa using hk)
    · rw [Table.get?_insert_of_ne _ hkey] at hk ⊢
      exact hp.dropped k c hk
  · intro k c hk
    by_cases hkey : k = key
    · subst hkey
      rw [Table.get?_insert_self] at hk
      obtain rfl := Option.some.inj hk
      -- The new answer has the time of the clock, from which on the clock is steady.
      exact h.steady.1
    · rw [Table.get?_insert_of_ne _ hkey] at hk
      exact h.aging k c hk

lemma grant (h : Mirrors rest ⟨m, d⟩ b) (key : String) (source : ConsentSource) (reason : String)
    (sessionScoped : Bool) :
    Mirrors rest ⟨(m.grant d key source reason sessionScoped).1,
      (m.grant d key source reason sessionScoped).2⟩ (b.note key true source reason sessionScoped) :=
  (h.store key true source reason sessionScoped).at_desk rfl rfl rfl (by simp [ConsentManager.grant])

lemma refuse (h : Mirrors rest ⟨m, d⟩ b) (key reason : String) :
    Mirrors rest ⟨(m.refuse d key reason false).1, (m.refuse d key reason false).2⟩ b :=
  h.at_desk rfl rfl rfl (by simp [ConsentManager.refuse])

lemma reject (h : Mirrors rest ⟨m, d⟩ b) (key reason : String) :
    Mirrors rest ⟨(m.refuse d key reason true).1, (m.refuse d key reason true).2⟩
      (b.note key false .interactive reason true) :=
  (h.store key false .interactive reason true).at_desk rfl rfl rfl (by simp [ConsentManager.refuse])

end Mirrors

structure Agrees (rest : List Instant) (x : Bool × ConsentManager × Desk) (y : Bool × AnswerBook) :
    Prop where
  answer : x.1 = y.1
  mirrors : Mirrors rest ⟨x.2.1, x.2.2⟩ y.2

namespace Mirrors

variable {rest : List Instant} {s : Session} {m : ConsentManager} {d : Desk} {b : AnswerBook}

lemma act (h : Mirrors rest ⟨m, d⟩ b) (key : String) (o : ReadOutcome) :
    Agrees rest (m.act d key o) (b.hear key o) := by
  unfold ConsentManager.act AnswerBook.hear
  cases o with
  | line text =>
    dsimp only
    split
    · exact ⟨rfl, h.grant key _ _ _⟩
    · exact ⟨rfl, h.reject key _⟩
  | timedOut => exact ⟨rfl, (h.write _).refuse key _⟩
  | closed => exact ⟨rfl, h.refuse key _⟩
  | failed reason => exact ⟨rfl, h.refuse key _⟩

lemma readLine (h : Mirrors (t :: rest) ⟨m, d⟩ b) (ht : d.readLine.2.now = t) :
    d.readLine.1 = b.read.1 ∧ Mirrors rest ⟨m, d.readLine.2⟩ b.read.2 := by
  subst ht
  obtain ⟨houtcome, hinput, hreadings⟩ := d.readLine_eq
  have hnow : b.now = d.now := h.now
  have hin : b.input = d.input := h.input
  have harr : b.arrivals = d.arrivals := h.arrivals
  have hread : b.readings = d.readings := h.readings
  have htime : d.readLine.2.now = b.arrivals.headD b.now := by
    rw [hnow, harr]
    rfl
  have harrivals : d.readLine.2.arrivals = d.arrivals.tail := rfl
  have hmoved := h.clock.moved d.readLine.2 rfl
  rw [hreadings, houtcome, hinput, harrivals, htime, ← hin, ← harr, ← hread] at hmoved
  exact ⟨by rw [houtcome, ← hin, AnswerBook.read], hmoved⟩

lemma ask (h : Mirrors (t :: rest) ⟨m, d⟩ b) (key : String) (ht : (m.ask d key).2.2.now = t) :
    Agrees rest (m.ask d key) (b.read.2.hear key b.read.1) := by
  rw [ask_now] at ht
  subst ht
  obtain ⟨shown, hshown, hmirrors, hnow, harrivals⟩ : ∃ shown, (if m.config.showWarnings then
      d.write (SecurityWarning.render (SecurityWarning.forHost key)) else d) = shown ∧
        Mirrors (d.arrivals.headD d.now :: rest) ⟨m, shown⟩ b ∧ shown.now = d.now ∧
        shown.arrivals = d.arrivals := by
    split
    · exact ⟨_, rfl, h.write _, rfl, rfl⟩
    · exact ⟨_, rfl, h, rfl, rfl⟩
  obtain ⟨houtcome, hread⟩ := (hmirrors.write (question key m.config.confirmationTimeout)).readLine
    (by rw [← hnow, ← harrivals]; rfl)
  rw [← houtcome]
  unfold ConsentManager.ask
  dsimp only
  rw [hshown]
  exact hread.act key _

lemma decideAnew (h : Mirrors (t :: rest) ⟨m, d⟩ b) (key : String)
    (ht : (m.decideAnew d key).2.2.now = t) :
    Agrees rest (m.decideAnew d key) (b.decideAnew key) := by
  have hover : b.overrides = m.overrides := h.overrides
  have hconfig : b.config = m.config := h.config
  unfold ConsentManager.decideAnew at ht ⊢
  unfold AnswerBook.decideAnew
  rw [hover, hconfig]
  cases hsource : m.overrides.sourceFor key with
  | some name =>
    rw [hsource] at ht
    exact ⟨rfl, (h.stay ht).grant key _ _ _⟩
  | none =>
    rw [hsource] at ht
    cases hrequired : m.config.requireConfirmation with
    | true =>
      rw [hrequired] at ht
      exact h.ask key ht
    | false =>
      rw [hrequired] at ht
      exact ⟨rfl, (h.stay ht).grant key _ _ _⟩

lemma confirm (h : Mirrors (t :: rest) ⟨m, d⟩ b) (host : String)
    (ht : (m.confirm d host).2.2.now = t) : Agrees rest (m.confirm d host) (b.confirm host) := by
  have hlive : (m.remembered d.now (Host.key host)).1 = b.live? (Host.key host) := h.live_eq _
  have hleft := h.remembered (Host.key host)
  unfold ConsentManager.confirm at ht ⊢
  unfold AnswerBook.confirm
  rw [← hlive]
  dsimp only at ht ⊢
  cases hempty : (Host.key host).isEmpty with
  | true =>
    rw [hempty] at ht
    exact ⟨rfl, h.stay ht⟩
  | false =>
    rw [hempty] at ht
    simp only [Bool.false_eq_true, if_false] at ht ⊢
    rcases hr : m.remembered d.now (Host.key host) with ⟨_ | c, m'⟩
    · rw [hr] at hleft ht
      exact hleft.decideAnew _ ht
    · rw [hr] at hleft ht
      exact ⟨rfl, (hleft.stay ht).at_desk rfl rfl rfl (d.readings_audit _)⟩

lemma revoke (h : Mirrors rest s b) (host : String) :
    Mirrors rest (s.perform (.revoke host)) (b.perform (.revoke host)) := by
  simp only [Session.perform, ConsentManager.revoke, AnswerBook.perform]
  cases hkept : s.manager.consents.contains (Host.key host) with
  | true =>
    simp only [if_true]
    have herased : Mirrors rest
        ⟨{ s.manager with consents := s.manager.consents.erase (Host.key host) }, s.desk⟩
        { b with answers := b.answers.erase (Host.key host) } := by
      refine { h with kept := ?_, dropped := ?_, aging := ?_ }
      · intro k c hk
        obtain ⟨hk, hne⟩ := Table.get?_erase.1 hk
        exact Table.get?_erase.2 ⟨h.kept k c hk, hne⟩
      · intro k c hk
        obtain ⟨hk, hne⟩ := Table.get?_erase.1 hk
        exact (h.dropped k c hk).imp_left fun hk => Table.get?_erase.2 ⟨hk, hne⟩
      · exact fun k c hk => h.aging k c (Table.get?_erase.1 hk).1
    exact herased.at_desk rfl rfl rfl (s.desk.readings_audit _)
  | false =>
    simp only [Bool.false_eq_true, if_false]
    refine { h with kept := ?_, dropped := ?_, aging := ?_ }
    · intro k c hk
      refine Table.get?_erase.2 ⟨h.kept k c hk, ?_⟩
      rintro rfl
      have hsome := s.manager.consents.contains_eq_isSome_get? (Host.key host)
      rw [hkept, hk] at hsome
      cases hsome
    · exact fun k c hk => h.dropped k c (Table.get?_erase.1 hk).1
    · exact fun k c hk => h.aging k c (Table.get?_erase.1 hk).1

lemma perform {x : Call} (h : Mirrors ((s.perform x).desk.now :: rest) s b) :
    Mirrors rest (s.perform x) (b.perform x) := by
  cases x with
  | confirm host =>
    have htime := congrArg Desk.now (s.perform_confirm_desk host)
    exact (h.confirm host htime.symm).mirrors
  | revoke host =>
    refine (h.stay ?_).revoke host
    simp only [Session.perform, ConsentManager.revoke]
    split <;> rfl
  | consent host => exact (h.stay rfl).remembered (Host.key host)
  | isInsecure host =>
    have hstay := h.stay rfl
    simp only [Session.perform, ConsentManager.isInsecure, AnswerBook.perform]
    split
    · exact hstay
    · exact hstay.remembered (Host.key host)
  | insecureHosts => exact (h.stay rfl).pruned
  | statusReport => exact (h.stay rfl).pruned
  | clock now => exact h.clock
  | answer o => exact { h.stay rfl with input := congrArg (· ++ [o]) h.input }

lemma pruned_eq (h : Mirrors rest s b) : (s.manager.pruned s.desk.now).consents =
    b.answers.filter fun _ c => b.now.since c.time < b.config.lifetime := by
  apply Table.eq_of_get?
  intro k c
  rw [ConsentManager.pruned, Table.get?_filter, Table.get?_filter, decide_eq_true_iff, ← h.live_iff,
    Bool.not_eq_true']
  constructor
  · rintro ⟨hk, hc⟩
    exact ⟨h.kept k c hk, hc⟩
  · rintro ⟨hk, hc⟩
    exact ⟨(h.dropped k c hk).resolve_right (by simp [hc]), hc⟩

lemma reply_eq {x : Call} (h : Mirrors ((s.perform x).desk.now :: rest) s b) :
    s.reply? x = b.reply? x := by
  cases x with
  | confirm host =>
    have htime := congrArg Desk.now (s.perform_confirm_desk host)
    simp only [Session.reply?, AnswerBook.reply?, (h.confirm host htime.symm).answer]
  | consent host =>
    simp only [Session.reply?, ConsentManager.consent, AnswerBook.reply?, h.live_eq]
  | isInsecure host =>
    simp only [Session.reply?, ConsentManager.isInsecure, AnswerBook.reply?, h.overrides]
    cases s.manager.overrides.allows (Host.key host) with
    | true => rfl
    | false => simp only [Bool.false_eq_true, if_false, Bool.false_or, h.live_eq]
  | insecureHosts =>
    simp only [Session.reply?, ConsentManager.insecureHosts, AnswerBook.reply?, h.pruned_eq,
      Table.filter, List.filter_filter]
    simp only [Bool.and_comm]
  | revoke host => rfl
  | statusReport => rfl
  | clock now => rfl
  | answer o => rfl

lemma replies_eq {calls : List Call} (h : Mirrors (s.times calls) s b) :
    s.replies calls = b.replies calls := by
  induction calls generalizing s b with
  | nil => rfl
  | cons x calls ih => rw [Session.replies, AnswerBook.replies, h.reply_eq, ih h.perform]

lemma run {calls : List Call} (h : Mirrors (s.times calls ++ rest) s b) :
    Mirrors rest (s.run calls) (b.run calls) := by
  induction calls generalizing s b with
  | nil => exact h
  | cons x calls ih => exact ih h.perform

lemma start (hempty : m.consents = .empty) (hremember : m.config.rememberDecisions = true)
    (hsteady : Steady (d.now :: rest)) : Mirrors rest ⟨m, d⟩ (.start m d) := by
  refine ⟨rfl, rfl, hremember, rfl, rfl, rfl, rfl, ?_, nofun, nofun, hsteady⟩
  intro k c hk
  rw [hempty, Table.get?_empty] at hk
  cases hk

end Mirrors

namespace AnswerBook

variable {b : AnswerBook} {key : String} {c : Consent}

lemma confirm_of_live {host : String} (h : b.live? (Host.key host) = some c) :
    (b.confirm host).2 = b := by
  unfold confirm
  split
  · rfl
  · rw [h]

lemma live?_eq_some (hget : b.answers.get? key = some c)
    (hlive : b.now.since c.time < b.config.lifetime) : b.live? key = some c := by
  rw [live?, hget, Option.filter_some, if_pos (by simpa using hlive)]

lemma get?_decideAnew_of_ne {k : String} (h : key ≠ k) :
    (b.decideAnew k).2.answers.get? key = b.answers.get? key := by
  have hnote : ∀ (b : AnswerBook) confirmed source reason sessionScoped,
      (b.note k confirmed source reason sessionScoped).answers.get? key = b.answers.get? key := by
    intro b confirmed source reason sessionScoped
    exact Table.get?_insert_of_ne _ h _
  unfold decideAnew
  split
  · exact hnote _ _ _ _ _
  · split
    · unfold hear
      split
      · split
        · exact hnote b.read.2 _ _ _ _
        · exact hnote b.read.2 _ _ _ _
      all_goals rfl
    · exact hnote _ _ _ _ _

lemma get?_perform {x : Call} (hget : b.answers.get? key = some c)
    (hlive : b.now.since c.time < b.config.lifetime)
    (hkeep : ∀ host, x = .revoke host → Host.key host ≠ key) :
    (b.perform x).answers.get? key = some c := by
  cases x with
  | confirm host =>
    rw [perform]
    by_cases hkey : Host.key host = key
    · have hyoung := live?_eq_some hget hlive
      rwa [confirm_of_live (hkey ▸ hyoung)]
    · rw [← hget]
      unfold confirm
      split
      · rfl
      · split
        · rfl
        · exact get?_decideAnew_of_ne (Ne.symm hkey)
  | revoke host => exact Table.get?_erase.2 ⟨hget, (hkeep host rfl).symm⟩
  | _ =>
    rw [perform]
    exact hget

lemma readings_hear (b : AnswerBook) (key : String) (o : ReadOutcome) :
    (b.hear key o).2.readings = b.readings := by
  unfold hear
  repeat' split
  all_goals rfl

lemma confirm_of_reads {host : String} (h : (b.confirm host).2.readings ≠ b.readings) :
    b.confirm host = b.read.2.hear (Host.key host) b.read.1 := by
  unfold confirm decideAnew at h ⊢
  split at h
  · exact absurd rfl h
  · split at h
    · exact absurd rfl h
    · split at h
      · exact absurd rfl h
      · split at h
        · simp only [*, Bool.false_eq_true, if_true, if_false]
        · exact absurd rfl h

lemma get?_of_rejects {host text : String}
    (hread : (b.confirm host).2.readings = b.readings ++ [.line text])
    (hno : isConsent text = false) :
    ∃ c, (b.confirm host).2.answers.get? (Host.key host) = some c ∧ c.confirmed = false ∧
      c.time = (b.confirm host).2.now := by
  have hconfirm : b.confirm host = b.read.2.hear (Host.key host) b.read.1 :=
    confirm_of_reads (by simp [hread])
  have houtcome : b.read.1 = .line text := by
    rw [hconfirm, readings_hear] at hread
    simpa [read] using hread
  rw [hconfirm, houtcome, hear, if_neg (by simp [hno])]
  exact ⟨_, Table.get?_insert_self .., rfl, rfl⟩

end AnswerBook

namespace Session

variable {s s' : Session} {before after : List Call} {key host host' text : String}
  {b : AnswerBook} {c : Consent}

lemma get?_run {calls : List Call} (h : Mirrors (s.times calls) s b)
    (hget : b.answers.get? key = some c) (hkeep : ∀ host, .revoke host ∈ calls → Host.key host ≠ key)
    (hlive : (s.run calls).desk.now.since c.time < s.manager.config.lifetime) :
    (b.run calls).answers.get? key = some c := by
  induction calls generalizing s b with
  | nil => exact hget
  | cons x calls ih =>
    -- It is no older now than it is in the end.
    have hage : s.desk.now.since c.time ≤ (s.run (x :: calls)).desk.now.since c.time := by
      rcases List.mem_cons.1 (s.run_now_mem (x :: calls)) with heq | hmem
      · exact Int.le_of_eq (by rw [heq])
      · exact (List.pairwise_cons.1 (h.aging key c hget)).1 _ hmem
    have hyoung : b.now.since c.time < b.config.lifetime := by
      rw [h.now, h.config]
      exact Int.lt_of_le_of_lt hage hlive
    refine ih h.perform ?_ (fun host hhost => hkeep host (.tail _ hhost)) ?_
    · exact AnswerBook.get?_perform hget hyoung fun host hx => hkeep host (hx ▸ .head _)
    · rw [(s.perform_settings x).config]
      exact hlive

lemma rejection_stands (h : Mirrors (s.times (.confirm host :: after)) s b)
    (hs' : (s.perform (.confirm host)).run after = s')
    (hread : (s.perform (.confirm host)).desk.readings = s.desk.readings ++ [.line text])
    (hno : isConsent text = false) (hkey : Host.key host' = Host.key host)
    (hkeep : ∀ h, .revoke h ∈ after → Host.key h ≠ Host.key host)
    (hlive : s'.desk.now.since (s.perform (.confirm host)).desk.now < s.manager.config.lifetime) :
    (s'.manager.confirm s'.desk host').1 = false ∧
      (s'.perform (.confirm host')).desk.readings = s'.desk.readings := by
  rw [times] at h
  have hnoted : Mirrors ((s.perform (.confirm host)).times after) (s.perform (.confirm host))
      (b.perform (.confirm host)) := h.perform
  rw [AnswerBook.perform] at hnoted
  have hend : Mirrors [] s' ((b.confirm host).2.run after) := by
    rw [← hs']
    exact Mirrors.run (by rwa [List.append_nil])
  obtain ⟨c, hget, hrejects, htime⟩ := AnswerBook.get?_of_rejects
    (by rw [hnoted.readings, hread, h.readings]) hno
  have hyoung : s'.desk.now.since c.time < s'.manager.config.lifetime := by
    have hconfig := ((s.perform_settings (.confirm host)).trans
      ((s.perform (.confirm host)).run_settings after)).config
    rw [htime, hnoted.now, ← hs', hconfig, hs']
    exact hlive
  have hstands := get?_run hnoted hget hkeep (by
    rw [hs', ← ((s.perform (.confirm host)).run_settings after).config, hs']
    exact hyoung)
  rw [← hend.now, ← hend.config] at hyoung
  have hlive' := AnswerBook.live?_eq_some hstands hyoung
  rw [← hkey, ← hend.live_eq] at hlive'
  rw [perform_confirm_desk]
  exact confirm_of_rejected hlive' hrejects

/-- Dropping answers past their lifetime at several places, and others along with them, changes no
result and no question, and a rejection stands without a new one for its whole lifetime. -/
theorem runs_by_answerBook (m : ConsentManager) (d : Desk) (hempty : m.consents = .empty)
    (hremember : m.config.rememberDecisions = true) (calls : List Call)
    (hsteady : Steady (d.now :: (Session.mk m d).times calls)) :
    (Session.mk m d).replies calls = (AnswerBook.start m d).replies calls ∧
    ((Session.mk m d).run calls).desk.readings = ((AnswerBook.start m d).run calls).readings ∧
    ∀ before host text after host' s s', calls = before ++ .confirm host :: after →
      s = (Session.mk m d).run before → s' = (Session.mk m d).run calls →
      (s.perform (.confirm host)).desk.readings = s.desk.readings ++ [.line text] →
      isConsent text = false → Host.key host' = Host.key host →
      (∀ h, .revoke h ∈ after → Host.key h ≠ Host.key host) →
      s'.desk.now.since (s.perform (.confirm host)).desk.now < m.config.lifetime →
      (s'.manager.confirm s'.desk host').1 = false ∧
        (s'.perform (.confirm host')).desk.readings = s'.desk.readings := by
  have hstart : Mirrors ((Session.mk m d).times calls) ⟨m, d⟩ (.start m d) :=
    .start hempty hremember hsteady
  have hend : Mirrors [] ((Session.mk m d).run calls) ((AnswerBook.start m d).run calls) :=
    Mirrors.run (by rwa [List.append_nil])
  refine ⟨hstart.replies_eq, hend.readings.symm, ?_⟩
  intro before host text after host' s s' hcalls hs hs' hread hno hkey hkeep hlive
  have hbefore : Mirrors (s.times (.confirm host :: after)) s ((AnswerBook.start m d).run before) := by
    rw [hcalls, times_append] at hstart
    rw [hs]
    exact hstart.run
  have hrun : (s.perform (.confirm host)).run after = s' := by
    rw [hs', hcalls, run_append, run_cons, hs]
  have hconfig : s.manager.config = m.config := by
    rw [hs]
    exact (run_settings ⟨m, d⟩ before).config
  rw [← hconfig] at hlive
  exact rejection_stands hbefore hrun hread hno hkey hkeep hlive

theorem typed_rejection_stands :
    let m : ConsentManager := { config := {}, overrides := {} }
    let d := { Desk.bare [.line "no"] with arrivals := [.atSecond 30] }
    let calls : List Call := [.confirm "dev.local", .clock (.atSecond 1800)]
    let s := (Session.mk m d).run calls
    (m.consents = .empty ∧ m.config.rememberDecisions = true ∧
        Steady (d.now :: (Session.mk m d).times calls)) ∧
      (Session.mk m d).replies calls = (AnswerBook.start m d).replies calls ∧
      (s.manager.confirm s.desk "Dev.Local.").1 = false ∧
        (s.perform (.confirm "Dev.Local.")).desk.readings = [.line "no"] := by
  intro m d calls s
  have hsteady : Steady (d.now :: (Session.mk m d).times calls) :=
    steady_of_le (by decide +kernel) (by decide +kernel)
  obtain ⟨hreplies, -, hrejection⟩ := runs_by_answerBook m d rfl rfl calls hsteady
  obtain ⟨hno, hreadings⟩ := hrejection [] "dev.local" "no" [.clock (.atSecond 1800)] "Dev.Local."
    _ _ rfl rfl rfl (by decide +kernel) (by decide +kernel) (by decide +kernel) (by simp)
    (by decide +kernel)
  exact ⟨⟨rfl, rfl, hsteady⟩, hreplies, hno, hreadings.trans (by decide +kernel)⟩

/-- An hour after a consent, less a moment, a leap second begins: then the hour is over, and after the
leap second it is not. -/
theorem leap_second_ends_consent_early :
    let m : ConsentManager := { config := {}, overrides := {} }
    let d := { Desk.bare [.line "yes"] with now := { second := 1483225200, nano := 500000000 } }
    let calls : List Call := [.confirm "dev.local",
      .clock { second := 1483228799, nano := 1800000000 }, .consent "dev.local",
      .clock { second := 1483228800, nano := 200000000 }, .consent "dev.local"]
    (m.consents = .empty ∧ m.config.rememberDecisions = true ∧
        (d.now :: (Session.mk m d).times calls).Pairwise (· ≤ ·)) ∧
      (Session.mk m d).replies calls ≠ (AnswerBook.start m d).replies calls := by
  intro m d calls
  exact ⟨⟨rfl, rfl, by decide +kernel⟩, by decide +kernel⟩

end Session

end ConsentManager

end TlsTrust
