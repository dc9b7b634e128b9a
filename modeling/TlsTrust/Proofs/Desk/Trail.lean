import TlsTrust.Desk
import Mathlib.Tactic.Lemma

/-! What calls add to the events of a desk: the records handed to the logger and the probes made. -/

namespace TlsTrust

namespace DeskEvent

def record? : DeskEvent → Option AuditRecord
  | audited r => some r
  | _ => none

def probe? : DeskEvent → Option (String × Transport × ProbeOutcome)
  | probed host t outcome => some (host, t, outcome)
  | _ => none

def outcome? : DeskEvent → Option ReadOutcome
  | read o => some o
  | _ => none

def isVisible : DeskEvent → Bool
  | audited _ | probed _ _ _ => true
  | _ => false

end DeskEvent

namespace Trail

variable {es fs : List DeskEvent}

def recordsOf (type : EventType) (es : List DeskEvent) : List AuditRecord :=
  (es.filterMap DeskEvent.record?).filter fun r => r.event = type

def probes (es : List DeskEvent) : List (String × Transport × ProbeOutcome) :=
  es.filterMap DeskEvent.probe?

/-- The records and the probes among the events, in order. -/
def visible (es : List DeskEvent) : List DeskEvent :=
  es.filter DeskEvent.isVisible

@[simp] lemma visible_nil : visible [] = [] := rfl

@[simp] lemma visible_append (es fs : List DeskEvent) :
    visible (es ++ fs) = visible es ++ visible fs := List.filter_append ..

@[simp] lemma visible_audited (r : AuditRecord) (es : List DeskEvent) :
    visible (.audited r :: es) = .audited r :: visible es := rfl

@[simp] lemma visible_wrote (text : String) (es : List DeskEvent) :
    visible (.wrote text :: es) = visible es := rfl

@[simp] lemma visible_read (o : ReadOutcome) (es : List DeskEvent) :
    visible (.read o :: es) = visible es := rfl

lemma mem_visible {e : DeskEvent} : e ∈ visible es ↔ e ∈ es ∧ e.isVisible = true :=
  List.mem_filter

lemma filterMap_visible {α : Type} {f : DeskEvent → Option α}
    (hf : ∀ e, e.isVisible = false → f e = none) (es : List DeskEvent) :
    (visible es).filterMap f = es.filterMap f := by
  induction es with
  | nil => rfl
  | cons e es ih =>
    rw [visible] at ih ⊢
    cases he : e.isVisible with
    | true => simp only [List.filter_cons, he, if_true, List.filterMap_cons, ih]
    | false => simpa [he, hf e he] using ih

lemma recordsOf_visible (type : EventType) (es : List DeskEvent) :
    recordsOf type (visible es) = recordsOf type es := by
  have hrecord : ∀ e : DeskEvent, e.isVisible = false → e.record? = none := by
    intro e he
    cases e with
    | audited r => cases he
    | _ => rfl
  simp only [recordsOf, filterMap_visible hrecord]

lemma probes_visible (es : List DeskEvent) : probes (visible es) = probes es := by
  have hprobe : ∀ e : DeskEvent, e.isVisible = false → e.probe? = none := by
    intro e he
    cases e with
    | probed host t o => cases he
    | _ => rfl
  simp only [probes, filterMap_visible hprobe]

@[simp] lemma recordsOf_append (type : EventType) (es fs : List DeskEvent) :
    recordsOf type (es ++ fs) = recordsOf type es ++ recordsOf type fs := by
  simp [recordsOf]

@[simp] lemma recordsOf_probed (type : EventType) (host : String) (t : Transport) (o : ProbeOutcome)
    (es : List DeskEvent) : recordsOf type (.probed host t o :: es) = recordsOf type es := rfl

lemma recordsOf_audited (type : EventType) (r : AuditRecord) :
    recordsOf type [.audited r] = if r.event = type then [r] else [] := by
  by_cases h : r.event = type <;> simp [recordsOf, DeskEvent.record?, h]

@[simp] lemma probes_append (es fs : List DeskEvent) : probes (es ++ fs) = probes es ++ probes fs := by
  simp [probes]

lemma mem_recordsOf {type : EventType} {r : AuditRecord} :
    r ∈ recordsOf type es ↔ .audited r ∈ es ∧ r.event = type := by
  simp only [recordsOf, List.mem_filter, List.mem_filterMap, decide_eq_true_eq]
  constructor
  · rintro ⟨⟨e, he, hr⟩, ht⟩
    cases e <;> simp only [DeskEvent.record?, Option.some.injEq, reduceCtorEq] at hr
    exact ⟨hr ▸ he, ht⟩
  · rintro ⟨he, ht⟩
    exact ⟨⟨_, he, rfl⟩, ht⟩

lemma mem_probes {host : String} {t : Transport} {o : ProbeOutcome} :
    (host, t, o) ∈ probes es ↔ .probed host t o ∈ es := by
  simp only [probes, List.mem_filterMap]
  constructor
  · rintro ⟨e, he, hp⟩
    cases e <;> simp only [DeskEvent.probe?, Option.some.injEq, reduceCtorEq, Prod.mk.injEq] at hp
    obtain ⟨rfl, rfl, rfl⟩ := hp
    exact he
  · exact fun he => ⟨_, he, rfl⟩

structure Quiet (es : List DeskEvent) : Prop where
  probes : probes es = []
  uses : recordsOf .insecureModeUsed es = []

lemma Quiet.nil : Quiet [] := ⟨rfl, rfl⟩

lemma Quiet.append (h : Quiet es) (k : Quiet fs) : Quiet (es ++ fs) :=
  ⟨by simp [h.probes, k.probes], by simp [h.uses, k.uses]⟩

lemma Quiet.audited {r : AuditRecord} (h : r.event ≠ .insecureModeUsed) : Quiet [.audited r] :=
  ⟨rfl, by simp [recordsOf_audited, h]⟩

structure RecordsUse (key : String) (answer : Bool) (es : List DeskEvent) : Prop where
  probes : probes es = []
  use : ∃ r, recordsOf .insecureModeUsed es = [r] ∧ r.host = key ∧ r.allowed = answer

/-- All that happens are probes that verify and records, of which none is of the insecure mode. -/
structure Restrained (es : List DeskEvent) : Prop where
  visible : visible es = es
  verifies : ∀ host t o, .probed host t o ∈ es → t.verifies = true
  uses : recordsOf .insecureModeUsed es = []

lemma Restrained.nil : Restrained [] := ⟨rfl, by simp, rfl⟩

lemma Restrained.append (h : Restrained es) (k : Restrained fs) : Restrained (es ++ fs) := by
  refine ⟨by rw [visible_append, h.visible, k.visible], ?_, by simp [h.uses, k.uses]⟩
  intro host t o hm
  rcases List.mem_append.1 hm with hm | hm
  · exact h.verifies host t o hm
  · exact k.verifies host t o hm

lemma Restrained.audited {r : AuditRecord} (h : r.event ≠ .insecureModeUsed) :
    Restrained [.audited r] := ⟨rfl, by simp, (Quiet.audited h).uses⟩

/-- One use of the insecure mode is put on record, for a key and with an answer and, where the answer
is a new one, also the risk that it accepts or rejects. -/
def Consented (key : String) (answer : Bool) (es : List DeskEvent) : Prop :=
  ∃ (used : AuditRecord) (settled : List AuditRecord), es = .audited used :: settled.map .audited ∧
    used.event = .insecureModeUsed ∧ used.host = key ∧ used.allowed = answer ∧
    settled.length ≤ 1 ∧
    ∀ r ∈ settled, r.event = (if answer then .riskAccepted else .riskRejected) ∧ r.host = key

lemma Consented.probes_eq {key : String} {answer : Bool} (h : Consented key answer es) :
    probes es = [] := by
  obtain ⟨used, settled, rfl, -⟩ := h
  simp [probes, DeskEvent.probe?]

lemma Consented.recordsUse {key : String} {answer : Bool} (h : Consented key answer (visible es)) :
    RecordsUse key answer es := by
  have hprobes := h.probes_eq
  obtain ⟨used, settled, hvis, hused, hkey, hanswer, -, hsettled⟩ := h
  have hrest : recordsOf .insecureModeUsed (settled.map .audited) = [] := by
    rw [List.eq_nil_iff_forall_not_mem]
    intro r hr
    obtain ⟨hmem, hevent⟩ := mem_recordsOf.1 hr
    obtain ⟨r', hr', heq⟩ := List.mem_map.1 hmem
    obtain rfl := DeskEvent.audited.inj heq
    have := (hsettled r' hr').1
    rw [hevent] at this
    cases answer <;> cases this
  refine ⟨?_, used, ?_, hkey, hanswer⟩
  · rw [← probes_visible, hprobes]
  · rw [← recordsOf_visible, hvis, ← List.singleton_append, recordsOf_append, hrest,
      recordsOf_audited, if_pos hused, List.append_nil]

def OnlySwaps (es : List DeskEvent) : Prop :=
  ∀ e ∈ visible es, ∃ r, e = .audited r ∧ r.event = .strategyChanged

lemma OnlySwaps.of_visible (h : visible es = []) : OnlySwaps es := by
  simp [OnlySwaps, h]

lemma OnlySwaps.append (h : OnlySwaps es) (k : OnlySwaps fs) : OnlySwaps (es ++ fs) := by
  intro e he
  rw [visible_append] at he
  exact (List.mem_append.1 he).elim (h e) (k e)

lemma OnlySwaps.visible_eq_nil (h : OnlySwaps es) (hno : recordsOf .strategyChanged es = []) :
    visible es = [] := by
  rw [List.eq_nil_iff_forall_not_mem]
  intro e he
  obtain ⟨r, rfl, hr⟩ := h e he
  have : r ∈ recordsOf .strategyChanged es := mem_recordsOf.2 ⟨(mem_visible.1 he).1, hr⟩
  simp [hno] at this

lemma OnlySwaps.quiet (h : OnlySwaps es) : Quiet es := by
  constructor
  · rw [List.eq_nil_iff_forall_not_mem]
    rintro ⟨host, t, o⟩ hp
    obtain ⟨r, heq, -⟩ := h _ (mem_visible.2 ⟨mem_probes.1 hp, rfl⟩)
    cases heq
  · rw [List.eq_nil_iff_forall_not_mem]
    intro r hr
    obtain ⟨hmem, hevent⟩ := mem_recordsOf.1 hr
    obtain ⟨r', heq, hr'⟩ := h _ (mem_visible.2 ⟨hmem, rfl⟩)
    obtain rfl := DeskEvent.audited.inj heq
    cases hevent.symm.trans hr'

lemma split_append {α : Type} {xs ys before after : List α} {a : α}
    (h : xs ++ ys = before ++ a :: after) :
    (∃ mid, xs = before ++ a :: mid ∧ after = mid ++ ys) ∨
      ∃ mid, before = xs ++ mid ∧ ys = mid ++ a :: after := by
  rcases List.append_eq_append_iff.1 h with ⟨mid, hb, hf⟩ | ⟨mid, he, ha⟩
  · exact .inr ⟨mid, hb, hf⟩
  · cases mid with
    | nil => exact .inr ⟨[], by simpa using he.symm, ha.symm⟩
    | cons x mid =>
      obtain ⟨rfl, rfl⟩ := List.cons.inj ha
      exact .inl ⟨mid, he, rfl⟩

lemma not_probed_of_probes_eq_nil (h : probes es = []) (host : String) (t : Transport)
    (o : ProbeOutcome) : .probed host t o ∉ es := by
  intro hm
  have := mem_probes.2 hm
  simp [h] at this

lemma eq_of_single_probe {host h : String} {t t' : Transport} {o o' : ProbeOutcome}
    {before after : List DeskEvent} (hes : probes es = []) (hfs : probes fs = [])
    (heq : es ++ .probed host t o :: fs = before ++ .probed h t' o' :: after) :
    before = es ∧ h = host ∧ t' = t ∧ after = fs := by
  rcases split_append heq with ⟨mid, rfl, -⟩ | ⟨mid, rfl, htail⟩
  · exact absurd (by simp) (not_probed_of_probes_eq_nil hes h t' o')
  · cases mid with
    | nil =>
      obtain ⟨⟨rfl, rfl, rfl⟩, rfl⟩ := by simpa using htail
      simp
    | cons x mid =>
      obtain ⟨-, rfl⟩ := List.cons.inj htail
      exact absurd (by simp) (not_probed_of_probes_eq_nil hfs h t' o')

end Trail

namespace Desk

variable {d d₁ d₂ : Desk} {es fs : List DeskEvent}

def bare (input : List ReadOutcome) : Desk :=
  { now := .atSecond 0
    wallClock := .atSecond 0
    logger := {
      sinks := [], enabled := true, minSeverity := .info, actor := none, tailCapacity := 0
      tail := [], dropped := 0, writeFailures := 0, closed := false }
    input }

def Extends (d d₁ : Desk) (es : List DeskEvent) : Prop :=
  d₁.events = d.events ++ es

lemma Extends.refl (d : Desk) : d.Extends d [] := by
  simp [Extends]

lemma Extends.trans (h : d.Extends d₁ es) (k : d₁.Extends d₂ fs) : d.Extends d₂ (es ++ fs) := by
  simp only [Extends] at h k ⊢
  rw [k, h, List.append_assoc]

lemma Extends.unique (h : d.Extends d₁ es) (k : d.Extends d₁ fs) : es = fs :=
  List.append_cancel_left (h.symm.trans k)

@[simp] lemma write_now (d : Desk) (text : String) : (d.write text).now = d.now := rfl

lemma note_extends (d : Desk) (e : DeskEvent) : d.Extends (d.note e) [e] := by
  simp [Extends, note, events]

lemma audit_extends (d : Desk) (make : Stamp → AuditRecord) :
    d.Extends (d.audit make) [.audited (make ⟨.ofNat d.issued, d.wallClock⟩)] := by
  simp [Extends, audit, events]

lemma write_extends (d : Desk) (text : String) : d.Extends (d.write text) [.wrote text] :=
  d.note_extends _

lemma issue_extends (d : Desk) : d.Extends d.issue.2 [] := by
  simp [Extends, issue, events]

lemma readLine_extends (d : Desk) : d.Extends d.readLine.2 [.read d.readLine.1] := by
  simp [readLine, Extends, note, events]

def readings (d : Desk) : List ReadOutcome :=
  d.events.filterMap DeskEvent.outcome?

@[simp] lemma readings_audit (d : Desk) (make : Stamp → AuditRecord) :
    (d.audit make).readings = d.readings := by
  simp [readings, audit, events, DeskEvent.outcome?]

@[simp] lemma readings_write (d : Desk) (text : String) : (d.write text).readings = d.readings := by
  simp [readings, write, note, events, DeskEvent.outcome?]

lemma readLine_eq (d : Desk) : d.readLine.1 = d.input.headD .closed ∧
    d.readLine.2.input = d.input.tail ∧ d.readLine.2.readings = d.readings ++ [d.readLine.1] :=
  ⟨rfl, rfl, by simp [readLine, readings, note, events, DeskEvent.outcome?]⟩

end Desk

end TlsTrust
