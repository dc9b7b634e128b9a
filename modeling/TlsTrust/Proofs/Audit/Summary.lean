import TlsTrust.Audit.Summary
import TlsTrust.Proofs.Table
import TlsTrust.Proofs.Time.Shift
import Mathlib.Algebra.BigOperators.Group.List.Basic
import Mathlib.Algebra.Ring.Nat
import Mathlib.Data.List.Induction

/-!
How the counts of a summary add up: over lists of records, over adjoining windows, and over the
groups of each of its tables.
-/

namespace TlsTrust

namespace AuditSummary

def counts {κ : Type} [DecidableEq κ] (all : List κ) (f : AuditRecord → κ)
    (records : List AuditRecord) : List (κ × Nat) :=
  (all.map fun k => (k, records.countP fun r => f r == k)).filter fun e => e.2 != 0

def hostCounts (records : List AuditRecord) : Table Nat :=
  .ofList ((records.filter fun r => !r.host.isEmpty).map fun r =>
    (r.host, records.countP fun s => s.host == r.host))

def tallied (start stop : Instant) (inside : List AuditRecord) : AuditSummary where
  windowStart := start
  windowEnd := stop
  total := inside.length
  byEvent := counts EventType.all (·.event) inside
  byRisk := counts Risk.all (·.risk) inside
  byHost := hostCounts inside
  highRisk := inside.countP (·.risk.isHigh)
  insecureModeUsages := inside.countP fun r => r.event == .insecureModeUsed && r.allowed

variable {α κ : Type} [DecidableEq κ] {s a b : AuditSummary} {start mid stop : Instant}
  {records records' inside inside' : List AuditRecord}

def riskCount (s : AuditSummary) (r : Risk) : Nat :=
  (s.byRisk.lookup r).getD 0

def hostCount (s : AuditSummary) (host : String) : Nat :=
  (s.byHost.get? host).getD 0

/-- Every count of a summary is that of the records it is about. -/
structure Tallies (s : AuditSummary) (inside : List AuditRecord) : Prop where
  total : s.total = inside.length
  event : ∀ e, s.count e = inside.countP fun r => r.event == e
  risk : ∀ level, s.riskCount level = inside.countP fun r => r.risk == level
  host : ∀ host, s.hostCount host = if host = "" then 0 else inside.countP fun r => r.host == host
  highRisk : s.highRisk = inside.countP fun r => r.risk == .high || r.risk == .critical
  insecureModeUsages : s.insecureModeUsages =
    inside.countP fun r => r.event == .insecureModeUsed && r.allowed

/-- Every count of a summary is the sum of those of two others. -/
structure IsSum (s a b : AuditSummary) : Prop where
  total : s.total = a.total + b.total
  event : ∀ e, s.count e = a.count e + b.count e
  risk : ∀ level, s.riskCount level = a.riskCount level + b.riskCount level
  host : ∀ host, s.hostCount host = a.hostCount host + b.hostCount host
  highRisk : s.highRisk = a.highRisk + b.highRisk
  insecureModeUsages : s.insecureModeUsages = a.insecureModeUsages + b.insecureModeUsages

/-- Each table has its keys once and no entry of zero, and its entries make up the total, apart from
the records without a host. -/
structure Balances (s : AuditSummary) (nameless : Nat) : Prop where
  eventKeys : (s.byEvent.map (·.1)).Sublist EventType.all
  riskKeys : (s.byRisk.map (·.1)).Sublist Risk.all
  pos : (∀ e ∈ s.byEvent, 0 < e.2) ∧ (∀ e ∈ s.byRisk, 0 < e.2) ∧ ∀ e ∈ s.byHost.entries, 0 < e.2
  events : (s.byEvent.map (·.2)).sum = s.total
  risks : (s.byRisk.map (·.2)).sum = s.total
  hosts : (s.byHost.entries.map (·.2)).sum + nameless = s.total
  highRisk : s.highRisk = s.riskCount .high + s.riskCount .critical
  insecureModeUsages : s.insecureModeUsages ≤ s.count .insecureModeUsed

lemma lookup_counts (all : List κ) (f : AuditRecord → κ) (k : κ) :
    ((counts all f records).lookup k).getD 0 =
      if k ∈ all then records.countP fun r => f r == k else 0 := by
  unfold counts
  induction all with
  | nil => rfl
  | cons k' all ih =>
    rw [List.map_cons, List.filter_cons]
    by_cases hk : k = k'
    · subst hk
      split
      case isTrue => simp
      case isFalse hzero =>
        have hzero : records.countP (fun r => f r == k) = 0 := by simpa using hzero
        rw [ih, hzero, ite_self, ite_self]
    · have hk' : (k == k') = false := beq_false_of_ne hk
      simp only [List.mem_cons, hk, false_or]
      rw [← ih]
      split
      · rw [List.lookup_cons, hk']
      · rfl

lemma keys_counts (all : List κ) (f : AuditRecord → κ) :
    ((counts all f records).map (·.1)).Sublist all := by
  have hkeys : (all.map fun k => (k, records.countP fun r => f r == k)).map (·.1) = all := by
    rw [List.map_map]
    exact List.map_id all
  have hsub := (List.filter_sublist (l := all.map fun k => (k, records.countP fun r => f r == k))
    (p := fun e => e.2 != 0)).map (·.1)
  rwa [hkeys] at hsub

lemma pos_of_mem_counts {all : List κ} {f : AuditRecord → κ} :
    ∀ e ∈ counts all f records, 0 < e.2 := by
  intro e he
  have hne := (List.mem_filter.1 he).2
  exact Nat.pos_of_ne_zero (bne_iff_ne.1 hne)

lemma sum_indicator {ks : List κ} (h : ks.Nodup) (a : κ) :
    (ks.map fun k => if a == k then 1 else 0).sum = if a ∈ ks then 1 else 0 := by
  induction ks with
  | nil => rfl
  | cons k ks ih =>
    obtain ⟨hk, hks⟩ := List.nodup_cons.1 h
    rw [List.map_cons, List.sum_cons, ih hks]
    by_cases ha : a = k
    · simp [ha, hk]
    · simp [ha]

lemma sum_countP {ks : List κ} (h : ks.Nodup) (f : α → κ) (xs : List α) :
    (ks.map fun k => xs.countP fun x => f x == k).sum = xs.countP fun x => decide (f x ∈ ks) := by
  induction xs with
  | nil => simp
  | cons x xs ih =>
    simp only [List.countP_cons, List.sum_map_add, ih, sum_indicator h, decide_eq_true_eq]

lemma sum_counts {all : List κ} (hnodup : all.Nodup) (hall : ∀ k, k ∈ all) (f : AuditRecord → κ) :
    ((counts all f records).map (·.2)).sum = records.length := by
  have hvalues : (counts all f records).map (·.2) =
      (all.map fun k => records.countP fun r => f r == k).filter (· != 0) := by
    rw [counts, List.filter_map, List.map_map, List.filter_map]
    rfl
  rw [hvalues, List.sum_filter_bne_zero, sum_countP hnodup, List.countP_eq_length]
  exact fun r _ => decide_eq_true (hall _)

lemma get?_hostCounts (records : List AuditRecord) (host : String) :
    (hostCounts records).get? host =
      if host ≠ "" ∧ ∃ r ∈ records, r.host = host then some (records.countP fun r => r.host == host)
      else none := by
  have htable : hostCounts records = .ofList (((records.filter fun r => !r.host.isEmpty).map
      (·.host)).map fun h => (h, records.countP fun r => r.host == h)) := by
    rw [List.map_map]
    rfl
  have hmem : host ∈ (records.filter fun r => !r.host.isEmpty).map (·.host) ↔
      host ≠ "" ∧ ∃ r ∈ records, r.host = host := by
    simp only [List.mem_map, List.mem_filter, Bool.not_eq_true', String.isEmpty_eq_false_iff]
    constructor
    · rintro ⟨r, ⟨hr, hne⟩, rfl⟩
      exact ⟨hne, r, hr, rfl⟩
    · rintro ⟨hne, r, hr, rfl⟩
      exact ⟨r, ⟨hr, hne⟩, rfl⟩
  rw [htable, Table.get?_ofList_map]
  simp only [hmem]

lemma hostCounts_getD (records : List AuditRecord) (host : String) :
    ((hostCounts records).get? host).getD 0 =
      if host = "" then 0 else records.countP fun r => r.host == host := by
  rw [get?_hostCounts]
  by_cases hhost : host = ""
  · simp [hhost]
  · by_cases hmem : ∃ r ∈ records, r.host = host
    · simp [hhost, hmem]
    · have hzero : records.countP (fun r => r.host == host) = 0 := by
        rw [List.countP_eq_zero]
        exact fun r hr he => hmem ⟨r, hr, beq_iff_eq.1 he⟩
      simp [hhost, hmem, hzero]

lemma of_mem_hostCounts {host : String} {n : Nat} (h : (host, n) ∈ (hostCounts records).entries) :
    (∃ r ∈ records, r.host = host) ∧ n = records.countP fun r => r.host == host := by
  have hget := Table.mem_entries.1 h
  rw [get?_hostCounts, Option.ite_none_right_eq_some, Option.some_inj] at hget
  exact ⟨hget.1.2, hget.2.symm⟩

lemma pos_of_mem_hostCounts : ∀ e ∈ (hostCounts records).entries, 0 < e.2 := by
  rintro ⟨host, n⟩ he
  obtain ⟨⟨r, hr, hhost⟩, rfl⟩ := of_mem_hostCounts he
  exact List.countP_pos_iff.2 ⟨r, hr, beq_iff_eq.2 hhost⟩

lemma sum_hostCounts (records : List AuditRecord) :
    ((hostCounts records).entries.map (·.2)).sum + records.countP (·.host.isEmpty) =
      records.length := by
  have hvalues : (hostCounts records).entries.map (·.2) =
      (hostCounts records).keys.map fun h => records.countP fun r => r.host == h := by
    rw [Table.keys, List.map_map]
    exact List.map_congr_left fun e he => (of_mem_hostCounts he).2
  have hnodup : (hostCounts records).keys.Nodup :=
    (Table.pairwise_keys _).imp fun hlt => String.ne_of_lt hlt
  rw [hvalues, sum_countP hnodup, List.length_eq_countP_add_countP (·.host.isEmpty), Nat.add_comm]
  congr 1
  refine List.countP_congr fun r hr => ?_
  have hkey : r.host ∈ (hostCounts records).keys ↔ r.host ≠ "" := by
    simp only [Table.mem_keys, get?_hostCounts, Option.ite_none_right_eq_some]
    constructor
    · rintro ⟨-, h, -⟩
      exact h.1
    · exact fun h => ⟨_, ⟨h, r, hr, rfl⟩, rfl⟩
  simp [hkey]

lemma increment_counts (all : List κ) (f : AuditRecord → κ) (records : List AuditRecord)
    (r : AuditRecord) :
    increment all (counts all f records) (f r) = counts all f (records ++ [r]) := by
  refine congrArg (List.filter _) (List.map_congr_left fun k hk => Prod.ext rfl ?_)
  have hlast : [r].countP (fun r => f r == k) = if k = f r then 1 else 0 := by
    rw [List.countP_singleton]
    exact if_congr (beq_iff_eq.trans eq_comm) rfl rfl
  dsimp only
  rw [lookup_counts, if_pos hk, List.countP_append, hlast]

lemma insert_hostCounts (records : List AuditRecord) (r : AuditRecord) :
    (if r.host.isEmpty then hostCounts records else (hostCounts records).insert r.host
      (((hostCounts records).get? r.host).getD 0 + 1)) = hostCounts (records ++ [r]) := by
  refine Table.eq_of_get? fun host n => ?_
  have hlast : [r].countP (fun s => s.host == host) = if r.host = host then 1 else 0 := by
    simp [List.countP_singleton]
  have hmem : (∃ s ∈ records ++ [r], s.host = host) ↔
      (∃ s ∈ records, s.host = host) ∨ r.host = host := by
    simp [or_and_right, exists_or]
  rw [get?_hostCounts (records ++ [r]), List.countP_append, hlast]
  simp only [hmem]
  by_cases hempty : r.host.isEmpty = true
  · have hnone : r.host = "" := String.isEmpty_iff.1 hempty
    rw [if_pos hempty, get?_hostCounts, hnone]
    by_cases hhost : host = ""
    · simp [hhost]
    · simp [hhost, Ne.symm hhost]
  · have hsome : r.host ≠ "" := fun h => hempty (String.isEmpty_iff.2 h)
    rw [if_neg hempty]
    by_cases hhost : host = r.host
    · subst hhost
      rw [Table.get?_insert_self, hostCounts_getD]
      simp [hsome]
    · rw [Table.get?_insert_of_ne _ hhost, get?_hostCounts]
      simp [Ne.symm hhost]

lemma tallied_concat {r : AuditRecord} (h : inWindow start stop r = true) :
    (tallied start stop inside).add r = tallied start stop (inside ++ [r]) := by
  have hlength : inside.length + 1 = (inside ++ [r]).length := by simp
  have hlast (p : AuditRecord → Bool) :
      inside.countP p + (if p r then 1 else 0) = (inside ++ [r]).countP p := by
    rw [List.countP_append, List.countP_singleton]
  have hin : inWindow (tallied start stop inside).windowStart
      (tallied start stop inside).windowEnd r = true := h
  rw [add, if_pos hin]
  simp only [tallied, increment_counts, insert_hostCounts, hlength, hlast (·.risk.isHigh),
    hlast fun r => r.event == .insecureModeUsed && r.allowed]

lemma ofRecords_eq (records : List AuditRecord) (start stop : Instant) :
    ofRecords records start stop = tallied start stop (records.filter (inWindow start stop)) := by
  induction records using List.reverseRecOn with
  | nil => rfl
  | append_singleton records r ih =>
    rw [ofRecords, List.foldl_append, List.filter_append]
    rw [ofRecords] at ih
    rw [ih, List.foldl_cons, List.foldl_nil]
    cases h : inWindow start stop r with
    | true => rw [tallied_concat h, List.filter_cons_of_pos h, List.filter_nil]
    | false =>
      have hin : ¬ inWindow (tallied start stop (records.filter (inWindow start stop))).windowStart
          (tallied start stop (records.filter (inWindow start stop))).windowEnd r = true := by
        rw [tallied, h]
        decide
      rw [add, if_neg hin, List.filter_cons_of_neg (by rw [h]; decide), List.filter_nil,
        List.append_nil]

lemma tallies_tallied (start stop : Instant) (inside : List AuditRecord) :
    (tallied start stop inside).Tallies inside where
  total := rfl
  event e := (lookup_counts _ _ e).trans (if_pos e.mem_all)
  risk level := (lookup_counts _ _ level).trans (if_pos level.mem_all)
  host := hostCounts_getD _
  highRisk := List.countP_congr fun r _ => by cases r.risk <;> simp [Risk.isHigh]
  insecureModeUsages := rfl

lemma tallies_ofRecords (records : List AuditRecord) (start stop : Instant) :
    (ofRecords records start stop).Tallies (records.filter (inWindow start stop)) := by
  rw [ofRecords_eq]
  exact tallies_tallied _ _ _

lemma Tallies.isSum {xs ys : List AuditRecord} (h : s.Tallies inside) (ha : a.Tallies xs)
    (hb : b.Tallies ys) (hperm : inside.Perm (xs ++ ys)) : s.IsSum a b where
  total := by rw [h.total, ha.total, hb.total, hperm.length_eq, List.length_append]
  event e := by rw [h.event, ha.event, hb.event, hperm.countP_eq, List.countP_append]
  risk level := by rw [h.risk, ha.risk, hb.risk, hperm.countP_eq, List.countP_append]
  host host := by
    rw [h.host, ha.host, hb.host, hperm.countP_eq, List.countP_append]
    split <;> rfl
  highRisk := by rw [h.highRisk, ha.highRisk, hb.highRisk, hperm.countP_eq, List.countP_append]
  insecureModeUsages := by
    rw [h.insecureModeUsages, ha.insecureModeUsages, hb.insecureModeUsages, hperm.countP_eq,
      List.countP_append]

lemma filter_inWindow_perm (records : List AuditRecord) (h : start ≤ mid) (h' : mid ≤ stop) :
    (records.filter (inWindow start stop)).Perm
      (records.filter (inWindow start mid) ++ records.filter (inWindow mid stop)) := by
  have hsplit := List.filter_append_perm (fun r => decide (r.time ≤ mid))
    (records.filter (inWindow start stop))
  rw [Instant.le_iff] at h h'
  have hbefore : ∀ r : AuditRecord, (decide (r.time ≤ mid) && inWindow start stop r) =
      inWindow start mid r := by
    intro r
    rw [Bool.eq_iff_iff]
    simp only [inWindow, Bool.and_eq_true, decide_eq_true_eq, Instant.lt_iff, Instant.le_iff]
    omega
  have hafter : ∀ r : AuditRecord, (!decide (r.time ≤ mid) && inWindow start stop r) =
      inWindow mid stop r := by
    intro r
    rw [Bool.eq_iff_iff]
    simp only [inWindow, Bool.and_eq_true, Bool.not_eq_true', decide_eq_true_eq,
      decide_eq_false_iff_not, Instant.lt_iff, Instant.le_iff]
    omega
  rw [List.filter_filter, List.filter_filter] at hsplit
  simp only [hbefore, hafter] at hsplit
  exact hsplit.symm

lemma ofRecords_perm (h : records.Perm records') (start stop : Instant) :
    ofRecords records start stop = ofRecords records' start stop := by
  have hinside := h.filter (inWindow start stop)
  have hhosts : hostCounts (records.filter (inWindow start stop)) =
      hostCounts (records'.filter (inWindow start stop)) := by
    refine Table.eq_of_get? fun host n => ?_
    simp only [get?_hostCounts, hinside.countP_eq, hinside.mem_iff]
  simp only [ofRecords_eq, tallied, counts, hhosts, hinside.countP_eq, hinside.length_eq]

lemma balances_tallied (start stop : Instant) (inside : List AuditRecord) :
    (tallied start stop inside).Balances (inside.countP (·.host.isEmpty)) where
  eventKeys := keys_counts _ _
  riskKeys := keys_counts _ _
  pos := ⟨pos_of_mem_counts, pos_of_mem_counts, pos_of_mem_hostCounts⟩
  events := sum_counts (by decide) EventType.mem_all _
  risks := sum_counts (by decide) Risk.mem_all _
  hosts := sum_hostCounts _
  highRisk := by
    have hs := tallies_tallied start stop inside
    have hnodup : [Risk.high, .critical].Nodup := by decide
    have hlevels := sum_countP hnodup (·.risk) inside
    simp only [List.map_cons, List.map_nil, List.sum_cons, List.sum_nil, Nat.add_zero, List.mem_pair,
      Bool.decide_or] at hlevels
    rw [hs.highRisk, hs.risk, hs.risk]
    exact hlevels.symm
  insecureModeUsages := by
    have hs := tallies_tallied start stop inside
    rw [hs.insecureModeUsages, hs.event]
    exact List.countP_mono_left fun r _ h => (Bool.and_eq_true _ _ ▸ h).1

lemma balances_ofRecords (records : List AuditRecord) (start stop : Instant) :
    (ofRecords records start stop).Balances
      ((records.filter (inWindow start stop)).countP (·.host.isEmpty)) := by
  rw [ofRecords_eq]
  exact balances_tallied _ _ _

/-- A summary counts each record of its window once, in whichever order the records come. Its counts
add up over lists of records, over adjoining windows, and over the groups of each table. -/
theorem summary_adds_up (records : List AuditRecord) (start stop : Instant) :
    let s := ofRecords records start stop
    let inside := records.filter fun r => start < r.time ∧ r.time ≤ stop
    s.Tallies inside ∧ s.Balances (inside.countP (·.host.isEmpty)) ∧
      (∀ records', records.Perm records' → ofRecords records' start stop = s) ∧
      (∀ more, (ofRecords (records ++ more) start stop).IsSum s (ofRecords more start stop)) ∧
      ∀ mid, start ≤ mid → mid ≤ stop →
        s.IsSum (ofRecords records start mid) (ofRecords records mid stop) := by
  intro s inside
  have hinside : inside = records.filter (inWindow start stop) := by
    refine List.filter_congr fun r _ => ?_
    rw [inWindow, Bool.decide_and]
  rw [hinside]
  refine ⟨tallies_ofRecords .., balances_ofRecords .., fun _ h => (ofRecords_perm h ..).symm,
    fun more => ?_, fun mid h h' => ?_⟩
  · refine (tallies_ofRecords ..).isSum (tallies_ofRecords ..) (tallies_ofRecords ..) ?_
    rw [List.filter_append]
  · exact (tallies_ofRecords ..).isSum (tallies_ofRecords ..) (tallies_ofRecords ..)
      (filter_inWindow_perm records h h')

theorem records_at_ends_count_once :
    let record (second : Int) (host : String) : AuditRecord :=
      .new { id := ⟨List.replicate 32 0, rfl⟩, time := .atSecond second } .riskAccepted host
    let records := [record 0 "a.io", record 30 "b.io", record 60 ""]
    let summary (first last : Int) := ofRecords records (.atSecond first) (.atSecond last)
    records.Perm records.reverse ∧ Instant.atSecond 0 ≤ .atSecond 30 ∧
      Instant.atSecond 30 ≤ .atSecond 60 ∧
      ofRecords records.reverse (.atSecond 0) (.atSecond 60) = summary 0 60 ∧
      (summary 0 60).IsSum (summary 0 30) (summary 30 60) ∧
      (summary 0 60).total = 2 ∧ (summary 0 30).total = 1 ∧ (summary 30 60).byHost = .empty := by
  intro record records summary
  obtain ⟨-, -, hperm, -, hwindows⟩ := summary_adds_up records (.atSecond 0) (.atSecond 60)
  have hrev : records.Perm records.reverse := (List.reverse_perm records).symm
  have hstart : Instant.atSecond 0 ≤ .atSecond 30 := by decide
  have hstop : Instant.atSecond 30 ≤ .atSecond 60 := by decide
  exact ⟨hrev, hstart, hstop, hperm _ hrev, hwindows _ hstart hstop, by decide +kernel,
    by decide +kernel, by decide +kernel⟩

end AuditSummary

end TlsTrust
