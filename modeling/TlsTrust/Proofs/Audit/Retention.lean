import TlsTrust.Proofs.Audit.Cleanup
import TlsTrust.Proofs.Audit.Listing
import TlsTrust.Proofs.Time.Elapsed

/-!
A cleanup goes by the time at which a file was opened, so a line stays for the retention less the
age to which its file is written.
-/

namespace TlsTrust

namespace Instant

variable {r s t u : Instant} {ts : List Instant} {age retention : Duration}

lemma since_toMillis_le (s t : Instant) : t.since s.toMillis ≤ t.since s + 999999 := by
  have hsecond : s.toMillis.second = s.second := rfl
  have hnano : s.toMillis.nano = s.nano / 1000000 * 1000000 := rfl
  simp only [since, isLeap_toMillis, secondOfDay, hsecond, hnano]
  dsimp only [Duration]
  cases s.isLeap <;> cases t.isLeap <;>
    simp only [and_true, and_false, if_false, Bool.false_eq_true] <;> omega

lemma since_settled_le (s t : Instant) : t.since s.settled ≤ t.since s := by
  by_cases h : s.isLeap = true ∧ s.second % 60 ≠ 59
  · have hsettled : s.settled =
        ⟨s.second + 1, s.nano - 1000000000, by have := s.nano_lt; omega⟩ := if_pos h
    have hnano : 1000000000 ≤ s.nano := by simpa [isLeap] using h.1
    have hplain : s.settled.isLeap = false := by
      have hlt := s.nano_lt
      simp only [hsettled, isLeap, decide_eq_false_iff_not]
      omega
    have hsecond : s.settled.second = s.second + 1 := by rw [hsettled]
    have hrest : (s.settled.nano : Int) = s.nano - 1000000000 := by
      simp only [hsettled]
      omega
    simp only [since, secondOfDay, hplain, h.1, hsecond, hrest, Bool.false_eq_true, and_false,
      and_true, if_false]
    dsimp only [Duration]
    cases t.isLeap <;>
      simp only [and_true, and_false, if_false, Bool.false_eq_true] <;> split_ifs <;> omega
  · exact Int.le_of_eq (by rw [settled, if_neg h])

lemma since_stamp_le_retention (hr : r ∈ ts) (hs : s ∈ ts) (ht : t ∈ ts) (hu : u ∈ ts)
    (hrs : r ≤ s) (hsu : s ≤ u) (hage : t.since r < age)
    (hlate : u.since t ≤ retention - age - Duration.ofMillis 1 - leapAllowance ts) :
    s.since r.settled.toMillis ≤ retention := by
  have hadd := since_le_add hr hs ht hu hrs hsu
  have hmillis := r.settled.since_toMillis_le s
  have hsettled := r.since_settled_le s
  simp only [Duration.ofMillis] at hlate
  dsimp only [Duration] at *
  omega

end Instant

namespace LogWriter

variable {w : LogWriter} {line name : String} {later : Instant} {old : List UInt8} {o : OpenLog} {ts : List Instant}

lemma get?_append_self (h : w.folder.paths.get? o.path = some (.file old)) (bytes : List UInt8) :
    (w.append o bytes).folder.paths.get? o.path = some (.file (old ++ bytes)) := by
  rw [append_eq h]
  exact Table.get?_insert_self _ _ _

lemma get?_append_of_ne (h : name ≠ o.path) (bytes : List UInt8) :
    (w.append o bytes).folder.paths.get? name = w.folder.paths.get? name :=
  Table.get?_insert_of_ne _ h _

inductive Outcome (w : LogWriter) (line : String) (later : Instant) :
    Option DiskError × LogWriter → Prop
  | failed (e : DiskError) : Outcome w line later
      (some e, { w with folder := w.folder.created, current := none, now := later })
  | begun : Outcome w line later
      (none, ((w.started (w.freeName w.folder.paths) line).moved later).cleaned)
  | continued (o : OpenLog) (hcurrent : w.current = some o)
      (hage : w.now.since o.openedAt < w.config.maxFileAge) :
      Outcome w line later (none, (w.append o (lineBytes line)).moved later)

lemma outcome (w : LogWriter) (line : String) (later : Instant) :
    Outcome w line later (w.log line later) := by
  unfold log
  dsimp only
  split
  case isTrue =>
    cases hopen : ({ w with current := none } : LogWriter).openNew with
    | error e => exact .failed e
    | ok w₁ =>
      obtain rfl := openNew_eq_ok hopen
      -- the file is still empty when the line is appended to it
      have hbegun := w.append_eq_started (w.freeName w.folder.paths) line
      exact (congrArg (fun w₂ => Outcome w line later (none, (moved w₂ later).cleaned)) hbegun).mpr
        .begun
  case isFalse hrotates =>
    cases hcurrent : w.current with
    | none => simp [rotates, hcurrent] at hrotates
    | some o =>
      have hage : ¬ w.config.maxFileAge ≤ w.now.since o.openedAt := by
        intro hold
        simp [rotates, hcurrent, needsRotation, hold] at hrotates
      exact .continued o hcurrent (Int.not_le.1 hage)

lemma settings_log (w : LogWriter) (line : String) (later : Instant) :
    (w.log line later).2.config = w.config ∧ (w.log line later).2.now = later := by
  have h := w.outcome line later
  generalize w.log line later = result at h
  cases h with
  | failed e => exact ⟨rfl, rfl⟩
  | begun =>
    rw [cleaned_eq]
    exact ⟨rfl, rfl⟩
  | continued o hcurrent hage => exact ⟨rfl, rfl⟩

/-- The current file was opened at one of some times, has a name of that time, and is in the folder. -/
structure Placed (w : LogWriter) (ts : List Instant) (o : OpenLog) : Prop where
  mem : o.openedAt ∈ ts
  name_eq : ∃ n, o.path = LogFile.name w.config.base o.openedAt n
  file_eq : ∃ bytes, w.folder.paths.get? o.path = some (.file bytes)

lemma logged (h : ∀ o, w.current = some o → w.Placed ts o) (hage : 0 < w.config.maxFileAge)
    (hlog : (w.log line later).1 = none) :
    ∃ o old, (w.log line later).2.current = some o ∧ w.now.since o.openedAt < w.config.maxFileAge ∧
      (w.log line later).2.folder.paths.get? o.path = some (.file (old ++ lineBytes line)) := by
  have hw := w.outcome line later
  generalize w.log line later = result at hw hlog ⊢
  cases hw with
  | failed e => cases hlog
  | begun =>
    have hcurrent : ((w.started (w.freeName w.folder.paths) line).moved later).current = some _ :=
      w.current_started _ line
    refine ⟨_, [], by rw [cleaned_eq]; exact hcurrent, ?_, ?_⟩
    · show w.now.since w.now < w.config.maxFileAge
      rwa [since_self]
    · exact get?_cleaned.2 ⟨w.get?_started_self _ line, isExpired_of_current hcurrent _⟩
  | continued o hcurrent hyoung =>
    obtain ⟨old, hold⟩ := (h o hcurrent).file_eq
    exact ⟨_, old, rfl, hyoung, get?_append_self hold _⟩

lemma placed_log (hnow : w.now ∈ ts) (h : ∀ o, w.current = some o → w.Placed ts o) (line : String)
    (later : Instant) :
    ∀ o, (w.log line later).2.current = some o → (w.log line later).2.Placed ts o := by
  have hw := w.outcome line later
  generalize w.log line later = result at hw
  intro o ho
  cases hw with
  | failed e => cases ho
  | begun =>
    have hcurrent : ((w.started (w.freeName w.folder.paths) line).moved later).current = some _ :=
      w.current_started _ line
    -- the cleanup comes when the new file is the current one already
    have hspared := isExpired_of_current hcurrent (.file (lineBytes line))
    have hstarted := w.get?_started_self (w.freeName w.folder.paths) line
    have hfile := get?_cleaned (w := (w.started (w.freeName w.folder.paths) line).moved later).2
      ⟨hstarted, hspared⟩
    rw [cleaned_eq] at ho
    obtain rfl := Option.some.inj (hcurrent.symm.trans ho)
    rw [cleaned_eq]
    exact ⟨hnow, w.freeName_eq _, _, hfile⟩
  | continued o' hcurrent hyoung =>
    obtain rfl := Option.some.inj ho
    obtain ⟨hmem, hname, old, hold⟩ := h o' hcurrent
    exact ⟨hmem, hname, _, get?_append_self hold _⟩

lemma kept_log (hfile : w.folder.paths.get? name = some (.file old))
    (hyoung : (w.moved later).isOutdated name = false) (line : String) :
    ∃ more, (w.log line later).2.folder.paths.get? name = some (.file (old ++ more)) := by
  have hw := w.outcome line later
  generalize w.log line later = result at hw
  cases hw with
  | failed e => exact ⟨[], by rw [List.append_nil, LogFolder.paths_created, hfile]⟩
  | begun =>
    have hne : name ≠ w.freeName w.folder.paths := by
      rintro rfl
      rw [w.get?_freeName] at hfile
      cases hfile
    have hyoung' : ((w.started (w.freeName w.folder.paths) line).moved later).isOutdated name =
      false := hyoung
    refine ⟨[], get?_cleaned.2 ⟨?_, isExpired_of_not_outdated hyoung' _⟩⟩
    rw [List.append_nil]
    exact (w.get?_started_of_ne hne line).trans hfile
  | continued o hcurrent hage =>
    by_cases hname : name = o.path
    · subst hname
      exact ⟨_, get?_append_self hfile _⟩
    · refine ⟨[], ?_⟩
      rw [List.append_nil]
      exact (get?_append_of_ne hname _).trans hfile

/-- A line for the log, a cleanup that is asked for, or a move of the clock. The clock may move while
a line is logged too. -/
inductive Task where
  | log (line : String) (later : Option Instant := none)
  | cleanup
  | setClock (t : Instant)
deriving DecidableEq

def Task.time? : Task → Option Instant
  | .log _ later => later
  | .cleanup => none
  | .setClock t => some t

def carryOut (w : LogWriter) : Task → LogWriter
  | .log line later => (w.log line (later.getD w.now)).2
  | .cleanup => w.cleaned
  | .setClock t => w.moved t

def work (w : LogWriter) (tasks : List Task) : LogWriter :=
  tasks.foldl carryOut w

def readings (w : LogWriter) (tasks : List Task) : List Instant :=
  w.now :: tasks.filterMap Task.time?

variable {tasks : List Task}

lemma work_append (w : LogWriter) (before after : List Task) :
    w.work (before ++ after) = (w.work before).work after :=
  List.foldl_append

lemma config_carryOut (w : LogWriter) (task : Task) : (w.carryOut task).config = w.config := by
  cases task with
  | log line later => exact (w.settings_log line _).1
  | cleanup =>
    rw [carryOut, cleaned_eq]
  | setClock t => rfl

lemma now_carryOut (w : LogWriter) (task : Task) :
    (w.carryOut task).now = task.time?.getD w.now := by
  cases task with
  | log line later => exact (w.settings_log line _).2
  | cleanup =>
    rw [carryOut, cleaned_eq]
    rfl
  | setClock t => rfl

lemma config_work (w : LogWriter) (tasks : List Task) : (w.work tasks).config = w.config := by
  induction tasks generalizing w with
  | nil => rfl
  | cons task tasks ih => exact (ih _).trans (w.config_carryOut task)

lemma readings_cons_sublist (w : LogWriter) (task : Task) (tasks : List Task) :
    ((w.carryOut task).readings tasks).Sublist (w.readings (task :: tasks)) := by
  unfold readings
  rw [now_carryOut]
  cases htime : task.time? with
  | none => simp [htime]
  | some t => simp [htime]

lemma readings_append_left (w : LogWriter) (before after : List Task) :
    (w.readings before).Sublist (w.readings (before ++ after)) := by
  rw [readings, readings, List.filterMap_append]
  exact (List.sublist_append_left _ _).cons_cons _

lemma readings_sublist (w : LogWriter) (before after : List Task) :
    ((w.work before).readings after).Sublist (w.readings (before ++ after)) := by
  induction before generalizing w with
  | nil => exact .refl _
  | cons task before ih => exact (ih _).trans (w.readings_cons_sublist task _)

lemma now_work (w : LogWriter) (tasks : List Task) :
    (w.readings tasks).getLast? = some (w.work tasks).now := by
  induction tasks generalizing w with
  | nil => rfl
  | cons task tasks ih =>
    refine Eq.trans ?_ (ih _)
    unfold readings
    rw [now_carryOut]
    cases htime : task.time? with
    | none => simp [htime]
    | some t => simp [htime]

lemma now_work_mem (w : LogWriter) (tasks : List Task) : (w.work tasks).now ∈ w.readings tasks :=
  List.mem_of_getLast? (w.now_work tasks)

lemma le_now_work (h : (w.readings tasks).Pairwise (· ≤ ·)) :
    ∀ t ∈ w.readings tasks, t ≤ (w.work tasks).now := by
  obtain ⟨ts, hts⟩ := List.getLast?_eq_some_iff.1 (w.now_work tasks)
  rw [hts, List.pairwise_append] at h
  rw [hts]
  exact List.forall_mem_append.2 ⟨fun t ht => h.2.2 t ht _ List.mem_cons_self,
    List.forall_mem_singleton.2 (Int.le_refl _)⟩

lemma since_stamp_le {before after : List Task} {r : Instant} {age retention : Duration}
    (hclock : (w.readings (before ++ after)).Pairwise (· ≤ ·)) (hr : r ∈ w.readings before)
    (hyoung : (w.work before).now.since r < age)
    (hlate : (w.work (before ++ after)).now.since (w.work before).now ≤
      retention - age - Duration.ofMillis 1 - Instant.leapAllowance (w.readings (before ++ after))) :
    ∀ t ∈ (w.work before).readings after, t.since r.settled.toMillis ≤ retention := by
  intro t ht
  have hbefore := w.readings_append_left before after
  have hfrom := w.readings_sublist before after
  have hnow_le : (w.work before).now ≤ t := by
    rcases List.mem_cons.1 ht with rfl | hlater
    · exact Int.le_refl _
    · exact (List.pairwise_cons.1 (hclock.sublist hfrom)).1 t hlater
  have hr_le := Int.le_trans (le_now_work (hclock.sublist hbefore) r hr) hnow_le
  exact Instant.since_stamp_le_retention (hbefore.subset hr) (hfrom.subset ht)
    (hbefore.subset (w.now_work_mem before)) (w.now_work_mem _) hr_le
    (le_now_work hclock t (hfrom.subset ht)) hyoung hlate

lemma placed_carryOut (hnow : w.now ∈ ts) (h : ∀ o, w.current = some o → w.Placed ts o)
    (task : Task) : ∀ o, (w.carryOut task).current = some o → (w.carryOut task).Placed ts o := by
  cases task with
  | log line later => exact placed_log hnow h line _
  | cleanup =>
    intro o ho
    have ho' : w.current = some o := by
      rwa [carryOut, cleaned_eq] at ho
    obtain ⟨hmem, hname, bytes, hbytes⟩ := h o ho'
    have hfile := get?_cleaned.2 ⟨hbytes, isExpired_of_current ho' _⟩
    rw [carryOut, cleaned_eq]
    exact ⟨hmem, hname, bytes, hfile⟩
  | setClock t => exact fun o ho => ⟨(h o ho).mem, (h o ho).name_eq, (h o ho).file_eq⟩

lemma placed_work (h : ∀ o, w.current = some o → w.Placed ts o) (hts : w.readings tasks ⊆ ts) :
    ∀ o, (w.work tasks).current = some o → (w.work tasks).Placed ts o := by
  induction tasks generalizing w with
  | nil => exact h
  | cons task tasks ih =>
    exact ih (placed_carryOut (hts List.mem_cons_self) h task) fun t ht =>
      hts ((w.readings_cons_sublist task tasks).subset ht)

lemma kept_work {s : Instant} (hstamp : LogFile.stamp? w.config.base name = some s)
    (hfile : w.folder.paths.get? name = some (.file old))
    (hyoung : ∀ t ∈ w.readings tasks, t.since s ≤ w.config.retention) :
    ∃ more, (w.work tasks).folder.paths.get? name = some (.file (old ++ more)) := by
  induction tasks generalizing w old with
  | nil => exact ⟨[], by rw [List.append_nil]; exact hfile⟩
  | cons task tasks ih =>
    have houtdated : ∀ t ∈ w.readings (task :: tasks), (w.moved t).isOutdated name = false := by
      intro t ht
      have hstamp' : LogFile.stamp? (w.moved t).config.base name = some s := hstamp
      rw [isOutdated, hstamp']
      exact decide_eq_false (Int.not_lt.2 (hyoung t ht))
    obtain ⟨more, hmore⟩ : ∃ more, (w.carryOut task).folder.paths.get? name =
        some (.file (old ++ more)) := by
      cases task with
      | log line later =>
        refine kept_log hfile (houtdated _ ?_) line
        cases later with
        | none => exact List.mem_cons_self
        | some t => exact List.mem_cons_of_mem _ List.mem_cons_self
      | cleanup =>
        refine ⟨[], ?_⟩
        rw [List.append_nil]
        exact get?_cleaned.2
          ⟨hfile, isExpired_of_not_outdated (houtdated _ List.mem_cons_self) _⟩
      | setClock t => exact ⟨[], by rw [List.append_nil]; exact hfile⟩
    rw [← w.config_carryOut task] at hstamp hyoung
    obtain ⟨rest, hrest⟩ := ih hstamp hmore fun t ht =>
      hyoung t ((w.readings_cons_sublist task tasks).subset ht)
    exact ⟨more ++ rest, by rw [← List.append_assoc]; exact hrest⟩

/-- The current file is never deleted. Under a clock that does not go back, a line is still in its file
at a time that is within the retention, less the age of the file, the rest of a millisecond that its
name leaves out, and what leap seconds may add. -/
theorem lines_are_kept_for_retention (hnew : w.current = none) (tasks : List Task) :
    (∀ o, (w.work tasks).current = some o →
      ∃ bytes, (w.work tasks).folder.read o.path = .ok bytes) ∧
    (0 < w.config.maxFileAge → (∀ t ∈ w.readings tasks, t.HasStamp) →
      (w.readings tasks).Pairwise (· ≤ ·) →
      ∀ before line later after w', tasks = before ++ .log line later :: after →
        (w.work before).log line (later.getD (w.work before).now) = (none, w') →
        (w.work tasks).now.since (w.work before).now ≤ w.config.retention - w.config.maxFileAge -
          Duration.ofMillis 1 - Instant.leapAllowance (w.readings tasks) →
        ∃ o old more, w'.current = some o ∧
          w'.folder.read o.path = .ok (old ++ lineBytes line) ∧
          (w.work tasks).folder.read o.path = .ok (old ++ lineBytes line ++ more)) := by
  have hstart : ∀ ts, ∀ o, w.current = some o → w.Placed ts o := by simp [hnew]
  refine ⟨fun o ho => ?_, ?_⟩
  · obtain ⟨bytes, hbytes⟩ := (placed_work (hstart _) (List.Subset.refl _) o ho).file_eq
    exact ⟨bytes, by rw [LogFolder.read, hbytes]⟩
  rintro hage hstamps hclock before line later after w' rfl hlog hlate
  have hsecond : w' = ((w.work before).log line (later.getD (w.work before).now)).2 := by rw [hlog]
  have hfirst : ((w.work before).log line (later.getD (w.work before).now)).1 = none := by rw [hlog]
  have hcarried : (w.work before).carryOut (.log line later) = w' := hsecond.symm
  have hwork : w.work (before ++ .log line later :: after) = w'.work after := by
    rw [← hcarried]
    exact w.work_append before _
  have hconfig : w'.config = w.config := by
    rw [← hcarried, config_carryOut, config_work]
  have hplaced := placed_work (hstart _) (List.Subset.refl (w.readings before))
  obtain ⟨o, old, hcurrent, hyoung, hfile⟩ := logged hplaced (by rwa [config_work]) hfirst
  obtain ⟨hopened, ⟨n, hname⟩, -⟩ := placed_log (w.now_work_mem before) hplaced line _ o hcurrent
  rw [← hsecond] at hcurrent hfile hname
  have hafter : (w'.readings after).Sublist
      ((w.work before).readings (.log line later :: after)) := by
    rw [← hcarried]
    exact (w.work before).readings_cons_sublist _ after
  have hstamp : LogFile.stamp? w'.config.base o.path = some o.openedAt.settled.toMillis := by
    rw [hname]
    exact LogFile.stamp?_name (hstamps _ ((w.readings_append_left _ _).subset hopened)) _ n
  have hretained : ∀ t ∈ w'.readings after,
      t.since o.openedAt.settled.toMillis ≤ w'.config.retention := by
    intro t ht
    rw [config_work] at hyoung
    rw [hconfig]
    exact since_stamp_le hclock hopened hyoung hlate t (hafter.subset ht)
  obtain ⟨more, hmore⟩ := kept_work hstamp hfile hretained
  exact ⟨o, old, more, hcurrent, by rw [LogFolder.read, hfile],
    by rw [hwork, LogFolder.read, hmore]⟩

theorem line_is_kept_past_next_file :
    let w : LogWriter := {
      config := { maxFileAge := Duration.second, retention := Duration.ofSeconds 4 }
      now := .atSecond 0 }
    let tasks : List Task := [.log "a", .setClock (.atSecond 2), .log "b", .cleanup]
    (w.current = none ∧ 0 < w.config.maxFileAge ∧ (∀ t ∈ w.readings tasks, t.HasStamp) ∧
      (w.readings tasks).Pairwise (· ≤ ·) ∧ (w.log "a").1 = none ∧
      (w.work tasks).now.since w.now ≤ w.config.retention - w.config.maxFileAge -
        Duration.ofMillis 1 - Instant.leapAllowance (w.readings tasks)) ∧
    ∃ old more, (w.work tasks).folder.read "security-audit-19700101-000000.000.jsonl" =
      .ok (old ++ lineBytes "a" ++ more) := by
  intro w tasks
  have hage : 0 < w.config.maxFileAge := by decide
  have hstamps : ∀ t ∈ w.readings tasks, t.HasStamp := by decide +kernel
  have hclock : (w.readings tasks).Pairwise (· ≤ ·) := by decide
  have hlog : (w.log "a").1 = none := by decide +kernel
  have hlate : (w.work tasks).now.since w.now ≤ w.config.retention - w.config.maxFileAge -
      Duration.ofMillis 1 - Instant.leapAllowance (w.readings tasks) := by decide +kernel
  obtain ⟨-, hkept⟩ := lines_are_kept_for_retention (w := w) rfl tasks
  obtain ⟨o, old, more, hcurrent, -, hread⟩ :=
    hkept hage hstamps hclock [] "a" none [.setClock (.atSecond 2), .log "b", .cleanup]
      (w.log "a").2 rfl (Prod.ext hlog rfl) hlate
  have hname : (w.log "a").2.current.map OpenLog.path =
      some "security-audit-19700101-000000.000.jsonl" := by decide +kernel
  have hlogged : (w.log "a").2.current = some o := hcurrent
  rw [hlogged, Option.map_some] at hname
  rw [Option.some.inj hname] at hread
  exact ⟨⟨rfl, hage, hstamps, hclock, hlog, hlate⟩, old, more, hread⟩

/-- The third line is written at the end of a leap second, and deletes the file of the second one,
which is past its retention then and not after the leap second. -/
theorem leap_second_deletes_file_early :
    let w : LogWriter := {
      config := { maxFileAge := Duration.second, retention := Duration.ofSeconds 43200 }
      now := { second := 1483185600, nano := 500000000 } }
    let before : List Task := [.log "a", .setClock { second := 1483185601, nano := 499000000 }]
    let tasks : List Task := before ++ .log "b" ::
      [.setClock { second := 1483228799, nano := 1999000000 }, .log "c",
        .setClock (.atSecond 1483228800)]
    (w.current = none ∧ 0 < w.config.maxFileAge ∧ (∀ t ∈ w.readings tasks, t.HasStamp) ∧
      (w.readings tasks).Pairwise (· ≤ ·) ∧ ((w.work before).log "b").1 = none ∧
      (w.work tasks).now.since (w.work before).now ≤
        w.config.retention - w.config.maxFileAge - Duration.ofMillis 1) ∧
    ((w.work before).log "b").2.current.map OpenLog.path =
      some "security-audit-20161231-120000.500.jsonl" ∧
    (w.work tasks).folder.read "security-audit-20161231-120000.500.jsonl" = .error .notFound := by
  decide +kernel

end LogWriter

end TlsTrust
