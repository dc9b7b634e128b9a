import TlsTrust.Audit.LogWriter
import TlsTrust.Proofs.Table
import TlsTrust.Proofs.Text.Digits
import TlsTrust.Proofs.Text.Utf8
import Mathlib.Data.List.Nodup
import Mathlib.Data.List.Perm.Subperm

/-! The lines of a run fill one new file after the other, and no other file changes. -/

namespace TlsTrust

open Text

@[simp] lemma LogFolder.paths_present (entries : Table FolderEntry) :
    (present entries).paths = entries := rfl

@[simp] lemma LogFolder.paths_created (f : LogFolder) : f.created.paths = f.paths := by
  cases f <;> rfl

lemma LogFile.name_inj {base : String} {time : Instant} {m n : Nat}
    (h : name base time m = name base time n) : m = n := by
  have hnumber (m n : Nat) (hm : m ≠ 0) (h : name base time m = name base time n) : m = n := by
    have hchars := congrArg String.toList h
    rw [name, name, if_neg hm] at hchars
    split at hchars
    case isTrue => simp at hchars
    case isFalse =>
      have hrepr : Nat.toDigits 10 m = Nat.toDigits 10 n := by simpa using hchars
      rw [← natOfDigits_toDigits m, hrepr, natOfDigits_toDigits]
  by_cases hm : m = 0
  · by_cases hn : n = 0
    · rw [hm, hn]
    · exact (hnumber n m hn h.symm).symm
  · exact hnumber m n hm h

namespace LogWriter

variable {w w' : LogWriter} {line : String} {later : Instant}

lemma exists_free (entries : Table FolderEntry) (base : String) (time : Instant) :
    ∃ n ∈ List.range (entries.size + 1), (!entries.contains (LogFile.name base time n)) = true := by
  by_contra hall
  have hsub : (List.range (entries.size + 1)).map (LogFile.name base time) ⊆ entries.keys := by
    intro name hname
    obtain ⟨n, hn, rfl⟩ := List.mem_map.1 hname
    have hc : entries.contains (LogFile.name base time n) = true := by
      by_contra hc
      exact hall ⟨n, hn, by simpa using hc⟩
    obtain ⟨e, he, hname⟩ := List.any_eq_true.1 hc
    exact List.mem_map.2 ⟨e, he, by simpa using hname⟩
  have hnodup : ((List.range (entries.size + 1)).map (LogFile.name base time)).Nodup :=
    List.nodup_range.map fun _ _ => LogFile.name_inj
  have hlength := (List.subperm_of_subset hnodup hsub).length_le
  rw [List.length_map, List.length_range, Table.keys, List.length_map] at hlength
  exact absurd hlength (Nat.not_succ_le_self _)

lemma freeName_least (w : LogWriter) (entries : Table FolderEntry) : ∃ n ≤ entries.size,
    w.freeName entries = LogFile.name w.config.base w.now n ∧
      entries.contains (LogFile.name w.config.base w.now n) = false ∧
      ∀ m < n, entries.contains (LogFile.name w.config.base w.now m) = true := by
  obtain ⟨n, hn⟩ := Option.isSome_iff_exists.1
    (List.find?_isSome.2 (exists_free entries w.config.base w.now))
  obtain ⟨hfree, hle, htaken⟩ := List.find?_range_eq_some.1 hn
  refine ⟨n, Nat.le_of_lt_succ (List.mem_range.1 hle), ?_, by simpa using hfree, ?_⟩
  · unfold freeName
    simp only [List.find?_map, Function.comp_def, hn, Option.map_some, Option.getD_some]
  · exact fun m hm => by simpa using htaken m hm

lemma get?_freeName (w : LogWriter) (entries : Table FolderEntry) :
    entries.get? (w.freeName entries) = none := by
  obtain ⟨n, -, hname, hfree, -⟩ := w.freeName_least entries
  rw [hname]
  rwa [Table.contains_eq_isSome_get?, Option.isSome_eq_false_iff, Option.isNone_iff_eq_none] at hfree

lemma create_eq_ok {f f' : LogFolder} (h : f.create = .ok f') : f' = .present f.paths := by
  cases f with
  | absent => exact (Except.ok.inj h).symm
  | present entries => exact (Except.ok.inj h).symm
  | isFile => cases h
  | belowFile => cases h

lemma openNew_eq_ok (h : w.openNew = .ok w') : w' = { w with
    folder := .present (w.folder.paths.insert (w.freeName w.folder.paths) (.file []))
    current := some ⟨w.freeName w.folder.paths, w.now, 0⟩ } := by
  unfold openNew at h
  cases hcreate : w.folder.create with
  | error e =>
    rw [hcreate] at h
    cases h
  | ok f =>
    obtain rfl := create_eq_ok hcreate
    rw [hcreate] at h
    cases hplace : LogFolder.checkPlace w.folder.paths w.config.base with
    | error e => simp [hplace, bind, Except.bind] at h
    | ok _ =>
      simp only [LogFolder.paths_present, hplace, bind, Except.bind, pure, Except.pure] at h
      exact (Except.ok.inj h).symm

lemma cleaned_eq_self (h : ∀ e ∈ w.folder.paths.entries, w.isExpired e.1 e.2 = false) :
    w.cleaned = w := by
  unfold cleaned cleanup
  cases hfolder : w.folder with
  | present entries =>
    have hkept : (entries.filter fun n e => !w.isExpired n e) = entries := by
      rw [hfolder] at h
      exact Table.ext (List.filter_eq_self.2 fun e he => by simpa using h e he)
    simp only [hkept, ← hfolder]
  | _ => rfl

def lineBytes (line : String) : List UInt8 :=
  utf8 line ++ [10]

structure Volume where
  name : String
  openedAt : Instant
  lines : List (Instant × String)

namespace Volume

def opening (v : Volume) : String × Instant :=
  (v.name, v.openedAt)

def bytes (v : Volume) : List UInt8 :=
  v.lines.flatMap fun l => lineBytes l.2

def asOpen (v : Volume) : OpenLog :=
  ⟨v.name, v.openedAt, v.bytes.length⟩

def add (v : Volume) (l : Instant × String) : Volume :=
  { v with lines := v.lines ++ [l] }

lemma bytes_eq_flatMap (v : Volume) :
    v.bytes = (v.lines.map fun l => utf8 l.2).flatMap (· ++ [10]) := by
  simp [bytes, lineBytes, List.flatMap_map]

@[simp] lemma bytes_singleton (name : String) (t : Instant) (l : Instant × String) :
    (⟨name, t, [l]⟩ : Volume).bytes = lineBytes l.2 := by
  simp [bytes]

@[simp] lemma bytes_add (v : Volume) (l : Instant × String) :
    (v.add l).bytes = v.bytes ++ lineBytes l.2 := by
  simp [bytes, add]

lemma map_name_add (us : List Volume) (v : Volume) (l : Instant × String) :
    (us ++ [v.add l]).map name = (us ++ [v]).map name := by
  simp [add]

lemma nodup_concat {us : List Volume} {v : Volume} : ((us ++ [v]).map name).Nodup ↔
    (us.map name).Nodup ∧ ∀ u ∈ us, u.name ≠ v.name := by
  simp [List.nodup_append]

end Volume

def started (w : LogWriter) (name line : String) : LogWriter :=
  { w with
    folder := .present
      ((w.folder.paths.insert name (.file [])).insert name (.file (lineBytes line)))
    current := some ⟨name, w.now, (lineBytes line).length⟩ }

def extended (w : LogWriter) (v : Volume) (line : String) : LogWriter :=
  { w with
    folder := .present (w.folder.paths.insert v.name (.file (v.bytes ++ lineBytes line)))
    current := some ⟨v.name, v.openedAt, v.bytes.length + (lineBytes line).length⟩ }

lemma get?_started_self (w : LogWriter) (name line : String) :
    (w.started name line).folder.paths.get? name = some (.file (lineBytes line)) :=
  Table.get?_insert_self _ _ _

lemma get?_started_of_ne {name other : String} (w : LogWriter) (h : other ≠ name) (line : String) :
    (w.started name line).folder.paths.get? other = w.folder.paths.get? other :=
  (Table.get?_insert_of_ne _ h _).trans (Table.get?_insert_of_ne _ h _)

lemma get?_extended_self (w : LogWriter) (v : Volume) (line : String) :
    (w.extended v line).folder.paths.get? v.name = some (.file (v.bytes ++ lineBytes line)) :=
  Table.get?_insert_self _ _ _

lemma get?_extended_of_ne {v : Volume} {other : String} (w : LogWriter) (h : other ≠ v.name)
    (line : String) :
    (w.extended v line).folder.paths.get? other = w.folder.paths.get? other :=
  Table.get?_insert_of_ne _ h _

lemma current_started (w : LogWriter) (name line : String) : (w.started name line).current =
    some (⟨name, w.now, [(w.now, line)]⟩ : Volume).asOpen := by
  rw [Volume.asOpen, Volume.bytes_singleton]
  rfl

lemma current_extended (w : LogWriter) (v : Volume) (t : Instant) (line : String) :
    (w.extended v line).current = some (v.add (t, line)).asOpen := by
  rw [Volume.asOpen, Volume.bytes_add, List.length_append]
  rfl

lemma append_eq {o : OpenLog} {old : List UInt8} (h : w.folder.paths.get? o.path = some (.file old))
    (bytes : List UInt8) : w.append o bytes = { w with
      folder := .present (w.folder.paths.insert o.path (.file (old ++ bytes)))
      current := some { o with written := o.written + bytes.length } } := by
  simp only [append, h]

lemma append_eq_started (w : LogWriter) (name line : String) :
    ({ w with
      folder := .present (w.folder.paths.insert name (.file []))
      current := some ⟨name, w.now, 0⟩ } : LogWriter).append ⟨name, w.now, 0⟩ (lineBytes line) =
        w.started name line := by
  have hempty : (w.folder.paths.insert name (.file [])).get? name = some (.file []) :=
    Table.get?_insert_self _ _ _
  simp only [append, LogFolder.paths_present, hempty, List.nil_append, Nat.zero_add, started]

lemma log_of_rotates (hrotates : w.rotates (lineBytes line).length = true)
    (h : (w.log line later).1 = none) : (w.log line later).2 =
      ((w.started (w.freeName w.folder.paths) line).moved later).cleaned := by
  unfold lineBytes at hrotates
  unfold log at h ⊢
  rw [if_pos hrotates] at h ⊢
  cases hopen : ({ w with current := none } : LogWriter).openNew with
  | error e => simp [hopen] at h
  | ok w₁ =>
    obtain rfl : w₁ = { w with
        folder := .present (w.folder.paths.insert (w.freeName w.folder.paths) (.file []))
        current := some ⟨w.freeName w.folder.paths, w.now, 0⟩ } := openNew_eq_ok hopen
    exact congrArg (fun w₂ => cleaned (moved w₂ later)) (append_eq_started w _ line)

lemma log_of_not_rotates {v : Volume} (hrotates : w.rotates (lineBytes line).length = false)
    (hcurrent : w.current = some v.asOpen)
    (hfile : w.folder.paths.get? v.name = some (.file v.bytes)) :
    (w.log line later).2 = (w.extended v line).moved later := by
  unfold lineBytes at hrotates
  unfold log
  rw [if_neg (ne_true_of_eq_false hrotates), hcurrent]
  exact congrArg (moved · later) (append_eq (o := v.asOpen) hfile _)

lemma log_cases {vs : List Volume} (hcurrent : w.current = vs.getLast?.map Volume.asOpen)
    (hfile : ∀ v, vs.getLast? = some v → w.folder.paths.get? v.name = some (.file v.bytes))
    (hlog : (w.log line later).1 = none) :
    w.rotates (lineBytes line).length = true ∧ (w.log line later).2 =
      ((w.started (w.freeName w.folder.paths) line).moved later).cleaned ∨
    ∃ us v, vs = us ++ [v] ∧ w.rotates (lineBytes line).length = false ∧
      w.current = some v.asOpen ∧ (w.log line later).2 = (w.extended v line).moved later := by
  cases hrotates : w.rotates (lineBytes line).length with
  | true => exact .inl ⟨rfl, log_of_rotates hrotates hlog⟩
  | false =>
    cases hlast : vs.getLast? with
    | none => simp [rotates, hcurrent, hlast] at hrotates
    | some v =>
      obtain ⟨us, rfl⟩ := List.getLast?_eq_some_iff.1 hlast
      rw [hlast, Option.map_some] at hcurrent
      exact .inr ⟨us, v, rfl, rfl, hcurrent, log_of_not_rotates hrotates hcurrent (hfile v hlast)⟩

/-- No file of the folder is past its retention. -/
def Retains (w : LogWriter) : Prop :=
  ∀ e ∈ w.folder.paths.entries, w.isOutdated e.1 = false

instance (w : LogWriter) : Decidable w.Retains :=
  inferInstanceAs (Decidable (∀ e ∈ w.folder.paths.entries, w.isOutdated e.1 = false))

lemma cleaned_started (hretains : (w.moved later).Retains) (name line : String) :
    ((w.started name line).moved later).cleaned = (w.started name line).moved later := by
  refine cleaned_eq_self fun e he => ?_
  by_cases hname : e.1 = name
  · simp [isExpired, moved, started, hname]
  · have hget := Table.get?_of_mem_entries he
    have hold : w.folder.paths.get? e.1 = some e.2 := (w.get?_started_of_ne hname line).symm.trans hget
    have houtdated : (w.moved later).isOutdated e.1 = false :=
      hretains _ (Table.mem_entries_of_get? hold)
    have hsame : ((w.started name line).moved later).isOutdated e.1 =
      (w.moved later).isOutdated e.1 := rfl
    simp [isExpired, hsame, houtdated]

inductive Call where
  | log (line : String) (later : Option Instant := none)
  | setClock (t : Instant)
deriving DecidableEq

def Call.time? : Call → Option Instant
  | .log _ later => later
  | .setClock t => some t

def perform (w : LogWriter) : Call → LogWriter
  | .log line later => (w.log line (later.getD w.now)).2
  | .setClock t => w.moved t

def run (w : LogWriter) (calls : List Call) : LogWriter :=
  calls.foldl perform w

/-- A single line is written without a failure, and no file is past its retention then. -/
def Succeeds (w : LogWriter) : Call → Prop
  | .log line later => '\n' ∉ line.toList ∧ (w.log line (later.getD w.now)).1 = none ∧
    (w.moved (later.getD w.now)).Retains
  | .setClock _ => True

instance (w : LogWriter) : (c : Call) → Decidable (w.Succeeds c)
  | .log line later => inferInstanceAs (Decidable ('\n' ∉ line.toList ∧
      (w.log line (later.getD w.now)).1 = none ∧ (w.moved (later.getD w.now)).Retains))
  | .setClock _ => isTrue trivial

def AllSucceed (w : LogWriter) : List Call → Prop
  | [] => True
  | c :: cs => w.Succeeds c ∧ AllSucceed (w.perform c) cs

instance decidableAllSucceed : (w : LogWriter) → (calls : List Call) → Decidable (w.AllSucceed calls)
  | _, [] => isTrue trivial
  | w, c :: cs =>
    have := decidableAllSucceed (w.perform c) cs
    inferInstanceAs (Decidable (w.Succeeds c ∧ AllSucceed (w.perform c) cs))

def opens (w : LogWriter) : Call → List (String × Instant)
  | .log line later =>
    if w.rotates (lineBytes line).length then
      ((w.log line (later.getD w.now)).2.current.map fun o => (o.path, o.openedAt)).toList
    else []
  | .setClock _ => []

def writes (w : LogWriter) : Call → List (Instant × String)
  | .log line _ => [(w.now, line)]
  | .setClock _ => []

def opened (w : LogWriter) : List Call → List (String × Instant)
  | [] => []
  | c :: cs => w.opens c ++ opened (w.perform c) cs

def written (w : LogWriter) : List Call → List (Instant × String)
  | [] => []
  | c :: cs => w.writes c ++ written (w.perform c) cs

/-- Only a single line exceeds the greatest size, and no line is too late for the file. -/
structure Volume.Fits (v : Volume) (c : LogConfig) : Prop where
  size_le : 2 ≤ v.lines.length → v.bytes.length ≤ c.maxFileSize
  age_lt : ∀ l ∈ v.lines, l.1.since v.openedAt < c.maxFileAge

/-- The volumes of a run are in the folder, beside what was there at the start; the last one is the
current file. -/
structure Filed (start : LogFolder) (w : LogWriter) (vs : List Volume) : Prop where
  current_eq : w.current = vs.getLast?.map Volume.asOpen
  file_eq : ∀ v ∈ vs, w.folder.paths.get? v.name = some (.file v.bytes)
  nodup : (vs.map Volume.name).Nodup
  new : ∀ v ∈ vs, start.paths.get? v.name = none
  frame : ∀ name ∉ vs.map Volume.name, w.folder.paths.get? name = start.paths.get? name
  fits : ∀ v ∈ vs, v.Fits w.config
  ne_nil : ∀ v ∈ vs, v.lines ≠ []

lemma since_self (t : Instant) : t.since t = 0 := by
  simp [Instant.since]

lemma length_lineBytes_pos (line : String) : 0 < (lineBytes line).length := by
  simp [lineBytes]

namespace Filed

variable {start : LogFolder} {vs : List Volume}

lemma ne_of_get?_eq_none (h : Filed start w vs) {name : String}
    (hnone : w.folder.paths.get? name = none) : name ∉ vs.map Volume.name := by
  intro hmem
  obtain ⟨v, hv, rfl⟩ := List.mem_map.1 hmem
  rw [h.file_eq v hv] at hnone
  cases hnone

lemma last_eq (h : Filed start w vs) (v : Volume) (hv : vs.getLast? = some v) :
    w.folder.paths.get? v.name = some (.file v.bytes) :=
  h.file_eq v (List.mem_of_getLast? hv)

lemma moved (h : Filed start w vs) (t : Instant) : Filed start (w.moved t) vs :=
  ⟨h.current_eq, h.file_eq, h.nodup, h.new, h.frame, h.fits, h.ne_nil⟩

lemma append (h : Filed start w vs) (hage : 0 < w.config.maxFileAge) {name : String}
    (hnone : w.folder.paths.get? name = none) (line : String) :
    Filed start (w.started name line) (vs ++ [⟨name, w.now, [(w.now, line)]⟩]) := by
  have hnew := h.ne_of_get?_eq_none hnone
  have hne : ∀ v ∈ vs, v.name ≠ name := fun v hv he => hnew (he ▸ List.mem_map_of_mem hv)
  refine ⟨?_, ?_, Volume.nodup_concat.2 ⟨h.nodup, hne⟩, ?_, ?_, ?_, ?_⟩
  · rw [List.getLast?_concat, Option.map_some]
    exact w.current_started name line
  · refine List.forall_mem_append.2 ⟨fun v hv => ?_, List.forall_mem_singleton.2 ?_⟩
    · exact (w.get?_started_of_ne (hne v hv) line).trans (h.file_eq v hv)
    · rw [Volume.bytes_singleton]
      exact w.get?_started_self name line
  · exact List.forall_mem_append.2 ⟨h.new, List.forall_mem_singleton.2
      ((h.frame _ hnew).symm.trans hnone)⟩
  · intro other hother
    rw [List.map_append, List.mem_append, not_or] at hother
    have hne : other ≠ name := fun he => hother.2 (by simp [he])
    exact (w.get?_started_of_ne hne line).trans (h.frame other hother.1)
  · refine List.forall_mem_append.2 ⟨h.fits, List.forall_mem_singleton.2 ⟨fun hlength => ?_, ?_⟩⟩
    · rw [List.length_singleton] at hlength
      exact absurd hlength (by decide)
    · refine List.forall_mem_singleton.2 ?_
      rw [since_self]
      exact hage
  · exact List.forall_mem_append.2 ⟨h.ne_nil, List.forall_mem_singleton.2 (List.cons_ne_nil _ _)⟩

lemma bytes_length_pos (h : Filed start w vs) {v : Volume} (hv : v ∈ vs) : 0 < v.bytes.length := by
  obtain ⟨l, ls, hlines⟩ := List.exists_cons_of_ne_nil (h.ne_nil v hv)
  have := length_lineBytes_pos l.2
  rw [Volume.bytes, hlines, List.flatMap_cons, List.length_append]
  omega

lemma extend {v : Volume} (h : Filed start w (vs ++ [v])) (hcurrent : w.current = some v.asOpen)
    (hrotates : w.rotates (lineBytes line).length = false) :
    Filed start (w.extended v line) (vs ++ [v.add (w.now, line)]) := by
  have hnames := Volume.map_name_add vs v (w.now, line)
  -- a file that holds a line already is one that may be too large for another
  have hpos := h.bytes_length_pos (v := v) (by simp)
  simp only [rotates, hcurrent, needsRotation, Volume.asOpen, Bool.or_eq_false_iff,
    Bool.and_eq_false_iff, decide_eq_false_iff_not] at hrotates
  obtain ⟨hsize, hold⟩ := hrotates
  refine ⟨?_, ?_, ?_, ?_, ?_, ?_, ?_⟩
  · rw [List.getLast?_concat, Option.map_some]
    exact w.current_extended v w.now line
  · refine List.forall_mem_append.2 ⟨fun u hu => ?_, List.forall_mem_singleton.2 ?_⟩
    · have hne : u.name ≠ v.name := (Volume.nodup_concat.1 h.nodup).2 u hu
      exact (w.get?_extended_of_ne hne line).trans (h.file_eq u (List.mem_append_left _ hu))
    · rw [Volume.bytes_add]
      exact w.get?_extended_self v line
  · rw [hnames]
    exact h.nodup
  · exact List.forall_mem_append.2 ⟨fun u hu => h.new u (List.mem_append_left _ hu),
      List.forall_mem_singleton.2 (h.new v (by simp))⟩
  · intro other hother
    rw [hnames] at hother
    have hne : other ≠ v.name := fun he => hother (by simp [he])
    exact (w.get?_extended_of_ne hne line).trans (h.frame other hother)
  · refine List.forall_mem_append.2 ⟨fun u hu => h.fits u (List.mem_append_left _ hu),
      List.forall_mem_singleton.2 ⟨fun _ => ?_, ?_⟩⟩
    · rw [Volume.bytes_add, List.length_append]
      show v.bytes.length + (lineBytes line).length ≤ w.config.maxFileSize
      omega
    · refine List.forall_mem_append.2 ⟨(h.fits v (by simp)).age_lt, List.forall_mem_singleton.2 ?_⟩
      exact Int.not_le.1 hold
  · exact List.forall_mem_append.2 ⟨fun u hu => h.ne_nil u (List.mem_append_left _ hu),
      List.forall_mem_singleton.2 (by simp [Volume.add])⟩

lemma perform (h : Filed start w vs) (hage : 0 < w.config.maxFileAge) {c : Call}
    (hc : w.Succeeds c) : ∃ us, Filed start (w.perform c) us ∧ (w.perform c).config = w.config ∧
      us.map Volume.opening = vs.map Volume.opening ++ w.opens c ∧
      us.flatMap Volume.lines = vs.flatMap Volume.lines ++ w.writes c := by
  cases c with
  | setClock t =>
    exact ⟨vs, h.moved t, rfl, by simp [opens], by simp [writes]⟩
  | log line later =>
    obtain ⟨-, hlog, hretains⟩ := hc
    rcases log_cases h.current_eq h.last_eq hlog with ⟨hrotates, heq⟩ |
      ⟨us, v, rfl, hrotates, hcurrent, heq⟩
    · rw [cleaned_started hretains] at heq
      refine ⟨vs ++ [⟨w.freeName w.folder.paths, w.now, [(w.now, line)]⟩], ?_, ?_, ?_,
        by simp [writes]⟩
      · rw [LogWriter.perform, heq]
        exact (h.append hage (w.get?_freeName _) line).moved _
      · rw [LogWriter.perform, heq]
        rfl
      · simp [opens, hrotates, heq, Volume.opening, started, LogWriter.moved]
    · refine ⟨us ++ [v.add (w.now, line)], ?_, ?_, ?_, by simp [writes, Volume.add]⟩
      · rw [LogWriter.perform, heq]
        exact (h.extend hcurrent hrotates).moved _
      · rw [LogWriter.perform, heq]
        rfl
      · simp [opens, hrotates, Volume.opening, Volume.add]

lemma perform_frame (h : Filed start w vs) {c : Call} (hc : w.Succeeds c) :
    (∀ o ∈ w.opens c, w.folder.paths.get? o.1 = none) ∧
      ∀ name, (∀ o, (w.perform c).current = some o → name ≠ o.path) →
        (w.perform c).folder.paths.get? name = w.folder.paths.get? name := by
  cases c with
  | setClock t => exact ⟨by simp [opens], fun name _ => rfl⟩
  | log line later =>
    obtain ⟨-, hlog, hretains⟩ := hc
    rcases log_cases h.current_eq h.last_eq hlog with ⟨hrotates, heq⟩ |
      ⟨us, v, rfl, hrotates, hcurrent, heq⟩
    · rw [cleaned_started hretains] at heq
      refine ⟨by simp [opens, hrotates, heq, started, LogWriter.moved, w.get?_freeName],
        fun other hother => ?_⟩
      rw [LogWriter.perform, heq] at hother ⊢
      exact w.get?_started_of_ne (hother _ rfl) line
    · refine ⟨by simp [opens, hrotates], fun other hother => ?_⟩
      rw [LogWriter.perform, heq] at hother ⊢
      exact w.get?_extended_of_ne (hother _ rfl) line

lemma run (h : Filed start w vs) (hage : 0 < w.config.maxFileAge) {calls : List Call}
    (hcalls : w.AllSucceed calls) : ∃ us, Filed start (w.run calls) us ∧
      (w.run calls).config = w.config ∧
      us.map Volume.opening = vs.map Volume.opening ++ w.opened calls ∧
      us.flatMap Volume.lines = vs.flatMap Volume.lines ++ w.written calls := by
  induction calls generalizing w vs with
  | nil => exact ⟨vs, h, rfl, by simp [opened], by simp [written]⟩
  | cons c cs ih =>
    obtain ⟨hc, hcs⟩ := hcalls
    obtain ⟨us, hus, hconfig, hopens, hwrites⟩ := h.perform hage hc
    obtain ⟨ts, hts, hconfig', hopened, hwritten⟩ := ih hus (hconfig ▸ hage) hcs
    refine ⟨ts, hts, hconfig'.trans hconfig, ?_, ?_⟩
    · rw [hopened, hopens, opened, List.append_assoc]
    · rw [hwritten, hwrites, written, List.append_assoc]

end Filed

lemma filed_nil (h : w.current = none) : Filed w.folder w [] :=
  ⟨h, by simp, by simp, by simp, fun _ _ => rfl, by simp, by simp⟩

lemma allSucceed_append {before after : List Call} (h : w.AllSucceed (before ++ after)) :
    w.AllSucceed before ∧ (w.run before).AllSucceed after := by
  induction before generalizing w with
  | nil => exact ⟨trivial, h⟩
  | cons c cs ih => exact ⟨⟨h.1, (ih h.2).1⟩, (ih h.2).2⟩

lemma log_mem_of_written {calls : List Call} {l : Instant × String} (hl : l ∈ w.written calls) :
    ∃ later, .log l.2 later ∈ calls := by
  induction calls generalizing w with
  | nil => cases hl
  | cons c cs ih =>
    rcases List.mem_append.1 hl with hl | hl
    · cases c with
      | log line later =>
        obtain rfl := List.mem_singleton.1 hl
        exact ⟨later, List.mem_cons_self⟩
      | setClock t => cases hl
    · obtain ⟨later, hmem⟩ := ih hl
      exact ⟨later, List.mem_cons_of_mem c hmem⟩

lemma notMem_of_allSucceed {calls : List Call} {moves : Option Instant} (h : w.AllSucceed calls)
    (hline : .log line moves ∈ calls) : '\n' ∉ line.toList := by
  induction calls generalizing w with
  | nil => cases hline
  | cons c cs ih =>
    rcases List.mem_cons.1 hline with rfl | hline
    · exact h.1.1
    · exact ih h.2 hline

lemma splitOn_bytes {v : Volume} (h : ∀ l ∈ v.lines, '\n' ∉ l.2.toList) :
    v.bytes.splitOn 10 = (v.lines.map fun l => utf8 l.2) ++ [[]] := by
  rw [v.bytes_eq_flatMap, splitOn_flatMap_lines]
  intro bs hbs
  obtain ⟨l, hl, rfl⟩ := List.mem_map.1 hbs
  exact notMem_utf8 (c := '\n') (by decide) (h l hl)

/-- A new log fills new files with its lines, in order, and leaves all other files as they are. -/
theorem lines_fill_new_files {calls : List Call} (hnew : w.current = none)
    (hage : 0 < w.config.maxFileAge) (hcalls : w.AllSucceed calls) : ∃ volumes : List Volume,
      volumes.map Volume.opening = w.opened calls ∧
      volumes.flatMap Volume.lines = w.written calls ∧
      volumes.flatMap Volume.bytes = (w.written calls).flatMap (fun l => lineBytes l.2) ∧
      (volumes.map Volume.name).Nodup ∧
      (∀ v ∈ volumes, w.folder.paths.get? v.name = none ∧
        (w.run calls).folder.read v.name = .ok v.bytes ∧
        v.bytes.splitOn 10 = (v.lines.map fun l => utf8 l.2) ++ [[]] ∧ v.Fits w.config) ∧
      (∀ name ∉ volumes.map Volume.name,
        (w.run calls).folder.paths.get? name = w.folder.paths.get? name) ∧
      ∀ before c after, calls = before ++ c :: after →
        (∀ o ∈ (w.run before).opens c, (w.run before).folder.paths.get? o.1 = none) ∧
        ∀ name, (∀ o, ((w.run before).perform c).current = some o → name ≠ o.path) →
          ((w.run before).perform c).folder.paths.get? name =
            (w.run before).folder.paths.get? name := by
  obtain ⟨volumes, hfiled, hconfig, hopened, hwritten⟩ := (filed_nil hnew).run hage hcalls
  refine ⟨volumes, hopened, hwritten, ?_, hfiled.nodup, fun v hv => ⟨hfiled.new v hv, ?_, ?_, ?_⟩,
    hfiled.frame, ?_⟩
  · rw [List.flatMap_nil, List.nil_append] at hwritten
    rw [← hwritten, List.flatMap_assoc]
    rfl
  · rw [LogFolder.read, hfiled.file_eq v hv]
  · refine splitOn_bytes fun l hl => ?_
    have hmem : l ∈ w.written calls := by
      rw [List.flatMap_nil, List.nil_append] at hwritten
      exact hwritten ▸ List.mem_flatMap.2 ⟨v, hv, hl⟩
    obtain ⟨later, hlog⟩ := log_mem_of_written hmem
    exact notMem_of_allSucceed hcalls hlog
  · exact hconfig ▸ hfiled.fits v hv
  · rintro before c after rfl
    obtain ⟨hbefore, hafter⟩ := allSucceed_append hcalls
    obtain ⟨us, hus, -⟩ := (filed_nil hnew).run hage hbefore
    exact hus.perform_frame hafter.1

theorem three_lines_fill_three_files :
    let w : LogWriter := {
      config := { maxFileSize := 3, maxFileAge := Duration.second }
      folder := .present (Table.empty.insert "security-audit-19700101-000000.000.jsonl" (.file [7]))
      now := .atSecond 0 }
    let calls : List Call := [.log "a", .log "b", .setClock (.atSecond 1), .log "c"]
    (w.current = none ∧ 0 < w.config.maxFileAge ∧ w.AllSucceed calls) ∧
    ∃ volumes : List Volume, volumes.map Volume.name =
        ["security-audit-19700101-000000.000-1.jsonl", "security-audit-19700101-000000.000-2.jsonl",
          "security-audit-19700101-000001.000.jsonl"] ∧
      (volumes.flatMap Volume.lines).map Prod.snd = ["a", "b", "c"] := by
  intro w calls
  have hcalls : w.AllSucceed calls := by decide +kernel
  have hage : 0 < w.config.maxFileAge := by decide
  obtain ⟨volumes, hopened, hwritten, -⟩ := lines_fill_new_files (w := w) rfl hage hcalls
  refine ⟨⟨rfl, hage, hcalls⟩, volumes, ?_, ?_⟩
  · have hnames : volumes.map Volume.name = (w.opened calls).map Prod.fst := by
      rw [← hopened, List.map_map]
      rfl
    rw [hnames]
    decide +kernel
  · rw [hwritten]
    decide +kernel

example :
    let w : LogWriter := {
      config := { base := "sub/audit" }
      folder := .present (.ofList [("sub", .folder)])
      now := .atSecond 0 }
    w.AllSucceed [.log "a", .log "b"] ∧ (w.run [.log "a", .log "b"]).folder.read
      "sub/audit-19700101-000000.000.jsonl" = .ok (lineBytes "a" ++ lineBytes "b") := by
  decide +kernel

end LogWriter

end TlsTrust
