import TlsTrust.Proofs.Audit.LogName
import TlsTrust.Proofs.Audit.RecordLine
import TlsTrust.Proofs.Audit.Rotation
import TlsTrust.Proofs.Text.Cut
import TlsTrust.Proofs.Time.Stamp

/-!
Files that were opened in different milliseconds are listed in the order of their opening; of
several files of one millisecond the first is listed last.
-/

namespace TlsTrust

open Text

namespace LogFile

variable {s t : Instant}

def ending (n : Nat) : List Char :=
  (if n = 0 then [] else '-' :: Nat.toDigits 10 n) ++ ".jsonl".toList

lemma toList_name (base : String) (t : Instant) (n : Nat) :
    (name base t n).toList = (base ++ "-").toList ++ (t.stamp.toList ++ ending n) := by
  unfold name ending
  split <;> simp

lemma name_lt (hs : s.HasStamp) (ht : t.HasStamp) (h : s.settled.milli < t.settled.milli)
    (base : String) (m n : Nat) : name base s m < name base t n := by
  have hlength : s.stamp.toList.length = t.stamp.toList.length := by
    rw [Instant.length_stamp hs, Instant.length_stamp ht]
  show (name base s m).toList < (name base t n).toList
  rw [toList_name, toList_name]
  exact List.append_left_lt (append_lt_append hlength (Instant.stamp_lt hs ht h) _ _)

theorem name_lt_name_zero (h : s.milli = t.milli) {n : Nat} (hn : n ≠ 0) (base : String) :
    name base s n < name base t 0 := by
  show (name base s n).toList < (name base t 0).toList
  rw [toList_name, toList_name, Instant.stamp_eq_of_milli_eq h]
  refine List.append_left_lt (List.append_left_lt ?_)
  rw [ending, ending, if_neg hn, if_pos rfl]
  exact List.cons_lt_cons_iff.2 (.inl (by decide))

lemma takeBytes?_append {cs : List Char} (h : ∀ c ∈ cs, c.utf8Size = 1) (rest : List Char) :
    takeBytes? cs.length (cs ++ rest) = some cs := by
  refine takeBytes?_eq_some_iff.2 ⟨List.prefix_append cs rest, ?_⟩
  induction cs with
  | nil => rfl
  | cons c cs ih =>
    rw [List.forall_mem_cons] at h
    rw [List.flatMap_cons, List.length_append, String.length_utf8EncodeChar, h.1, ih h.2,
      List.length_cons, Nat.add_comm]

lemma utf8Size_stamp (h : t.HasStamp) : ∀ c ∈ t.stamp.toList, c.utf8Size = 1 := by
  have hdigits (w n : Nat) : ∀ c ∈ (padded w n).toList, c.utf8Size = 1 := by
    intro c hc
    have hle := (isDigit_iff.1 (isDigit_of_mem_padded hc)).2
    exact Char.utf8Size_eq_one_iff.2 (UInt32.le_iff_toNat_le.2 (Nat.le_trans hle (by decide)))
  have hdash : '-'.utf8Size = 1 := by decide
  have hdot : '.'.utf8Size = 1 := by decide
  rw [Instant.toList_stamp h, Instant.clockChars]
  simp only [List.forall_mem_append, List.forall_mem_cons]
  exact ⟨hdigits _ _, hdigits _ _, hdigits _ _, hdash, hdigits _ _, hdigits _ _, hdigits _ _, hdot,
    hdigits _ _⟩

lemma stamp?_name (h : t.HasStamp) (base : String) (n : Nat) :
    stamp? base (name base t n) = some t.settled.toMillis := by
  have hstrip : stripStart? (base ++ "-").toList (name base t n).toList =
      some (t.stamp.toList ++ ending n) := by
    simp [stripStart?, toList_name, List.isPrefixOf_iff_prefix]
  have htake := takeBytes?_append (utf8Size_stamp h) (ending n)
  rw [Instant.length_stamp h] at htake
  simp only [stamp?, hstrip, stampLength, htake, Instant.ofStamp?_stamp h, Option.bind_eq_bind,
    Option.bind_some]

lemma hasExtension_name (base : String) (t : Instant) (n : Nat) :
    hasExtension (name base t n) = true := by
  have hsplit : (name base t n).toList = ((base ++ "-").toList ++ (t.stamp.toList ++
      if n = 0 then [] else '-' :: Nat.toDigits 10 n)) ++ '.' :: "jsonl".toList := by
    simp [toList_name, ending]
  rw [hasExtension, hsplit, splitLast?_append (by decide)]
  simp

lemma notMem_padded {c : Char} (hc : c.isDigit = false) (w n : Nat) : c ∉ (padded w n).toList := by
  intro hmem
  rw [isDigit_of_mem_padded hmem] at hc
  cases hc

lemma slash_notMem_name (h : t.HasStamp) {base : String} (hbase : base.toList.contains '/' = false)
    (n : Nat) : '/' ∉ (name base t n).toList := by
  have hnumber : '/' ∉ Nat.toDigits 10 n := by
    intro hmem
    exact absurd (Nat.isDigit_of_mem_toDigits (by decide) (by decide) hmem) (by decide)
  have hending : '/' ∉ ending n := by
    unfold ending
    split <;> simp [hnumber]
  have hpadded := notMem_padded (c := '/') (by decide)
  have hdash : '/' ≠ '-' := by decide
  have hdot : '/' ≠ '.' := by decide
  have hstamp : '/' ∉ t.stamp.toList := by
    simp only [Instant.toList_stamp h, Instant.clockChars, List.mem_append, List.mem_cons, hpadded,
      hdash, hdot, or_self, not_false_eq_true]
  simp only [List.contains_eq_mem, decide_eq_false_iff_not] at hbase
  simp [toList_name, hbase, hstamp, hending]

lemma isName_name (h : t.HasStamp) {base : String} (hbase : base.toList.contains '/' = false)
    (n : Nat) : isName base (name base t n) = true := by
  have hslash := slash_notMem_name h hbase n
  simp only [isName, hasExtension_name, stamp?_name h, List.contains_eq_mem, hslash]
  rfl

end LogFile

namespace LogWriter

variable {w : LogWriter} {line : String} {all vs : List Volume}

lemma freeName_eq (w : LogWriter) (entries : Table FolderEntry) :
    ∃ n, w.freeName entries = LogFile.name w.config.base w.now n := by
  obtain ⟨n, -, hname, -⟩ := w.freeName_least entries
  exact ⟨n, hname⟩

lemma checkPlace_of_flat {path : String} (h : path.toList.contains '/' = false)
    (paths : Table FolderEntry) : LogFolder.checkPlace paths path = .ok () := by
  rw [LogFolder.checkPlace, splitLast?_eq_none (by simpa using h)]

lemma exists_openNew {f : LogFolder} (hcreate : w.folder.create = .ok f)
    (hbase : w.config.base.toList.contains '/' = false) : ∃ w', w.openNew = .ok w' := by
  simp only [openNew, hcreate, bind, Except.bind, checkPlace_of_flat hbase]
  exact ⟨_, rfl⟩

lemma log_eq_none (hcreate : w.folder.create = .ok (.present w.folder.paths))
    (hbase : w.config.base.toList.contains '/' = false) (line : String) (later : Instant) :
    (w.log line later).1 = none := by
  obtain ⟨w', hopen⟩ := exists_openNew (w := { w with current := none }) hcreate hbase
  unfold log
  dsimp only
  split_ifs
  · simp only [hopen]
    cases w'.current <;> rfl
  · cases w.current <;> rfl

structure Volume.Named (base : String) (v : Volume) : Prop where
  hasStamp : v.openedAt.HasStamp
  name_eq : ∃ n, v.name = LogFile.name base v.openedAt n

lemma Volume.Named.name_lt {base : String} {u v : Volume} (hu : u.Named base) (hv : v.Named base)
    (h : u.openedAt.settled.milli < v.openedAt.settled.milli) : u.name < v.name := by
  obtain ⟨hs, m, hm⟩ := hu
  obtain ⟨ht, n, hn⟩ := hv
  rw [hm, hn]
  exact LogFile.name_lt hs ht h _ m n

/-- The files of the folder are those of the volumes `vs`, which are some of all those of a run. The
last one is never deleted. -/
structure Surviving (w : LogWriter) (all vs : List Volume) : Prop where
  create_eq : w.folder.create = .ok (.present w.folder.paths)
  sublist : vs.Sublist all
  getLast?_eq : vs.getLast? = all.getLast?
  current_eq : w.current = vs.getLast?.map Volume.asOpen
  nodup : (vs.map Volume.name).Nodup
  file_iff : ∀ name e, w.folder.paths.get? name = some e ↔
    ∃ v ∈ vs, v.name = name ∧ e = .file v.bytes
  hasStamp : w.now.HasStamp
  named : ∀ v ∈ all, v.Named w.config.base

lemma get?_eq_some_iff_concat {entries : Table FolderEntry} {us : List Volume} {v : Volume}
    (hne : ∀ u ∈ us, u.name ≠ v.name) (hlast : entries.get? v.name = some (.file v.bytes))
    (hrest : ∀ name ≠ v.name, ∀ e, entries.get? name = some e ↔
      ∃ u ∈ us, u.name = name ∧ e = .file u.bytes) (name : String) (e : FolderEntry) :
    entries.get? name = some e ↔ ∃ u ∈ us ++ [v], u.name = name ∧ e = .file u.bytes := by
  constructor
  · intro hget
    by_cases hname : name = v.name
    · rw [hname, hlast] at hget
      exact ⟨v, by simp, hname.symm, (Option.some.inj hget).symm⟩
    · obtain ⟨u, hu, hentry⟩ := (hrest name hname e).1 hget
      exact ⟨u, List.mem_append_left _ hu, hentry⟩
  · rintro ⟨u, hu, rfl, rfl⟩
    rcases List.mem_append.1 hu with hu | hu
    · exact (hrest _ (hne u hu) _).2 ⟨u, hu, rfl, rfl⟩
    · rw [List.mem_singleton.1 hu]
      exact hlast

namespace Surviving

lemma last_eq (h : Surviving w all vs) (v : Volume) (hv : vs.getLast? = some v) :
    w.folder.paths.get? v.name = some (.file v.bytes) :=
  (h.file_iff _ _).2 ⟨v, List.mem_of_getLast? hv, rfl, rfl⟩

lemma moved (h : Surviving w all vs) {t : Instant} (ht : t.HasStamp) :
    Surviving (w.moved t) all vs :=
  ⟨h.create_eq, h.sublist, h.getLast?_eq, h.current_eq, h.nodup, h.file_iff, ht, h.named⟩

lemma start (h : Surviving w all vs) (line : String) :
    let v : Volume := ⟨w.freeName w.folder.paths, w.now, [(w.now, line)]⟩
    Surviving (w.started v.name line) (all ++ [v]) (vs ++ [v]) := by
  intro v
  have hfree : ∀ u ∈ vs, u.name ≠ v.name := by
    intro u hu he
    have hget := (h.file_iff v.name _).2 ⟨u, hu, he, rfl⟩
    rw [w.get?_freeName] at hget
    cases hget
  refine ⟨rfl, h.sublist.append_right _, ?_, ?_, Volume.nodup_concat.2 ⟨h.nodup, hfree⟩,
    get?_eq_some_iff_concat hfree ?_ ?_, h.hasStamp, ?_⟩
  · rw [List.getLast?_concat, List.getLast?_concat]
  · rw [List.getLast?_concat, Option.map_some]
    exact w.current_started v.name line
  · rw [Volume.bytes_singleton]
    exact w.get?_started_self v.name line
  · intro name hname e
    rw [w.get?_started_of_ne hname]
    exact h.file_iff name e
  · exact List.forall_mem_append.2 ⟨h.named, List.forall_mem_singleton.2
      ⟨h.hasStamp, w.freeName_eq _⟩⟩

lemma extend {us : List Volume} {v : Volume} (h : Surviving w all (us ++ [v])) (line : String) :
    ∃ ts, all = ts ++ [v] ∧
      Surviving (w.extended v line) (ts ++ [v.add (w.now, line)]) (us ++ [v.add (w.now, line)]) := by
  have hlast := h.getLast?_eq
  rw [List.getLast?_concat, eq_comm] at hlast
  obtain ⟨ts, rfl⟩ := List.getLast?_eq_some_iff.1 hlast
  have hne := (Volume.nodup_concat.1 h.nodup).2
  refine ⟨ts, rfl, rfl, ?_, ?_, ?_, ?_, get?_eq_some_iff_concat hne ?_ ?_, h.hasStamp, ?_⟩
  · exact ((List.append_sublist_append_right _).1 h.sublist).append_right _
  · rw [List.getLast?_concat, List.getLast?_concat]
  · rw [List.getLast?_concat, Option.map_some]
    exact w.current_extended v w.now line
  · exact Volume.map_name_add us v (w.now, line) ▸ h.nodup
  · rw [Volume.bytes_add]
    exact w.get?_extended_self v line
  · intro name hname e
    have hname' : v.name ≠ name := Ne.symm hname
    rw [w.get?_extended_of_ne (Ne.symm hname'), h.file_iff]
    simp [or_and_right, exists_or, hname']
  · obtain ⟨hstamp, hname⟩ := h.named v (by simp)
    exact List.forall_mem_append.2 ⟨fun u hu => h.named u (by simp [hu]),
      List.forall_mem_singleton.2 ⟨hstamp, hname⟩⟩

lemma isExpired_last (h : Surviving w all vs) {v : Volume} (hv : vs.getLast? = some v) :
    w.isExpired v.name (.file v.bytes) = false := by
  have hcurrent := h.current_eq
  rw [hv, Option.map_some] at hcurrent
  simp [isExpired, hcurrent, Volume.asOpen]

lemma cleaned {entries : Table FolderEntry} (h : Surviving w all vs)
    (hfolder : w.folder = .present entries) : ∃ us, Surviving w.cleaned all us := by
  have hcleaned : w.cleaned =
      { w with folder := .present (entries.filter fun n e => !w.isExpired n e) } := by
    simp [LogWriter.cleaned, cleanup, hfolder]
  have hfile := h.file_iff
  rw [hfolder] at hfile
  obtain ⟨us, hus⟩ : ∃ us, us = vs.filter fun v => !w.isExpired v.name (.file v.bytes) := ⟨_, rfl⟩
  -- the last volume is the current file, which is spared
  have hlast : us.getLast? = vs.getLast? := by
    cases hv : vs.getLast? with
    | none =>
      rw [hus, List.getLast?_eq_none_iff.1 hv]
      rfl
    | some v =>
      have hspared := h.isExpired_last hv
      obtain ⟨ts, rfl⟩ := List.getLast?_eq_some_iff.1 hv
      simp [hus, hspared]
  rw [hcleaned]
  refine ⟨us, rfl, ?_, hlast.trans h.getLast?_eq, ?_, ?_, fun name e => ?_, h.hasStamp,
    h.named⟩
  · exact hus ▸ List.filter_sublist.trans h.sublist
  · rw [hlast]
    exact h.current_eq
  · exact hus ▸ h.nodup.sublist (List.filter_sublist.map _)
  · have hget : (entries.filter fun n e => !w.isExpired n e).get? name = some e ↔
        (∃ v ∈ vs, v.name = name ∧ e = .file v.bytes) ∧ (!w.isExpired name e) = true :=
      Table.get?_filter.trans (and_congr_left' (hfile name e))
    refine hget.trans ?_
    simp only [hus, List.mem_filter]
    constructor
    · rintro ⟨⟨v, hv, rfl, rfl⟩, hkept⟩
      exact ⟨v, ⟨hv, hkept⟩, rfl, rfl⟩
    · rintro ⟨v, ⟨hv, hkept⟩, rfl, rfl⟩
      exact ⟨⟨v, hv, rfl, rfl⟩, hkept⟩

lemma perform (h : Surviving w all vs) (hbase : w.config.base.toList.contains '/' = false) {c : Call}
    (hc : ∀ t, c.time? = some t → t.HasStamp) : ∃ all' vs', Surviving (w.perform c) all' vs' ∧
      (w.perform c).config = w.config ∧
      all'.map Volume.opening = all.map Volume.opening ++ w.opens c ∧
      all'.flatMap Volume.lines = all.flatMap Volume.lines ++ w.writes c := by
  cases c with
  | setClock t =>
    exact ⟨all, vs, h.moved (hc t rfl), rfl, by simp [opens], by simp [writes]⟩
  | log line later =>
    have hlater : (later.getD w.now).HasStamp := by
      cases later with
      | none => exact h.hasStamp
      | some t => exact hc t rfl
    rcases log_cases h.current_eq h.last_eq (log_eq_none h.create_eq hbase line (later.getD w.now)) with
      ⟨hrotates, heq⟩ | ⟨us, v, rfl, hrotates, hcurrent, heq⟩
    · obtain ⟨vs', hvs'⟩ := ((h.start line).moved hlater).cleaned rfl
      refine ⟨all ++ [⟨w.freeName w.folder.paths, w.now, [(w.now, line)]⟩], vs', ?_, ?_, ?_, ?_⟩
      · rw [LogWriter.perform, heq]
        exact hvs'
      · rw [LogWriter.perform, heq]
        rfl
      · simp [opens, hrotates, heq, Volume.opening, started, LogWriter.moved, LogWriter.cleaned,
          cleanup]
      · simp [writes]
    · obtain ⟨ts, rfl, hts⟩ := h.extend line
      refine ⟨ts ++ [v.add (w.now, line)], us ++ [v.add (w.now, line)], ?_, ?_, ?_, ?_⟩
      · rw [LogWriter.perform, heq]
        exact hts.moved hlater
      · rw [LogWriter.perform, heq]
        rfl
      · simp [opens, hrotates, Volume.opening, Volume.add]
      · simp [writes, Volume.add]

lemma run (h : Surviving w all vs) (hbase : w.config.base.toList.contains '/' = false)
    {calls : List Call} (hclock : ∀ t ∈ calls.filterMap Call.time?, t.HasStamp) :
    ∃ all' vs', Surviving (w.run calls) all' vs' ∧ (w.run calls).config = w.config ∧
      all'.map Volume.opening = all.map Volume.opening ++ w.opened calls ∧
      all'.flatMap Volume.lines = all.flatMap Volume.lines ++ w.written calls := by
  induction calls generalizing w all vs with
  | nil => exact ⟨all, vs, h, rfl, by simp [opened], by simp [written]⟩
  | cons c cs ih =>
    obtain ⟨all₁, vs₁, h₁, hconfig, hopens, hwrites⟩ := h.perform hbase
      fun t ht => hclock t (List.mem_filterMap.2 ⟨c, List.mem_cons_self, ht⟩)
    obtain ⟨all₂, vs₂, h₂, hconfig', hopened, hwritten⟩ := ih h₁ (hconfig ▸ hbase) fun t ht => by
      obtain ⟨c', hc', hmem⟩ := List.mem_filterMap.1 ht
      exact hclock t (List.mem_filterMap.2 ⟨c', List.mem_cons_of_mem c hc', hmem⟩)
    refine ⟨all₂, vs₂, h₂, hconfig'.trans hconfig, ?_, ?_⟩
    · rw [hopened, hopens, opened, List.append_assoc]
    · rw [hwritten, hwrites, written, List.append_assoc]

end Surviving

lemma surviving_nil (hnew : w.current = none)
    (hfolder : w.folder = .absent ∨ w.folder = .present .empty) (hnow : w.now.HasStamp) :
    Surviving w [] [] := by
  have hentries : w.folder.paths = .empty := by
    rcases hfolder with h | h <;> rw [h] <;> rfl
  refine ⟨?_, .refl _, rfl, hnew, by simp, fun name e => ?_, hnow, by simp⟩
  · rcases hfolder with h | h <;> rw [h] <;> rfl
  · simp [hentries]

lemma logFiles_eq (h : w.folder.create = .ok (.present w.folder.paths)) (base : String) :
    w.folder.logFiles base = .ok (w.folder.paths.keys.filter (LogFile.isName base)) := by
  refine LogFolder.logFiles_eq_ok (fun hfile => ?_) base
  rw [hfile] at h
  cases h

def listing (vs : List Volume) : List Volume :=
  vs.mergeSort fun u v => decide (u.name ≤ v.name)

lemma listing_perm (vs : List Volume) : (listing vs).Perm vs :=
  List.mergeSort_perm _ _

lemma pairwise_listing (vs : List Volume) :
    (listing vs).Pairwise fun u v => u.name ≤ v.name := by
  have hsorted : (listing vs).Pairwise fun u v => decide (u.name ≤ v.name) = true :=
    List.pairwise_mergeSort (by simpa using fun a b c => String.le_trans)
      (by simpa using fun a b => String.le_total _ _) vs
  simpa using hsorted

namespace Surviving

lemma keys_eq (h : Surviving w all vs) :
    w.folder.paths.keys = (listing vs).map Volume.name := by
  have hkeys := w.folder.paths.pairwise_keys
  have hnames : ((listing vs).map Volume.name).Pairwise (· ≤ ·) :=
    List.pairwise_map.2 (pairwise_listing vs)
  refine List.Perm.eq_of_pairwise (fun a b _ _ => String.le_antisymm) ?_ hnames ?_
  · exact hkeys.imp fun hlt => Std.le_of_lt hlt
  · refine ((List.perm_ext_iff_of_nodup ?_ h.nodup).2 fun name => ?_).trans
      ((listing_perm vs).map _).symm
    · exact hkeys.imp fun hlt => String.ne_of_lt hlt
    · constructor
      · intro hname
        obtain ⟨e, he, rfl⟩ := List.mem_map.1 hname
        obtain ⟨v, hv, hvname, -⟩ := (h.file_iff _ _).1 (Table.get?_of_mem_entries he)
        exact List.mem_map.2 ⟨v, hv, hvname⟩
      · intro hname
        obtain ⟨v, hv, rfl⟩ := List.mem_map.1 hname
        exact List.mem_map.2 ⟨_, Table.mem_entries_of_get? ((h.file_iff _ _).2 ⟨v, hv, rfl, rfl⟩), rfl⟩

end Surviving

namespace Volume

def records (v : Volume) : List AuditRecord :=
  v.lines.filterMap fun l => AuditRecord.parse? l.2

variable {v : Volume}

lemma map_line_records (h : ∀ l ∈ v.lines, ∃ r : AuditRecord, r.time.InCalendar ∧ l.2 = r.line) :
    v.records.map AuditRecord.line = v.lines.map Prod.snd := by
  rw [records, List.map_filterMap, ← List.filterMap_eq_map]
  refine List.filterMap_congr fun l hl => ?_
  obtain ⟨r, hr, hline⟩ := h l hl
  rw [hline, AuditRecord.parse?_line hr, Option.map_some, AuditRecord.line_settled,
    Function.comp_apply, hline]

lemma records?_bytes (h : ∀ l ∈ v.lines, ∃ r : AuditRecord, r.time.InCalendar ∧ l.2 = r.line) :
    LogFile.records? v.bytes = some v.records := by
  have hlines : byteLines v.bytes = v.lines.map fun l => utf8 l.2 := by
    rw [v.bytes_eq_flatMap]
    refine byteLines_flatMap fun bs hbs => ?_
    obtain ⟨l, hl, rfl⟩ := List.mem_map.1 hbs
    obtain ⟨r, -, hline⟩ := h l hl
    rw [hline]
    exact r.isLine_utf8
  have htexts : (v.lines.map fun l => utf8 l.2).mapM ofUtf8? = some (v.lines.map Prod.snd) := by
    rw [List.mapM_map]
    exact mapM_eq_some_map fun l _ => ofUtf8?_utf8 l.2
  simp only [LogFile.records?, hlines, htexts, Option.bind_eq_bind, Option.bind_some,
    List.filterMap_map, Option.pure_def]
  rfl

end Volume

lemma recordsOf_eq {f : LogFolder} (hread : ∀ v ∈ vs, f.read v.name = .ok v.bytes)
    (hrecords : ∀ v ∈ vs, LogFile.records? v.bytes = some v.records) :
    f.recordsOf (vs.map Volume.name) = .ok (vs.flatMap Volume.records) := by
  induction vs with
  | nil => rfl
  | cons v vs ih =>
    rw [List.forall_mem_cons] at hread hrecords
    simp only [List.map_cons, LogFolder.recordsOf, hread.1, hrecords.1, ih hread.2 hrecords.2,
      List.flatMap_cons, bind, Except.bind, pure, Except.pure]

/-- The log files are listed by the millisecond in which they were opened, and the records are read
in that order. The time of a leap second off the minute is the one that is read in its stamp. -/
theorem files_are_listed_by_millisecond {calls : List Call} (hnew : w.current = none)
    (hfolder : w.folder = .absent ∨ w.folder = .present .empty)
    (hbase : w.config.base = LogFile.defaultBase)
    (hclock : ∀ t ∈ w.now :: calls.filterMap Call.time?, t.HasStamp)
    (hlines : ∀ line later, .log line later ∈ calls →
      ∃ r : AuditRecord, r.time.InCalendar ∧ line = r.line) :
    ∃ volumes survivors listed : List Volume, ∃ records : List AuditRecord,
      volumes.map Volume.opening = w.opened calls ∧
      volumes.flatMap Volume.lines = w.written calls ∧
      survivors.Sublist volumes ∧
      (∀ name e, (w.run calls).folder.paths.get? name = some e ↔
        ∃ v ∈ survivors, v.name = name ∧ e = .file v.bytes) ∧
      listed.Perm survivors ∧
      listed.Pairwise (fun u v => u.openedAt.settled.milli ≤ v.openedAt.settled.milli) ∧
      (w.run calls).folder.logFiles LogFile.defaultBase = .ok (listed.map Volume.name) ∧
      (w.run calls).folder.readRecords = .ok records ∧
      records.map AuditRecord.line = (listed.flatMap Volume.lines).map Prod.snd ∧
      (survivors.Pairwise (fun u v => u.openedAt.settled.milli < v.openedAt.settled.milli) →
        listed = survivors) := by
  have hslash : w.config.base.toList.contains '/' = false := by
    rw [hbase]
    decide
  obtain ⟨volumes, survivors, h, hconfig, hopened, hwritten⟩ :=
    (surviving_nil hnew hfolder (hclock _ List.mem_cons_self)).run hslash
      fun t ht => hclock t (List.mem_cons_of_mem _ ht)
  rw [List.map_nil, List.nil_append] at hopened
  rw [List.flatMap_nil, List.nil_append] at hwritten
  have hnamed : ∀ v ∈ survivors, v.Named LogFile.defaultBase := by
    intro v hv
    rw [← hbase, ← hconfig]
    exact h.named v (h.sublist.subset hv)
  have hmem : ∀ v ∈ listing survivors, v ∈ survivors := fun v => (listing_perm survivors).mem_iff.1
  have hfiles : (w.run calls).folder.logFiles LogFile.defaultBase =
      .ok ((listing survivors).map Volume.name) := by
    rw [logFiles_eq h.create_eq, h.keys_eq, List.filter_eq_self.2]
    intro name hname
    obtain ⟨v, hv, rfl⟩ := List.mem_map.1 hname
    obtain ⟨ht, n, hn⟩ := hnamed v (hmem v hv)
    rw [hn]
    exact LogFile.isName_name ht (by decide) n
  have hrecords : ∀ v ∈ listing survivors, ∀ l ∈ v.lines,
      ∃ r : AuditRecord, r.time.InCalendar ∧ l.2 = r.line := by
    intro v hv l hl
    have hvolume : v ∈ volumes := h.sublist.subset (hmem v hv)
    obtain ⟨later, hlog⟩ := log_mem_of_written (hwritten ▸ List.mem_flatMap.2 ⟨v, hvolume, hl⟩)
    exact hlines l.2 later hlog
  have hread : ∀ v ∈ listing survivors, (w.run calls).folder.read v.name = .ok v.bytes := by
    intro v hv
    rw [LogFolder.read, (h.file_iff _ _).2 ⟨v, hmem v hv, rfl, rfl⟩]
  refine ⟨volumes, survivors, listing survivors, (listing survivors).flatMap Volume.records, hopened,
    hwritten, h.sublist, h.file_iff, listing_perm survivors, ?_, hfiles, ?_, ?_, fun hstrict => ?_⟩
  · refine (pairwise_listing survivors).imp_of_mem fun {u v} hu hv hle => ?_
    -- names of different milliseconds are in order; those of one are not
    by_contra hmilli
    exact String.not_lt.2 hle
      ((hnamed v (hmem v hv)).name_lt (hnamed u (hmem u hu)) (Int.not_le.1 hmilli))
  · rw [LogFolder.readRecords, hfiles]
    exact recordsOf_eq hread fun v hv => Volume.records?_bytes (hrecords v hv)
  · rw [List.map_flatMap, List.map_flatMap]
    exact List.flatMap_congr fun v hv => Volume.map_line_records (hrecords v hv)
  · refine List.mergeSort_of_pairwise (hstrict.imp_of_mem fun hu hv hmilli => ?_)
    exact decide_eq_true (Std.le_of_lt ((hnamed _ hu).name_lt (hnamed _ hv) hmilli))

theorem hourly_files_are_listed :
    let t : Instant := .atSecond 1740821400
    let u : Instant := .atSecond 1740825000
    let r : AuditRecord := .new ⟨default, t⟩ .securityDecision "a.example.com"
    let s : AuditRecord := .new ⟨default, u⟩ .securityDecision "b.example.com"
    let w : LogWriter := { config := { maxFileAge := Duration.second }, now := t }
    let calls : List Call := [.log r.line, .setClock u, .log s.line]
    (w.current = none ∧ w.folder = .absent ∧ w.config.base = LogFile.defaultBase ∧
      (∀ t' ∈ w.now :: calls.filterMap Call.time?, t'.HasStamp) ∧
      ∀ line later, .log line later ∈ calls →
        ∃ r : AuditRecord, r.time.InCalendar ∧ line = r.line) ∧
    ∃ volumes listed : List Volume, ∃ records : List AuditRecord,
      volumes.flatMap Volume.lines = [(t, r.line), (u, s.line)] ∧
      (w.run calls).folder.logFiles LogFile.defaultBase = .ok (listed.map Volume.name) ∧
      (w.run calls).folder.readRecords = .ok records ∧
      records.map AuditRecord.line = (listed.flatMap Volume.lines).map Prod.snd := by
  intro t u r s w calls
  have hclock : ∀ t' ∈ w.now :: calls.filterMap Call.time?, t'.HasStamp := by decide +kernel
  have hlines : ∀ line later, .log line later ∈ calls →
      ∃ r : AuditRecord, r.time.InCalendar ∧ line = r.line := by
    intro line later hline
    have hcases : line = r.line ∧ later = none ∨ line = s.line ∧ later = none := by
      simpa [calls] using hline
    rcases hcases with ⟨rfl, -⟩ | ⟨rfl, -⟩
    · exact ⟨r, by decide +kernel, rfl⟩
    · exact ⟨s, by decide +kernel, rfl⟩
  obtain ⟨volumes, -, listed, records, -, hwritten, -, -, -, -, hfiles, hrecords, hread, -⟩ :=
    files_are_listed_by_millisecond (w := w) rfl (.inl rfl) rfl hclock hlines
  exact ⟨⟨rfl, rfl, rfl, hclock, hlines⟩, volumes, listed, records, hwritten, hfiles, hrecords,
    hread⟩

/-- Of three files of one millisecond the first is listed last. -/
theorem first_of_three_files_is_listed_last :
    let w : LogWriter := { config := { maxFileSize := 1 }, now := .atSecond 1740821400 }
    let calls : List Call := [.log "a", .log "b", .log "c"]
    w.current = none ∧ w.folder = .absent ∧ w.config.base = LogFile.defaultBase ∧
    (w.opened calls).map Prod.fst =
      ["security-audit-20250301-093000.000.jsonl", "security-audit-20250301-093000.000-1.jsonl",
        "security-audit-20250301-093000.000-2.jsonl"] ∧
    (w.run calls).folder.logFiles LogFile.defaultBase = .ok
      ["security-audit-20250301-093000.000-1.jsonl", "security-audit-20250301-093000.000-2.jsonl",
        "security-audit-20250301-093000.000.jsonl"] := by
  decide +kernel

end LogWriter

end TlsTrust
