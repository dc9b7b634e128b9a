import TlsTrust.Time.Reader
import TlsTrust.Time.Text
import TlsTrust.Proofs.Text.Digits
import TlsTrust.Proofs.Time.Calendar
import Mathlib.Tactic.SplitIfs

/-!
An instant that is written reads back as itself, unless it is a leap second off the minute, and what
is read can be written.
-/

namespace TlsTrust

open Text

namespace Time

variable {w n : Nat} {rest : List Char}

lemma exists_padded (hw : 0 < w) (n : Nat) :
    ∃ d ds, (padded w n).toList = d :: ds ∧ d.isDigit = true := by
  have hle := le_length_padded w n
  obtain ⟨d, ds, h⟩ := List.exists_cons_of_length_pos (Nat.lt_of_lt_of_le hw hle)
  exact ⟨d, ds, h, isDigit_of_mem_padded (w := w) (n := n) (h ▸ List.mem_cons_self)⟩

lemma dropWhile_isBlank_padded (hw : 0 < w) (n : Nat) (rest : List Char) :
    ((padded w n).toList ++ rest).dropWhile isBlank = (padded w n).toList ++ rest := by
  obtain ⟨d, ds, h, hd⟩ := exists_padded hw n
  rw [h, List.cons_append, List.dropWhile_cons, isBlank_of_isDigit hd]
  rfl

lemma isEmpty_padded (hw : 0 < w) (n : Nat) : (padded w n).toList.isEmpty = false := by
  obtain ⟨d, ds, h, -⟩ := exists_padded hw n
  rw [h]
  rfl

lemma takeWhile_padded (w n : Nat) (h : ∀ c, rest.head? = some c → c.isDigit = false) :
    ((padded w n).toList ++ rest).takeWhile Char.isDigit = (padded w n).toList :=
  (takeWhile_append_of_all (fun _ hc => isDigit_of_mem_padded hc) h).1

lemma number?_padded (hw : 0 < w) (hn : n < 10 ^ w) (rest : List Char) :
    number? w ((padded w n).toList ++ rest) = some (n, rest) := by
  have hall : ((padded w n).toList ++ []).takeWhile Char.isDigit = (padded w n).toList :=
    takeWhile_padded w n (by simp)
  rw [List.append_nil] at hall
  simp only [number?, dropWhile_isBlank_padded hw, List.take_left' (length_padded hw hn), hall,
    isEmpty_padded hw, List.drop_left, natOfDigits_padded]
  rfl

lemma year?_padded (hn : n < 10 ^ 4) (rest : List Char) :
    year? ((padded 4 n).toList ++ rest) = some ((n : Int), rest) := by
  obtain ⟨d, ds, h, hd⟩ := exists_padded (w := 4) (by decide) n
  have hnumber := number?_padded (by decide) hn rest
  unfold year?
  rw [dropWhile_isBlank_padded (by decide)]
  rw [h] at hnumber ⊢
  split
  case h_1 heq => exact absurd (List.cons.inj heq).1 (ne_of_isDigit hd (by decide))
  case h_2 heq => exact absurd (List.cons.inj heq).1 (ne_of_isDigit hd (by decide))
  case h_3 => rw [hnumber]; rfl

lemma year?_yearText (year : Int) (h : ∀ c, rest.head? = some c → c.isDigit = false) :
    year? ((yearText year).toList ++ rest) = some (year, rest) := by
  unfold yearText
  split_ifs with hplain hneg
  · have habs : (year.toNat : Int) = year := by omega
    rw [year?_padded (by omega), habs]
  · have habs : -(year.natAbs : Int) = year := by omega
    generalize year.natAbs = n at habs ⊢
    rw [String.toList_append]
    simp [year?, isBlank, takeWhile_padded 4 _ h, isEmpty_padded, habs]
  · have habs : (year.natAbs : Int) = year := by omega
    rw [String.toList_append]
    simp [year?, isBlank, takeWhile_padded 4 _ h, isEmpty_padded, habs]

lemma fraction?_padded (hw : 0 < w) (hle : w ≤ 9) (hn : n < 10 ^ w)
    (h : ∀ c, rest.head? = some c → c.isDigit = false) :
    fraction? ('.' :: ((padded w n).toList ++ rest)) = some (n * 10 ^ (9 - w), rest) := by
  have htake : (padded w n).toList.take 9 = (padded w n).toList :=
    List.take_of_length_le (by rw [length_padded hw hn]; exact hle)
  simp only [fraction?, takeWhile_padded w n h, isEmpty_padded hw, htake, natOfDigits_padded,
    length_padded hw hn, List.drop_left' (length_padded hw hn), Bool.false_eq_true, if_false,
    Nat.pow_eq]

lemma fraction?_fractionText {nano : Nat} (hn : nano < 1000000000)
    (h : ∀ c, rest.head? = some c → c.isDigit = false ∧ c ≠ '.') :
    fraction? ((fractionText nano).toList ++ rest) = some (nano, rest) := by
  have hdigit : ∀ c, rest.head? = some c → c.isDigit = false := fun c hc => (h c hc).1
  unfold fractionText
  split_ifs with hzero hmilli hmicro
  · obtain rfl : nano = 0 := by simpa using hzero
    unfold fraction?
    split
    case h_1 heq => exact absurd rfl (h '.' (by rw [← List.nil_append rest]; exact heq ▸ rfl)).2
    case h_2 => rfl
  · have hmod : nano / 1000000 * 10 ^ (9 - 3) = nano := by
      rw [beq_iff_eq] at hmilli
      omega
    rw [String.toList_append]
    exact (fraction?_padded (by decide) (by decide) (by omega) hdigit).trans (by rw [hmod])
  · have hmod : nano / 1000 * 10 ^ (9 - 6) = nano := by
      rw [beq_iff_eq] at hmicro
      omega
    rw [String.toList_append]
    exact (fraction?_padded (by decide) (by decide) (by omega) hdigit).trans (by rw [hmod])
  · rw [String.toList_append]
    exact (fraction?_padded (by decide) (by decide) hn hdigit).trans (by rw [Nat.sub_self, Nat.pow_zero, Nat.mul_one])

lemma failure_bind {α β : Type} (f : α → Option β) : ((failure : Option α) >>= f) = none := rfl

structure Reading.Exists (r : Reading) : Prop where
  isValid : (⟨r.year, r.month, r.day⟩ : Date).isValid = true
  year_mem : minYear ≤ r.year ∧ r.year ≤ maxYear
  hour_lt : r.hour < 24
  minute_lt : r.minute < 60
  second_lt : r.second < 61

def Reading.secondAt (r : Reading) (offset : Int) : Int :=
  (⟨r.year, r.month, r.day⟩ : Date).toDays * 86400 + r.hour * 3600 + r.minute * 60 +
    (if r.second = 60 then 59 else (r.second : Int)) - offset

lemma Reading.instant?_eq_some_iff {r : Reading} {offset : Int} {t : Instant} :
    r.instant? offset = some t ↔ r.Exists ∧ (-86400 < offset ∧ offset < 86400) ∧
      (minYear ≤ t.date.year ∧ t.date.year ≤ maxYear) ∧ t.second = r.secondAt offset ∧
      t.nano = r.nano + if r.second = 60 then 1000000000 else 0 := by
  have hexists : r.Exists ↔ ¬ (!(⟨r.year, r.month, r.day⟩ : Date).isValid || r.year < minYear ||
      maxYear < r.year) = true ∧ ¬ (24 ≤ r.hour || 60 ≤ r.minute || 61 ≤ r.second) = true := by
    simp only [Bool.or_eq_true, decide_eq_true_eq, not_or, Bool.not_eq_true', Bool.not_eq_false]
    constructor
    · rintro ⟨h₁, h₂, h₃, h₄, h₅⟩
      exact ⟨⟨⟨h₁, by omega⟩, by omega⟩, ⟨by omega, by omega⟩, by omega⟩
    · rintro ⟨⟨⟨h₁, h₂⟩, h₃⟩, ⟨h₄, h₅⟩, h₆⟩
      exact ⟨h₁, by omega, by omega, by omega, by omega⟩
  have hoffset : -86400 < offset ∧ offset < 86400 ↔
      ¬ (offset ≤ -86400 || 86400 ≤ offset) = true := by
    simp only [Bool.or_eq_true, decide_eq_true_eq]
    omega
  have hyear (year : Int) : minYear ≤ year ∧ year ≤ maxYear ↔
      ¬ (year < minYear || maxYear < year) = true := by
    simp only [Bool.or_eq_true, decide_eq_true_eq]
    omega
  rw [hexists, hoffset, hyear]
  obtain ⟨second, nano, hnano⟩ := t
  simp only [Reading.instant?, failure_bind, Option.ite_none_left_eq_some,
    Option.dite_none_right_eq_some, Option.pure_def, Option.some.injEq, Instant.mk.injEq,
    Instant.date, beq_iff_eq]
  constructor
  · rintro ⟨h₁, h₂, h₃, h₄, -, rfl, rfl⟩
    exact ⟨⟨h₁, h₂⟩, h₃, h₄, rfl, rfl⟩
  · rintro ⟨⟨h₁, h₂⟩, h₃, h₄, rfl, rfl⟩
    exact ⟨h₁, h₂, h₃, h₄, hnano, rfl, rfl⟩

end Time

namespace Instant

open Time

/-- The year is one of the calendar. -/
structure InCalendar (t : Instant) : Prop where
  minYear_le : minYear ≤ t.date.year
  le_maxYear : t.date.year ≤ maxYear

instance (t : Instant) : Decidable t.InCalendar :=
  decidable_of_iff (minYear ≤ t.date.year ∧ t.date.year ≤ maxYear) ⟨fun ⟨h, k⟩ => ⟨h, k⟩,
    fun ⟨h, k⟩ => ⟨h, k⟩⟩

/-- The instant that is read in what is written of `t`. Texts have leap seconds only at the end of a
minute; one elsewhere is written as the second after it. -/
def settled (t : Instant) : Instant :=
  if t.isLeap = true ∧ t.second % 60 ≠ 59 then
    ⟨t.second + 1, t.nano - 1000000000, by have := t.nano_lt; omega⟩
  else t

variable {t : Instant}

lemma settled_eq_self (h : t.isLeap = true → t.second % 60 = 59) : t.settled = t :=
  if_neg fun hstray => hstray.2 (h hstray.1)

lemma leap_settled (t : Instant) : t.settled.isLeap = true → t.settled.second % 60 = 59 := by
  have hlt := t.nano_lt
  unfold settled
  split_ifs with h
  · simp only [isLeap, decide_eq_true_eq]
    omega
  · intro hleap
    by_contra hsecond
    exact h ⟨hleap, hsecond⟩

lemma settled_eq_self_iff : t.settled = t ↔ (t.isLeap = true → t.second % 60 = 59) :=
  ⟨fun h => h ▸ t.leap_settled, settled_eq_self⟩

lemma hour_lt (t : Instant) : t.hour < 24 := by
  simp only [hour, secondOfDay]
  omega

lemma minute_lt (t : Instant) : t.minute < 60 := by
  simp only [minute, secondOfDay]
  omega

lemma secondOfMinute_lt (t : Instant) : t.secondOfMinute < 61 := by
  simp only [secondOfMinute]
  split_ifs <;> omega

lemma secondOfMinute_eq (h : t.isLeap = true → t.second % 60 = 59) :
    t.secondOfMinute = if t.isLeap then 60 else (t.second % 60).toNat := by
  simp only [secondOfMinute, secondOfDay]
  split_ifs with hleap
  · have := h hleap
    omega
  · omega

lemma fraction_lt (t : Instant) : t.fraction < 1000000000 :=
  Nat.mod_lt _ (by decide)

lemma fraction_add (t : Instant) : t.fraction + (if t.isLeap then 1000000000 else 0) = t.nano := by
  have hlt := t.nano_lt
  simp only [fraction, isLeap, decide_eq_true_eq]
  split_ifs with h
  · omega
  · omega

lemma date_bounds (t : Instant) : t.date.month < 100 ∧ t.date.day < 100 := by
  have h := Date.isValid_ofDays (t.second / 86400)
  have hdays : daysInMonth t.date.year t.date.month ≤ 31 := by
    unfold daysInMonth
    split_ifs <;> decide
  simp only [Date.isValid, Bool.and_eq_true, decide_eq_true_eq] at h
  simp only [date] at hdays ⊢
  omega

def reading (t : Instant) : Reading :=
  ⟨t.date.year, t.date.month, t.date.day, t.hour, t.minute, t.secondOfMinute, t.fraction⟩

lemma date_settled (t : Instant) : t.settled.date = t.date := by
  have hday : t.settled.second / 86400 = t.second / 86400 := by
    unfold settled
    split_ifs with h
    · dsimp only
      omega
    · rfl
  rw [date, date, hday]

lemma reading_settled (t : Instant) : t.settled.reading = t.reading := by
  by_cases h : t.isLeap = true ∧ t.second % 60 ≠ 59
  · have hsettled : t.settled =
        ⟨t.second + 1, t.nano - 1000000000, by have := t.nano_lt; omega⟩ := if_pos h
    have hleap := h.1
    have hlt := t.nano_lt
    simp only [isLeap, decide_eq_true_eq] at hleap
    have hhour : t.settled.hour = t.hour := by
      simp only [hsettled, hour, secondOfDay]
      omega
    have hminute : t.settled.minute = t.minute := by
      simp only [hsettled, minute, secondOfDay]
      omega
    have hsecond : t.settled.secondOfMinute = t.secondOfMinute := by
      have hplain : t.settled.isLeap = false := by
        simp only [hsettled, isLeap, decide_eq_false_iff_not]
        omega
      rw [secondOfMinute, secondOfMinute, if_pos h.1, hplain]
      simp only [hsettled, secondOfDay, Bool.false_eq_true, if_false]
      omega
    have hfraction : t.settled.fraction = t.fraction := by
      simp only [hsettled, fraction]
      omega
    rw [reading, reading, date_settled, hhour, hminute, hsecond, hfraction]
  · rw [settled, if_neg h]

lemma secondOfMinute_eq_sixty_iff (h : t.isLeap = true → t.second % 60 = 59) :
    t.secondOfMinute = 60 ↔ t.isLeap = true := by
  rw [secondOfMinute_eq h]
  split_ifs with hleap
  · simp [hleap]
  · exact iff_of_false (by omega) hleap

lemma exists_reading (h : t.InCalendar) : t.reading.Exists where
  isValid := Date.isValid_ofDays _
  year_mem := ⟨h.minYear_le, h.le_maxYear⟩
  hour_lt := t.hour_lt
  minute_lt := t.minute_lt
  second_lt := t.secondOfMinute_lt

lemma secondAt_reading (h : t.isLeap = true → t.second % 60 = 59) :
    t.reading.secondAt 0 = t.second := by
  have hdays : t.date.toDays = t.second / 86400 := Date.toDays_ofDays _
  simp only [Reading.secondAt, reading, hdays, secondOfMinute_eq_sixty_iff h, hour, minute,
    secondOfDay]
  rw [secondOfMinute_eq h]
  split_ifs with hleap
  · have := h hleap
    omega
  · omega

lemma instant?_reading_of_leap (h : t.InCalendar) (hleap : t.isLeap = true → t.second % 60 = 59) :
    t.reading.instant? 0 = some t := by
  refine Reading.instant?_eq_some_iff.2 ⟨exists_reading h, by decide, ⟨h.minYear_le, h.le_maxYear⟩,
    (secondAt_reading hleap).symm, ?_⟩
  simp only [reading, secondOfMinute_eq_sixty_iff hleap, fraction_add]

lemma InCalendar.settled (h : t.InCalendar) : t.settled.InCalendar := by
  obtain ⟨hmin, hmax⟩ := h
  rw [← t.date_settled] at hmin hmax
  exact ⟨hmin, hmax⟩

lemma instant?_reading (h : t.InCalendar) : t.reading.instant? 0 = some t.settled := by
  rw [← t.reading_settled]
  exact instant?_reading_of_leap h.settled t.leap_settled

variable {rest : List Char}

lemma separator?_self {c : Char} (h : isBlank c = false) : separator? c (c :: rest) = some rest := by
  simp [separator?, h]

lemma calendar?_dateText (t : Instant) (rest : List Char) : calendar? (t.dateText.toList ++ rest) =
    some ((t.date.year, t.date.month, t.date.day), rest) := by
  obtain ⟨hmonth, hday⟩ := t.date_bounds
  have hdash : isBlank '-' = false := by decide
  have hsplit : t.dateText.toList ++ rest = (yearText t.date.year).toList ++
      '-' :: ((padded 2 t.date.month).toList ++ '-' :: ((padded 2 t.date.day).toList ++ rest)) := by
    simp [dateText, toString]
  have hyear (cs : List Char) :
      year? ((yearText t.date.year).toList ++ '-' :: cs) = some (t.date.year, '-' :: cs) :=
    year?_yearText t.date.year (by rintro c ⟨⟩; decide)
  simp only [calendar?, hsplit, hyear, separator?_self hdash, number?_padded (w := 2) (by decide) hmonth,
    number?_padded (w := 2) (by decide) hday, Option.bind_eq_bind, Option.bind_some, Option.pure_def]

lemma text_settled (t : Instant) : t.settled.text = t.text := by
  have hreading := t.reading_settled
  simp only [reading, Reading.mk.injEq] at hreading
  obtain ⟨hyear, hmonth, hday, hhour, hminute, hsecond, hfraction⟩ := hreading
  simp only [text, dateText, clockText, hyear, hmonth, hday, hhour, hminute, hsecond, hfraction]

theorem parse?_text (h : t.InCalendar) : parse? t.text = some t.settled := by
  have hhour : t.hour < 10 ^ 2 := Nat.lt_trans t.hour_lt (by decide)
  have hminute : t.minute < 10 ^ 2 := Nat.lt_trans t.minute_lt (by decide)
  have hsecond : t.secondOfMinute < 10 ^ 2 := Nat.lt_trans t.secondOfMinute_lt (by decide)
  have hcolon : isBlank ':' = false := by decide
  have hsplit : t.text.toList = t.dateText.toList ++ 'T' :: ((padded 2 t.hour).toList ++
      ':' :: ((padded 2 t.minute).toList ++ ':' :: ((padded 2 t.secondOfMinute).toList ++
      ((fractionText t.fraction).toList ++ ['Z'])))) := by
    simp [text, clockText, toString]
  have hfraction : fraction? ((fractionText t.fraction).toList ++ ['Z']) =
      some (t.fraction, ['Z']) :=
    fraction?_fractionText t.fraction_lt (by rintro c ⟨⟩; decide)
  have hoffset : offset? ['Z'] = some (0, []) := by decide
  simp only [parse?, hsplit, calendar?_dateText, number?_padded (w := 2) (by decide) hhour,
    separator?_self hcolon, number?_padded (w := 2) (by decide) hminute,
    number?_padded (w := 2) (by decide) hsecond, hfraction, hoffset, Option.bind_eq_bind,
    Option.bind_some]
  exact instant?_reading h

lemma fraction?_lt {cs : List Char} {n : Nat} (h : fraction? cs = some (n, rest)) : n < 1000000000 := by
  unfold fraction? at h
  split at h
  · rename_i cs
    obtain ⟨-, h⟩ := Option.ite_none_left_eq_some.1 h
    obtain ⟨rfl, -⟩ := Prod.mk.inj (Option.some.inj h)
    have hlt : natOfDigits ((cs.takeWhile Char.isDigit).take 9) <
        10 ^ ((cs.takeWhile Char.isDigit).take 9).length :=
      natOfDigits_lt fun c hc => List.all_eq_true.1 List.all_takeWhile c (List.mem_of_mem_take hc)
    have hle : ((cs.takeWhile Char.isDigit).take 9).length ≤ 9 := List.length_take_le _ _
    calc _ < 10 ^ ((cs.takeWhile Char.isDigit).take 9).length *
          10 ^ (9 - ((cs.takeWhile Char.isDigit).take 9).length) :=
        Nat.mul_lt_mul_of_pos_right hlt (Nat.pow_pos (by decide))
      _ = 10 ^ 9 := by rw [← Nat.pow_add, Nat.add_sub_cancel' hle]
  · obtain ⟨rfl, -⟩ := Prod.mk.inj (Option.some.inj h)
    decide

lemma offset?_mod {cs : List Char} {offset : Int} (h : offset? cs = some (offset, rest)) :
    offset % 60 = 0 := by
  unfold offset? at h
  simp only at h
  split at h
  · obtain ⟨rfl, -⟩ := Prod.mk.inj (Option.some.inj h)
    rfl
  · split at h
    · obtain ⟨rfl, -⟩ := Prod.mk.inj (Option.some.inj h)
      rfl
    · obtain ⟨rfl, -⟩ := Prod.mk.inj (Option.some.inj h)
      rfl
    · split_ifs at h
      all_goals
        obtain ⟨negative, -, h⟩ := Option.bind_eq_some_iff.1 h
        obtain ⟨tens, -, h⟩ := Option.bind_eq_some_iff.1 h
        obtain ⟨units, -, h⟩ := Option.bind_eq_some_iff.1 h
        split at h
        · obtain ⟨minuteTens, -, h⟩ := Option.bind_eq_some_iff.1 h
          split at h
          · cases h
          · obtain ⟨minuteUnits, -, h⟩ := Option.bind_eq_some_iff.1 h
            obtain ⟨rfl, -⟩ := Prod.mk.inj (Option.some.inj h)
            split <;> omega
        · cases h
    · cases h

lemma inCalendar_of_instant? {r : Reading} {offset : Int} (h : r.instant? offset = some t) :
    t.InCalendar :=
  have hyear := (Reading.instant?_eq_some_iff.1 h).2.2.1
  ⟨hyear.1, hyear.2⟩

lemma leap_of_instant? {r : Reading} {offset : Int} (h : r.instant? offset = some t)
    (hoffset : offset % 60 = 0) (hnano : r.nano < 1000000000) :
    t.isLeap = true → t.second % 60 = 59 := by
  intro hleap
  obtain ⟨-, -, -, hsecond, hn⟩ := Reading.instant?_eq_some_iff.1 h
  have hsixty : r.second = 60 := by
    simp only [isLeap, decide_eq_true_eq] at hleap
    split at hn <;> omega
  rw [hsecond, Reading.secondAt, if_pos hsixty]
  omega

theorem of_parse?_eq_some {s : String} (h : parse? s = some t) :
    t.InCalendar ∧ (t.isLeap = true → t.second % 60 = 59) := by
  unfold parse? at h
  obtain ⟨⟨⟨year, month, day⟩, cs⟩, -, h⟩ := Option.bind_eq_some_iff.1 h
  -- the mark before the time is read in one way or fails in two
  simp only at h
  split at h
  on_goal 1 => split at h
  all_goals
    obtain ⟨cs, -, h⟩ := Option.bind_eq_some_iff.1 h
    obtain ⟨⟨hour, cs⟩, -, h⟩ := Option.bind_eq_some_iff.1 h
    obtain ⟨cs, -, h⟩ := Option.bind_eq_some_iff.1 h
    obtain ⟨⟨minute, cs⟩, -, h⟩ := Option.bind_eq_some_iff.1 h
    obtain ⟨cs, -, h⟩ := Option.bind_eq_some_iff.1 h
    obtain ⟨⟨second, cs⟩, -, h⟩ := Option.bind_eq_some_iff.1 h
    obtain ⟨⟨nano, cs⟩, hnano, h⟩ := Option.bind_eq_some_iff.1 h
    obtain ⟨⟨offset, cs⟩, hoffset, h⟩ := Option.bind_eq_some_iff.1 h
    obtain ⟨-, h⟩ := Option.ite_none_left_eq_some.1 h
    exact ⟨inCalendar_of_instant? h, leap_of_instant? h (offset?_mod hoffset) (fraction?_lt hnano)⟩

end Instant

end TlsTrust
