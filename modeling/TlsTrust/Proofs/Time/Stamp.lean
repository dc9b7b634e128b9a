import TlsTrust.Proofs.Time.Reading

/-!
The stamps in the names of log files read back as the time to the millisecond, and their order as
texts is the order in time.
-/

namespace TlsTrust

open Text

namespace Instant

open Time

/-- The year is one of those that are written in four digits. -/
structure HasStamp (t : Instant) : Prop where
  year_nonneg : 0 ≤ t.date.year
  year_le : t.date.year ≤ 9999

instance (t : Instant) : Decidable t.HasStamp :=
  decidable_of_iff (0 ≤ t.date.year ∧ t.date.year ≤ 9999) ⟨fun ⟨h, k⟩ => ⟨h, k⟩,
    fun ⟨h, k⟩ => ⟨h, k⟩⟩

variable {s t : Instant}

lemma HasStamp.inCalendar (h : t.HasStamp) : t.InCalendar :=
  ⟨Int.le_trans (by decide) h.year_nonneg, Int.le_trans h.year_le (by decide)⟩

lemma HasStamp.settled (h : t.HasStamp) : t.settled.HasStamp := by
  obtain ⟨hmin, hmax⟩ := h
  rw [← t.date_settled] at hmin hmax
  exact ⟨hmin, hmax⟩

def toMillis (t : Instant) : Instant :=
  ⟨t.second, t.nano / 1000000 * 1000000, by have := t.nano_lt; omega⟩

def milli (t : Instant) : Int :=
  t.second * 2000 + (t.nano / 1000000 : Nat)

def clockChars (t : Instant) : List Char :=
  (padded 2 t.hour).toList ++ ((padded 2 t.minute).toList ++ ((padded 2 t.secondOfMinute).toList ++
    '.' :: (padded 3 (t.fraction / 1000000)).toList))

lemma toList_stamp (h : t.HasStamp) : t.stamp.toList =
    (padded 4 t.date.year.toNat).toList ++ ((padded 2 t.date.month).toList ++
      ((padded 2 t.date.day).toList ++ '-' :: t.clockChars)) := by
  have hyear : yearText t.date.year = padded 4 t.date.year.toNat := if_pos ⟨h.year_nonneg, h.year_le⟩
  simp [stamp, clockChars, hyear, toString]

lemma year_toNat_lt (h : t.HasStamp) : t.date.year.toNat < 10 ^ 4 := by
  have := h.year_le
  omega

lemma month_lt (t : Instant) : t.date.month < 10 ^ 2 := t.date_bounds.1

lemma day_lt (t : Instant) : t.date.day < 10 ^ 2 := t.date_bounds.2

lemma clock_lt (t : Instant) : t.hour < 10 ^ 2 ∧ t.minute < 10 ^ 2 ∧
    t.secondOfMinute < 10 ^ 2 ∧ t.fraction / 1000000 < 10 ^ 3 := by
  have hhour := t.hour_lt
  have hminute := t.minute_lt
  have hsecond := t.secondOfMinute_lt
  have hfraction := t.fraction_lt
  omega

lemma length_stamp (h : t.HasStamp) : t.stamp.toList.length = 19 := by
  obtain ⟨hhour, hminute, hsecond, hmilli⟩ := t.clock_lt
  simp only [toList_stamp h, clockChars, List.length_append, List.length_cons,
    length_padded (w := 4) (by decide) (year_toNat_lt h), length_padded (w := 2) (by decide) t.month_lt,
    length_padded (w := 2) (by decide) t.day_lt, length_padded (w := 2) (by decide) hhour,
    length_padded (w := 2) (by decide) hminute, length_padded (w := 2) (by decide) hsecond,
    length_padded (w := 3) (by decide) hmilli]

lemma second_eq (t : Instant) :
    t.second = 86400 * (t.second / 86400) + 3600 * t.hour + 60 * t.minute + t.second % 60 := by
  simp only [hour, minute, secondOfDay]
  omega

lemma milli_eq (t : Instant) :
    t.milli = t.second * 2000 + (t.fraction / 1000000 : Nat) + if t.isLeap then 1000 else 0 := by
  have hnano := t.fraction_add
  rw [milli, ← hnano]
  split_ifs <;> omega

lemma clock_lex (hsl : s.isLeap = true → s.second % 60 = 59)
    (htl : t.isLeap = true → t.second % 60 = 59) (hday : s.second / 86400 = t.second / 86400)
    (h : s.milli < t.milli) : s.hour < t.hour ∨ s.hour = t.hour ∧ (s.minute < t.minute ∨
      s.minute = t.minute ∧ (s.secondOfMinute < t.secondOfMinute ∨
      s.secondOfMinute = t.secondOfMinute ∧ s.fraction / 1000000 < t.fraction / 1000000)) := by
  have hs₁ := second_eq s
  have ht₁ := second_eq t
  have hs₂ := s.minute_lt
  have ht₂ := t.minute_lt
  have hs₃ : s.fraction / 1000000 < 1000 := s.clock_lt.2.2.2
  have ht₃ : t.fraction / 1000000 < 1000 := t.clock_lt.2.2.2
  have hs₄ : 0 ≤ s.second % 60 ∧ s.second % 60 < 60 := by omega
  have ht₄ : 0 ≤ t.second % 60 ∧ t.second % 60 < 60 := by omega
  rw [milli_eq, milli_eq] at h
  rw [secondOfMinute_eq hsl, secondOfMinute_eq htl]
  generalize s.second % 60 = x at *
  generalize t.second % 60 = y at *
  generalize s.fraction / 1000000 = m at *
  generalize t.fraction / 1000000 = n at *
  rw [← hday] at ht₁
  split_ifs at h ⊢ with hleap hleap' hleap'
  · rw [hsl hleap] at hs₁
    rw [htl hleap'] at ht₁
    omega
  · rw [hsl hleap] at hs₁
    omega
  · rw [htl hleap'] at ht₁
    omega
  · omega

lemma clockChars_lt (hsl : s.isLeap = true → s.second % 60 = 59)
    (htl : t.isLeap = true → t.second % 60 = 59) (hday : s.second / 86400 = t.second / 86400)
    (h : s.milli < t.milli) : s.clockChars < t.clockChars := by
  obtain ⟨hs₁, hs₂, hs₃, hs₄⟩ := s.clock_lt
  obtain ⟨ht₁, ht₂, ht₃, ht₄⟩ := t.clock_lt
  have hmilli (hlt : s.fraction / 1000000 < t.fraction / 1000000) :
      '.' :: (padded 3 (s.fraction / 1000000)).toList < '.' :: (padded 3 (t.fraction / 1000000)).toList := by
    have hpadded : (padded 3 (s.fraction / 1000000)).toList ++ [] <
        (padded 3 (t.fraction / 1000000)).toList ++ [] :=
      padded_append_lt (by decide) hs₄ ht₄ (.inl hlt)
    rw [List.append_nil, List.append_nil] at hpadded
    exact List.cons_lt_cons_iff.2 (.inr ⟨rfl, hpadded⟩)
  refine padded_append_lt (by decide) hs₁ ht₁ ?_
  refine (clock_lex hsl htl hday h).imp_right (And.imp_right fun h => padded_append_lt (by decide) hs₂ ht₂ ?_)
  refine h.imp_right (And.imp_right fun h => padded_append_lt (by decide) hs₃ ht₃ ?_)
  exact h.imp_right (And.imp_right hmilli)

lemma stamp_lt_of_leap (hs : s.HasStamp) (ht : t.HasStamp) (hsl : s.isLeap = true → s.second % 60 = 59)
    (htl : t.isLeap = true → t.second % 60 = 59) (h : s.milli < t.milli) :
    s.stamp.toList < t.stamp.toList := by
  rw [toList_stamp hs, toList_stamp ht]
  have hle : s.second / 86400 ≤ t.second / 86400 := by
    have hs₁ := s.nano_lt
    have ht₁ := t.nano_lt
    unfold milli at h
    omega
  have hsyear := hs.year_nonneg
  have htyear := ht.year_nonneg
  have hlex : s.date.Before t.date ∨ s.date = t.date ∧ s.clockChars < t.clockChars := by
    rcases Int.lt_or_eq_of_le hle with hlt | heq
    · exact .inl (Date.ofDays_before hlt)
    · exact .inr ⟨congrArg Date.ofDays heq, clockChars_lt hsl htl heq h⟩
  have hclock (hlt : s.clockChars < t.clockChars) : '-' :: s.clockChars < '-' :: t.clockChars :=
    List.cons_lt_cons_iff.2 (.inr ⟨rfl, hlt⟩)
  rcases hlex with hdate | ⟨hdate, hclocks⟩
  · have hnumbers : s.date.year.toNat < t.date.year.toNat ∨
        s.date.year.toNat = t.date.year.toNat ∧ (s.date.month < t.date.month ∨
        s.date.month = t.date.month ∧ s.date.day < t.date.day) := by
      unfold Date.Before at hdate
      omega
    refine padded_append_lt (by decide) (year_toNat_lt hs) (year_toNat_lt ht) ?_
    refine hnumbers.imp_right (And.imp_right fun h =>
      padded_append_lt (by decide) s.month_lt t.month_lt ?_)
    exact h.imp_right (And.imp_right fun h => padded_append_lt (by decide) s.day_lt t.day_lt (.inl h))
  · rw [hdate]
    exact List.append_left_lt (List.append_left_lt (List.append_left_lt (hclock hclocks)))

lemma stamp_settled (t : Instant) : t.settled.stamp = t.stamp := by
  have hreading := t.reading_settled
  simp only [reading, Reading.mk.injEq] at hreading
  obtain ⟨hyear, hmonth, hday, hhour, hminute, hsecond, hfraction⟩ := hreading
  simp only [stamp, hyear, hmonth, hday, hhour, hminute, hsecond, hfraction]

theorem stamp_lt (hs : s.HasStamp) (ht : t.HasStamp) (h : s.settled.milli < t.settled.milli) :
    s.stamp.toList < t.stamp.toList := by
  rw [← s.stamp_settled, ← t.stamp_settled]
  exact stamp_lt_of_leap hs.settled ht.settled s.leap_settled t.leap_settled h

lemma isLeap_toMillis (t : Instant) : t.toMillis.isLeap = t.isLeap := by
  have hnano : t.toMillis.nano = t.nano / 1000000 * 1000000 := rfl
  rw [Bool.eq_iff_iff]
  simp only [isLeap, hnano, decide_eq_true_eq]
  omega

lemma HasStamp.toMillis (h : t.HasStamp) : t.toMillis.HasStamp :=
  ⟨h.year_nonneg, h.year_le⟩

lemma secondOfMinute_toMillis (t : Instant) : t.toMillis.secondOfMinute = t.secondOfMinute := by
  simp only [secondOfMinute, isLeap_toMillis]
  rfl

lemma fraction_toMillis (t : Instant) : t.toMillis.fraction = t.fraction / 1000000 * 1000000 := by
  simp only [fraction, Instant.toMillis]
  omega

lemma reading_toMillis (t : Instant) : t.toMillis.reading = ⟨t.date.year, t.date.month, t.date.day,
    t.hour, t.minute, t.secondOfMinute, t.fraction / 1000000 * 1000000⟩ := by
  rw [reading, secondOfMinute_toMillis, fraction_toMillis]
  rfl

lemma stamp_toMillis (t : Instant) : t.toMillis.stamp = t.stamp := by
  rw [stamp, secondOfMinute_toMillis, fraction_toMillis, Nat.mul_div_cancel _ (by decide)]
  rfl

lemma stamp_eq_of_milli_eq (h : s.milli = t.milli) : s.stamp = t.stamp := by
  have hs := s.nano_lt
  have ht := t.nano_lt
  unfold milli at h
  have hsecond : s.second = t.second := by omega
  have hnano : s.nano / 1000000 = t.nano / 1000000 := by omega
  have hmillis : s.toMillis = t.toMillis := by simp only [Instant.toMillis, hsecond, hnano]
  rw [← s.stamp_toMillis, hmillis, t.stamp_toMillis]

lemma millis?_padded {n : Nat} (h : n < 10 ^ 3) :
    millis? ('.' :: (padded 3 n).toList) = some (n * 1000000, []) := by
  have hlength := length_padded (w := 3) (by decide) h
  have hvalue := natOfDigits_padded 3 n
  have hall : (padded 3 n).toList.all Char.isDigit = true :=
    List.all_eq_true.2 fun c hc => isDigit_of_mem_padded hc
  match hds : (padded 3 n).toList, hlength with
  | [a, b, c], _ =>
    rw [hds] at hvalue hall
    rw [millis?, if_pos hall, hvalue]

lemma ofStamp?_stamp_of_leap (h : t.HasStamp) (hleap : t.isLeap = true → t.second % 60 = 59) :
    ofStamp? t.stamp.toList = some t.toMillis := by
  obtain ⟨hhour, hminute, hsecond, hmilli⟩ := t.clock_lt
  have habs : (t.date.year.toNat : Int) = t.date.year := Int.toNat_of_nonneg h.year_nonneg
  have hread : t.toMillis.reading.instant? 0 = some t.toMillis :=
    instant?_reading_of_leap h.toMillis.inCalendar fun hmillis =>
      hleap (t.isLeap_toMillis ▸ hmillis)
  rw [reading_toMillis] at hread
  simp only [ofStamp?, toList_stamp h, clockChars, year?_padded (year_toNat_lt h),
    number?_padded (w := 2) (by decide) t.month_lt, number?_padded (w := 2) (by decide) t.day_lt,
    number?_padded (w := 2) (by decide) hhour, number?_padded (w := 2) (by decide) hminute,
    number?_padded (w := 2) (by decide) hsecond, millis?_padded hmilli, Option.bind_eq_bind,
    Option.bind_some, habs, List.isEmpty_nil, Bool.not_true, Bool.false_eq_true, if_false, hread]

theorem ofStamp?_stamp (h : t.HasStamp) : ofStamp? t.stamp.toList = some t.settled.toMillis := by
  rw [← t.stamp_settled]
  exact ofStamp?_stamp_of_leap h.settled t.leap_settled

end Instant

end TlsTrust
