import TlsTrust.Time.Date
import Mathlib.Tactic.Lemma

/-!
The count of days and the calendar: every day has a valid date, which counts back to the day, and
later dates have larger counts.
-/

namespace TlsTrust.Time

structure EraDay (day century cycle year dayOfYear : Int) : Prop where
  day_eq : day = 36524 * century + 1461 * cycle + 365 * year + dayOfYear
  century_mem : 0 ≤ century ∧ century ≤ 3
  cycle_mem : 0 ≤ cycle ∧ cycle ≤ 24
  year_mem : 0 ≤ year ∧ year ≤ 3
  nonneg : 0 ≤ dayOfYear
  le : dayOfYear ≤ 364 ∨ dayOfYear = 365 ∧ year = 3 ∧ (cycle < 24 ∨ century = 3)

lemma exists_eraDay {day : Int} (h₀ : 0 ≤ day) (h : day < 146097) :
    ∃ century cycle year dayOfYear, EraDay day century cycle year dayOfYear := by
  -- the last day of the era would start a fifth century
  obtain ⟨c, r, hc, hr⟩ : ∃ c r, (0 ≤ c ∧ c ≤ 3 ∧ day = 36524 * c + r) ∧
      0 ≤ r ∧ (r < 36524 ∨ r = 36524 ∧ c = 3) := by
    by_cases hlast : day = 146096
    · exact ⟨3, 36524, by omega, by omega⟩
    · exact ⟨day / 36524, day % 36524, by omega, by omega⟩
  obtain ⟨j, s, hj, hs⟩ : ∃ j s, (0 ≤ j ∧ j ≤ 3 ∧ r % 1461 = 365 * j + s) ∧
      0 ≤ s ∧ (s ≤ 364 ∨ s = 365 ∧ j = 3) := by
    by_cases hlast : r % 1461 = 1460
    · exact ⟨3, 365, by omega, by omega⟩
    · exact ⟨r % 1461 / 365, r % 1461 % 365, by omega, by omega⟩
  exact ⟨c, r / 1461, j, s, by omega, by omega, by omega, by omega, by omega, by omega⟩

lemma EraDay.yearOfEra {day c m j s : Int} (h : EraDay day c m j s) :
    (day - day / 1460 + day / 36524 - day / 146096) / 365 = 100 * c + 4 * m + j := by
  obtain ⟨hday, hc, hm, hj, hs, hs'⟩ := h
  obtain ⟨δ, hδ, hlow, hhigh⟩ : ∃ δ, day / 1460 = 25 * c + m + δ ∧ δ ≤ s ∧ s ≤ 364 + δ := by
    refine ⟨(24 * c + m + 365 * j + s) / 1460, by omega, ?_, ?_⟩
    · omega
    · omega
  have hera : day / 36524 - day / 146096 = c := by
    by_cases hlast : day = 146096
    · omega
    · have hzero : day / 146096 = 0 := Int.ediv_eq_zero_of_lt (by omega) (by omega)
      have hcentury : day / 36524 = c := by omega
      omega
  have hsum : day - day / 1460 + day / 36524 - day / 146096 =
      365 * (100 * c + 4 * m + j) + (s - δ) := by omega
  rw [hsum]
  omega

lemma EraDay.dayOfYear {day c m j s : Int} (h : EraDay day c m j s) :
    day - (365 * (100 * c + 4 * m + j) + (100 * c + 4 * m + j) / 4 - (100 * c + 4 * m + j) / 100) =
      s := by
  obtain ⟨hday, hc, hm, hj, hs, hs'⟩ := h
  have hcycles : (100 * c + 4 * m + j) / 4 = 25 * c + m := by omega
  have hcenturies : (100 * c + 4 * m + j) / 100 = c := by omega
  omega

lemma EraDay.dayOfYear_mem {day c m j s : Int} (h : EraDay day c m j s) : 0 ≤ s ∧ s ≤ 365 := by
  obtain ⟨-, -, -, -, hs, hs'⟩ := h
  omega

namespace Date

structure FromMarch (d : Date) (year month day : Int) : Prop where
  month_mem : 0 ≤ month ∧ month ≤ 11
  year_eq : d.year = year + (if month < 10 then 0 else 1)
  month_eq : (d.month : Int) = if month < 10 then month + 3 else month - 9
  day_eq : (d.day : Int) = day

def countFromMarch (year month day : Int) : Int :=
  365 * year + year / 4 - year / 100 + year / 400 + (153 * month + 2) / 5 + day - 719469

lemma FromMarch.toDays {d : Date} {y m n : Int} (h : FromMarch d y m n) :
    d.toDays = countFromMarch y m n := by
  obtain ⟨hm, hy, hmonth, hday⟩ := h
  have hyear : (if d.month ≤ 2 then d.year - 1 else d.year) = y := by
    split at hy <;> split at hmonth <;> split <;> omega
  have hfrom : (if d.month ≤ 2 then (d.month : Int) + 9 else d.month - 3) = m := by
    split at hmonth <;> split <;> omega
  simp only [Date.toDays, countFromMarch, hyear, hfrom, hday]
  omega

lemma exists_ofDays (n : Int) : ∃ era c m j s, EraDay (n + 719468 - 146097 * era) c m j s ∧
    FromMarch (ofDays n) (400 * era + (100 * c + 4 * m + j)) ((5 * s + 2) / 153)
      (s - (153 * ((5 * s + 2) / 153) + 2) / 5 + 1) := by
  have hsplit : (n + 719468) % 146097 = n + 719468 - 146097 * ((n + 719468) / 146097) := by omega
  have hday : 0 ≤ (n + 719468) % 146097 ∧ (n + 719468) % 146097 < 146097 := by omega
  obtain ⟨c, m, j, s, h⟩ := exists_eraDay hday.1 hday.2
  refine ⟨(n + 719468) / 146097, c, m, j, s, hsplit ▸ h, ?_⟩
  simp only [ofDays, h.yearOfEra, h.dayOfYear]
  have hs := h.dayOfYear_mem
  generalize 100 * c + 4 * m + j = y
  generalize (n + 719468) / 146097 = era
  clear h hsplit
  have hk : 0 ≤ (5 * s + 2) / 153 ∧ (5 * s + 2) / 153 ≤ 11 := by omega
  have hd : 0 ≤ s - (153 * ((5 * s + 2) / 153) + 2) / 5 + 1 := by omega
  generalize s - (153 * ((5 * s + 2) / 153) + 2) / 5 + 1 = d at hd ⊢
  generalize (5 * s + 2) / 153 = k at hk ⊢
  refine ⟨hk, ?_, ?_, ?_⟩
  · by_cases h : k < 10
    · rw [if_pos h, if_pos h, if_neg (by omega)]
      simp only
      omega
    · rw [if_neg h, if_neg h, if_pos (by omega)]
      simp only
      omega
  · by_cases h : k < 10
    · simp only [if_pos h]
      omega
    · simp only [if_neg h]
      omega
  · simp only [Int.toNat_of_nonneg hd]

theorem toDays_ofDays (n : Int) : (ofDays n).toDays = n := by
  obtain ⟨era, c, m, j, s, hera, hdate⟩ := exists_ofDays n
  rw [hdate.toDays, countFromMarch]
  have hday := hera.dayOfYear_mem
  obtain ⟨hday, hc, hm, hj, hs, hs'⟩ := hera
  omega

lemma isLeap_iff {year : Int} :
    isLeap year = true ↔ year % 4 = 0 ∧ (year % 100 ≠ 0 ∨ year % 400 = 0) := by
  simp [isLeap]

lemma leapDays_succ (year : Int) :
    (year + 1) / 4 - (year + 1) / 100 + (year + 1) / 400 =
      year / 4 - year / 100 + year / 400 + if isLeap (year + 1) then 1 else 0 := by
  by_cases h : isLeap (year + 1) = true
  · have hyear := isLeap_iff.1 h
    rw [if_pos h]
    omega
  · have hyear := mt isLeap_iff.2 h
    rw [if_neg h]
    omega

lemma FromMarch.daysInMonth {d : Date} {y m n : Int} (h : FromMarch d y m n) :
    (Time.daysInMonth d.year d.month : Int) =
      if m = 11 then (if isLeap (y + 1) then 29 else 28)
      else (153 * (m + 1) + 2) / 5 - (153 * m + 2) / 5 := by
  obtain ⟨⟨hlow, hhigh⟩, hy, hmonth, -⟩ := h
  have hcases : m = 11 ∨ m = 0 ∨ m = 1 ∨ m = 2 ∨ m = 3 ∨ m = 4 ∨ m = 5 ∨ m = 6 ∨ m = 7 ∨ m = 8 ∨
      m = 9 ∨ m = 10 := by omega
  rcases hcases with rfl | h
  · have hfeb : d.month = 2 := Int.ofNat_inj.1 hmonth
    have hyear : d.year = y + 1 := hy
    rw [if_pos rfl, hfeb, hyear]
    cases hleap : isLeap (y + 1) <;> simp [Time.daysInMonth, hleap]
  · have hnat : d.month = (if m < 10 then m + 3 else m - 9).toNat := by omega
    rcases h with rfl | rfl | rfl | rfl | rfl | rfl | rfl | rfl | rfl | rfl | rfl
    all_goals simp [Time.daysInMonth, hnat]

theorem isValid_ofDays (n : Int) : (ofDays n).isValid = true := by
  obtain ⟨era, c, m, j, s, hera, hdate⟩ := exists_ofDays n
  have hlength := hdate.daysInMonth
  have hs := hera.dayOfYear_mem
  have hlast : s = 365 → isLeap (400 * era + (100 * c + 4 * m + j) + 1) = true := by
    obtain ⟨-, hc, hm, hj, -, hs'⟩ := hera
    rw [isLeap_iff]
    omega
  obtain ⟨hk, -, hmonth, hday⟩ := hdate
  simp only [isValid, Bool.and_eq_true, decide_eq_true_eq]
  generalize Time.daysInMonth (ofDays n).year (ofDays n).month = length at hlength ⊢
  have hfirst : 1 ≤ s - (153 * ((5 * s + 2) / 153) + 2) / 5 + 1 := by omega
  refine ⟨⟨⟨?_, ?_⟩, by omega⟩, ?_⟩
  · split at hmonth <;> omega
  · split at hmonth <;> omega
  · by_cases hfeb : (5 * s + 2) / 153 = 11
    · rw [hfeb] at hday hlength
      simp only [if_true] at hlength
      by_cases hleap : isLeap (400 * era + (100 * c + 4 * m + j) + 1) = true
      · rw [if_pos hleap] at hlength
        omega
      · have hne : s ≠ 365 := fun h => hleap (hlast h)
        rw [if_neg hleap] at hlength
        omega
    · rw [if_neg hfeb] at hlength
      omega

def Before (d e : Date) : Prop :=
  d.year < e.year ∨ d.year = e.year ∧ (d.month < e.month ∨ d.month = e.month ∧ d.day < e.day)

lemma exists_fromMarch {d : Date} (h : d.isValid = true) : ∃ y m, FromMarch d y m d.day := by
  simp only [isValid, Bool.and_eq_true, decide_eq_true_eq] at h
  obtain ⟨⟨⟨hlow, hhigh⟩, -⟩, -⟩ := h
  by_cases hfeb : d.month ≤ 2
  · exact ⟨d.year - 1, d.month + 9, by omega, by split <;> omega, by split <;> omega, rfl⟩
  · exact ⟨d.year, d.month - 3, by omega, by split <;> omega, by split <;> omega, rfl⟩

lemma FromMarch.dayOfYear_le {d : Date} {y m : Int} (h : FromMarch d y m d.day) (hd : d.isValid = true) :
    (153 * m + 2) / 5 + d.day ≤ (if m = 11 then (if isLeap (y + 1) then 366 else 365)
      else (153 * (m + 1) + 2) / 5) := by
  have hlength := h.daysInMonth
  simp only [isValid, Bool.and_eq_true, decide_eq_true_eq] at hd
  have hle : (d.day : Int) ≤ Time.daysInMonth d.year d.month := by exact_mod_cast hd.2
  rw [hlength] at hle
  by_cases hm : m = 11
  · simp only [if_pos hm] at hle ⊢
    split at hle <;> simp [*] <;> omega
  · simp only [if_neg hm] at hle ⊢
    omega

theorem toDays_lt_toDays {d e : Date} (hd : d.isValid = true) (he : e.isValid = true)
    (h : d.Before e) : d.toDays < e.toDays := by
  obtain ⟨y, m, hdm⟩ := exists_fromMarch hd
  obtain ⟨z, k, hek⟩ := exists_fromMarch he
  have hlast := hdm.dayOfYear_le hd
  have hfirst : 1 ≤ e.day := by
    simp only [isValid, Bool.and_eq_true, decide_eq_true_eq] at he
    exact he.1.2
  rw [hdm.toDays, hek.toDays, countFromMarch, countFromMarch]
  obtain ⟨hm, hy, hmonth, -⟩ := hdm
  obtain ⟨hk, hz, hmonth', -⟩ := hek
  have horder : y < z ∨ y = z ∧ (m < k ∨ m = k ∧ d.day < e.day) := by
    unfold Before at h
    split at hy <;> split at hz <;> split at hmonth <;> split at hmonth' <;> omega
  rcases horder with hlt | ⟨rfl, hlt | ⟨rfl, hlt⟩⟩
  · have hlength : (153 * m + 2) / 5 + d.day ≤ 365 + (if isLeap (y + 1) then 1 else 0) := by
      by_cases hm : m = 11
      · simp only [if_pos hm] at hlast
        split at hlast <;> simp only [*, if_true] <;> omega
      · rw [if_neg hm] at hlast
        split <;> omega
    have hleap := leapDays_succ y
    have hyears : (y + 1) / 4 - (y + 1) / 100 + (y + 1) / 400 ≤ z / 4 - z / 100 + z / 400 := by
      omega
    have hmonths : 0 ≤ (153 * k + 2) / 5 := by omega
    omega
  · rw [if_neg (by omega)] at hlast
    have hmonths : (153 * (m + 1) + 2) / 5 ≤ (153 * k + 2) / 5 := by omega
    omega
  · omega

theorem ofDays_before {m n : Int} (h : m < n) : (ofDays m).Before (ofDays n) := by
  have hcases : (ofDays m).Before (ofDays n) ∨ ofDays m = ofDays n ∨ (ofDays n).Before (ofDays m) := by
    rw [Date.mk.injEq]
    unfold Before
    omega
  rcases hcases with hlt | heq | hgt
  · exact hlt
  · rw [← toDays_ofDays m, ← toDays_ofDays n, heq] at h
    exact absurd h (Int.lt_irrefl _)
  · have hlt := toDays_lt_toDays (isValid_ofDays n) (isValid_ofDays m) hgt
    rw [toDays_ofDays, toDays_ofDays] at hlt
    exact absurd h (Int.not_lt.2 (Int.le_of_lt hlt))

end Date

end TlsTrust.Time
