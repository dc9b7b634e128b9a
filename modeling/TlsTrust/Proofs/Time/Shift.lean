import TlsTrust.Time.Instant
import Mathlib.Tactic.Lemma

/-! A shift may lead into a leap second, through one, or out of one. -/

namespace TlsTrust

namespace Instant

variable {s t u : Instant} {d d' : Int}

lemma le_refl (t : Instant) : t ≤ t := Int.le_refl _

lemma le_antisymm (h : s ≤ t) (k : t ≤ s) : s = t := key_injective (Int.le_antisymm h k)

lemma le_trans (h : s ≤ t) (k : t ≤ u) : s ≤ u := Int.le_trans h k

lemma le_total (s t : Instant) : s ≤ t ∨ t ≤ s := Int.le_total _ _

lemma not_lt : ¬ s < t ↔ t ≤ s := Int.not_lt

lemma exists_max (s t : Instant) : ∃ m : Instant, ∀ u, s ≤ u ∧ t ≤ u ↔ m ≤ u := by
  rcases le_total s t with h | h
  · exact ⟨t, fun u => ⟨And.right, fun k => ⟨le_trans h k, k⟩⟩⟩
  · exact ⟨s, fun u => ⟨And.left, fun k => ⟨k, le_trans h k⟩⟩⟩

lemma exists_min (s t : Instant) : ∃ m : Instant, ∀ u, u ≤ s ∧ u ≤ t ↔ u ≤ m := by
  rcases le_total s t with h | h
  · exact ⟨s, fun u => ⟨And.left, fun k => ⟨k, le_trans k h⟩⟩⟩
  · exact ⟨t, fun u => ⟨And.right, fun k => ⟨le_trans k h, k⟩⟩⟩

lemma key_ofNanos (second n : Int) : (ofNanos second n).key =
    second * 2000000000 + n / 1000000000 * 2000000000 + n % 1000000000 := by
  simp only [ofNanos, key]
  omega

lemma key_plus_of_isLeap (h : t.isLeap = true) (d : Int) : (t.plus d).key =
    if 2000000000 ≤ t.nano + d then (ofNanos t.second (t.nano - 1000000000 + d)).key
    else if d ≤ -1000000000 then (ofNanos (t.second + 1) (t.nano - 1000000000 + d)).key
    else t.second * 2000000000 + t.nano + d := by
  obtain ⟨second, nano, hnano⟩ := t
  have hleap : 1000000000 ≤ nano := by simpa [isLeap] using h
  have hsplit : 1000000000 * Int.tdiv d 1000000000 + Int.tmod d 1000000000 = d :=
    Int.mul_tdiv_add_tmod d 1000000000
  have hlt : Int.tmod d 1000000000 < 1000000000 := Int.tmod_lt_of_pos d (by decide)
  have hgt : -1000000000 < Int.tmod d 1000000000 := Int.lt_tmod_of_pos d (by decide)
  have hpos : 0 ≤ d → 0 ≤ Int.tmod d 1000000000 := Int.tmod_nonneg _
  have hneg : 0 ≤ -d → 0 ≤ -Int.tmod d 1000000000 := fun h => by
    rw [← Int.neg_tmod]
    exact Int.tmod_nonneg _ h
  have hafter : (0 < Int.tdiv d 1000000000 ∨ 0 < Int.tmod d 1000000000 ∧
      2000000000 ≤ (nano : Int) + Int.tmod d 1000000000) ↔ 2000000000 ≤ nano + d := by omega
  have hbefore : Int.tdiv d 1000000000 < 0 ↔ d ≤ -1000000000 := by omega
  simp only [plus, h, if_true, Duration.second, hafter, hbefore]
  split
  · rfl
  · split
    · rfl
    · simp only [key]
      omega

lemma plus_le_plus (t : Instant) (h : d ≤ d') : t.plus d ≤ t.plus d' := by
  rw [le_iff]
  cases hleap : t.isLeap with
  | false =>
    simp only [plus, hleap, Bool.false_eq_true, if_false, key_ofNanos]
    omega
  | true =>
    have hnano : t.nano < 2000000000 := t.nano_lt
    have hlow : 1000000000 ≤ t.nano := by simpa [isLeap] using hleap
    rw [key_plus_of_isLeap hleap, key_plus_of_isLeap hleap]
    simp only [key_ofNanos]
    split <;> split <;> omega

lemma minus_le_minus (t : Instant) (h : d ≤ d') : t.minus d' ≤ t.minus d :=
  t.plus_le_plus (Int.neg_le_neg h)

@[simp] lemma plus_zero (t : Instant) : t.plus 0 = t := by
  apply key_injective
  cases hleap : t.isLeap with
  | false =>
    have hlow : t.nano < 1000000000 := by simpa [isLeap] using hleap
    have hplain : t.plus 0 = ofNanos t.second (t.nano + 0) := by
      simp only [plus, hleap, Bool.false_eq_true, if_false]
    rw [hplain, key_ofNanos, key]
    omega
  | true =>
    have hnano := t.nano_lt
    rw [key_plus_of_isLeap hleap, if_neg (by omega), if_neg (by omega), Int.add_zero, key]

lemma le_plus (t : Instant) (h : 0 ≤ d) : t ≤ t.plus d := by
  simpa using t.plus_le_plus h

lemma minus_le (t : Instant) (h : 0 ≤ d) : t.minus d ≤ t := by
  simpa [minus] using t.minus_le_minus h

end Instant

end TlsTrust
