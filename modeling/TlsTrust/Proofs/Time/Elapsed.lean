import TlsTrust.Time.Instant
import Mathlib.Data.List.Dedup
import Mathlib.Tactic.Lemma
import Mathlib.Tactic.SplitIfs

/-!
The time between readings of a clock adds up where no reading is in a leap second, and each leap
second that is read may cost a second.
-/

namespace TlsTrust

namespace Instant

variable {r s t u : Instant} {ts : List Instant}

def leapSeconds (ts : List Instant) : List Int :=
  ((ts.filter isLeap).map second).dedup

lemma mem_leapSeconds (h : t ∈ ts) (hleap : t.isLeap = true) : t.second ∈ leapSeconds ts :=
  List.mem_dedup.2 (List.mem_map.2 ⟨t, List.mem_filter.2 ⟨h, hleap⟩, rfl⟩)

/-- The most that readings in leap seconds may add to the time between readings. -/
def leapAllowance (ts : List Instant) : Duration :=
  Duration.ofSeconds (min 3 (leapSeconds ts).length)

theorem leapAllowance_eq_zero (h : ∀ t ∈ ts, t.isLeap = false) : leapAllowance ts = 0 := by
  have hnone : ts.filter isLeap = [] := List.filter_eq_nil_iff.2 fun t ht => by simp [h t ht]
  rw [leapAllowance, leapSeconds, hnone]
  rfl

lemma since_le_add (hr : r ∈ ts) (hs : s ∈ ts) (ht : t ∈ ts) (hu : u ∈ ts) (hrs : r ≤ s)
    (hsu : s ≤ u) : s.since r ≤ u.since t + t.since r + leapAllowance ts := by
  have hleap : ∀ {i : Instant}, i ∈ ts → 1000000000 ≤ i.nano → i.second ∈ leapSeconds ts :=
    fun hi hnano => mem_leapSeconds hi (decide_eq_true hnano)
  replace hr := hleap hr
  replace hs := hleap hs
  replace ht := hleap ht
  replace hu := hleap hu
  have hsnano := s.nano_lt
  have hunano := u.nano_lt
  simp only [le_iff, key] at hrs hsu
  simp only [leapAllowance, Duration.ofSeconds, Duration.second, since, secondOfDay, isLeap,
    decide_eq_true_eq]
  dsimp only [Duration]
  -- the readings fall into no leap second, into one, into one of two, or into any
  generalize leapSeconds ts = seconds at hr hs ht hu ⊢
  rcases seconds with _ | ⟨a, _ | ⟨b, _ | ⟨c, rest⟩⟩⟩
  · simp only [List.not_mem_nil, imp_false, List.length_nil] at hr hs ht hu ⊢
    split_ifs <;> omega
  · simp only [List.mem_singleton, List.length_singleton] at hr hs ht hu ⊢
    split_ifs <;> omega
  · simp only [List.mem_pair, List.length_cons, List.length_nil] at hr hs ht hu ⊢
    split_ifs <;> omega
  · clear hr hs ht hu
    simp only [List.length_cons]
    split_ifs <;> omega

end Instant

end TlsTrust
