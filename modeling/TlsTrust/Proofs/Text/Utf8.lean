import TlsTrust.Text.Utf8
import Mathlib.Data.List.Basic
import Mathlib.Tactic.Lemma
import Mathlib.Tactic.SplitIfs

namespace TlsTrust.Text

lemma toList_loop (bs : ByteArray) (i : Nat) (r : List UInt8) :
    ByteArray.toList.loop bs i r = r.reverse ++ bs.data.toList.drop i := by
  fun_induction ByteArray.toList.loop bs i r with
  | case1 i r h ih =>
    have hlt : i < bs.data.toList.length := h
    rw [ih, List.reverse_cons, List.append_assoc, List.drop_eq_getElem_cons hlt]
    simp [ByteArray.get!, h]
  | case2 i r h =>
    have hle : bs.data.toList.length ≤ i := Nat.le_of_not_lt h
    rw [List.drop_eq_nil_of_le hle, List.append_nil]

lemma utf8_eq_data (s : String) : utf8 s = s.toByteArray.data.toList := by
  rw [utf8, ByteArray.toList, toList_loop]
  rfl

lemma utf8_eq_flatMap (s : String) : utf8 s = s.toList.flatMap String.utf8EncodeChar := by
  rw [utf8_eq_data, ← String.utf8Encode_toList]
  simp [List.utf8Encode]

lemma takeBytes?_eq_some_iff {n : Nat} {cs as : List Char} :
    takeBytes? n cs = some as ↔ as <+: cs ∧ (as.flatMap String.utf8EncodeChar).length = n := by
  fun_induction takeBytes? n cs generalizing as with
  | case1 cs => cases as <;> simp [Nat.ne_of_gt (Char.utf8Size_pos _)]
  | case2 n => cases as <;> simp
  | case3 n c cs hle ih =>
    cases as with
    | nil => simp
    | cons a as =>
      rw [Option.map_eq_some_iff, List.cons_prefix_cons, List.flatMap_cons, List.length_append,
        String.length_utf8EncodeChar]
      constructor
      · rintro ⟨_, hrest, heq⟩
        obtain ⟨rfl, rfl⟩ := List.cons.inj heq
        obtain ⟨hstart, hsize⟩ := ih.1 hrest
        exact ⟨⟨rfl, hstart⟩, by omega⟩
      · rintro ⟨⟨rfl, hstart⟩, hsize⟩
        exact ⟨as, ih.2 ⟨hstart, by omega⟩, rfl⟩
  | case4 n c cs hlong =>
    cases as with
    | nil => simp
    | cons a as =>
      rw [List.cons_prefix_cons, List.flatMap_cons, List.length_append, String.length_utf8EncodeChar]
      simp only [reduceCtorEq, false_iff]
      rintro ⟨⟨rfl, -⟩, hsize⟩
      omega

@[simp] lemma ofUtf8?_utf8 (s : String) : ofUtf8? (utf8 s) = some s := by
  have hbytes : (⟨(utf8 s).toArray⟩ : ByteArray) = s.toByteArray := by rw [utf8_eq_data]
  rw [ofUtf8?, hbytes, String.fromUTF8?, dif_pos s.isValidUTF8]
  rfl

lemma exists_of_mem_utf8 {s : String} {b : UInt8} (hb : b.toNat < 128) (h : b ∈ utf8 s) :
    ∃ c ∈ s.toList, c.toNat = b.toNat := by
  rw [utf8_eq_flatMap, List.mem_flatMap] at h
  obtain ⟨c, hc, h⟩ := h
  refine ⟨c, hc, ?_⟩
  have hval : c.val.toNat = c.toNat := rfl
  simp only [String.utf8EncodeChar, hval] at h
  split_ifs at h with h₁ h₂ h₃
  · rw [List.mem_singleton.1 h, UInt8.toNat_ofNat']
    omega
  -- every byte of a longer code is at least 128
  all_goals
    simp only [List.mem_cons, List.not_mem_nil, or_false] at h
    have hlow : ∀ n, 128 ≤ n → n < 256 → b ≠ UInt8.ofNat n := by
      rintro n hn hn' rfl
      rw [UInt8.toNat_ofNat'] at hb
      omega
  · rcases h with h | h
    all_goals exact absurd h (hlow _ (by omega) (by omega))
  · rcases h with h | h | h
    all_goals exact absurd h (hlow _ (by omega) (by omega))
  · rcases h with h | h | h | h
    all_goals exact absurd h (hlow _ (by omega) (by omega))

lemma notMem_utf8 {s : String} {c : Char} (hc : c.toNat < 128) (h : c ∉ s.toList) :
    UInt8.ofNat c.toNat ∉ utf8 s := by
  have hbyte : (UInt8.ofNat c.toNat).toNat = c.toNat := by
    rw [UInt8.toNat_ofNat']
    omega
  intro hmem
  obtain ⟨d, hd, hdbyte⟩ := exists_of_mem_utf8 (by omega) hmem
  exact h (Char.toNat_inj.1 (hdbyte.trans hbyte) ▸ hd)

lemma splitOn_flatMap_lines {α : Type} [BEq α] [LawfulBEq α] {c : α} {lines : List (List α)}
    (h : ∀ l ∈ lines, c ∉ l) : (lines.flatMap (· ++ [c])).splitOn c = lines ++ [[]] := by
  induction lines with
  | nil => rfl
  | cons l lines ih =>
    have hrest := ih fun l hl => h l (List.mem_cons_of_mem _ hl)
    rw [List.flatMap_cons, List.append_assoc, List.singleton_append,
      List.splitOn_append_cons_self_of_not_mem (h l List.mem_cons_self), hrest]
    rfl

def withoutReturn (line : List UInt8) : List UInt8 :=
  if line.getLast? == some 13 then line.dropLast else line

lemma byteLines_append (as bs : List UInt8) :
    byteLines (as ++ 10 :: bs) = byteLines (as ++ [10]) ++ byteLines bs := by
  have hne : bs.splitOn 10 ≠ [] := List.splitOn_ne_nil 10 bs
  have hended : byteLines (as ++ [10]) = (as.splitOn 10).map withoutReturn := by
    rw [byteLines, List.splitOn_append_cons_self, List.splitOn_nil]
    simp only [List.dropLast_concat, List.getLast?_concat]
    rfl
  rw [hended]
  simp only [byteLines]
  rw [List.splitOn_append_cons_self, List.dropLast_append_of_ne_nil hne,
    List.getLast?_append_of_ne_nil _ hne, List.map_append]
  split
  case h_1 => rfl
  case h_2 => rfl
  case h_3 =>
    rw [List.append_assoc]
    rfl

lemma byteLines_line {line : List UInt8} (h : 10 ∉ line) :
    byteLines (line ++ [10]) = [withoutReturn line] := by
  rw [byteLines, List.splitOn_append_cons_self_of_not_mem h]
  rfl

lemma byteLines_unended {line : List UInt8} (h : 10 ∉ line) (hne : line ≠ []) :
    byteLines line = [line] := by
  rw [byteLines, List.splitOn_eq_singleton h]
  cases line with
  | nil => exact absurd rfl hne
  | cons b line => rfl

lemma byteLines_flatMap {lines : List (List UInt8)}
    (h : ∀ l ∈ lines, 10 ∉ l ∧ l.getLast? ≠ some 13) :
    byteLines (lines.flatMap (· ++ [10])) = lines := by
  induction lines with
  | nil => rfl
  | cons l lines ih =>
    rw [List.forall_mem_cons] at h
    have hline : withoutReturn l = l := by simp [withoutReturn, h.1.2]
    rw [List.flatMap_cons, List.append_assoc, List.singleton_append, byteLines_append,
      byteLines_line h.1.1, ih h.2, hline, List.singleton_append]

end TlsTrust.Text
