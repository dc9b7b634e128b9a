import TlsTrust.Proofs.Engine.Decision
import TlsTrust.Proofs.Engine.Run
import TlsTrust.Proofs.Text.Ascii
import TlsTrust.Proofs.Text.Cut

/-!
Case and dots at the end of a host are always read off, and so is a port behind the bare name; dots
or a bracket before the port hide it.
-/

namespace TlsTrust

open Text

namespace Host

variable {host : String} {cs : List Char}

/-- A host as tables hold it, without a port: a name, or an address in brackets. -/
structure IsEntry (host : String) : Prop where
  key_eq : key host = host
  portless : ':' ∉ host.toList ∧ host.toList.head? ≠ some '[' ∨
    ∃ address, host.toList = '[' :: (address ++ [']']) ∧ ']' ∉ address

/-- A way to write a host: its name in letters of either case, dots behind it, and a port. -/
structure Spelling where
  name : String
  dots : Nat := 0
  port : Option String := none

namespace Spelling

variable {w : Spelling}

def portChars : Option String → List Char
  | some p => ':' :: p.toList
  | none => []

def text (w : Spelling) : String :=
  String.ofList (w.name.toList ++ (List.replicate w.dots '.' ++ portChars w.port))

structure Writes (w : Spelling) (host : String) : Prop where
  letters : lower w.name = host
  digits : ∀ p, w.port = some p → p.toList ≠ [] ∧ ∀ c ∈ p.toList, c.isDigit = true

/-- What stands before a port is the name alone. -/
def IsPlain (w : Spelling) (host : String) : Prop :=
  w.port = none ∨ w.dots = 0 ∧ host.toList.head? ≠ some '['

end Spelling

lemma toList_key (host : String) : (key host).toList =
    (dropEndWhile (· == '.') (dropEndWhile isBlank (host.toList.dropWhile isBlank))).map
      Char.toLower := by
  simp [key, lower, dropTrailingDots, trim]

lemma ends_of_key_eq (h : key host = host) :
    (∀ c, host.toList.head? = some c → isBlank c = false) ∧
      ∀ c, host.toList.getLast? = some c → isBlank c = false ∧ (c == '.') = false := by
  have hchars := toList_key host
  rw [h] at hchars
  generalize host.toList = cs at hchars ⊢
  have hsuffix : cs.dropWhile isBlank <:+ cs := List.dropWhile_suffix _
  have hblank := dropEndWhile_prefix isBlank (cs.dropWhile isBlank)
  have hdot := dropEndWhile_prefix (· == '.') (dropEndWhile isBlank (cs.dropWhile isBlank))
  have hlength := congrArg List.length hchars
  rw [List.length_map] at hlength
  -- nothing is cut off, since what is cut off does not come back
  have hfirst : cs.dropWhile isBlank = cs :=
    hsuffix.eq_of_length (by have := hsuffix.length_le; have := hblank.length_le; have := hdot.length_le; omega)
  rw [hfirst] at hblank hdot hlength
  have hlast : dropEndWhile isBlank cs = cs :=
    hblank.eq_of_length (by have := hblank.length_le; have := hdot.length_le; omega)
  rw [hlast] at hdot hlength
  have hend : dropEndWhile (· == '.') cs = cs := hdot.eq_of_length hlength.symm
  refine ⟨dropWhile_eq_self_iff.1 hfirst, fun c hc => ?_⟩
  have hdot : (c == '.') = false := by simpa using dropEndWhile_getLast? hend hc
  exact ⟨dropEndWhile_getLast? hlast hc, hdot⟩

namespace Spelling

variable {w : Spelling} {host : String}

lemma Writes.map_name (h : w.Writes host) : w.name.toList.map Char.toLower = host.toList := by
  rw [← h.letters, lower, String.toList_ofList]

lemma Writes.name_ends (h : w.Writes host) (hkey : key host = host) :
    (∀ c, w.name.toList.head? = some c → isBlank c = false) ∧
      ∀ c, w.name.toList.getLast? = some c → isBlank c = false ∧ (c == '.') = false := by
  obtain ⟨hfirst, hlast⟩ := ends_of_key_eq hkey
  rw [← h.map_name] at hfirst hlast
  constructor
  · intro c hc
    rw [← isBlank_toLower]
    exact hfirst _ (by rw [List.head?_map, hc]; rfl)
  · intro c hc
    obtain ⟨hblank, hdot⟩ := hlast c.toLower (by rw [List.getLast?_map, hc]; rfl)
    rw [isBlank_toLower] at hblank
    rw [beq_eq_false_iff_ne, ne_eq, toLower_eq_iff (by decide)] at hdot
    exact ⟨hblank, beq_eq_false_iff_ne.2 hdot⟩

lemma Writes.head?_text (h : w.Writes host) (hkey : key host = host) (c : Char)
    (hc : w.text.toList.head? = some c) : isBlank c = false := by
  rw [text, String.toList_ofList, List.head?_append, Option.or_eq_some_iff] at hc
  rcases hc with hc | ⟨-, hc⟩
  · exact (h.name_ends hkey).1 c hc
  · rw [List.head?_append, Option.or_eq_some_iff] at hc
    rcases hc with hc | ⟨-, hc⟩
    · obtain rfl : c = '.' := List.eq_of_mem_replicate (List.mem_of_head? hc)
      decide
    · cases hport : w.port with
      | none => simp [hport, portChars] at hc
      | some p =>
        obtain rfl : ':' = c := by simpa [hport, portChars] using hc
        decide

lemma key_text_of_no_port (h : w.Writes host) (hkey : key host = host) (hport : w.port = none) :
    key w.text = host := by
  have hfirst := h.head?_text hkey
  obtain ⟨-, hlast⟩ := h.name_ends hkey
  apply String.toList_inj.1
  rw [toList_key, ← h.map_name]
  simp only [text, hport, portChars, List.append_nil, String.toList_ofList] at hfirst ⊢
  congr 1
  have hblank : dropEndWhile isBlank (w.name.toList ++ List.replicate w.dots '.') =
      w.name.toList ++ List.replicate w.dots '.' := by
    refine dropEndWhile_eq_self fun c hc => ?_
    rw [List.getLast?_append, Option.or_eq_some_iff] at hc
    rcases hc with hc | ⟨-, hc⟩
    · obtain rfl : c = '.' := List.eq_of_mem_replicate (List.mem_of_getLast? hc)
      decide
    · exact (hlast c hc).1
  rw [dropWhile_eq_self_iff.2 hfirst, hblank, dropEndWhile_append_replicate (by decide)]
  exact dropEndWhile_eq_self fun c hc => (hlast c hc).2

lemma key_text_of_port (h : w.Writes host) (hkey : key host = host) {p : String}
    (hport : w.port = some p) :
    (key w.text).toList = host.toList ++ (List.replicate w.dots '.' ++ ':' :: p.toList) := by
  have hfirst := h.head?_text hkey
  obtain ⟨hne, hdigits⟩ := h.digits p hport
  have hlast : ∀ c, w.text.toList.getLast? = some c → c.isDigit = true := by
    intro c hc
    refine hdigits c ?_
    rw [text, hport, portChars, String.toList_ofList, List.getLast?_append, List.getLast?_append,
      List.getLast?_cons] at hc
    rw [List.getLast?_eq_getLast_of_ne_nil hne] at hc
    simp only [Option.getD_some, Option.some_or, Option.some.injEq] at hc
    exact hc ▸ List.getLast_mem hne
  rw [toList_key, dropWhile_eq_self_iff.2 hfirst, dropEndWhile_eq_self fun c hc => isBlank_of_isDigit (hlast c hc),
    dropEndWhile_eq_self fun c hc => beq_eq_false_iff_ne.2 (ne_of_isDigit (hlast c hc) rfl),
    ← h.map_name]
  have hport_lower : p.toList.map Char.toLower = p.toList := by
    refine (List.map_congr_left fun c hc => toLower_eq_self_of_isDigit (hdigits c hc)).trans ?_
    exact List.map_id' _
  simp only [text, hport, portChars, String.toList_ofList, List.map_append, List.map_replicate,
    List.map_cons, hport_lower]
  rfl

end Spelling

lemma withoutPortChars_of_name {name port : List Char} (hcolon : ':' ∉ name)
    (hbracket : name.head? ≠ some '[') (hport : ∀ c ∈ port, c.isDigit = true) :
    withoutPortChars (name ++ ':' :: port) = name := by
  have hno : ':' ∉ port := fun h => ne_of_isDigit (hport _ h) (by decide) rfl
  unfold withoutPortChars
  split
  case h_1 rest heq =>
    cases name with
    | nil => cases heq
    | cons c cs => exact absurd (congrArg some (List.cons.inj heq).1) hbracket
  case h_2 =>
    have hall : port.all Char.isDigit = true := List.all_eq_true.2 hport
    simp [splitLast?_append hno, hcolon, hall]

lemma withoutPortChars_of_address {address rest : List Char} (h : ']' ∉ address) :
    withoutPortChars ('[' :: (address ++ ']' :: rest)) = address := by
  have hall : ∀ c ∈ address, (c != ']') = true := fun c hc => bne_iff_ne.2 fun he => h (he ▸ hc)
  simp [withoutPortChars, List.takeWhile_append_of_pos hall]

lemma Spelling.Writes.isPlain_iff {w : Spelling} (h : w.Writes host) (hentry : IsEntry host) :
    w.IsPlain host ↔ key w.text = host ∨ withoutPort (key w.text) = host := by
  obtain ⟨hkey, hhost⟩ := hentry
  cases hport : w.port with
  | none => simp [IsPlain, hport, key_text_of_no_port h hkey hport]
  | some p =>
    have hchars := key_text_of_port h hkey hport
    obtain ⟨-, hdigits⟩ := h.digits p hport
    have hexact : key w.text ≠ host := by
      intro he
      have hlength := congrArg List.length (hchars.symm.trans (congrArg String.toList he))
      simp at hlength
    rcases hhost with ⟨hcolon, hbracket⟩ | ⟨address, haddress, hclose⟩
    · have hbare : (withoutPort (key w.text)).toList =
          host.toList ++ List.replicate w.dots '.' := by
        rw [withoutPort, String.toList_ofList, hchars, ← List.append_assoc]
        refine withoutPortChars_of_name ?_ ?_ hdigits
        · simp [hcolon, List.mem_replicate]
        · rw [List.head?_append]
          cases hhead : host.toList.head? with
          | none => simp [List.head?_replicate]
          | some c => exact fun he => hbracket (hhead.trans he)
      have hdots : host.toList ++ List.replicate w.dots '.' = host.toList ↔ w.dots = 0 := by simp
      simp only [IsPlain, hport, hexact, ← String.toList_inj, hbare, hdots]
      simp [hbracket]
    · have hbare : (withoutPort (key w.text)).toList = address := by
        rw [withoutPort, String.toList_ofList, hchars, haddress]
        simpa using withoutPortChars_of_address hclose
      have hne : address ≠ '[' :: (address ++ [']']) := by
        intro he
        have hlength := congrArg List.length he
        simp only [List.length_cons, List.length_append, List.length_nil] at hlength
        omega
      simp only [IsPlain, hport, hexact, ← String.toList_inj, hbare, haddress, hne]
      simp

end Host

lemma Strategy.key_eq_of_validate {s : Strategy} {host : String} (h : s.validate = .ok ())
    (hmem : host ∈ s.hostNames) : Host.key host = host := by
  unfold validate at h
  split_ifs at h
  split at h
  · cases h
  case h_2 hnone => simpa using List.find?_eq_none.1 hnone host hmem

namespace Table

variable {α : Type} {t : Table α} {k k' : String}

lemma get?_erase_of_ne (h : k' ≠ k) : (t.erase k).get? k' = t.get? k' :=
  Option.ext fun v => by simp [get?_erase, h]

lemma contains_erase_of_ne (h : k' ≠ k) : (t.erase k).contains k' = t.contains k' := by
  rw [contains_eq_isSome_get?, contains_eq_isSome_get?, get?_erase_of_ne h]

end Table

namespace Engine

open Host

variable {host : String} {w : Spelling}

def without (e : Engine) (host : String) : Engine :=
  { e with
    strategy := { e.strategy with
      hostOverrides := e.strategy.hostOverrides.erase host
      insecureHosts := e.strategy.insecureHosts.erase host }
    trusted := e.trusted.erase host }

lemma without_eq (e : Engine) {text : String} (hkey : key text ≠ host)
    (hbare : withoutPort (key text) ≠ host) :
    (e.without host).strategy.hostOverride text = e.strategy.hostOverride text ∧
      (e.without host).strategy.isInsecureHost text = e.strategy.isInsecureHost text ∧
      (e.without host).isTrustedHost text = e.isTrustedHost text := by
  refine ⟨?_, ?_, ?_⟩
  · simp only [Strategy.hostOverride, without, Table.get?_erase_of_ne hkey,
      Table.get?_erase_of_ne hbare]
  · simp only [Strategy.isInsecureHost, without, Table.contains_erase_of_ne hkey,
      Table.contains_erase_of_ne hbare]
  · simp only [isTrustedHost, without, Table.contains_erase_of_ne hkey,
      Table.contains_erase_of_ne hbare]

/-- What tables say of a host holds in every plain spelling of it, unless an override names the host
with the very port. In any other spelling the host might as well be missing from the tables. -/
theorem entries_hold_in_plain_spellings (e : Engine) (hentry : IsEntry host) (hw : w.Writes host) :
    (w.IsPlain host →
      (∀ a, e.strategy.hostOverrides.get? host = some a → e.strategy.hostOverride w.text =
        some ((e.strategy.hostOverrides.get? (key w.text)).getD a)) ∧
      (e.strategy.insecureHosts.contains host = true →
        e.strategy.isInsecureHost w.text = true) ∧
      (e.trusted.contains host = true → e.isTrustedHost w.text = true)) ∧
    (¬ w.IsPlain host →
      (e.without host).strategy.hostOverride w.text = e.strategy.hostOverride w.text ∧
      (e.without host).strategy.isInsecureHost w.text = e.strategy.isInsecureHost w.text ∧
      (e.without host).isTrustedHost w.text = e.isTrustedHost w.text) := by
  rw [hw.isPlain_iff hentry]
  constructor
  · intro hfound
    refine ⟨fun a ha => ?_, fun hinsecure => ?_, fun htrusted => ?_⟩
    · rcases hfound with hkey | hbare
      · simp [Strategy.hostOverride, hkey, ha]
      · simp only [Strategy.hostOverride, hbare, ha]
        cases e.strategy.hostOverrides.get? (key w.text) <;> rfl
    · rcases hfound with hkey | hbare
      · simp [Strategy.isInsecureHost, hkey, hinsecure]
      · simp [Strategy.isInsecureHost, hbare, hinsecure]
    · rcases hfound with hkey | hbare
      · simp [isTrustedHost, hkey, htrusted]
      · simp [isTrustedHost, hbare, htrusted]
  · intro hhidden
    obtain ⟨hkey, hbare⟩ := not_or.1 hhidden
    exact e.without_eq hkey hbare

theorem denial_holds_before_port :
    let e := bare (Strategy.permissive.withHostOverride "registry.example.com" .deny)
    let plain : Spelling := ⟨"Registry.Example.COM", 0, some "5000"⟩
    let dotted : Spelling := ⟨"registry.example.com", 1, some "5000"⟩
    IsEntry "registry.example.com" ∧ plain.Writes "registry.example.com" ∧
      dotted.Writes "registry.example.com" ∧
      e.strategy.hostOverride "Registry.Example.COM:5000" = some .deny ∧
      (e.without "registry.example.com").strategy.hostOverride "registry.example.com.:5000" =
        e.strategy.hostOverride "registry.example.com.:5000" := by
  intro e plain dotted
  have hkey : key "registry.example.com" = "registry.example.com" :=
    Strategy.key_eq_of_validate (show e.strategy.validate = .ok () by decide +kernel)
      (by decide +kernel)
  have hentry : IsEntry "registry.example.com" := ⟨hkey, .inl (by decide +kernel)⟩
  have hport : "5000".toList ≠ [] ∧ ∀ c ∈ "5000".toList, c.isDigit = true :=
    ⟨by decide, List.all_eq_true.1 (by decide)⟩
  have hplain : plain.Writes "registry.example.com" :=
    ⟨by decide +kernel, by rintro p ⟨⟩; exact hport⟩
  have hdotted : dotted.Writes "registry.example.com" :=
    ⟨by decide +kernel, by rintro p ⟨⟩; exact hport⟩
  have hcovered := ((entries_hold_in_plain_spellings e hentry hplain).1
    (.inr ⟨rfl, by decide +kernel⟩)).1 .deny (by decide +kernel)
  have hmissed := ((entries_hold_in_plain_spellings e hentry hdotted).2
    (by rintro (h | h) <;> simp [dotted] at h)).1
  have hexact : e.strategy.hostOverrides.get? (key plain.text) = none := by decide +kernel
  have hplain_text : plain.text = "Registry.Example.COM:5000" := by decide +kernel
  have hdotted_text : dotted.text = "registry.example.com.:5000" := by decide +kernel
  rw [hexact, hplain_text] at hcovered
  rw [hdotted_text] at hmissed
  exact ⟨hentry, hplain, hdotted, hcovered, hmissed⟩

/-- A host that is denied by name is accepted when a dot stands before its port, and an address that
is denied in brackets when a port follows them. -/
theorem denied_host_is_accepted :
    let s := Strategy.permissive.withHostOverride "registry.example.com" .deny
      |>.withHostOverride "[::1]" .deny
    let decided (host : String) := ((bare s).decided? (.decide (.classify
      ⟨"x509: certificate signed by unknown authority", none, []⟩ host (.atSecond 0)))).map (·.action)
    s.validate = .ok () ∧
      decided "registry.example.com" = some .deny ∧ decided "[::1]" = some .deny ∧
      s.hostOverride "registry.example.com.:5000" = none ∧ s.hostOverride "[::1]:5000" = none ∧
      decided "registry.example.com.:5000" = some .log ∧ decided "[::1]:5000" = some .log := by
  decide +kernel

end Engine

end TlsTrust
