/-!
Labels of domain names in ASCII: the characters beyond ASCII are described after the last hyphen by
the distances between their places.
-/

namespace TlsTrust.Url.Punycode

def digitChar (d : Nat) : Char :=
  if d < 26 then Char.ofNat (97 + d) else Char.ofNat (22 + d)

def digit? (c : Char) : Option Nat :=
  if 'a' ≤ c ∧ c ≤ 'z' then some (c.toNat - 97)
  else if c.isDigit then some (c.toNat - 22)
  else none

/-- A digit below the threshold of its place is the last one of its number. -/
def threshold (place bias : Nat) : Nat :=
  if place ≤ bias then 1 else if bias + 26 ≤ place then 26 else place - bias

theorem one_le_threshold (place bias : Nat) : 1 ≤ threshold place bias := by
  grind [threshold]

def settle (place delta : Nat) : Nat :=
  if 455 < delta then settle (place + 36) (delta / 35) else place + 36 * delta / (delta + 38)
termination_by delta
decreasing_by omega

def adapt (delta count : Nat) (first : Bool) : Nat :=
  let scaled := if first then delta / 700 else delta / 2
  settle 0 (scaled + scaled / count)

def digits (bias place q : Nat) : List Char :=
  if q < threshold place bias then [digitChar q]
  else
    digitChar (threshold place bias + (q - threshold place bias) % (36 - threshold place bias)) ::
      digits bias (place + 36) ((q - threshold place bias) / (36 - threshold place bias))
termination_by q
decreasing_by
  have h := one_le_threshold place bias
  exact Nat.lt_of_le_of_lt (Nat.div_le_self _ _) (by omega)

structure Writing where
  text : List Char
  delta : Nat
  bias : Nat
  placed : Nat

def Writing.pass (basic m : Nat) (w : Writing) (c : Char) : Writing :=
  if c.toNat < m then { w with delta := w.delta + 1 }
  else if c.toNat = m then
    { text := w.text ++ digits w.bias 36 w.delta
      delta := 0
      bias := adapt w.delta (w.placed + 1) (w.placed == basic)
      placed := w.placed + 1 }
  else w

def Writing.place (label : List Char) (basic : Nat) : List Nat → Nat → Writing → Writing
  | [], _, w => w
  | m :: rest, next, w =>
    let w := { w with delta := w.delta + (m - next) * (w.placed + 1) }
    let w := label.foldl (Writing.pass basic m) w
    Writing.place label basic rest (m + 1) { w with delta := w.delta + 1 }

def encode (label : List Char) : List Char :=
  let basic := label.filter (·.toNat < 128)
  let others := ((label.filter (128 ≤ ·.toNat)).map Char.toNat).mergeSort.eraseDups
  let start : Writing := ⟨[], 0, 72, basic.length⟩
  let written := Writing.place label basic.length others 128 start
  basic ++ (if basic.isEmpty then [] else ['-']) ++ written.text

def distance? (bias : Nat) : List Char → (place weight i : Nat) → Option (Nat × List Char)
  | [], _, _, _ => none
  | c :: rest, place, weight, i => do
    let d ← digit? c
    let i := i + d * weight
    if d < threshold place bias then return (i, rest)
    else distance? bias rest (place + 36) (weight * (36 - threshold place bias)) i

theorem distance?_shorter {bias place weight i n : Nat} {cs rest : List Char}
    (h : distance? bias cs place weight i = some (n, rest)) : rest.length < cs.length := by
  induction cs generalizing place weight i with
  | nil => simp [distance?] at h
  | cons c cs ih =>
    simp only [distance?] at h
    cases hd : digit? c with
    | none => simp [hd] at h
    | some d =>
      simp only [hd, Option.bind_eq_bind, Option.bind_some] at h
      split at h
      · simp only [Option.pure_def, Option.some.injEq, Prod.mk.injEq] at h
        simp [h.2]
      · have := ih h
        simp only [List.length_cons]
        omega

def placeAll? (label : List Char) (next i bias : Nat) (cs : List Char) : Option (List Char) :=
  if cs.isEmpty then some label
  else
    match _h : distance? bias cs 36 1 i with
    | none => none
    | some (j, rest) =>
      let count := label.length + 1
      let code := next + j / count
      if code.isValidChar ∧ 128 ≤ code then
        let at_ := j % count
        placeAll? (label.take at_ ++ Char.ofNat code :: label.drop at_) code (at_ + 1)
          (adapt (j - i) count (i == 0)) rest
      else none
termination_by cs.length
decreasing_by exact distance?_shorter (by assumption)

def decode? (cs : List Char) : Option (List Char) :=
  let tail := (cs.reverse.takeWhile (· != '-')).reverse
  let basic := cs.take (cs.length - tail.length - 1)
  if basic.all (·.toNat < 128) then placeAll? basic 128 0 72 tail else none

end TlsTrust.Url.Punycode
