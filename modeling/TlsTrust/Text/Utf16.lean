/-! Texts from bytes in UTF-16, the higher byte of a unit first. -/

namespace TlsTrust.Text

def units16? : List UInt8 → Option (List Nat)
  | [] => some []
  | [_] => none
  | a :: b :: rest => (units16? rest).map ((256 * a.toNat + b.toNat) :: ·)

def unitChar? (u : Nat) : Option Char :=
  if h : u.isValidChar then some ⟨UInt32.ofNatLT u (by
    rcases h with h | h
    · exact Nat.lt_trans h (by decide)
    · exact Nat.lt_trans h.2 (by decide)), by simpa [UInt32.isValidChar] using h⟩
  else none

/-- Pairs of a high and a low surrogate make one character; a lone surrogate makes none. -/
def charsOfUnits? : List Nat → Option (List Char)
  | [] => some []
  | u :: rest =>
    if 0xd800 ≤ u ∧ u < 0xdc00 then
      match rest with
      | v :: rest =>
        if 0xdc00 ≤ v ∧ v < 0xe000 then do
          let c ← unitChar? (0x10000 + (u - 0xd800) * 0x400 + (v - 0xdc00))
          return c :: (← charsOfUnits? rest)
        else none
      | [] => none
    else do
      let c ← unitChar? u
      return c :: (← charsOfUnits? rest)

def ofUtf16? (bytes : List UInt8) : Option String := do
  return String.ofList (← charsOfUnits? (← units16? bytes))

end TlsTrust.Text
