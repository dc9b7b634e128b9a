import TlsTrust.Text.Ascii
import TlsTrust.Text.Search

/-!
Internet addresses of version 4 and version 6: reading the usual spellings and writing the shortest
one.
-/

namespace TlsTrust

inductive IpAddress where
  | v4 (a b c d : Fin 256)
  | v6 (groups : Vector (Fin 65536) 8)
deriving DecidableEq, Repr

namespace IpAddress

open Text

def byte? (cs : List Char) : Option (Fin 256) :=
  if cs.isEmpty || 3 < cs.length || !cs.all Char.isDigit then none
  else if cs.head? == some '0' && 1 < cs.length then none
  else if h : natOfDigits cs < 256 then some ⟨natOfDigits cs, h⟩ else none

def bytes? (cs : List Char) : Option (Fin 256 × Fin 256 × Fin 256 × Fin 256) :=
  match cs.splitOn '.' with
  | [a, b, c, d] => do return (← byte? a, ← byte? b, ← byte? c, ← byte? d)
  | _ => none

def group? (cs : List Char) : Option (Fin 65536) :=
  if cs.isEmpty || 4 < cs.length then none
  else do
    let ds ← cs.mapM hexDigit?
    let n := ds.foldl (fun n d => 16 * n + d) 0
    if h : n < 65536 then some ⟨n, h⟩ else none

def groups? : List (List Char) → Option (List (Fin 65536))
  | [] => some []
  | [last] =>
    match group? last with
    | some g => some [g]
    | none => (bytes? last).map fun (a, b, c, d) =>
        [Fin.ofNat 65536 (256 * a + b), Fin.ofNat 65536 (256 * c + d)]
  | g :: gs => do return (← group? g) :: (← groups? gs)

def side? (cs : List Char) : Option (List (Fin 65536)) :=
  if cs.isEmpty then some [] else groups? (cs.splitOn ':')

def splitDouble? : List Char → Option (List Char × List Char)
  | ':' :: ':' :: rest => some ([], rest)
  | c :: rest => (splitDouble? rest).map fun (a, b) => (c :: a, b)
  | [] => none

def ofGroups? (gs : List (Fin 65536)) : Option IpAddress :=
  if h : gs.length = 8 then some (.v6 ⟨gs.toArray, by simpa using h⟩) else none

def frontSide? (cs : List Char) : Option (List (Fin 65536)) :=
  if cs.contains '.' then none else side? cs

def v6? (cs : List Char) : Option IpAddress :=
  match splitDouble? cs with
  | none => do ofGroups? (← groups? (cs.splitOn ':'))
  | some (front, back) => do
    let front ← frontSide? front
    let back ← side? back
    if front.length + back.length < 8 then
      ofGroups? (front ++ List.replicate (8 - (front.length + back.length)) 0 ++ back)
    else none

def parse? (s : String) : Option IpAddress :=
  let cs := s.toList
  match bytes? cs with
  | some (a, b, c, d) => some (.v4 a b c d)
  | none => v6? cs

def groupText (g : Fin 65536) : String :=
  String.ofList (Nat.toDigits 16 g)

def byteText (a b c d : Nat) : String :=
  s!"{a}.{b}.{c}.{d}"

def zeroRun (gs : List (Fin 65536)) : Nat :=
  (gs.takeWhile (· == 0)).length

def longestRun (gs : List (Fin 65536)) : Nat × Nat :=
  (List.range 8).foldl
    (fun best i => if best.2 < zeroRun (gs.drop i) then (i, zeroRun (gs.drop i)) else best) (0, 0)

def groupsText (gs : List (Fin 65536)) : String :=
  ":".intercalate (gs.map groupText)

def shortGroups (gs : List (Fin 65536)) : String :=
  let (start, run) := longestRun gs
  if run ≤ 1 then groupsText gs
  else groupsText (gs.take start) ++ "::" ++ groupsText (gs.drop (start + run))

def text : IpAddress → String
  | v4 a b c d => byteText a b c d
  | v6 groups =>
    match groups.toList with
    | [0, 0, 0, 0, 0, 65535, g, h] => "::ffff:" ++ byteText (g / 256) (g % 256) (h / 256) (h % 256)
    | gs => shortGroups gs

def ofBytes? : List UInt8 → Option IpAddress
  | [a, b, c, d] => some (.v4 a.toFin b.toFin c.toFin d.toFin)
  | bytes =>
    if bytes.length == 16 then
      ofGroups? ((List.range 8).map fun i =>
        Fin.ofNat 65536 (256 * (bytes.getD (2 * i) 0).toNat + (bytes.getD (2 * i + 1) 0).toNat))
    else none

end IpAddress

end TlsTrust
