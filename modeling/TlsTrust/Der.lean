/-! Elements of certificates as bytes; every reader returns what it read and the bytes after it. -/

namespace TlsTrust.Der

inductive TagClass where
  | universal | application | context | privateUse
deriving DecidableEq, Repr

structure Header where
  tagClass : TagClass
  constructed : Bool
  tag : Nat
  /-- There is none if the end is marked in the content. -/
  length : Option Nat
deriving DecidableEq, Repr

structure Element where
  tagClass : TagClass
  constructed : Bool
  tag : Nat
  content : List UInt8
deriving DecidableEq, Repr

def TagClass.ofBits (n : Nat) : TagClass :=
  match n % 4 with
  | 0 => .universal
  | 1 => .application
  | 2 => .context
  | _ => .privateUse

def longTag? : Nat → Nat → List UInt8 → Option (Nat × List UInt8)
  | n + 1, acc, b :: rest =>
    let acc := (acc * 128 + b.toNat % 128) % 4294967296
    if b < 128 then some (acc, rest) else longTag? n acc rest
  | _, _, _ => none

def natOfBytes (bytes : List UInt8) : Nat :=
  bytes.foldl (fun n b => 256 * n + b.toNat) 0

/-- A length below 128 is one byte; a longer one is a count of bytes and those bytes, whose value has
to fit sixty-four bits. -/
def length? : List UInt8 → Option (Option Nat × List UInt8)
  | [] => none
  | b :: rest =>
    if b < 128 then some (some b.toNat, rest)
    else if b = 128 then some (none, rest)
    else if b = 255 then none
    else
      let n := b.toNat - 128
      if rest.length < n then none
      else
        let value := natOfBytes (rest.take n)
        if value < 18446744073709551616 then some (some value, rest.drop n) else none

def header? : List UInt8 → Option (Header × List UInt8)
  | [] => none
  | b :: rest => do
    let tag := b.toNat % 32
    let (tag, rest) ← if tag = 31 then longTag? 5 0 rest else some (tag, rest)
    let (length, rest) ← length? rest
    let constructed := b.toNat / 32 % 2 = 1
    if length.isNone && !constructed then none
    else return (⟨.ofBits (b.toNat / 64), constructed, tag, length⟩, rest)

def element? (bytes : List UInt8) : Option (Element × List UInt8) := do
  let (h, rest) ← header? bytes
  let n ← h.length
  if rest.length < n then none
  else return (⟨h.tagClass, h.constructed, h.tag, rest.take n⟩, rest.drop n)

/-- The bytes after the end mark that closes `depth` open elements. -/
def afterEnd? : (fuel depth : Nat) → List UInt8 → Option (List UInt8)
  | 0, _, _ => none
  | fuel + 1, depth, bytes => do
    let (h, rest) ← header? bytes
    match h.length with
    | none => afterEnd? fuel (depth + 1) rest
    | some n =>
      if rest.length < n then none
      else if h.tag = 0 ∧ n = 0 then
        if depth ≤ 1 then return rest else afterEnd? fuel (depth - 1) rest
      else afterEnd? fuel depth (rest.drop n)

/-- An element whose end may also be marked by two zero bytes, which are not part of its content. -/
def markedElement? (bytes : List UInt8) : Option (Element × List UInt8) := do
  let (h, rest) ← header? bytes
  match h.length with
  | some _ => element? bytes
  | none =>
    let after ← afterEnd? rest.length 1 rest
    return (⟨h.tagClass, h.constructed, h.tag, rest.take (rest.length - after.length - 2)⟩, after)

def tagged? (tag : Nat) (bytes : List UInt8) : Option (List UInt8 × List UInt8) := do
  let (e, rest) ← element? bytes
  if e.tag = tag then return (e.content, rest) else none

def sequence? : List UInt8 → Option (List UInt8 × List UInt8) := tagged? 16
def set? : List UInt8 → Option (List UInt8 × List UInt8) := tagged? 17

def many {α : Type} (read : List UInt8 → Option (α × List UInt8)) :
    (fuel : Nat) → List UInt8 → List α × List UInt8
  | 0, bytes => ([], bytes)
  | fuel + 1, bytes =>
    match read bytes with
    | none => ([], bytes)
    | some (a, rest) =>
      let (as, left) := many read fuel rest
      (a :: as, left)

def front {α : Type} (read : List UInt8 → Option (α × List UInt8)) (bytes : List UInt8) : List α :=
  (many read bytes.length bytes).1

def all? {α : Type} (read : List UInt8 → Option (α × List UInt8)) (bytes : List UInt8) :
    Option (List α) :=
  let (as, left) := many read bytes.length bytes
  if left.isEmpty then some as else none

def isShortest : List UInt8 → Bool
  | [] => false
  | [_] => true
  | a :: b :: _ => !(a == 0 && b < 128) && !(a == 255 && 128 ≤ b)

def smallNat? (e : Element) : Option Nat :=
  if e.tag = 2 ∧ !e.constructed ∧ isShortest e.content ∧ e.content.head?.all (· < 128)
      ∧ natOfBytes e.content < 4294967296 then
    some (natOfBytes e.content)
  else none

def bool? (e : Element) : Option Bool :=
  match e.content with
  | [b] => if e.tag = 1 then some (b != 0) else none
  | _ => none

def lowBitsClear (unused : UInt8) (last : UInt8) : Bool :=
  unused ≤ 8 && last.toNat % Nat.pow 2 unused.toNat == 0

def isBitString : List UInt8 → Bool
  | [] => false
  | [unused] => unused == 0
  | unused :: bits => lowBitsClear unused (bits.getLastD 0)

def bitString? (bytes : List UInt8) : Option (List UInt8 × List UInt8) := do
  let (e, rest) ← element? bytes
  if e.tag = 3 ∧ !e.constructed ∧ isBitString e.content then return (e.content, rest) else none

def octets? (bytes : List UInt8) : Option (List UInt8 × List UInt8) := do
  let (e, rest) ← element? bytes
  if e.tag = 4 ∧ !e.constructed then return (e.content, rest) else none

structure ObjectId where
  bytes : List UInt8
deriving DecidableEq, Repr

namespace ObjectId

def read? (bytes : List UInt8) : Option (ObjectId × List UInt8) := do
  let (e, rest) ← element? bytes
  if e.constructed then none else return (⟨e.content⟩, rest)

/-- The numbers written in groups of seven bits; the last one may break off. -/
def arcs (acc : Nat) : List UInt8 → List Nat
  | [] => []
  | [b] => [acc * 128 + b.toNat % 128]
  | b :: rest =>
    let acc := acc * 128 + b.toNat % 128
    if b < 128 then acc :: arcs 0 rest else arcs acc rest

def numbers (o : ObjectId) : List Nat :=
  match o.bytes with
  | [] => []
  | [0] => [0]
  | b :: rest => b.toNat / 40 :: b.toNat % 40 :: arcs 0 rest

def text (o : ObjectId) : String :=
  ".".intercalate (o.numbers.map Nat.repr)

end ObjectId

end TlsTrust.Der
