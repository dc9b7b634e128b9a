namespace TlsTrust.Text

def occursIn (p : List Char) : List Char → Bool
  | [] => p.isEmpty
  | c :: cs => p.isPrefixOf (c :: cs) || occursIn p cs

def includes (s part : String) : Bool :=
  occursIn part.toList s.toList

def afterFirst? (p : List Char) : List Char → Option (List Char)
  | [] => if p.isEmpty then some [] else none
  | c :: cs => if p.isPrefixOf (c :: cs) then some ((c :: cs).drop p.length) else afterFirst? p cs

def stripStart? (p : List Char) (s : List Char) : Option (List Char) :=
  if p.isPrefixOf s then some (s.drop p.length) else none

def splitFirst? (c : Char) (s : List Char) : Option (List Char × List Char) :=
  match s.dropWhile (· != c) with
  | [] => none
  | _ :: after => some (s.takeWhile (· != c), after)

def splitLast? (c : Char) (s : List Char) : Option (List Char × List Char) :=
  (splitFirst? c s.reverse).map fun (after, before) => (before.reverse, after.reverse)

def replaceWithin (p r : List Char) : Nat → List Char → List Char
  | 0, s => s
  | _, [] => []
  | n + 1, c :: cs =>
    if p.isPrefixOf (c :: cs) then r ++ replaceWithin p r n ((c :: cs).drop p.length)
    else c :: replaceWithin p r n cs

def replaceAll (s marker by_ : String) : String :=
  String.ofList (replaceWithin marker.toList by_.toList s.toList.length s.toList)

/-- The small letters that the capitals of a text become, as far as a search for ASCII letters can
tell: besides the ASCII capitals only the Kelvin sign and the dotted capital `İ` have a small form
with an ASCII letter in it. -/
def searchForm (s : List Char) : List Char :=
  s.flatMap fun c =>
    if c.toNat == 0x212A then ['k']
    else if c.toNat == 0x130 then ['i', Char.ofNat 0x307]
    else [c.toLower]

def mentions (s phrase : String) : Bool :=
  occursIn phrase.toList (searchForm s.toList)

/-- The text with each character that folds to an ASCII letter replaced by the small letter: besides
the ASCII capitals these are the Kelvin sign and the long s. -/
def foldForm (s : List Char) : List Char :=
  s.map fun c =>
    if c.toNat == 0x212A then 'k'
    else if c.toNat == 0x17F then 's'
    else c.toLower

def mentionsFolded (s phrase : String) : Bool :=
  occursIn phrase.toList (foldForm s.toList)

end TlsTrust.Text
