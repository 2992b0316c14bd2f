import RetainedUi.Json.Fault

/-!
# Reading JSON

Readers take values off the front of a text. A value of another sort than the one wanted is looked
at just far enough to say what it is.
-/

namespace RetainedUi

/-- Takes an `α` off the front of the characters. -/
abbrev JsonReader (α : Type) := StateT (List Char) (Except JsonFault) α

namespace JsonReader

/-! ## Characters -/

def isBlank (c : Char) : Bool := c = ' ' || c = '\n' || c = '\t' || c = '\r'

def skipBlanks : JsonReader Unit := modify (·.dropWhile isBlank)

/-- The next character, which stays where it is. -/
def peek? : JsonReader (Option Char) := return (← get).head?

def skip : JsonReader Unit := modify List.tail

/-- The next character that is no blank, which stays where it is. -/
def peekValue : JsonReader Char := do
  skipBlanks
  match ← peek? with
  | some c => return c
  | none => throw .malformed

def literal (text : String) : JsonReader Unit := do
  if text.toList.isPrefixOf (← get) then modify (·.drop text.length) else throw .malformed

/-- Takes a mark that may stand after blanks. -/
def mark (c : Char) : JsonReader Unit := do
  if (← peekValue) = c then skip else throw .malformed

/-! ## Numbers -/

/-- A number; one with a point or an exponent is a float, as is one that does not fit 64 bits. -/
inductive Number where
  | integer (n : Int)
  | float (f : Float)

/-- The greatest significand that is kept exactly. -/
def maxSignificand : Nat := 18446744073709551615

/-- The greatest significand that stays an integer under a minus. -/
def maxNegated : Nat := 9223372036854775808

/-- Appends digits to a significand as long as it stays in bounds; the digits after that remain. -/
def absorb (significand : Nat) : List Char → Nat × List Char
  | [] => (significand, [])
  | d :: ds =>
    let next := significand * 10 + (d.toNat - '0'.toNat)
    if next ≤ maxSignificand then absorb next ds else (significand, d :: ds)

def digits : JsonReader (List Char) := do
  let ds := (← get).takeWhile Char.isDigit
  modify (·.drop ds.length)
  return ds

/-- The greatest power of ten that a float is scaled by at a time. -/
def maxPower : Nat := 308

/-- The float `f · 10 ^ exponent`, scaled in steps; it must be finite. After two steps down nothing
is left of a significand. -/
def scale (f : Float) (exponent : Int) (steps : Nat) : Except JsonFault Float :=
  if exponent.natAbs ≤ maxPower then
    let power := Float.ofScientific 1 false exponent.natAbs
    if 0 ≤ exponent then
      let g := f * power
      if g.isInf then .error .malformed else .ok g
    else .ok (f / power)
  else if f == 0 then .ok f
  else if 0 ≤ exponent then .error .malformed
  else
    match steps with
    | 0 => .ok 0
    | steps + 1 => scale (f / Float.ofScientific 1 false maxPower) (exponent + maxPower) steps

/-- The float of a sign, a significand and an exponent. -/
def float (positive : Bool) (significand : Nat) (exponent : Int) : JsonReader Number := do
  match scale (.ofNat significand) exponent 3 with
  | .ok f => return .float (if positive then f else -f)
  | .error e => throw e

/-- The greatest exponent that is read. -/
def maxExponent : Nat := 2147483647

/-- A number from its exponent mark on. -/
def exponentPart (positive : Bool) (significand : Nat) (scaleSoFar : Int) : JsonReader Number := do
  skip
  let up ← match ← peek? with
    | some '+' => skip; pure true
    | some '-' => skip; pure false
    | _ => pure true
  let ds ← digits
  if ds.isEmpty then throw .malformed
  let n := ds.foldl (fun n d => min (n * 10 + (d.toNat - '0'.toNat)) (maxExponent + 1)) 0
  if maxExponent < n then
    if significand ≠ 0 && up then throw .malformed
    return .float (if positive then 0 else -0)
  float positive significand (if up then scaleSoFar + n else scaleSoFar - n)

/-- A number from what follows its fraction on. -/
def afterFraction (positive : Bool) (significand : Nat) (scaleSoFar : Int) : JsonReader Number := do
  match ← peek? with
  | some 'e' | some 'E' => exponentPart positive significand scaleSoFar
  | _ => float positive significand scaleSoFar

/-- A number from its point on. -/
def fractionPart (positive : Bool) (significand : Nat) (scaleSoFar : Int) : JsonReader Number := do
  skip
  let ds ← digits
  if ds.isEmpty then throw .malformed
  let (significand, unread) := absorb significand ds
  afterFraction positive significand (scaleSoFar - (ds.length - unread.length : Nat))

/-- A number without its sign. Digits that the significand has no room for only count for the
exponent. -/
def unsigned (positive : Bool) : JsonReader Number := do
  let ds ← digits
  if ds.isEmpty || (ds.head? = some '0' && 1 < ds.length) then throw .malformed
  let (significand, unread) := absorb 0 ds
  match ← peek? with
  | some '.' => fractionPart positive significand unread.length
  | some 'e' | some 'E' => exponentPart positive significand unread.length
  | _ =>
    if !unread.isEmpty then float positive significand unread.length
    else if positive then return .integer significand
    else if significand = 0 || maxNegated < significand then float positive significand 0
    else return .integer (-significand)

def number : JsonReader Number := do
  match ← peek? with
  | some '-' => skip; unsigned false
  | _ => unsigned true

/-! ## Strings -/

/-- The value of four hexadecimal digits. -/
def hex? (ds : List Char) : Option Nat :=
  ds.foldlM (fun n d =>
    if '0' ≤ d ∧ d ≤ '9' then some (n * 16 + (d.toNat - '0'.toNat))
    else if 'a' ≤ d ∧ d ≤ 'f' then some (n * 16 + (d.toNat - 'a'.toNat + 10))
    else if 'A' ≤ d ∧ d ≤ 'F' then some (n * 16 + (d.toNat - 'A'.toNat + 10))
    else none) 0

/-- The character that a backslash and a letter stand for. -/
def escape? : Char → Option Char
  | '"' => some '"'
  | '\\' => some '\\'
  | '/' => some '/'
  | 'b' => some '\x08'
  | 'f' => some '\x0c'
  | 'n' => some '\n'
  | 'r' => some '\r'
  | 't' => some '\t'
  | _ => none

/-- The contents of a string up to its closing quote, as characters and 16-bit units, and what
follows. -/
def contents? : List Char → Option (List (Char ⊕ Nat) × List Char)
  | '"' :: rest => some ([], rest)
  | '\\' :: 'u' :: a :: b :: c :: d :: rest => do
    let unit ← hex? [a, b, c, d]
    let (later, rest) ← contents? rest
    return (.inr unit :: later, rest)
  | '\\' :: e :: rest => do
    let c ← escape? e
    let (later, rest) ← contents? rest
    return (.inl c :: later, rest)
  | c :: rest =>
    if c.toNat < 32 || c = '\\' then none
    else do
      let (later, rest) ← contents? rest
      return (.inl c :: later, rest)
  | [] => none

/-- Joins pairs of units to characters; a unit of a pair may not stand alone. -/
def joinUnits? : List (Char ⊕ Nat) → Option (List Char)
  | [] => some []
  | .inl c :: rest => (joinUnits? rest).map (c :: ·)
  | .inr high :: .inr low :: rest =>
    if 0xD800 ≤ high ∧ high ≤ 0xDBFF then
      if 0xDC00 ≤ low ∧ low ≤ 0xDFFF then
        let c := Char.ofNat (0x10000 + (high - 0xD800) * 0x400 + (low - 0xDC00))
        (joinUnits? rest).map (c :: ·)
      else none
    else if 0xDC00 ≤ high ∧ high ≤ 0xDFFF then none
    else (joinUnits? (.inr low :: rest)).map (Char.ofNat high :: ·)
  | .inr unit :: rest =>
    if 0xD800 ≤ unit ∧ unit ≤ 0xDFFF then none
    else (joinUnits? rest).map (Char.ofNat unit :: ·)

/-- A string, from its opening quote on. -/
def string : JsonReader String := do
  skip
  match contents? (← get) with
  | none => throw .malformed
  | some (units, rest) =>
    set rest
    match joinUnits? units with
    | some cs => return .ofList cs
    | none => throw .malformed

/-! ## Wanted values -/

/-- Says what stands in front in place of what is wanted. -/
def wrongType {α : Type} (wanted : String) : JsonReader α := do
  let found : JsonFound ← match ← peek? with
    | some 'n' => literal "null"; pure .null
    | some 't' => literal "true"; pure (.boolean true)
    | some 'f' => literal "false"; pure (.boolean false)
    | some '"' => pure (.string (← string))
    | some '[' => pure .sequence
    | some '\x7b' => pure .map
    | some c =>
      if c = '-' || c.isDigit then
        match ← number with
        | .integer n => pure (.integer n)
        | .float f => pure (.float f)
      else throw .malformed
    | none => throw .malformed
  throw (.wrongType found wanted)

def integer (wanted : String) (least greatest : Int) : JsonReader Int := do
  let c ← peekValue
  if c = '-' || c.isDigit then
    match ← number with
    | .integer n => if least ≤ n ∧ n ≤ greatest then return n else throw (.outOfRange n wanted)
    | .float f => throw (.wrongType (.float f) wanted)
  else wrongType wanted

def text (wanted : String) : JsonReader String := do
  if (← peekValue) = '"' then string else wrongType wanted

/-- The value `null`. -/
def unit : JsonReader Unit := do
  if (← peekValue) = 'n' then literal "null" else wrongType "unit"

/-! ## Choices -/

def choose {α : Type} (choices : List (String × α)) (name : String) : JsonReader α :=
  match choices.lookup name with
  | some a => return a
  | none => throw (.unknownVariant name (choices.map Prod.fst))

/-- One of some named values, as its name or as an object that gives the name the value `null`. -/
def variant {α : Type} (choices : List (String × α)) : JsonReader α := do
  match ← peekValue with
  | '"' => choose choices (← string)
  | '\x7b' =>
    skip
    if (← peekValue) ≠ '"' then throw .malformed
    let a ← choose choices (← string)
    mark ':'
    unit
    mark '\x7d'
    return a
  | _ => throw .malformed

/-! ## Records -/

/-- A field of a record: its name, and how its value is read into the record. -/
structure Field (α : Type) where
  name : String
  read : α → JsonReader α

variable {α : Type}

/-- Whether another element follows in a list; `first` says that none has been read yet. -/
def hasElement (first : Bool) : JsonReader Bool := do
  match ← peekValue with
  | ']' => return false
  | ',' =>
    if first then return true
    skip
    if (← peekValue) = ']' then throw .malformed
    return true
  | _ => if first then return true else throw .malformed

/-- The elements of a list, as the fields in order; fields without an element stay as they are. -/
def elements (first : Bool) (a : α) : List (Field α) → JsonReader α
  | [] => return a
  | field :: fields => do
    if ← hasElement first then elements false (← field.read a) fields else return a

/-- Whether another member follows in an object. -/
def hasMember (first : Bool) : JsonReader Bool := do
  match ← peekValue with
  | '\x7d' => return false
  | ',' =>
    if first then throw .malformed
    skip
    if (← peekValue) = '"' then return true else throw .malformed
  | c => if first && c = '"' then return true else throw .malformed

/-- The members of an object, as fields by name. No object has more members than there are fields,
since one more is unknown or repeated. -/
def members (fields : List (Field α)) (seen : List String) (a : α) : (room : Nat) → JsonReader α
  | 0 => throw .malformed
  | room + 1 => do
    if ← hasMember seen.isEmpty then
      let name ← string
      match fields.find? (·.name = name) with
      | none => throw (.unknownField name (fields.map Field.name))
      | some field =>
        if name ∈ seen then throw (.repeatedField name)
        mark ':'
        members fields (name :: seen) (← field.read a) room
    else return a

/-- A record that starts out as `a`, from an object or a list. -/
def record (wanted : String) (fields : List (Field α)) (a : α) : JsonReader α := do
  match ← peekValue with
  | '[' =>
    skip
    let a ← elements true a fields
    mark ']'
    return a
  | '\x7b' =>
    skip
    let a ← members fields [] a (fields.length + 1)
    mark '\x7d'
    return a
  | _ => wrongType wanted

/-- The value of a whole text. -/
def run (read : JsonReader α) (text : String) : Except JsonFault α := do
  let (a, rest) ← StateT.run read text.toList
  if (rest.dropWhile isBlank).isEmpty then return a else throw .malformed

end JsonReader

end RetainedUi
