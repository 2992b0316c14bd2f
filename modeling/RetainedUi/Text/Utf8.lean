import RetainedUi.Wire.Word

/-!
# Text from bytes

Bytes are read as UTF-8. Where they are not, each longest run of bytes that starts a character and
does not finish it gives one replacement character, as does each byte that starts none.
-/

namespace RetainedUi.Utf8

/-- The character shown for what is no character. -/
def replacement : Char := '\uFFFD'

/-- The character that the bytes start with, if they start with one. -/
def firstChar? (bytes : Bytes) : Option Char :=
  (bytes.take 4).toByteArray.utf8DecodeChar? 0

/-- A byte that continues a character. -/
def isTail (b : UInt8) : Bool := 0x80 ≤ b && b ≤ 0xBF

/-- A byte that may stand second after the first byte `a`. -/
def isSecond (a b : UInt8) : Bool :=
  if a = 0xE0 then 0xA0 ≤ b && b ≤ 0xBF
  else if a = 0xED then 0x80 ≤ b && b ≤ 0x9F
  else if a = 0xF0 then 0x90 ≤ b && b ≤ 0xBF
  else if a = 0xF4 then 0x80 ≤ b && b ≤ 0x8F
  else isTail b

/-- How many bytes a character that starts with `a` takes; a byte that starts none takes one. -/
def lengthOf (a : UInt8) : Nat :=
  if 0xC2 ≤ a && a ≤ 0xDF then 2
  else if 0xE0 ≤ a && a ≤ 0xEF then 3
  else if 0xF0 ≤ a && a ≤ 0xF4 then 4
  else 1

/-- How many bytes after the first belong to the unfinished character `a :: rest`. -/
def unfinishedTail (a : UInt8) (rest : Bytes) : Nat :=
  match rest with
  | [] => 0
  | b :: rest =>
    if lengthOf a < 3 || !isSecond a b then 0
    else
      match rest with
      | [] => 1
      | c :: _ => if lengthOf a < 4 || !isTail c then 1 else 2

/-- The characters of bytes, with replacements for what is no character. -/
def decodeChars (bytes : Bytes) : List Char :=
  match bytes with
  | [] => []
  | a :: rest =>
    match firstChar? (a :: rest) with
    | some c => c :: decodeChars (rest.drop (c.utf8Size - 1))
    | none => replacement :: decodeChars (rest.drop (unfinishedTail a rest))
termination_by bytes.length
decreasing_by all_goals simp +arith

/-- The text of bytes, with replacements for what is no character. -/
def decodeLossy (bytes : Bytes) : String := .ofList (decodeChars bytes)

/-- The text of bytes that are well-formed. -/
def decode? (bytes : Bytes) : Option String := String.fromUTF8? bytes.toByteArray

def encode (text : String) : Bytes := text.toUTF8.data.toList

end RetainedUi.Utf8
