/-!
# JSON values as text

Values are written over several lines, indented by two spaces a level; an empty list takes one line.
Text is written as it is, but for quotes, backslashes and control characters.
-/

namespace RetainedUi

/-- A value to write. The members of an object are written in the given order. -/
inductive JsonValue where
  | null
  | integer (n : Int)
  | string (s : String)
  | list (items : List JsonValue)
  | object (members : List (String × JsonValue))

namespace JsonValue

def char (c : Char) : String :=
  if c = '"' then "\\\""
  else if c = '\\' then "\\\\"
  else if c = '\x08' then "\\b"
  else if c = '\t' then "\\t"
  else if c = '\n' then "\\n"
  else if c = '\x0c' then "\\f"
  else if c = '\r' then "\\r"
  else if c.toNat < 32 then
    "\\u00" ++ .ofList [Nat.digitChar (c.toNat / 16), Nat.digitChar (c.toNat % 16)]
  else c.toString

def quote (s : String) : String := "\"" ++ String.join (s.toList.map char) ++ "\""

/-- A new line at a level. -/
def newLine (level : Nat) : String := "\n" ++ .ofList (List.replicate (2 * level) ' ')

mutual

/-- Appends a value whose lines after the first are at a level. -/
def write (level : Nat) (out : String) : JsonValue → String
  | null => out ++ "null"
  | integer n => out ++ toString n
  | string s => out ++ quote s
  | list [] => out ++ "[]"
  | list (v :: vs) =>
    let out := write (level + 1) (out ++ "[" ++ newLine (level + 1)) v
    writeItems (level + 1) out vs ++ newLine level ++ "]"
  | object [] => out ++ "\x7b\x7d"
  | object ((name, v) :: ms) =>
    let out := write (level + 1) (out ++ "\x7b" ++ newLine (level + 1) ++ quote name ++ ": ") v
    writeMembers (level + 1) out ms ++ newLine level ++ "\x7d"

/-- Appends the items after the first, each on a line at the level. -/
def writeItems (level : Nat) (out : String) : List JsonValue → String
  | [] => out
  | v :: vs => writeItems level (write level (out ++ "," ++ newLine level) v) vs

/-- Appends the members after the first, each on a line at the level. -/
def writeMembers (level : Nat) (out : String) : List (String × JsonValue) → String
  | [] => out
  | (name, v) :: ms =>
    writeMembers level (write level (out ++ "," ++ newLine level ++ quote name ++ ": ") v) ms

end

def text (v : JsonValue) : String := write 0 "" v

end JsonValue

end RetainedUi
