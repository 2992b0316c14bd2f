import RetainedUi.Text.Hidden

/-!
# Quoted text

Text between double quotes, with escapes for what cannot be seen.
-/

namespace RetainedUi.Quoted

def char (c : Char) : String :=
  if c = '"' then "\\\""
  else if c = '\\' then "\\\\"
  else if c = '\n' then "\\n"
  else if c = '\r' then "\\r"
  else if c = '\t' then "\\t"
  else if c = '\x00' then "\\0"
  else if Hidden.contains c then
    "\\u\x7b" ++ .ofList (Nat.toDigits 16 c.toNat) ++ "\x7d"
  else c.toString

def text (s : String) : String := "\"" ++ String.join (s.toList.map char) ++ "\""

end RetainedUi.Quoted
