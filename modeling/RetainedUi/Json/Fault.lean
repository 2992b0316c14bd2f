import RetainedUi.Decimal.Shortest
import RetainedUi.Text.Quoted

/-!
# Faults in JSON text

A text is refused because it is no JSON, or because a value is not the one wanted. The first fault
met from left to right is the one reported.
-/

namespace RetainedUi

/-- A value found where another was wanted. -/
inductive JsonFound where
  | null
  | boolean (b : Bool)
  | integer (n : Int)
  | float (f : Float)
  | string (s : String)
  | sequence
  | map
deriving Repr

/-- The wording of what was found. -/
def JsonFound.message : JsonFound → String
  | null => "null"
  | boolean b => s!"boolean \x60{b}\x60"
  | integer n => s!"integer \x60{n}\x60"
  | float f => s!"floating point \x60{Decimal.text f}\x60"
  | string s => s!"string {Quoted.text s}"
  | sequence => "sequence"
  | map => "map"

/-- Why a JSON text is refused. -/
inductive JsonFault where
  /-- The text is no JSON, or goes on after its value. -/
  | malformed
  | unknownField (name : String) (known : List String)
  | repeatedField (name : String)
  | unknownVariant (name : String) (known : List String)
  | wrongType (found : JsonFound) (wanted : String)
  | outOfRange (n : Int) (wanted : String)
deriving Repr

namespace JsonFault

def ticked (name : String) : String := s!"\x60{name}\x60"

/-- The wording of a choice between names. -/
def choice : List String → String
  | [] => "there are none"
  | [a] => s!"expected {ticked a}"
  | [a, b] => s!"expected {ticked a} or {ticked b}"
  | names => "expected one of " ++ ", ".intercalate (names.map ticked)

def message : JsonFault → String
  | malformed => "malformed JSON"
  | unknownField name known => s!"unknown field {ticked name}, {choice known}"
  | repeatedField name => s!"duplicate field {ticked name}"
  | unknownVariant name known => s!"unknown variant {ticked name}, {choice known}"
  | wrongType found wanted => s!"invalid type: {found.message}, expected {wanted}"
  | outOfRange n wanted => s!"invalid value: {(JsonFound.integer n).message}, expected {wanted}"

end JsonFault

end RetainedUi
