import RetainedUi.Json.Value
import RetainedUi.Text.Utf8
import RetainedUi.Wire.Decoder

/-!
# Listing a patch

A patch is listed as a JSON object: its length, how far it could be read, the records and the error.
Members are in the order of their names.
-/

namespace RetainedUi

open JsonValue

/-- The fields of a record, by name. -/
def Record.listedFields : Record → List (String × JsonValue)
  | createNode id kind => [("id", integer id.toInt), ("type", integer kind.toInt)]
  | deleteNode id => [("id", integer id.toInt)]
  | setProp id key value =>
    [("id", integer id.toInt), ("key", integer key.toInt), ("value", integer value.toInt)]
  | appendChild parent child | removeChild parent child =>
    [("child", integer child.toInt), ("parent", integer parent.toInt)]
  | insertChild parent child index =>
    [("child", integer child.toInt), ("index", integer index.toInt),
      ("parent", integer parent.toInt)]
  | replaceChild parent old new =>
    [("new", integer new.toInt), ("old", integer old.toInt), ("parent", integer parent.toInt)]
  | setPropStr id key payload =>
    [("id", integer id.toInt), ("key", integer key.toInt),
      ("value", string (Utf8.decodeLossy payload))]

def Record.listed (r : Record) : JsonValue :=
  object [("args", object r.listedFields), ("op", string r.opcode.name)]

/-- The listing of a patch of so many bytes. -/
def DecodedPatch.listed (p : DecodedPatch) (length : Nat) : JsonValue :=
  object [
    ("consumed", integer p.consumed),
    ("error", (p.error.map fun e => string e.message).getD null),
    ("len", integer length),
    ("records", list (p.records.map Record.listed))]

end RetainedUi
