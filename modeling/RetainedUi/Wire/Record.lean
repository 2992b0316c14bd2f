import RetainedUi.Wire.Word

/-!
# Records

A patch is a header and a sequence of records. A record is an opcode byte and its fields, which are
words as sent: whether an id, a kind or a key means anything is for the editor to say. A string
record ends in as many bytes as its last field says.
-/

namespace RetainedUi

inductive Opcode where
  | createNode
  | deleteNode
  | setProp
  | appendChild
  | insertChild
  | removeChild
  | replaceChild
  | setPropStr
deriving DecidableEq, Repr

namespace Opcode

/-- The byte that starts a record. -/
def code : Opcode → UInt8
  | createNode => 1
  | deleteNode => 2
  | setProp => 3
  | appendChild => 4
  | insertChild => 5
  | removeChild => 6
  | replaceChild => 7
  | setPropStr => 8

/-- The opcode of a byte, if it is one. -/
def ofCode? (b : UInt8) : Option Opcode :=
  match b with
  | 1 => some createNode
  | 2 => some deleteNode
  | 3 => some setProp
  | 4 => some appendChild
  | 5 => some insertChild
  | 6 => some removeChild
  | 7 => some replaceChild
  | 8 => some setPropStr
  | _ => none

def name : Opcode → String
  | createNode => "CREATE_NODE"
  | deleteNode => "DELETE_NODE"
  | setProp => "SET_PROP"
  | appendChild => "APPEND_CHILD"
  | insertChild => "INSERT_CHILD"
  | removeChild => "REMOVE_CHILD"
  | replaceChild => "REPLACE_CHILD"
  | setPropStr => "SET_PROP_STR"

/-- The bytes of the fields that every record of the opcode has. -/
def fieldBytes : Opcode → Nat
  | deleteNode => 4
  | createNode | appendChild | removeChild => 8
  | setProp | insertChild | replaceChild | setPropStr => 12

def all : List Opcode :=
  [createNode, deleteNode, setProp, appendChild, insertChild, removeChild, replaceChild, setPropStr]

end Opcode

/-! ## Property keys -/

namespace PropKey

@[match_pattern]
def mainAlign : Int32 := 101

@[match_pattern]
def crossAlign : Int32 := 102

/-- Space between stacked children. -/
@[match_pattern]
def gap : Int32 := 103

/-- The four paddings in one word. -/
@[match_pattern]
def padding : Int32 := 104

/-- The text, a string property. -/
@[match_pattern]
def text : Int32 := 201

@[match_pattern]
def width : Int32 := 301

@[match_pattern]
def height : Int32 := 302

def all : List Int32 := [mainAlign, crossAlign, gap, padding, text, width, height]

end PropKey

/-! ## Records -/

inductive Record where
  /-- Creates a node, or gives a live one another kind. -/
  | createNode (id kind : Int32)
  /-- Takes a node away and leaves its children. -/
  | deleteNode (id : Int32)
  | setProp (id key value : Int32)
  /-- Moves `child` to the end of the children of `parent`. -/
  | appendChild (parent child : Int32)
  /-- Does what `appendChild` does; `index` is sent and has no effect. -/
  | insertChild (parent child index : Int32)
  /-- Takes `child` from `parent`. -/
  | removeChild (parent child : Int32)
  /-- Puts `new` where `old` is among the children of `parent`. -/
  | replaceChild (parent old new : Int32)
  | setPropStr (id key : Int32) (payload : Bytes)
deriving DecidableEq, Repr

namespace Record

def opcode : Record → Opcode
  | createNode .. => .createNode
  | deleteNode .. => .deleteNode
  | setProp .. => .setProp
  | appendChild .. => .appendChild
  | insertChild .. => .insertChild
  | removeChild .. => .removeChild
  | replaceChild .. => .replaceChild
  | setPropStr .. => .setPropStr

/-- The words of the record, the length of a string included. -/
def words : Record → List Int32
  | createNode id kind => [id, kind]
  | deleteNode id => [id]
  | setProp id key value => [id, key, value]
  | appendChild parent child => [parent, child]
  | insertChild parent child index => [parent, child, index]
  | removeChild parent child => [parent, child]
  | replaceChild parent old new => [parent, old, new]
  | setPropStr id key payload => [id, key, .ofNat payload.length]

def payload : Record → Bytes
  | setPropStr _ _ payload => payload
  | _ => []

/-- The record as it is sent. -/
def encode (r : Record) : Bytes :=
  r.opcode.code :: r.words.flatMap Word.encode ++ r.payload

/-- How many bytes the record takes. -/
def size (r : Record) : Nat := 1 + r.opcode.fieldBytes + r.payload.length

theorem length_encode (r : Record) : r.encode.length = r.size := by
  cases r <;>
    simp +arith [encode, size, words, payload, opcode, Opcode.fieldBytes, Word.encode,
      Word.encodeUnsigned]

end Record

end RetainedUi
