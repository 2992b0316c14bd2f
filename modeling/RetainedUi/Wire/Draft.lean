import RetainedUi.Scene.Kind
import RetainedUi.Scene.Props
import RetainedUi.Text.Utf8
import RetainedUi.Wire.Decoder

/-!
# Writing a patch

A producer gives instructions in typed form; each writes opcodes, with words and text after them. A draft
holds what has been written so far, and can be turned into a patch at any point.
-/

namespace RetainedUi

/-! ## Instructions -/

inductive Instruction where
  | createNode (id : Int32) (kind : NodeKind)
  /-- Creates with any number in place of a kind. -/
  | createNodeRaw (id code : Int32)
  | deleteNode (id : Int32)
  | setProp (id key value : Int32)
  /-- Sends the bits of a single-precision number as a property. -/
  | setPropFloat (id key : Int32) (bits : UInt32)
  | setAlign (id : Int32) (main cross : Align)
  | setGap (id gap : Int32)
  | setPadding (id : Int32) (padding : Padding)
  | setSize (id width height : Int32)
  | appendChild (parent child : Int32)
  | insertChild (parent child index : Int32)
  | removeChild (parent child : Int32)
  | replaceChild (parent old new : Int32)
  | setPropStr (id key : Int32) (text : String)
  | setText (id : Int32) (text : String)
  /-- Bytes as they are, whether or not they are records. -/
  | raw (bytes : Bytes)
deriving DecidableEq, Repr

namespace Instruction

/-- The longest string that a record can carry. -/
def maxPayload : Nat := 2147483647

/-- An opcode and the words that follow it. -/
def op (code : Opcode) (words : List Int32) : Bytes := code.code :: words.flatMap Word.encode

def propOp (id key value : Int32) : Bytes := op .setProp [id, key, value]

/-- Writes as many bytes of a text as its length word can say. -/
def stringOp (id key : Int32) (text : String) : Bytes :=
  let bytes := Utf8.encode text
  let length := min bytes.length maxPayload
  op .setPropStr [id, key, .ofNat length] ++ bytes.take length

/-- What an instruction adds to a patch. -/
def encode : Instruction → Bytes
  | createNode id kind => op .createNode [id, kind.code]
  | createNodeRaw id code => op .createNode [id, code]
  | deleteNode id => op .deleteNode [id]
  | setProp id key value => propOp id key value
  | setPropFloat id key bits => propOp id key (.ofUInt32 bits)
  | setAlign id main cross =>
    propOp id PropKey.mainAlign main.code ++ propOp id PropKey.crossAlign cross.code
  | setGap id gap => propOp id PropKey.gap gap
  | setPadding id padding => propOp id PropKey.padding padding.pack
  | setSize id width height => propOp id PropKey.width width ++ propOp id PropKey.height height
  | appendChild parent child => op .appendChild [parent, child]
  | insertChild parent child index => op .insertChild [parent, child, index]
  | removeChild parent child => op .removeChild [parent, child]
  | replaceChild parent old new => op .replaceChild [parent, old, new]
  | setPropStr id key text => stringOp id key text
  | setText id text => stringOp id PropKey.text text
  | raw bytes => bytes

end Instruction

/-! ## Drafts -/

/-- A patch that is being written. -/
structure Draft where
  body : Array UInt8 := #[]
deriving DecidableEq, Repr

namespace Draft

def empty : Draft := {}

/-- Writes an instruction at the end. -/
def add (d : Draft) (i : Instruction) : Draft := ⟨d.body ++ i.encode⟩

def ofInstructions (is : List Instruction) : Draft := is.foldl add empty

/-- The bytes that the patch takes, header included. -/
def size (d : Draft) : Nat := headerLength + d.body.size

/-- Nothing is written yet. -/
def isEmpty (d : Draft) : Bool := d.body.isEmpty

/-- The header of a body: a length that does not fit its four bytes is sent as the greatest. -/
def header (bodyLength : Nat) : Bytes :=
  patchVersion :: 0 :: Word.encodeUnsigned (.ofNat (min bodyLength 4294967295))

def toPatch (d : Draft) : Bytes := header d.body.size ++ d.body.toList

end Draft

end RetainedUi
