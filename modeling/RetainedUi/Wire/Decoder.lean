import RetainedUi.Wire.Record
import RetainedUi.Wire.DecodeError

/-!
# Reading a patch

A decoder walks over the bytes after the header. Each step takes one complete record off the front
or stops for good; the position moves only with a record.
-/

namespace RetainedUi

/-- The version that patches are written in and read. -/
def patchVersion : UInt8 := 1

/-- The bytes of a header: the version, a reserved byte and the length of the body. -/
def headerLength : Nat := 6

/-! ## One record -/

namespace Record

/-- The first `n` bytes and the rest, if there are so many. -/
def splitPayload? (n : Nat) (bytes : Bytes) : Option (Bytes × Bytes) :=
  let (front, rest) := bytes.splitAt n
  if front.length = n then some (front, rest) else none

/-- The record read from `body`, or the error of one that `body` is too short for. -/
def complete (offset : Nat) (op : Opcode) (body : Bytes) :
    Option (Record × Bytes) → Except DecodeError (Record × Bytes)
  | some read => .ok read
  | none => .error (.truncated offset op.code op.fieldBytes body.length)

/-- A string record whose three words are read off `body`; its payload is next in `bytes`. -/
def readString (offset : Nat) (body : Bytes) (id key length : Int32) (bytes : Bytes) :
    Except DecodeError (Record × Bytes) :=
  if length < 0 then .error (.negativeLength offset length)
  else
    let n := length.toNatClampNeg
    match splitPayload? n bytes with
    | some (payload, rest) => .ok (setPropStr id key payload, rest)
    | none =>
      .error (.truncated offset Opcode.setPropStr.code (Opcode.setPropStr.fieldBytes + n)
        body.length)

/-- The record of an opcode at `offset` whose fields are in front of `body`, and what follows it. -/
def readBody (offset : Nat) (op : Opcode) (body : Bytes) : Except DecodeError (Record × Bytes) :=
  match op with
  | .createNode => complete offset op body (Word.read₂ createNode body)
  | .deleteNode => complete offset op body (Word.read₁ deleteNode body)
  | .setProp => complete offset op body (Word.read₃ setProp body)
  | .appendChild => complete offset op body (Word.read₂ appendChild body)
  | .insertChild => complete offset op body (Word.read₃ insertChild body)
  | .removeChild => complete offset op body (Word.read₂ removeChild body)
  | .replaceChild => complete offset op body (Word.read₃ replaceChild body)
  | .setPropStr =>
    match Word.read₃ (fun id key length => (id, key, length)) body with
    | some ((id, key, length), rest) => readString offset body id key length rest
    | none => complete offset op body none

/-- The record that starts with the byte `code` at `offset`, and what follows it. -/
def read (offset : Nat) (code : UInt8) (body : Bytes) : Except DecodeError (Record × Bytes) :=
  match Opcode.ofCode? code with
  | none => .error (.unknownOpcode offset code)
  | some op => readBody offset op body

end Record

/-! ## The decoder -/

/-- Where the reading of a patch stands. -/
structure Decoder where
  rest : Bytes
  /-- How many bytes the header and the records read so far take. -/
  position : Nat
  /-- Nothing more will be read. -/
  stopped : Bool := false
deriving DecidableEq, Repr

namespace Decoder

/-- The decoder of a patch, at its first record. -/
def ofBytes (bytes : Bytes) : Except DecodeError Decoder :=
  match bytes with
  | version :: _ :: _ :: _ :: _ :: _ :: rest =>
    if version = patchVersion then .ok ⟨rest, headerLength, false⟩
    else .error (.unsupportedVersion version)
  | _ => .error (.tooShort bytes.length)

/-- The next record, or why there is none, or nothing at the end and after an error. -/
def next (d : Decoder) : Option (Except DecodeError Record) × Decoder :=
  if d.stopped then (none, d)
  else
    match d.rest with
    | [] => (none, { d with stopped := true })
    | code :: body =>
      match Record.read d.position code body with
      | .error e => (some (.error e), { d with stopped := true })
      | .ok (record, rest) =>
        (some (.ok record), { d with rest, position := d.position + record.size })

end Decoder

/-! ## Every record read leaves less -/

namespace Record

theorem length_of_splitPayload? {n : Nat} {bytes front rest : Bytes}
    (h : splitPayload? n bytes = some (front, rest)) :
    bytes.length = front.length + rest.length := by
  simp only [splitPayload?, List.splitAt_eq] at h
  split at h
  · cases h; simp; omega
  · cases h

theorem of_readString {offset : Nat} {body : Bytes} {id key length : Int32} {bytes rest : Bytes}
    {r : Record} (h : readString offset body id key length bytes = .ok (r, rest)) :
    ∃ payload, r = setPropStr id key payload ∧ bytes.length = payload.length + rest.length := by
  simp only [readString] at h
  split at h
  · cases h
  split at h
  · rename_i hs
    cases h
    exact ⟨_, rfl, length_of_splitPayload? hs⟩
  · cases h

theorem complete_eq_ok {offset : Nat} {op : Opcode} {body : Bytes} {o : Option (Record × Bytes)}
    {x : Record × Bytes} : complete offset op body o = .ok x ↔ o = some x := by
  cases o <;> simp [complete]

theorem length_of_readBody {offset : Nat} {op : Opcode} {body rest : Bytes} {r : Record}
    (h : readBody offset op body = .ok (r, rest)) : body.length + 1 = r.size + rest.length := by
  cases op <;> simp only [readBody, complete_eq_ok] at h
  case createNode | appendChild | removeChild =>
    obtain ⟨_, _, rfl, hl⟩ := Word.of_read₂ h
    simp +arith [hl, size, opcode, Opcode.fieldBytes, payload]
  case deleteNode =>
    obtain ⟨_, rfl, hl⟩ := Word.of_read₁ h
    simp +arith [hl, size, opcode, Opcode.fieldBytes, payload]
  case setProp | insertChild | replaceChild =>
    obtain ⟨_, _, _, rfl, hl⟩ := Word.of_read₃ h
    simp +arith [hl, size, opcode, Opcode.fieldBytes, payload]
  case setPropStr =>
    split at h
    · rename_i hw
      obtain ⟨_, _, _, _, hl⟩ := Word.of_read₃ hw
      obtain ⟨_, rfl, hp⟩ := of_readString h
      simp +arith [hl, hp, size, opcode, Opcode.fieldBytes, payload]
    · cases h

/-- A record read takes exactly its size off the bytes. -/
theorem length_of_read {offset : Nat} {code : UInt8} {body rest : Bytes} {r : Record}
    (h : read offset code body = .ok (r, rest)) :
    (code :: body).length = r.size + rest.length := by
  unfold read at h
  split at h
  · cases h
  · exact length_of_readBody h

end Record

namespace Decoder

theorem length_rest_lt {d d' : Decoder} {r : Record} (h : d.next = (some (.ok r), d')) :
    d'.rest.length < d.rest.length := by
  unfold next at h
  split at h
  · cases h
  split at h
  · cases h
  · rename_i hrest
    split at h <;> cases h
    rename_i hread
    have := Record.length_of_read hread
    simp only [hrest, this, Record.size]
    omega

/-- The records still to come, why they end early, and where the decoder then stands. -/
def records (d : Decoder) : List Record × Option DecodeError × Nat :=
  match h : d.next with
  | (some (.ok record), d') =>
    have := length_rest_lt h
    let (later, error, position) := d'.records
    (record :: later, error, position)
  | (some (.error e), d') => ([], some e, d'.position)
  | (none, d') => ([], none, d'.position)
termination_by d.rest.length

end Decoder

/-! ## A whole patch -/

/-- A patch as far as it could be read. -/
structure DecodedPatch where
  records : List Record
  /-- Why reading stopped early, if it did. -/
  error : Option DecodeError
  /-- The bytes of the header and the records. -/
  consumed : Nat
deriving DecidableEq, Repr

/-- Reads every complete record of a patch. -/
def decodePatch (bytes : Bytes) : DecodedPatch :=
  match Decoder.ofBytes bytes with
  | .error e => ⟨[], some e, 0⟩
  | .ok d =>
    let (records, error, consumed) := d.records
    ⟨records, error, consumed⟩

end RetainedUi
