import RetainedUi.Proofs.Wire.Decoding

/-!
# Reading a patch by position

A decoder takes records off the bytes that are left. A cursor keeps the whole patch instead and reads at
positions in it, where an access may find nothing. None does, and a cursor reads what a decoder reads.
-/

namespace RetainedUi

/-! ## Accesses -/

/-- An access that some bytes have no answer to. -/
inductive AccessFault where
  /-- There is no byte at `i` among `length`. -/
  | byte (i length : Nat)
  | slice (start stop length : Nat)
  /-- More is taken from `a` than it is. -/
  | difference (a b : Nat)
deriving DecidableEq, Repr

abbrev Access (α : Type) := Except AccessFault α

namespace Access

def byte (bytes : Bytes) (i : Nat) : Access UInt8 :=
  match bytes[i]? with
  | some b => .ok b
  | none => .error (.byte i bytes.length)

/-- The bytes from `start` on, up to `stop`. -/
def slice (bytes : Bytes) (start stop : Nat) : Access Bytes :=
  if start ≤ stop ∧ stop ≤ bytes.length then .ok ((bytes.take stop).drop start)
  else .error (.slice start stop bytes.length)

def difference (a b : Nat) : Access Nat :=
  if b ≤ a then .ok (a - b) else .error (.difference a b)

/-- The word at a position, or nought where not all its bytes are there. This is never a fault. -/
def word (bytes : Bytes) (i : Nat) : Int32 := ((Word.take? (bytes.drop i)).map Prod.fst).getD 0

variable {bytes : Bytes} {i : Nat}

theorem byte_of_drop {b : UInt8} {rest : Bytes} (h : bytes.drop i = b :: rest) :
    byte bytes i = .ok b := by
  have hget : bytes[i]? = some b := by rw [← Nat.add_zero i, ← List.getElem?_drop, h]; rfl
  rw [byte, hget]

theorem slice_eq {n : Nat} (h : i + n ≤ bytes.length) :
    slice bytes i (i + n) = .ok ((bytes.drop i).take n) := by
  rw [slice, if_pos ⟨Nat.le_add_right i n, h⟩, List.drop_take, Nat.add_sub_cancel_left]

theorem difference_eq (h : i ≤ bytes.length) :
    difference bytes.length i = .ok (bytes.drop i).length := by
  rw [difference, if_pos h, List.length_drop]

/-! ### Words -/

theorem take?_drop (h : i + 4 ≤ bytes.length) :
    Word.take? (bytes.drop i) = some (word bytes i, bytes.drop (i + 4)) := by
  cases htake : Word.take? (bytes.drop i) with
  | none =>
      have hshort := Word.take?_eq_none_iff.mp htake
      rw [List.length_drop] at hshort
      omega
  | some x =>
      have hdrop := congrArg (List.drop 4) (Word.take?_eq_some_iff.mp htake)
      rw [List.drop_drop, ← Word.length_encode x.1, List.drop_left, Word.length_encode] at hdrop
      rw [word, htake, hdrop]
      rfl

variable {α : Type}

theorem read₁_drop (f : Int32 → α) (h : i + 4 ≤ bytes.length) :
    Word.read₁ f (bytes.drop i) = some (f (word bytes i), bytes.drop (i + 4)) := by
  rw [Word.read₁, take?_drop h]
  rfl

theorem read₂_drop (f : Int32 → Int32 → α) (h : i + 8 ≤ bytes.length) :
    Word.read₂ f (bytes.drop i) =
      some (f (word bytes i) (word bytes (i + 4)), bytes.drop (i + 8)) := by
  rw [Word.read₂, take?_drop (by omega)]
  exact read₁_drop _ (by omega)

theorem read₃_drop (f : Int32 → Int32 → Int32 → α) (h : i + 12 ≤ bytes.length) :
    Word.read₃ f (bytes.drop i) =
      some (f (word bytes i) (word bytes (i + 4)) (word bytes (i + 8)), bytes.drop (i + 12)) := by
  rw [Word.read₃, take?_drop (by omega)]
  exact read₂_drop _ (by omega)

end Access

/-! ## One record -/

namespace Record

/-- A string record whose three words are read; its payload is at `start`. -/
def readStringAt (bytes : Bytes) (offset available start : Nat) (id key length : Int32) :
    Access (Except DecodeError (Record × Nat)) :=
  if length < 0 then return .error (.negativeLength offset length)
  else do
    let n := length.toNatClampNeg
    let remaining ← Access.difference bytes.length start
    if remaining < n then
      return .error
        (.truncated offset Opcode.setPropStr.code (Opcode.setPropStr.fieldBytes + n) available)
    else
      let payload ← Access.slice bytes start (start + n)
      return .ok (setPropStr id key payload, start + n)

/-- The record of an opcode whose fields are at `start`. Three words are read, however many fields
there are. -/
def readBodyAt (bytes : Bytes) (offset available start : Nat) (op : Opcode) :
    Access (Except DecodeError (Record × Nat)) :=
  let a := Access.word bytes start
  let b := Access.word bytes (start + 4)
  let c := Access.word bytes (start + 8)
  let stop := start + op.fieldBytes
  match op with
  | .createNode => return .ok (createNode a b, stop)
  | .deleteNode => return .ok (deleteNode a, stop)
  | .setProp => return .ok (setProp a b c, stop)
  | .appendChild => return .ok (appendChild a b, stop)
  | .insertChild => return .ok (insertChild a b c, stop)
  | .removeChild => return .ok (removeChild a b, stop)
  | .replaceChild => return .ok (replaceChild a b c, stop)
  | .setPropStr => readStringAt bytes offset available stop a b c

/-- The record at a position, and the position behind it. -/
def readAt (bytes : Bytes) (offset : Nat) : Access (Except DecodeError (Record × Nat)) := do
  let code ← Access.byte bytes offset
  let start := offset + 1
  let available ← Access.difference bytes.length start
  match Opcode.ofCode? code with
  | none => return .error (.unknownOpcode offset code)
  | some op =>
    if available < op.fieldBytes then
      return .error (.truncated offset code op.fieldBytes available)
    else readBodyAt bytes offset available start op

/-- The record read off what is left, with the position that this is left behind. -/
def placed (bytes : Bytes) (x : Record × Bytes) : Record × Nat := (x.1, bytes.length - x.2.length)

section ReadAt

variable {bytes : Bytes} {offset start : Nat}

theorem placed_drop {r : Record} {i : Nat} (h : i ≤ bytes.length) :
    placed bytes (r, bytes.drop i) = (r, i) := by
  rw [placed, List.length_drop, Nat.sub_sub_self h]

theorem readStringAt_eq {body : Bytes} {id key length : Int32} (h : start ≤ bytes.length) :
    readStringAt bytes offset body.length start id key length =
      .ok ((readString offset body id key length (bytes.drop start)).map (placed bytes)) := by
  unfold readStringAt readString
  by_cases hneg : length < 0
  · rw [if_pos hneg, if_pos hneg]
    rfl
  · rw [if_neg hneg, if_neg hneg]
    simp only [Access.difference_eq h, bind, Except.bind]
    by_cases hshort : (bytes.drop start).length < length.toNatClampNeg
    · rw [if_pos hshort, splitPayload?_eq_none_iff.mpr hshort]
      rfl
    · have hstop : start + length.toNatClampNeg ≤ bytes.length := by
        rw [List.length_drop] at hshort
        omega
      have hsplit : splitPayload? length.toNatClampNeg (bytes.drop start) =
          some ((bytes.drop start).take length.toNatClampNeg,
            bytes.drop (start + length.toNatClampNeg)) := by
        refine splitPayload?_eq_some_iff.mpr ⟨List.length_take_of_le (by omega), ?_⟩
        rw [← List.drop_drop, List.take_append_drop]
      rw [if_neg hshort, Access.slice_eq hstop, hsplit]
      exact congrArg (Except.ok ∘ Except.ok) (placed_drop hstop).symm

theorem readBodyAt_eq {op : Opcode} (h : start + op.fieldBytes ≤ bytes.length) :
    readBodyAt bytes offset (bytes.drop start).length start op =
      .ok ((readBody offset op (bytes.drop start)).map (placed bytes)) := by
  have hcomplete : ∀ r : Record,
      (return .ok (r, start + op.fieldBytes) : Access (Except DecodeError (Record × Nat))) =
        .ok ((complete offset op (bytes.drop start)
          (some (r, bytes.drop (start + op.fieldBytes)))).map (placed bytes)) :=
    fun r => congrArg (Except.ok ∘ Except.ok) (placed_drop h).symm
  cases op with
  | deleteNode =>
      rw [readBody, Access.read₁_drop _ h]
      exact hcomplete _
  | createNode | appendChild | removeChild =>
      rw [readBody, Access.read₂_drop _ h]
      exact hcomplete _
  | setProp | insertChild | replaceChild =>
      rw [readBody, Access.read₃_drop _ h]
      exact hcomplete _
  | setPropStr =>
      rw [readBody, Access.read₃_drop _ h]
      exact readStringAt_eq h

/-- A record is read by position without a fault, and is the one read off what is left there. -/
theorem readAt_eq {code : UInt8} {body : Bytes} (h : bytes.drop offset = code :: body) :
    readAt bytes offset = .ok ((read offset code body).map (placed bytes)) := by
  have hlength := congrArg List.length h
  rw [List.length_drop, List.length_cons] at hlength
  have hbody : body = bytes.drop (offset + 1) := by rw [← List.drop_drop, h]; rfl
  simp only [readAt, Access.byte_of_drop h, bind, Except.bind]
  rw [Access.difference_eq (by omega), ← hbody]
  unfold read
  cases hop : Opcode.ofCode? code with
  | none => rfl
  | some op =>
      dsimp only
      by_cases hshort : body.length < op.fieldBytes
      · rw [if_pos hshort, readBody_of_short hshort, Opcode.ofCode?_eq_some_iff.mp hop]
        rfl
      · rw [if_neg hshort, hbody]
        exact readBodyAt_eq (by omega)

end ReadAt

end Record

/-! ## The cursor -/

/-- Where the reading of a patch stands that is kept whole. -/
structure Cursor where
  bytes : Bytes
  position : Nat
  /-- Nothing more will be read. -/
  stopped : Bool := false
deriving DecidableEq, Repr

namespace Cursor

/-- The cursor at the first record of a patch. -/
def ofBytes (bytes : Bytes) : Access (Except DecodeError Cursor) :=
  if bytes.length < headerLength then return .error (.tooShort bytes.length)
  else do
    let version ← Access.byte bytes 0
    if version = patchVersion then return .ok ⟨bytes, headerLength, false⟩
    else return .error (.unsupportedVersion version)

def next (c : Cursor) : Access (Option (Except DecodeError Record) × Cursor) :=
  if c.stopped ∨ c.bytes.length ≤ c.position then return (none, { c with stopped := true })
  else do
    match ← Record.readAt c.bytes c.position with
    | .error e => return (some (.error e), { c with stopped := true })
    | .ok (record, stop) => return (some (.ok record), { c with position := stop })

/-- The decoder that has what the cursor has before it. -/
def decoder (c : Cursor) : Decoder := ⟨c.bytes.drop c.position, c.position, c.stopped⟩

/-- The cursor has not run past its bytes. -/
def Within (c : Cursor) : Prop := c.position ≤ c.bytes.length

theorem ofBytes_eq (bytes : Bytes) :
    ofBytes bytes =
      .ok ((Decoder.ofBytes bytes).map fun d => ⟨bytes, d.position, d.stopped⟩) := by
  unfold ofBytes headerLength patchVersion
  rcases Decoder.ofBytes_cases bytes with ⟨hshort, h⟩ | ⟨hlength, version, hhead, h⟩
  · rw [if_pos hshort, h]
    rfl
  · obtain ⟨rest, rfl⟩ : ∃ rest, bytes = version :: rest := List.head?_eq_some_iff.mp hhead
    rw [if_neg (Nat.not_lt.mpr hlength), Access.byte_of_drop List.drop_zero, h]
    by_cases hversion : version = 1
    · rw [if_pos hversion]
      simp only [bind, Except.bind, if_pos hversion]
      rfl
    · rw [if_neg hversion]
      simp only [bind, Except.bind, if_neg hversion]
      rfl

/-- A step of a cursor has no fault, and is a step of its decoder. -/
theorem next_eq {c : Cursor} (h : c.Within) :
    ∃ c', c.next = .ok (c.decoder.next.1, c') ∧ c'.decoder = c.decoder.next.2 ∧ c'.Within := by
  obtain ⟨bytes, position, stopped⟩ := c
  dsimp only [Within] at h
  unfold next Decoder.next decoder
  cases stopped with
  | true => exact ⟨⟨bytes, position, true⟩, rfl, rfl, h⟩
  | false =>
      simp only [Bool.false_eq_true, ↓reduceIte, false_or]
      cases hrest : bytes.drop position with
      | nil =>
          rw [if_pos (List.drop_eq_nil_iff.mp hrest)]
          exact ⟨⟨bytes, position, true⟩, rfl, by rw [hrest], h⟩
      | cons code body =>
          have hlength := congrArg List.length hrest
          rw [List.length_drop, List.length_cons] at hlength
          rw [if_neg (by omega), Record.readAt_eq hrest]
          cases hread : Record.read position code body with
          | error e =>
              dsimp only
              rw [hread]
              exact ⟨⟨bytes, position, true⟩, rfl, by rw [hrest], h⟩
          | ok x =>
              obtain ⟨r, rest⟩ := x
              have hsize := Record.length_of_read hread
              rw [List.length_cons] at hsize
              -- What follows the record is what stands behind it in the patch.
              have hdrop : bytes.drop (position + r.size) = rest := by
                rw [← List.drop_drop, hrest, (Record.read_eq_ok_iff.mp hread).2, ← r.length_encode,
                  List.drop_left]
              have hplaced : Record.placed bytes (r, rest) = (r, position + r.size) := by
                rw [← hdrop]
                exact Record.placed_drop (by omega)
              dsimp only
              rw [hread, Except.map, hplaced]
              refine ⟨⟨bytes, position + r.size, false⟩, rfl, by rw [hdrop], ?_⟩
              dsimp only [Within]
              omega

end Cursor

end RetainedUi
