import Mathlib.Data.List.Basic
import RetainedUi.Proofs.Wire.Decoding

/-!
# Decoding what was drafted

What an instruction writes are the records that it stands for. A patch built from a draft decodes to those
of the instructions written so far, whenever it is built and whatever was built before.
-/

namespace RetainedUi

/-! ## Instructions -/

namespace Instruction

/-- The record of a string property; a longer text is cut. -/
def stringRecord (id key : Int32) (text : String) : Record :=
  .setPropStr id key ((Utf8.encode text).take maxPayload)

/-- The records that an instruction stands for. -/
def records : Instruction → List Record
  | createNode id kind => [.createNode id kind.code]
  | createNodeRaw id code => [.createNode id code]
  | deleteNode id => [.deleteNode id]
  | setProp id key value => [.setProp id key value]
  | setPropFloat id key bits => [.setProp id key (.ofUInt32 bits)]
  | setAlign id main cross =>
    [.setProp id PropKey.mainAlign main.code, .setProp id PropKey.crossAlign cross.code]
  | setGap id gap => [.setProp id PropKey.gap gap]
  | setPadding id padding => [.setProp id PropKey.padding padding.pack]
  | setSize id width height =>
    [.setProp id PropKey.width width, .setProp id PropKey.height height]
  | appendChild parent child => [.appendChild parent child]
  | insertChild parent child index => [.insertChild parent child index]
  | removeChild parent child => [.removeChild parent child]
  | replaceChild parent old new => [.replaceChild parent old new]
  | setPropStr id key text => [stringRecord id key text]
  | setText id text => [stringRecord id PropKey.text text]
  | raw _ => []

theorem encode_of_payload {r : Record} (h : r.payload = []) : r.encode = op r.opcode r.words := by
  rw [Record.encode, h, List.append_nil, op]

theorem propOp_eq (id key value : Int32) : propOp id key value = (Record.setProp id key value).encode :=
  (encode_of_payload (r := .setProp id key value) rfl).symm

theorem stringOp_eq (id key : Int32) (text : String) :
    stringOp id key text = (stringRecord id key text).encode := by
  have htake : (Utf8.encode text).take (min (Utf8.encode text).length maxPayload) =
      (Utf8.encode text).take maxPayload := by
    rw [Nat.min_comm, ← List.take_eq_take_min]
  have hlength : min (Utf8.encode text).length maxPayload =
      ((Utf8.encode text).take maxPayload).length := by
    rw [List.length_take, Nat.min_comm]
  rw [stringOp, htake, hlength]
  rfl

/-- What an instruction writes are the records that it stands for, one after the other. -/
theorem encode_eq {i : Instruction} (h : ∀ bytes, i ≠ raw bytes) :
    i.encode = i.records.flatMap Record.encode := by
  cases i with
  | raw bytes => exact absurd rfl (h bytes)
  | setAlign | setSize =>
      simp only [encode, records, propOp_eq, List.flatMap_cons, List.flatMap_nil, List.append_nil]
  | setPropStr | setText =>
      simp only [encode, records, stringOp_eq, List.flatMap_singleton]
  | setProp | setPropFloat | setGap | setPadding =>
      simp only [encode, records, propOp_eq, List.flatMap_singleton]
  | _ => rw [records, List.flatMap_singleton, encode_of_payload] <;> rfl

theorem sendable_stringRecord (id key : Int32) (text : String) : (stringRecord id key text).Sendable :=
  List.length_take_le _ _

theorem sendable_of_mem_records {i : Instruction} {r : Record} (hr : r ∈ i.records) :
    r.Sendable := by
  cases i with
  | setPropStr id key text | setText id text =>
      rw [List.mem_singleton.mp hr]
      exact sendable_stringRecord _ _ _
  | setAlign | setSize =>
      simp only [records, List.mem_cons, List.not_mem_nil, or_false] at hr
      rcases hr with rfl | rfl <;> exact Nat.zero_le _
  | raw => cases hr
  | _ =>
      rw [List.mem_singleton.mp hr]
      exact Nat.zero_le _

end Instruction

namespace Draft

/-! ## Calls -/

/-- What a producer asks of a draft. -/
inductive Call where
  | add (i : Instruction)
  | build
deriving DecidableEq, Repr

/-- What a call writes. -/
def Call.instruction? : Call → Option Instruction
  | add i => some i
  | build => none

/-- Answers calls one after the other: the patches that are built, and the draft in the end. -/
def perform (d : Draft) : List Call → List Bytes × Draft
  | [] => ([], d)
  | .add i :: calls => (d.add i).perform calls
  | .build :: calls =>
    let (patches, last) := d.perform calls
    (d.toPatch :: patches, last)

theorem perform_append (d : Draft) (before after : List Call) :
    d.perform (before ++ after) =
      ((d.perform before).1 ++ ((d.perform before).2.perform after).1,
        ((d.perform before).2.perform after).2) := by
  induction before generalizing d with
  | nil => rfl
  | cons call before ih =>
      cases call with
      | add i => exact ih (d.add i)
      | build => simp only [List.cons_append, perform, ih d]

/-- A draft holds what its instructions write, and nothing of the patches built on the way. -/
theorem body_perform (d : Draft) (calls : List Call) :
    (d.perform calls).2.body.toList =
      d.body.toList ++ (calls.filterMap Call.instruction?).flatMap Instruction.encode := by
  induction calls generalizing d with
  | nil => simp [perform]
  | cons call calls ih =>
      cases call with
      | add i =>
          simp only [perform, ih, add, Array.toList_appendList, List.filterMap_cons,
            Call.instruction?, List.flatMap_cons, List.append_assoc]
      | build => exact ih d

/-! ## Patches -/

theorem length_toPatch (d : Draft) : d.toPatch.length = d.size := by
  rw [toPatch, List.length_append, Array.length_toList]
  rfl

theorem accepted_toPatch (d : Draft) : Accepted d.toPatch := by
  refine ⟨?_, rfl⟩
  rw [length_toPatch]
  exact Nat.le_add_right _ _

/-- A draft of records is read back whole. -/
theorem decodePatch_toPatch {d : Draft} {rs : List Record} (hrs : ∀ r ∈ rs, r.Sendable)
    (hbody : d.body.toList = rs.flatMap Record.encode) :
    decodePatch d.toPatch = ⟨rs, none, d.toPatch.length⟩ := by
  refine (decodePatch_eq_iff d.accepted_toPatch.1 rfl).mpr ⟨hrs, [], ?_, ?_, .done⟩
  · rw [List.append_nil, ← hbody]
    rfl
  · rw [length_toPatch, size, ← hbody, Array.length_toList]
    rfl

theorem body_foldl_add (d : Draft) (is : List Instruction) :
    (is.foldl add d).body.toList = d.body.toList ++ is.flatMap Instruction.encode := by
  induction is generalizing d with
  | nil => exact (List.append_nil _).symm
  | cons i is ih =>
      rw [List.foldl_cons, ih, add, Array.toList_appendList, List.flatMap_cons, List.append_assoc]

theorem decodePatch_ofInstructions {is : List Instruction} (hraw : ∀ i ∈ is, ∀ bytes, i ≠ .raw bytes) :
    decodePatch (ofInstructions is).toPatch =
      ⟨is.flatMap Instruction.records, none, (ofInstructions is).toPatch.length⟩ := by
  refine decodePatch_toPatch (fun r hr => ?_) ?_
  · obtain ⟨i, _, hr⟩ := List.mem_flatMap.mp hr
    exact Instruction.sendable_of_mem_records hr
  · rw [ofInstructions, body_foldl_add, List.flatMap_assoc]
    exact (List.nil_append _).trans (List.flatMap_congr fun i hi => Instruction.encode_eq (hraw i hi))

/-- Whatever was asked of an empty draft except for raw bytes, the patch built from it decodes to the
records of the instructions, in order and to its last byte: two records for an alignment or a size,
and a cut one for a string that is too long. Its header is version 1, a zero and the length of the
rest. Building it changes neither what is written later nor what is built later. -/
theorem decode_built (before after : List Call)
    (hraw : ∀ bytes, Call.add (.raw bytes) ∉ before) :
    let written := before.filterMap Call.instruction?
    let d := (empty.perform before).2
    let patch := d.toPatch
    let later := d.perform after
    decodePatch patch = ⟨written.flatMap Instruction.records, none, patch.length⟩ ∧
      patch.length = d.size ∧
      (∀ id main cross, (Instruction.setAlign id main cross).records =
        [.setProp id 101 main.code, .setProp id 102 cross.code]) ∧
      (∀ id width height, (Instruction.setSize id width height).records =
        [.setProp id 301 width, .setProp id 302 height]) ∧
      (∀ id key text, (Instruction.setPropStr id key text).records =
        [.setPropStr id key ((Utf8.encode text).take 2147483647)]) ∧
      (∃ b₀ b₁ b₂ b₃ : UInt8, patch.take 6 = [1, 0, b₀, b₁, b₂, b₃] ∧
        b₀.toNat + 256 * b₁.toNat + 65536 * b₂.toNat + 16777216 * b₃.toNat =
          min (patch.length - 6) 4294967295) ∧
      empty.perform (before ++ .build :: after) =
        ((empty.perform before).1 ++ patch :: later.1, later.2) ∧
      empty.perform (before ++ after) = ((empty.perform before).1 ++ later.1, later.2) := by
  refine ⟨decodePatch_toPatch ?_ ?_, length_toPatch _, fun _ _ _ => rfl, fun _ _ _ => rfl,
    fun _ _ _ => rfl, ?_, perform_append _ _ _, perform_append _ _ _⟩
  · intro r hr
    obtain ⟨i, _, hr⟩ := List.mem_flatMap.mp hr
    exact Instruction.sendable_of_mem_records hr
  · rw [body_perform, List.flatMap_assoc]
    refine (List.nil_append _).trans (List.flatMap_congr fun i hi => ?_)
    obtain ⟨call, hcall, hwritten⟩ := List.mem_filterMap.mp hi
    cases call with
    | build => cases hwritten
    | add j =>
        cases hwritten
        exact Instruction.encode_eq fun bytes heq => hraw bytes (heq ▸ hcall)
  · obtain ⟨b₀, b₁, b₂, b₃, hb, hdigits⟩ := Word.encodeUnsigned_digits
      (.ofNat (min (empty.perform before).2.body.size 4294967295))
    refine ⟨b₀, b₁, b₂, b₃, ?_, ?_⟩
    · rw [toPatch, header, hb]
      rfl
    · rw [hdigits, length_toPatch, size, headerLength, Nat.add_sub_cancel_left,
        UInt32.toNat_ofNat_of_lt' (by simp only [UInt32.size]; omega)]

/-- A node and its text, with a patch built between the two. -/
def drafting : List Call := [.add (.createNode 1 .text), .build, .add (.setText 1 "hi")]

theorem decode_built_text : (∀ bytes, Call.add (.raw bytes) ∉ drafting) ∧
    decodePatch (empty.perform drafting).2.toPatch =
      ⟨[.createNode 1 5, .setPropStr 1 201 [104, 105]], none, 30⟩ := by
  have hraw : ∀ bytes, Call.add (.raw bytes) ∉ drafting := by simp [drafting]
  refine ⟨hraw, ?_⟩
  rw [(decode_built drafting [] hraw).1]
  decide

end Draft

end RetainedUi
