import RetainedUi.Proofs.Wire.Word
import RetainedUi.Wire.Decoder
import RetainedUi.Wire.Draft

/-!
# The grammar of patches

A record is read off the front of some bytes exactly when its written form stands there; anything
else is refused for what stands there instead. So the records of a body are those it is the writing
of, up to the first place where no record starts.
-/

namespace RetainedUi

/-! ## Opcodes -/

namespace Opcode

theorem ofCode?_eq_some_iff {b : UInt8} {op : Opcode} : ofCode? b = some op ↔ b = op.code := by
  constructor
  · intro h
    unfold ofCode? at h
    split at h <;> cases h
    all_goals rfl
  · rintro rfl
    cases op <;> rfl

theorem ofCode?_eq_none_iff {b : UInt8} : ofCode? b = none ↔ b < 1 ∨ 8 < b := by
  constructor
  · intro h
    unfold ofCode? at h
    split at h
    case h_9 => grind
    all_goals cases h
  · intro hb
    cases h : ofCode? b with
    | none => rfl
    | some op =>
        cases ofCode?_eq_some_iff.mp h
        cases op <;> exact absurd hb (by decide)

theorem fieldBytes_le (op : Opcode) : op.fieldBytes ≤ 12 := by cases op <;> decide

end Opcode

namespace Record

/-! ## Payloads -/

/-- The payload is no longer than a length word can say. -/
def Sendable (r : Record) : Prop := r.payload.length ≤ Instruction.maxPayload

instance : DecidablePred Sendable := fun r =>
  inferInstanceAs (Decidable (r.payload.length ≤ Instruction.maxPayload))

theorem splitPayload?_eq_some_iff {n : Nat} {bytes front rest : Bytes} :
    splitPayload? n bytes = some (front, rest) ↔ front.length = n ∧ bytes = front ++ rest := by
  simp only [splitPayload?, List.splitAt_eq]
  constructor
  · intro h
    split at h
    · rename_i hn
      cases h
      exact ⟨hn, (List.take_append_drop n bytes).symm⟩
    · cases h
  · rintro ⟨rfl, rfl⟩
    rw [List.take_left, List.drop_left, if_pos rfl]

theorem splitPayload?_eq_none_iff {n : Nat} {bytes : Bytes} :
    splitPayload? n bytes = none ↔ bytes.length < n := by
  simp only [splitPayload?, List.splitAt_eq, ite_eq_right_iff, reduceCtorEq, imp_false,
    List.length_take]
  omega

/-- A length word is the one of so many bytes exactly when it is not negative and says so. -/
theorem eq_ofNat_iff {length : Int32} {n : Nat} :
    length = .ofNat n ∧ n ≤ Instruction.maxPayload ↔ 0 ≤ length ∧ n = length.toNatClampNeg := by
  constructor
  · rintro ⟨rfl, hn⟩
    have hint : (Int32.ofNat n).toInt = n := Int32.toInt_ofNat_of_lt (Nat.lt_succ_of_le hn)
    constructor
    · rw [Int32.le_iff_toInt_le, hint]
      exact Int.natCast_nonneg n
    · rw [← Int32.toNat_toInt, hint, Int.toNat_natCast]
  · rintro ⟨hlength, rfl⟩
    exact ⟨(Int32.ofNat_toNatClampNeg length hlength).symm,
      Nat.le_of_lt_succ length.toNatClampNeg_lt⟩

theorem readString_eq_ok_iff {offset : Nat} {body : Bytes} {id key length : Int32}
    {bytes rest : Bytes} {r : Record} :
    readString offset body id key length bytes = .ok (r, rest) ↔
      ∃ payload, r = setPropStr id key payload ∧ length = .ofNat payload.length ∧ r.Sendable ∧
        bytes = payload ++ rest := by
  have hnonneg : ¬ length < 0 ↔ 0 ≤ length := Int32.not_lt
  constructor
  · intro h
    simp only [readString] at h
    split at h
    · cases h
    rename_i hlength
    split at h
    · rename_i payload rest hsplit
      cases h
      obtain ⟨hn, rfl⟩ := splitPayload?_eq_some_iff.mp hsplit
      obtain ⟨hword, hmax⟩ := eq_ofNat_iff.mpr ⟨hnonneg.mp hlength, hn⟩
      exact ⟨payload, rfl, hword, hmax, rfl⟩
    · cases h
  · rintro ⟨payload, rfl, hword, hmax, rfl⟩
    obtain ⟨hlength, hn⟩ := eq_ofNat_iff.mp ⟨hword, hmax⟩
    simp only [readString, if_neg (hnonneg.mpr hlength), splitPayload?_eq_some_iff.mpr ⟨hn, rfl⟩]

/-! ## One record -/

/-- The words of a string record are read before it is known whether the payload is there. -/
theorem read₃_string (id key length : Int32) (bytes : Bytes) :
    Word.read₃ (fun id key length => (id, key, length))
      (Word.encode id ++ (Word.encode key ++ (Word.encode length ++ bytes))) =
        some ((id, key, length), bytes) :=
  Word.read₃_eq_some_iff.mpr ⟨id, key, length, rfl, rfl⟩

theorem readBody_eq_ok_iff {offset : Nat} {op : Opcode} {body rest : Bytes} {r : Record} :
    readBody offset op body = .ok (r, rest) ↔
      r.opcode = op ∧ r.Sendable ∧ body = r.words.flatMap Word.encode ++ (r.payload ++ rest) := by
  cases op with
  | deleteNode =>
      simp only [readBody, complete_eq_ok, Word.read₁_eq_some_iff]
      constructor
      · rintro ⟨a, rfl, rfl⟩
        exact ⟨rfl, Nat.zero_le _, rfl⟩
      · rintro ⟨hop, -, rfl⟩
        cases r <;> cases hop
        exact ⟨_, rfl, rfl⟩
  | createNode | appendChild | removeChild =>
      simp only [readBody, complete_eq_ok, Word.read₂_eq_some_iff]
      constructor
      · rintro ⟨a, b, rfl, rfl⟩
        exact ⟨rfl, Nat.zero_le _, by simp [words, payload]⟩
      · rintro ⟨hop, -, rfl⟩
        cases r <;> cases hop
        exact ⟨_, _, rfl, by simp [words, payload]⟩
  | setProp | insertChild | replaceChild =>
      simp only [readBody, complete_eq_ok, Word.read₃_eq_some_iff]
      constructor
      · rintro ⟨a, b, c, rfl, rfl⟩
        exact ⟨rfl, Nat.zero_le _, by simp [words, payload]⟩
      · rintro ⟨hop, -, rfl⟩
        cases r <;> cases hop
        exact ⟨_, _, _, rfl, by simp [words, payload]⟩
  | setPropStr =>
      simp only [readBody]
      constructor
      · intro h
        split at h
        · rename_i id key length bytes hwords
          obtain ⟨_, _, _, heq, rfl⟩ := Word.read₃_eq_some_iff.mp hwords
          cases heq
          obtain ⟨payload, rfl, rfl, hmax, rfl⟩ := readString_eq_ok_iff.mp h
          exact ⟨rfl, hmax, by simp [words, Record.payload]⟩
        · cases h
      · rintro ⟨hop, hmax, rfl⟩
        cases r <;> cases hop
        rename_i id key payload
        have hbody : (setPropStr id key payload).words.flatMap Word.encode ++ (payload ++ rest) =
            Word.encode id ++ (Word.encode key ++ (Word.encode (.ofNat payload.length) ++
              (payload ++ rest))) := by
          simp [words]
        rw [Record.payload, hbody, read₃_string]
        exact readString_eq_ok_iff.mpr ⟨payload, rfl, rfl, hmax, rfl⟩

/-- A record is read exactly where it is written. -/
theorem read_eq_ok_iff {offset : Nat} {code : UInt8} {body rest : Bytes} {r : Record} :
    read offset code body = .ok (r, rest) ↔ r.Sendable ∧ code :: body = r.encode ++ rest := by
  have hencode : r.encode ++ rest =
      r.opcode.code :: (r.words.flatMap Word.encode ++ (r.payload ++ rest)) := by
    simp only [encode, List.cons_append, List.append_assoc]
  rw [hencode, List.cons.injEq]
  constructor
  · intro h
    unfold read at h
    split at h
    · cases h
    · rename_i op hop
      obtain ⟨rfl, hmax, hbody⟩ := readBody_eq_ok_iff.mp h
      exact ⟨hmax, Opcode.ofCode?_eq_some_iff.mp hop, hbody⟩
  · rintro ⟨hmax, hcode, hbody⟩
    rw [read, Opcode.ofCode?_eq_some_iff.mpr hcode]
    exact readBody_eq_ok_iff.mpr ⟨rfl, hmax, hbody⟩

/-! ## What is no record -/

/-- Why no record is read at `offset`, where the byte `code` stands before `body`. -/
inductive Unreadable (offset : Nat) (code : UInt8) (body : Bytes) : DecodeError → Prop
  | unknownOpcode : Opcode.ofCode? code = none →
      Unreadable offset code body (.unknownOpcode offset code)
  | fieldsShort {op : Opcode} : code = op.code → body.length < op.fieldBytes →
      Unreadable offset code body (.truncated offset code op.fieldBytes body.length)
  | negativeLength {id key length : Int32} {bytes : Bytes} : code = Opcode.setPropStr.code →
      body = Word.encode id ++ (Word.encode key ++ (Word.encode length ++ bytes)) → length < 0 →
      Unreadable offset code body (.negativeLength offset length)
  | payloadShort {id key length : Int32} {bytes : Bytes} : code = Opcode.setPropStr.code →
      body = Word.encode id ++ (Word.encode key ++ (Word.encode length ++ bytes)) → ¬ length < 0 →
      bytes.length < length.toNatClampNeg →
      Unreadable offset code body
        (.truncated offset code (Opcode.setPropStr.fieldBytes + length.toNatClampNeg) body.length)

theorem complete_eq_error {offset : Nat} {op : Opcode} {body : Bytes} {o : Option (Record × Bytes)}
    {e : DecodeError} : complete offset op body o = .error e ↔
      o = none ∧ e = .truncated offset op.code op.fieldBytes body.length := by
  cases o <;> simp [complete, eq_comm]

theorem readBody_of_short {offset : Nat} {op : Opcode} {body : Bytes}
    (h : body.length < op.fieldBytes) :
    readBody offset op body = .error (.truncated offset op.code op.fieldBytes body.length) := by
  cases op with
  | deleteNode => exact complete_eq_error.mpr ⟨Word.read₁_eq_none_iff.mpr h, rfl⟩
  | createNode | appendChild | removeChild =>
      exact complete_eq_error.mpr ⟨Word.read₂_eq_none_iff.mpr h, rfl⟩
  | setProp | insertChild | replaceChild =>
      exact complete_eq_error.mpr ⟨Word.read₃_eq_none_iff.mpr h, rfl⟩
  | setPropStr =>
      rw [readBody, Word.read₃_eq_none_iff.mpr h]
      rfl

theorem unreadable_of_readBody {offset : Nat} {op : Opcode} {body : Bytes} {e : DecodeError}
    (h : readBody offset op body = .error e) : Unreadable offset op.code body e := by
  cases op with
  | deleteNode =>
      obtain ⟨hshort, rfl⟩ := complete_eq_error.mp h
      exact .fieldsShort rfl (Word.read₁_eq_none_iff.mp hshort)
  | createNode | appendChild | removeChild =>
      obtain ⟨hshort, rfl⟩ := complete_eq_error.mp h
      exact .fieldsShort rfl (Word.read₂_eq_none_iff.mp hshort)
  | setProp | insertChild | replaceChild =>
      obtain ⟨hshort, rfl⟩ := complete_eq_error.mp h
      exact .fieldsShort rfl (Word.read₃_eq_none_iff.mp hshort)
  | setPropStr =>
      simp only [readBody] at h
      split at h
      · rename_i id key length bytes hwords
        obtain ⟨_, _, _, heq, hbody⟩ := Word.read₃_eq_some_iff.mp hwords
        cases heq
        simp only [readString] at h
        split at h
        · cases h
          exact .negativeLength rfl hbody ‹_›
        · split at h <;> cases h
          rename_i hsplit
          exact .payloadShort rfl hbody ‹_› (splitPayload?_eq_none_iff.mp hsplit)
      · rename_i hwords
        cases h
        exact .fieldsShort rfl (Word.read₃_eq_none_iff.mp hwords)

theorem read_eq_error_iff {offset : Nat} {code : UInt8} {body : Bytes} {e : DecodeError} :
    read offset code body = .error e ↔ Unreadable offset code body e := by
  constructor
  · intro h
    unfold read at h
    split at h
    · cases h
      exact .unknownOpcode ‹_›
    · rename_i op hop
      rw [Opcode.ofCode?_eq_some_iff.mp hop]
      exact unreadable_of_readBody h
  · intro h
    cases h with
    | unknownOpcode hcode => rw [read, hcode]
    | fieldsShort hcode hshort =>
        rw [read, Opcode.ofCode?_eq_some_iff.mpr hcode, hcode]
        exact readBody_of_short hshort
    | negativeLength hcode hbody hneg =>
        rw [read, Opcode.ofCode?_eq_some_iff.mpr hcode, hbody]
        simp only [readBody, read₃_string, readString, if_pos hneg]
    | payloadShort hcode hbody hneg hshort =>
        rw [read, Opcode.ofCode?_eq_some_iff.mpr hcode, hcode, hbody]
        simp only [readBody, read₃_string, readString, if_neg hneg,
          splitPayload?_eq_none_iff.mpr hshort]

/-! ## String records -/

/-- Some bytes start with the fields of a string record whose length word is `n`. -/
def DeclaresLength (bytes : Bytes) (n : Int32) : Prop :=
  ∃ id key rest, bytes = 8 :: (Word.encode id ++ (Word.encode key ++ (Word.encode n ++ rest)))

theorem declaresLength_of_body {code : UInt8} {id key n : Int32} {body rest : Bytes}
    (hcode : code = Opcode.setPropStr.code)
    (hbody : body = Word.encode id ++ (Word.encode key ++ (Word.encode n ++ rest))) :
    DeclaresLength (code :: body) n := by
  subst hcode hbody
  exact ⟨id, key, rest, rfl⟩

theorem DeclaresLength.unique {bytes : Bytes} {m n : Int32} (hm : DeclaresLength bytes m)
    (hn : DeclaresLength bytes n) : m = n := by
  obtain ⟨id, key, rest, rfl⟩ := hm
  obtain ⟨id', key', rest', heq⟩ := hn
  have hread := read₃_string id key m rest
  rw [(List.cons.inj heq).2, read₃_string, Option.some.injEq] at hread
  cases hread
  rfl

theorem DeclaresLength.opcode {code : UInt8} {body : Bytes} {n : Int32}
    (h : DeclaresLength (code :: body) n) : code = 8 ∧ 12 ≤ body.length := by
  obtain ⟨id, key, rest, heq⟩ := h
  cases heq
  refine ⟨rfl, ?_⟩
  simp only [List.length_append, Word.length_encode]
  omega

/-! ## Which error fits -/

section Fits

variable {offset : Nat} {code : UInt8} {body : Bytes} {e : DecodeError}

theorem Unreadable.eq_unknownOpcode_iff (h : Unreadable offset code body e) :
    e = .unknownOpcode offset code ↔ code < 1 ∨ 8 < code := by
  rw [← Opcode.ofCode?_eq_none_iff]
  cases h with
  | unknownOpcode hcode => simp only [hcode]
  | fieldsShort hcode | negativeLength hcode | payloadShort hcode =>
      simp only [Opcode.ofCode?_eq_some_iff.mpr hcode, reduceCtorEq]

theorem Unreadable.eq_negativeLength_iff (h : Unreadable offset code body e) {n : Int32} :
    e = .negativeLength offset n ↔ DeclaresLength (code :: body) n ∧ n < 0 := by
  cases h with
  | unknownOpcode hcode =>
      simp only [reduceCtorEq, false_iff, not_and]
      intro hn
      rw [hn.opcode.1] at hcode
      cases hcode
  | @fieldsShort op hcode hshort =>
      simp only [reduceCtorEq, false_iff, not_and]
      intro hn
      have hfields := hn.opcode.2
      have hle := op.fieldBytes_le
      omega
  | negativeLength hcode hbody hneg =>
      have hlength := declaresLength_of_body hcode hbody
      rw [DecodeError.negativeLength.injEq, and_iff_right rfl]
      constructor
      · rintro rfl
        exact ⟨hlength, hneg⟩
      · rintro ⟨hn, _⟩
        exact hlength.unique hn
  | payloadShort hcode hbody hneg =>
      have hlength := declaresLength_of_body hcode hbody
      simp only [reduceCtorEq, false_iff, not_and]
      intro hn
      rwa [hn.unique hlength]

theorem Unreadable.eq_truncated (h : Unreadable offset code body e) (hlow : 1 ≤ code)
    (hhigh : code ≤ 8) (hneg : ∀ n, DeclaresLength (code :: body) n → ¬ n < 0) :
    ∃ needed, body.length < needed ∧ e = .truncated offset code needed body.length := by
  cases h with
  | unknownOpcode hcode =>
      rcases Opcode.ofCode?_eq_none_iff.mp hcode with hlt | hlt
      · exact absurd hlow (UInt8.not_le.mpr hlt)
      · exact absurd hhigh (UInt8.not_le.mpr hlt)
  | fieldsShort hcode hshort => exact ⟨_, hshort, rfl⟩
  | negativeLength hcode hbody hlength =>
      exact absurd hlength (hneg _ (declaresLength_of_body hcode hbody))
  | payloadShort hcode hbody _ hshort =>
      refine ⟨_, ?_, rfl⟩
      simp only [hbody, List.length_append, Word.length_encode, Opcode.fieldBytes]
      omega

end Fits

end Record

end RetainedUi
