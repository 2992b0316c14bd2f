import Mathlib.Data.List.Basic
import RetainedUi.Proofs.Wire.Decoding

/-!
# Cut and extended patches

What was read of a patch stays read when bytes are added to it. A record that stands whole in the first
bytes of a patch is read from them alone, and one that they cut is not.
-/

namespace RetainedUi

/-! ## Where reading stopped -/

namespace Record

variable {offset : Nat} {code : UInt8} {body : Bytes} {e : DecodeError}

theorem Unreadable.append (h : Unreadable offset code body e)
    (he : ∀ o c needed available, e ≠ .truncated o c needed available) (ext : Bytes) :
    Unreadable offset code (body ++ ext) e := by
  cases h with
  | unknownOpcode hcode => exact .unknownOpcode hcode
  | fieldsShort | payloadShort => exact absurd rfl (he _ _ _ _)
  | @negativeLength id key length bytes hcode hbody hneg =>
      have hbody' : body ++ ext =
          Word.encode id ++ (Word.encode key ++ (Word.encode length ++ (bytes ++ ext))) := by
        simp only [hbody, List.append_assoc]
      exact .negativeLength hcode hbody' hneg

theorem Unreadable.append_of_truncated {o needed available : Nat} {c : UInt8}
    (h : Unreadable offset code body (.truncated o c needed available)) {ext : Bytes}
    (hext : ext.length < needed - available) :
    Unreadable offset code (body ++ ext) (.truncated o c needed (available + ext.length)) := by
  cases h with
  | @fieldsShort op hcode hshort =>
      have hshort' : (body ++ ext).length < op.fieldBytes := by
        rw [List.length_append]
        omega
      exact List.length_append ▸ .fieldsShort hcode hshort'
  | @payloadShort id key length bytes hcode hbody hneg hshort =>
      have hbody' : body ++ ext =
          Word.encode id ++ (Word.encode key ++ (Word.encode length ++ (bytes ++ ext))) := by
        simp only [hbody, List.append_assoc]
      have hshort' : (bytes ++ ext).length < length.toNatClampNeg := by
        have hlength := congrArg List.length hbody
        simp only [List.length_append, Word.length_encode, Opcode.fieldBytes] at hlength hext ⊢
        omega
      exact List.length_append ▸ .payloadShort hcode hbody' hneg hshort'

end Record

theorem Ends.append {position : Nat} {left : Bytes} {e : DecodeError} (h : Ends position left (some e))
    (he : ∀ o c needed available, e ≠ .truncated o c needed available) (ext : Bytes) :
    Ends position (left ++ ext) (some e) := by
  cases h with
  | stopped hu => exact .stopped (hu.append he ext)

theorem Ends.append_of_truncated {position offset needed available : Nat} {code : UInt8} {left : Bytes}
    (h : Ends position left (some (.truncated offset code needed available))) {ext : Bytes}
    (hext : ext.length < needed - available) :
    Ends position (left ++ ext) (some (.truncated offset code needed (available + ext.length))) := by
  cases h with
  | stopped hu => exact .stopped (hu.append_of_truncated hext)

/-- Where reading stops, a record that more bytes complete takes some of them. -/
theorem Ends.length_lt_size {position : Nat} {left ext rest : Bytes} {error : Option DecodeError}
    (h : Ends position left error) {r : Record} (hr : r.Sendable) (heq : left ++ ext = r.encode ++ rest) :
    left.length < r.size := by
  rw [← r.length_encode]
  rcases List.append_eq_append_iff.mp heq with ⟨more, hmore, _⟩ | ⟨more, hmore, _⟩
  · rcases List.eq_nil_or_concat more with rfl | ⟨_, _, rfl⟩
    · rw [List.append_nil] at hmore
      exact absurd (hmore.symm.trans (List.append_nil _).symm) (h.ne_record hr [])
    · rw [hmore]
      simp
  · exact absurd hmore (h.ne_record hr more)

/-! ## Where records end -/

namespace DecodedPatch

variable {p : DecodedPatch}

/-- Where the first `i` records of a patch end. -/
def boundary (p : DecodedPatch) (i : Nat) : Nat := 6 + ((p.records.take i).flatMap Record.encode).length

/-- The records are those of a patch that end within its first `n` bytes. -/
def Within (p : DecodedPatch) (n : Nat) (rs : List Record) : Prop :=
  rs <+: p.records ∧ ∀ i < p.records.length, i < rs.length ↔ p.boundary (i + 1) ≤ n

theorem boundary_le_boundary {i j : Nat} (hij : i ≤ j) : p.boundary i ≤ p.boundary j := by
  obtain ⟨later, hlater⟩ := List.take_prefix_take_left (l := p.records) hij
  rw [boundary, boundary, ← hlater, List.flatMap_append, List.length_append]
  omega

theorem boundary_length_of_prefix {rs : List Record} (h : rs <+: p.records) :
    p.boundary rs.length = 6 + (rs.flatMap Record.encode).length := by
  rw [boundary, ← List.prefix_iff_eq_take.mp h]

theorem boundary_succ {i : Nat} {r : Record} (h : p.records[i]? = some r) :
    p.boundary (i + 1) = p.boundary i + r.size := by
  rw [boundary, boundary, List.take_add_one, h, Option.toList_some, List.flatMap_append,
    List.length_append, List.flatMap_singleton, r.length_encode, Nat.add_assoc]

/-- The records that end within some bytes are those up to a place in them that is less than the next
record away from their end. -/
theorem within_of_append {n : Nat} {rs later : List Record} (h : p.records = rs ++ later)
    (hle : p.boundary rs.length ≤ n) (hlt : ∀ r ∈ later.head?, n < p.boundary rs.length + r.size) :
    p.Within n rs := by
  refine ⟨⟨later, h.symm⟩, fun i hi => ⟨fun hirs => ?_, fun hin => ?_⟩⟩
  · exact Nat.le_trans (boundary_le_boundary hirs) hle
  · by_contra hge
    cases later with
    | nil =>
        rw [h, List.append_nil] at hi
        exact hge hi
    | cons r later =>
        have hr : p.records[rs.length]? = some r := by
          rw [h, List.getElem?_append_right (Nat.le_refl _), Nat.sub_self, List.getElem?_cons_zero]
        have hnext := boundary_succ hr
        have hmono : p.boundary (rs.length + 1) ≤ p.boundary (i + 1) :=
          boundary_le_boundary (by omega)
        have := hlt r rfl
        omega

end DecodedPatch

/-! ## More bytes -/

namespace Accepted

variable {b : Bytes} (h : Accepted b)

include h

theorem decodePatch_append {ext : Bytes} {error : Option DecodeError}
    (hends : ∀ left, Ends (decodePatch b).consumed left (decodePatch b).error →
      Ends (decodePatch b).consumed (left ++ ext) error) :
    decodePatch (b ++ ext) = { decodePatch b with error } := by
  obtain ⟨left, hrs, hdrop, hconsumed, _, hleft⟩ := h.exists_left
  refine (decodePatch_eq_iff (h.append ext).1 (h.append ext).2).mpr
    ⟨hrs, left ++ ext, ?_, hconsumed, hends left hleft⟩
  rw [h.drop_append, hdrop, List.append_assoc]

theorem decodePatch_append_of_final {e : DecodeError} (he : (decodePatch b).error = some e)
    (hfinal : ∀ o c needed available, e ≠ .truncated o c needed available) (ext : Bytes) :
    decodePatch (b ++ ext) = decodePatch b := by
  have hsame : decodePatch (b ++ ext) = { decodePatch b with error := some e } :=
    h.decodePatch_append fun left hends => (he ▸ hends).append hfinal ext
  rw [hsame, ← he]

theorem within_append (ext : Bytes) :
    (decodePatch (b ++ ext)).Within b.length (decodePatch b).records := by
  obtain ⟨left, hrs, hdrop, hconsumed, hlength, hends⟩ := h.exists_left
  have hdrop' : (b ++ ext).drop 6 = (decodePatch b).records.flatMap Record.encode ++ (left ++ ext) := by
    rw [h.drop_append, hdrop, List.append_assoc]
  have hlong := (h.append ext).decodePatch_eq hrs hdrop'
  generalize hlater : (Decoder.records ⟨left ++ ext, _, false⟩) = later at hlong
  obtain ⟨hsend, rest, hrest, _, _⟩ := (Decoder.records_eq_iff rfl).mp hlater
  have hrecords := congrArg DecodedPatch.records hlong
  dsimp only at hrecords hrest
  have hend := DecodedPatch.boundary_length_of_prefix ⟨_, hrecords.symm⟩
  refine DecodedPatch.within_of_append hrecords (by omega) fun r hr => ?_
  -- The next record stands in front of what is left and added, so that it takes more than what is left.
  obtain ⟨rs, hcons⟩ := List.head?_eq_some_iff.mp hr
  rw [hcons, List.flatMap_cons, List.append_assoc] at hrest
  have hsize := hends.length_lt_size (hsend r (List.mem_of_mem_head? hr)) hrest
  omega

/-! ## Fewer bytes -/

theorem take {n : Nat} (hn : 6 ≤ n) : Accepted (b.take n) := by
  refine ⟨?_, ?_⟩
  · have := h.1
    rw [List.length_take]
    omega
  · rw [List.head?_take, if_neg (by omega), h.2]

theorem error_eq_none_iff : (decodePatch b).error = none ↔ (decodePatch b).consumed = b.length := by
  obtain ⟨left, _, _, _, hlength, hends⟩ := h.exists_left
  rw [hends.eq_none_iff, ← List.length_eq_zero_iff]
  omega

theorem boundary_le_length {i : Nat} (hi : i ≤ (decodePatch b).records.length) :
    (decodePatch b).boundary i ≤ b.length := by
  obtain ⟨left, _, _, hconsumed, hlength, _⟩ := h.exists_left
  have hend := DecodedPatch.boundary_length_of_prefix (p := decodePatch b) List.prefix_rfl
  have := DecodedPatch.boundary_le_boundary (p := decodePatch b) hi
  omega

theorem within_take {n : Nat} (hn : 6 ≤ n) :
    (decodePatch b).Within n (decodePatch (b.take n)).records := by
  have hcut := (h.take hn).within_append (b.drop n)
  rw [List.take_append_drop, List.length_take] at hcut
  refine ⟨hcut.1, fun i hi => (hcut.2 i hi).trans ?_⟩
  have := h.boundary_le_length (i := i + 1) hi
  omega

/-- Reading the first bytes of a patch ends without an error exactly if a record ends with them. -/
theorem error_take_eq_none_iff {n : Nat} (hn : 6 ≤ n) : (decodePatch (b.take n)).error = none ↔
    ∃ i ≤ (decodePatch b).records.length, (decodePatch b).boundary i = min n b.length := by
  have hcut := h.within_take hn
  obtain ⟨left, _, _, hconsumed, hlength, hends⟩ := (h.take hn).exists_left
  have hend := DecodedPatch.boundary_length_of_prefix hcut.1
  rw [(h.take hn).error_eq_none_iff, List.length_take]
  rw [List.length_take] at hlength
  constructor
  · intro hall
    exact ⟨_, hcut.1.length_le, by omega⟩
  · rintro ⟨i, hi, hbound⟩
    -- A boundary within the bytes is none of a later record.
    have hle : i ≤ (decodePatch (b.take n)).records.length := by
      cases i with
      | zero => exact Nat.zero_le _
      | succ i => exact (hcut.2 i hi).mpr (by omega)
    have := DecodedPatch.boundary_le_boundary (p := decodePatch b) hle
    omega

end Accepted

/-- More bytes leave the records of a patch as they are, as those of the longer patch that end within the
shorter. A byte that starts no record and a negative length stay where they are, whatever follows; a
record whose bytes run out stays cut as long as too few follow. So a patch that is cut anywhere behind its
header has the records that end before the cut, and no error exactly if the cut is where a record ends, or
the header. -/
theorem decodePatch_cut {b : Bytes} (h : Accepted b) :
    (∀ ext : Bytes,
      let short := decodePatch b
      let long := decodePatch (b ++ ext)
      long.Within b.length short.records ∧
      (∀ offset code, short.error = some (.unknownOpcode offset code) → long = short) ∧
      (∀ offset n, short.error = some (.negativeLength offset n) → long = short) ∧
      ∀ offset code needed available, short.error = some (.truncated offset code needed available) →
        ext.length < needed - available →
        long = { short with
          error := some (.truncated offset code needed (available + ext.length)) }) ∧
    ∀ n, 6 ≤ n →
      let whole := decodePatch b
      let cut := decodePatch (b.take n)
      whole.Within n cut.records ∧
      (cut.error = none ↔ ∃ i ≤ whole.records.length, whole.boundary i = min n b.length) := by
  refine ⟨fun ext => ⟨h.within_append ext, fun offset code he => ?_, fun offset n he => ?_,
    fun offset code needed available he hext => ?_⟩, fun n hn =>
      ⟨h.within_take hn, h.error_take_eq_none_iff hn⟩⟩
  · exact h.decodePatch_append_of_final he (fun _ _ _ _ => DecodeError.noConfusion) ext
  · exact h.decodePatch_append_of_final he (fun _ _ _ _ => DecodeError.noConfusion) ext
  · exact h.decodePatch_append fun left hends => (he ▸ hends).append_of_truncated hext

/-- A record, and a string of five bytes of which one is there. -/
def cutPatch : Bytes :=
  [1, 0, 0, 0, 0, 0, 2, 7, 0, 0, 0, 8, 7, 0, 0, 0, 201, 0, 0, 0, 5, 0, 0, 0, 65]

theorem decodePatch_cut_string :
    Accepted cutPatch ∧
      decodePatch (cutPatch ++ [66, 67]) = ⟨[.deleteNode 7], some (.truncated 11 8 17 15), 11⟩ ∧
      (decodePatch (cutPatch.take 11)).error = none ∧ (decodePatch (cutPatch.take 12)).error ≠ none := by
  have h : Accepted cutPatch := by decide
  have hpatch : decodePatch cutPatch = ⟨[.deleteNode 7], some (.truncated 11 8 17 13), 11⟩ := by cbv
  obtain ⟨hext, hcut⟩ := decodePatch_cut h
  rw [hpatch] at hcut
  refine ⟨h, ?_, (hcut 11 (by decide)).2.mpr ⟨1, by decide⟩, fun hnone => ?_⟩
  · rw [(hext [66, 67]).2.2.2 11 8 17 13 (by rw [hpatch]) (by decide), hpatch]
    rfl
  · obtain ⟨i, hi, hboundary⟩ := (hcut 12 (by decide)).2.mp hnone
    revert i
    decide

end RetainedUi
