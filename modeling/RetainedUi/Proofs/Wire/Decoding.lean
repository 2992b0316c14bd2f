import RetainedUi.Proofs.Wire.Grammar

/-!
# What decoding gives

Decoding a patch splits the bytes after the header into the written forms of its records and what is
left; nothing is left, or what is left starts with no record.
-/

namespace RetainedUi

/-! ## The front of some bytes -/

/-- Reading stops at `position` before some bytes: there are none, or no record can be read. -/
inductive Ends (position : Nat) : Bytes → Option DecodeError → Prop
  | done : Ends position [] none
  | stopped {code : UInt8} {body : Bytes} {e : DecodeError} :
      Record.Unreadable position code body e → Ends position (code :: body) (some e)

/-- Either reading stops before some bytes, or they start with a record. -/
theorem ends_or_record (position : Nat) (bytes : Bytes) :
    (∃ error, Ends position bytes error) ∨
      ∃ (r : Record) (rest : Bytes), r.Sendable ∧ bytes = r.encode ++ rest := by
  cases bytes with
  | nil => exact Or.inl ⟨none, .done⟩
  | cons code body =>
      cases h : Record.read position code body with
      | error e => exact Or.inl ⟨some e, .stopped (Record.read_eq_error_iff.mp h)⟩
      | ok x => exact Or.inr ⟨x.1, x.2, Record.read_eq_ok_iff.mp h⟩

theorem Ends.eq_none_iff {position : Nat} {bytes : Bytes} {error : Option DecodeError}
    (h : Ends position bytes error) : error = none ↔ bytes = [] := by
  cases h with
  | done => simp only
  | stopped _ => simp only [reduceCtorEq]

/-- Where reading stops, no record stands. -/
theorem Ends.ne_record {position : Nat} {bytes : Bytes} {error : Option DecodeError}
    (h : Ends position bytes error) {r : Record} (hr : r.Sendable) (rest : Bytes) :
    bytes ≠ r.encode ++ rest := by
  intro heq
  cases h with
  | done => cases heq
  | stopped hu =>
      have herror := Record.read_eq_error_iff.mpr hu
      rw [Record.read_eq_ok_iff.mpr ⟨hr, heq⟩] at herror
      cases herror

namespace Decoder

variable {d d' : Decoder}

/-! ## Steps -/

theorem next_of_record {r : Record} {rest : Bytes} (hd : d.stopped = false) (hr : r.Sendable)
    (h : d.rest = r.encode ++ rest) :
    ∃ d', d.next = (some (.ok r), d') ∧ d'.stopped = false ∧ d'.rest = rest ∧
      d'.position = d.position + r.size := by
  refine ⟨{ d with rest, position := d.position + r.size }, ?_, hd, rfl, rfl⟩
  unfold next
  rw [hd]
  split
  · contradiction
  split
  · rename_i hnil
    rw [h] at hnil
    cases hnil
  · rename_i code body hcons
    rw [Record.read_eq_ok_iff.mpr ⟨hr, hcons.symm.trans h⟩]

theorem next_of_ends {error : Option DecodeError} (hd : d.stopped = false)
    (h : Ends d.position d.rest error) :
    d.next = (error.map .error, { d with stopped := true }) := by
  unfold next
  rw [hd]
  generalize hrest : d.rest = bytes at h
  cases h with
  | done => rfl
  | stopped hu =>
      simp only [Bool.false_eq_true, ↓reduceIte, Record.read_eq_error_iff.mpr hu]
      rfl

theorem records_of_ok {r : Record} (h : d.next = (some (.ok r), d')) :
    d.records = (r :: d'.records.1, d'.records.2) := by
  rw [records]
  split <;> simp_all

theorem records_of_error {e : DecodeError} (h : d.next = (some (.error e), d')) :
    d.records = ([], some e, d'.position) := by
  rw [records]
  split <;> simp_all

theorem records_of_none (h : d.next = (none, d')) : d.records = ([], none, d'.position) := by
  rw [records]
  split <;> simp_all

theorem records_of_ends {error : Option DecodeError} (hd : d.stopped = false)
    (h : Ends d.position d.rest error) : d.records = ([], error, d.position) := by
  have hnext := next_of_ends hd h
  cases error with
  | none => rw [records_of_none hnext]
  | some e => rw [records_of_error hnext]

/-! ## All records -/

/-- The records are those whose written forms the bytes start with, one after the other, up to where
reading stops. -/
theorem records_eq_iff (hd : d.stopped = false) {rs : List Record} {error : Option DecodeError}
    {last : Nat} :
    d.records = (rs, error, last) ↔ (∀ r ∈ rs, r.Sendable) ∧
      ∃ left, d.rest = rs.flatMap Record.encode ++ left ∧
        last = d.position + (rs.flatMap Record.encode).length ∧ Ends last left error := by
  constructor
  · -- A step takes at least one byte, so the induction is on what is left.
    intro h
    induction hn : d.rest.length using Nat.strongRecOn generalizing d rs with
    | ind n ih =>
        rcases ends_or_record d.position d.rest with ⟨_, hends⟩ | ⟨r, rest, hr, hrest⟩
        · rw [records_of_ends hd hends] at h
          cases h
          exact ⟨fun _ hr => absurd hr List.not_mem_nil, d.rest, rfl, rfl, hends⟩
        · obtain ⟨d', hnext, hd', rfl, hposition⟩ := next_of_record hd hr hrest
          rw [records_of_ok hnext, Prod.mk.injEq] at h
          obtain ⟨rfl, hlater⟩ := h
          obtain ⟨hrs, left, hleft, hlast, hends⟩ :=
            ih _ (hn ▸ length_rest_lt hnext) hd' (Prod.ext rfl hlater) rfl
          refine ⟨List.forall_mem_cons.mpr ⟨hr, hrs⟩, left, ?_, ?_, hends⟩
          · rw [hrest, hleft, List.flatMap_cons, List.append_assoc]
          · rw [hlast, hposition, List.flatMap_cons, List.length_append, r.length_encode,
              Nat.add_assoc]
  · rintro ⟨hrs, left, hrest, rfl, hends⟩
    induction rs generalizing d with
    | nil =>
        cases hrest
        exact records_of_ends hd hends
    | cons r rs ih =>
        obtain ⟨hr, hrs⟩ := List.forall_mem_cons.mp hrs
        rw [List.flatMap_cons, List.append_assoc] at hrest
        obtain ⟨d', hnext, hd', hrest', hposition⟩ := next_of_record hd hr hrest
        rw [List.flatMap_cons, List.length_append, r.length_encode, ← Nat.add_assoc,
          ← hposition] at hends ⊢
        rw [records_of_ok hnext, ih hd' hrs hrest' hends]

/-! ## The header -/

/-- A patch is accepted by its length and its first byte, and nothing else of the header counts. -/
theorem ofBytes_cases (bytes : Bytes) :
    bytes.length < 6 ∧ ofBytes bytes = .error (.tooShort bytes.length) ∨
      6 ≤ bytes.length ∧ ∃ version, bytes.head? = some version ∧
        ofBytes bytes =
          if version = 1 then .ok ⟨bytes.drop 6, 6, false⟩ else .error (.unsupportedVersion version) := by
  unfold ofBytes
  split
  · rename_i version b₁ b₂ b₃ b₄ b₅ rest
    refine Or.inr ⟨?_, version, rfl, rfl⟩
    simp only [List.length_cons]
    omega
  · rename_i hshort
    refine Or.inl ⟨?_, rfl⟩
    match bytes with
    | [] | [_] | [_, _] | [_, _, _] | [_, _, _, _] | [_, _, _, _, _] => simp
    | version :: b₁ :: b₂ :: b₃ :: b₄ :: b₅ :: rest =>
        exact absurd rfl (hshort version b₁ b₂ b₃ b₄ b₅ rest)

theorem ofBytes_of_header {bytes : Bytes} (hlength : 6 ≤ bytes.length)
    (hversion : bytes.head? = some 1) : ofBytes bytes = .ok ⟨bytes.drop 6, 6, false⟩ := by
  rcases ofBytes_cases bytes with ⟨hshort, _⟩ | ⟨_, version, hhead, h⟩
  · omega
  · rw [hversion, Option.some.injEq] at hhead
    rw [h, if_pos hhead.symm]

theorem ofBytes_of_no_header {bytes : Bytes} (h : bytes.length < 6 ∨ bytes.head? ≠ some 1) :
    ∃ e, ofBytes bytes = .error e := by
  rcases ofBytes_cases bytes with ⟨_, hshort⟩ | ⟨hlength, version, hhead, hbytes⟩
  · exact ⟨_, hshort⟩
  · have hversion : version ≠ 1 := by
      rintro rfl
      rcases h with h | h
      · omega
      · exact h hhead
    exact ⟨_, by rw [hbytes, if_neg hversion]⟩

theorem ofBytes_congr {bytes bytes' : Bytes} (hlength : bytes'.length = bytes.length)
    (hhead : bytes'.head? = bytes.head?) (hdrop : bytes'.drop 6 = bytes.drop 6) :
    ofBytes bytes' = ofBytes bytes := by
  rcases ofBytes_cases bytes with ⟨hshort, h⟩ | ⟨_, version, hversion, h⟩ <;>
    rcases ofBytes_cases bytes' with ⟨hshort', h'⟩ | ⟨_, version', hversion', h'⟩
  · rw [h, h', hlength]
  · omega
  · omega
  · rw [hhead, hversion, Option.some.injEq] at hversion'
    rw [h, h', hversion', hdrop]

end Decoder

/-! ## Whole patches -/

/-- What is decoded from a patch whose header is accepted. -/
theorem decodePatch_eq_iff {bytes : Bytes} (hlength : 6 ≤ bytes.length)
    (hversion : bytes.head? = some 1) {rs : List Record} {error : Option DecodeError}
    {consumed : Nat} :
    decodePatch bytes = ⟨rs, error, consumed⟩ ↔ (∀ r ∈ rs, r.Sendable) ∧
      ∃ left, bytes.drop 6 = rs.flatMap Record.encode ++ left ∧
        consumed = 6 + (rs.flatMap Record.encode).length ∧ Ends consumed left error := by
  have hrecords : (⟨bytes.drop 6, 6, false⟩ : Decoder).records = (rs, error, consumed) ↔ _ :=
    Decoder.records_eq_iff rfl
  rw [← hrecords, decodePatch, Decoder.ofBytes_of_header hlength hversion]
  simp only [DecodedPatch.mk.injEq, Prod.ext_iff]

/-- A patch has a header, of the version that is read. -/
def Accepted (bytes : Bytes) : Prop := 6 ≤ bytes.length ∧ bytes.head? = some 1

instance : DecidablePred Accepted := fun bytes =>
  inferInstanceAs (Decidable (6 ≤ bytes.length ∧ bytes.head? = some 1))

theorem Accepted.append {bytes : Bytes} (h : Accepted bytes) (ext : Bytes) : Accepted (bytes ++ ext) := by
  constructor
  · rw [List.length_append]
    exact Nat.le_add_right_of_le h.1
  · rw [List.head?_append, h.2]
    rfl

theorem Accepted.drop_append {bytes : Bytes} (h : Accepted bytes) (ext : Bytes) :
    (bytes ++ ext).drop 6 = bytes.drop 6 ++ ext :=
  List.drop_append_of_le_length h.1

/-- The records of an accepted patch, and what is left behind them. -/
theorem Accepted.exists_left {bytes : Bytes} (h : Accepted bytes) :
    ∃ left, (∀ r ∈ (decodePatch bytes).records, r.Sendable) ∧
      bytes.drop 6 = (decodePatch bytes).records.flatMap Record.encode ++ left ∧
      (decodePatch bytes).consumed = 6 + ((decodePatch bytes).records.flatMap Record.encode).length ∧
      (decodePatch bytes).consumed + left.length = bytes.length ∧
      Ends (decodePatch bytes).consumed left (decodePatch bytes).error := by
  rcases hpatch : decodePatch bytes with ⟨rs, error, consumed⟩
  obtain ⟨hrs, left, hdrop, hconsumed, hends⟩ := (decodePatch_eq_iff h.1 h.2).mp hpatch
  refine ⟨left, hrs, hdrop, hconsumed, ?_, hends⟩
  have hlength := congrArg List.length hdrop
  rw [List.length_drop, List.length_append] at hlength
  have := h.1
  dsimp only
  omega

/-- An accepted patch that starts with records is read on from their end. -/
theorem Accepted.decodePatch_eq {bytes rest : Bytes} {rs : List Record} (h : Accepted bytes)
    (hrs : ∀ r ∈ rs, r.Sendable) (hrest : bytes.drop 6 = rs.flatMap Record.encode ++ rest) :
    let later := (⟨rest, 6 + (rs.flatMap Record.encode).length, false⟩ : Decoder).records
    decodePatch bytes = ⟨rs ++ later.1, later.2.1, later.2.2⟩ := by
  intro later
  obtain ⟨hlater, left, hleft, hlast, hends⟩ := (Decoder.records_eq_iff rfl).mp (rfl : _ = later)
  refine (decodePatch_eq_iff h.1 h.2).mpr ⟨?_, left, ?_, ?_, hends⟩
  · exact fun r hr => (List.mem_append.mp hr).elim (hrs r) (hlater r)
  · rw [hrest, List.flatMap_append, List.append_assoc, ← hleft]
  · rw [hlast, List.flatMap_append, List.length_append, Nat.add_assoc]

theorem decodePatch_of_no_header {bytes : Bytes} (h : bytes.length < 6 ∨ bytes.head? ≠ some 1) :
    ∃ e, decodePatch bytes = ⟨[], some e, 0⟩ := by
  obtain ⟨e, he⟩ := Decoder.ofBytes_of_no_header h
  exact ⟨e, by rw [decodePatch, he]⟩

/-- Of a patch whose header is accepted, what is consumed after the header is the writing of the
records. There is an error exactly if bytes are left: no record stands at their front, and the error
is the one that fits them. Of the header only the first byte counts. A patch without a header of
version 1 has no records. -/
theorem decodePatch_exact (bytes : Bytes) :
    (6 ≤ bytes.length → bytes.head? = some 1 →
      let patch := decodePatch bytes
      let left := bytes.drop patch.consumed
      6 ≤ patch.consumed ∧ patch.consumed ≤ bytes.length ∧ (∀ r ∈ patch.records, r.Sendable) ∧
      (bytes.take patch.consumed).drop 6 = patch.records.flatMap Record.encode ∧
      (patch.error = none ↔ patch.consumed = bytes.length) ∧
      ∀ e, patch.error = some e →
        (∀ r : Record, r.Sendable → ∀ rest, left ≠ r.encode ++ rest) ∧
        ∃ code body, left = code :: body ∧
          (e = .unknownOpcode patch.consumed code ↔ code < 1 ∨ 8 < code) ∧
          (∀ n, e = .negativeLength patch.consumed n ↔ Record.DeclaresLength left n ∧ n < 0) ∧
          (1 ≤ code → code ≤ 8 → (∀ n, Record.DeclaresLength left n → ¬ n < 0) →
            ∃ needed, bytes.length - patch.consumed - 1 < needed ∧
              e = .truncated patch.consumed code needed (bytes.length - patch.consumed - 1))) ∧
    (∀ bytes' : Bytes, bytes'.length = bytes.length → bytes'.head? = bytes.head? →
      bytes'.drop 6 = bytes.drop 6 → decodePatch bytes' = decodePatch bytes) ∧
    (bytes.length < 6 ∨ bytes.head? ≠ some 1 → ∃ e, decodePatch bytes = ⟨[], some e, 0⟩) := by
  refine ⟨?_, ?_, decodePatch_of_no_header⟩
  · intro hlength hversion
    rcases hpatch : decodePatch bytes with ⟨rs, error, consumed⟩
    dsimp only
    obtain ⟨hrs, left, hdrop, rfl, hends⟩ := (decodePatch_eq_iff hlength hversion).mp hpatch
    have hleft : bytes.drop (6 + (rs.flatMap Record.encode).length) = left := by
      rw [← List.drop_drop, hdrop, List.drop_left]
    have hsize := congrArg List.length hleft
    rw [List.length_drop] at hsize
    have hwritten := congrArg List.length hdrop
    rw [List.length_drop, List.length_append] at hwritten
    refine ⟨by omega, by omega, hrs, ?_, ?_, ?_⟩
    · rw [List.drop_take, hdrop, Nat.add_sub_cancel_left, List.take_left]
    · rw [hends.eq_none_iff, ← List.length_eq_zero_iff]
      omega
    · rintro e rfl
      simp only [hleft]
      refine ⟨fun r hr => hends.ne_record hr, ?_⟩
      cases hends with
      | @stopped code body _ hu =>
          rw [List.length_cons] at hsize
          rw [hsize, Nat.add_sub_cancel]
          exact ⟨code, body, rfl, hu.eq_unknownOpcode_iff, fun n => hu.eq_negativeLength_iff,
            hu.eq_truncated⟩
  · intro bytes' hlength hhead hdrop
    rw [decodePatch, decodePatch, Decoder.ofBytes_congr hlength hhead hdrop]

/-- A record, and one that declares a string of length -1. -/
def negativePatch : Bytes :=
  [1, 0, 0, 0, 0, 0, 2, 7, 0, 0, 0, 8, 7, 0, 0, 0, 201, 0, 0, 0, 255, 255, 255, 255, 65]

theorem decodePatch_exact_negative :
    decodePatch negativePatch = ⟨[.deleteNode 7], some (.negativeLength 11 (-1)), 11⟩ ∧
      (negativePatch.take 11).drop 6 = (Record.deleteNode 7).encode ∧
      Record.DeclaresLength (negativePatch.drop 11) (-1) := by
  have hpatch : decodePatch negativePatch =
      ⟨[.deleteNode 7], some (.negativeLength 11 (-1)), 11⟩ := by cbv
  have hexact := (decodePatch_exact negativePatch).1 (by decide) rfl
  rw [hpatch] at hexact
  obtain ⟨_, _, _, hwritten, _, herror⟩ := hexact
  obtain ⟨_, code, body, _, _, hnegative, _⟩ := herror _ rfl
  exact ⟨hpatch, hwritten, ((hnegative (-1)).mp rfl).1⟩

end RetainedUi
