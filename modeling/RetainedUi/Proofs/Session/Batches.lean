import Mathlib.Algebra.Ring.Nat
import RetainedUi.Proofs.Session.Patch

/-!
# Records in one patch or in several

Records do the same to the tree of a session in one patch as in several. Where one patch ends and the next
begins shows in nothing but the offsets at which reading stops.
-/

namespace RetainedUi

/-! ## Offsets -/

/-- The error that is met at another offset. -/
def DecodeError.mapOffset (f : Nat → Nat) : DecodeError → DecodeError
  | tooShort length => tooShort length
  | unsupportedVersion version => unsupportedVersion version
  | truncated offset opcode needed available => truncated (f offset) opcode needed available
  | unknownOpcode offset opcode => unknownOpcode (f offset) opcode
  | negativeLength offset length => negativeLength (f offset) length

def DecodeStatus.mapOffset (f : Nat → Nat) : DecodeStatus → DecodeStatus
  | complete => complete
  | ignored cause => ignored (cause.mapOffset f)
  | truncated cause => truncated (cause.mapOffset f)

theorem DecodeError.mapOffset_sub_add (e : DecodeError) (n : Nat) :
    (e.mapOffset (· + n)).mapOffset (· - n) = e := by
  cases e <;> simp only [mapOffset, Nat.add_sub_cancel]

theorem DecodeStatus.mapOffset_sub_add (status : DecodeStatus) (n : Nat) :
    (status.mapOffset (· + n)).mapOffset (· - n) = status := by
  cases status <;> simp only [mapOffset, DecodeError.mapOffset_sub_add]

theorem Record.Unreadable.move {offset : Nat} {code : UInt8} {body : Bytes} {e : DecodeError}
    (h : Unreadable offset code body e) (n : Nat) :
    Unreadable (offset + n) code body (e.mapOffset (· + n)) := by
  cases h with
  | unknownOpcode hcode => exact .unknownOpcode hcode
  | fieldsShort hcode hshort => exact .fieldsShort hcode hshort
  | negativeLength hcode hbody hneg => exact .negativeLength hcode hbody hneg
  | payloadShort hcode hbody hneg hshort => exact .payloadShort hcode hbody hneg hshort

theorem Ends.move {position : Nat} {left : Bytes} {error : Option DecodeError}
    (h : Ends position left error) (n : Nat) :
    Ends (position + n) left (error.map (DecodeError.mapOffset (· + n))) := by
  cases h with
  | done => exact .done
  | stopped hu => exact .stopped (hu.move n)

/-- From another position the same records are read, and reading stops as far behind. -/
theorem Decoder.records_move (rest : Bytes) (position n : Nat) :
    (⟨rest, position + n, false⟩ : Decoder).records =
      let here := (⟨rest, position, false⟩ : Decoder).records
      (here.1, here.2.1.map (DecodeError.mapOffset (· + n)), here.2.2 + n) := by
  obtain ⟨hrs, left, hrest, hlast, hends⟩ :=
    (Decoder.records_eq_iff rfl).mp (rfl : (⟨rest, position, false⟩ : Decoder).records = _)
  refine (Decoder.records_eq_iff rfl).mpr ⟨hrs, left, hrest, ?_, hends.move n⟩
  rw [hlast]
  exact Nat.add_right_comm ..

/-! ## Joined bodies -/

/-- The bytes are a header of the version that is read. -/
def IsHeader (h : Bytes) : Prop := h.length = 6 ∧ h.head? = some 1

instance : DecidablePred IsHeader := fun h =>
  inferInstanceAs (Decidable (h.length = 6 ∧ h.head? = some 1))

namespace IsHeader

variable {h h₁ h₂ body b₁ b₂ : Bytes}

theorem accepted_append (hh : IsHeader h) (body : Bytes) : Accepted (h ++ body) :=
  Accepted.append ⟨Nat.le_of_eq hh.1.symm, hh.2⟩ body

theorem drop_append (hh : IsHeader h) (body : Bytes) : (h ++ body).drop 6 = body :=
  List.drop_left' hh.1

theorem decodePatch_append (hh : IsHeader h) (body : Bytes) :
    decodePatch (h ++ body) =
      let read := (⟨body, 6, false⟩ : Decoder).records
      ⟨read.1, read.2.1, read.2.2⟩ :=
  (hh.accepted_append body).decodePatch_eq (fun _ hr => absurd hr List.not_mem_nil) (hh.drop_append body)

theorem decodePatch_records (hh : IsHeader h) {rs : List Record} (hrs : ∀ r ∈ rs, r.Sendable) :
    decodePatch (h ++ rs.flatMap Record.encode) =
      ⟨rs, none, 6 + (rs.flatMap Record.encode).length⟩ := by
  have ha := hh.accepted_append (rs.flatMap Record.encode)
  refine (decodePatch_eq_iff ha.1 ha.2).mpr ⟨hrs, [], ?_, rfl, .done⟩
  rw [hh.drop_append, List.append_nil]

/-- A body that is read to its end is the writing of its records. -/
theorem body_eq (hh : IsHeader h) (hcomplete : (decodePatch (h ++ body)).error = none) :
    (∀ r ∈ (decodePatch (h ++ body)).records, r.Sendable) ∧
      body = (decodePatch (h ++ body)).records.flatMap Record.encode := by
  obtain ⟨left, hrs, hdrop, _, _, hends⟩ := (hh.accepted_append body).exists_left
  rw [hends.eq_none_iff.mp hcomplete, List.append_nil, hh.drop_append] at hdrop
  exact ⟨hrs, hdrop⟩

/-- Behind a body that is read to its end another one is read as by itself, so many bytes further on. -/
theorem decodePatch_append_append (hh : IsHeader h) (hh₁ : IsHeader h₁) (hh₂ : IsHeader h₂)
    (hcomplete : (decodePatch (h₁ ++ b₁)).error = none) (b₂ : Bytes) :
    let first := decodePatch (h₁ ++ b₁)
    let second := decodePatch (h₂ ++ b₂)
    decodePatch (h ++ (b₁ ++ b₂)) =
      ⟨first.records ++ second.records, second.error.map (DecodeError.mapOffset (· + b₁.length)),
        second.consumed + b₁.length⟩ := by
  intro first second
  obtain ⟨hrs, hbody⟩ := hh₁.body_eq hcomplete
  have hdrop : (h ++ (b₁ ++ b₂)).drop 6 = first.records.flatMap Record.encode ++ b₂ := by
    rw [hh.drop_append, ← hbody]
  rw [(hh.accepted_append _).decodePatch_eq hrs hdrop, ← hbody, Decoder.records_move]
  simp only [first, second, hh₂.decodePatch_append]

end IsHeader

namespace Session

variable {σ : Type}

/-! ## One patch after the other -/

/-- Applies patches one after the other: the reports, and the session in the end. -/
def applyPatches (s : Session σ) : List Bytes → List PatchReport × Session σ
  | [] => ([], s)
  | bytes :: later =>
    let (report, t) := s.applyPatch bytes
    let (reports, u) := t.applyPatches later
    (report :: reports, u)

theorem status_applyPatch (s : Session σ) {bytes : Bytes} (h : Accepted bytes) :
    (s.applyPatch bytes).1.status = (decodePatch bytes).error.elim .complete .truncated := by
  rw [applyPatch_eq, Decoder.ofBytes_of_header h.1 h.2]
  cases hp : (decodePatch bytes).error <;> simp only [hp, readingStatus, Option.elim]

theorem applyPatch_append_append (s : Session σ) {h h₁ h₂ b₁ : Bytes} (hh : IsHeader h)
    (hh₁ : IsHeader h₁) (hh₂ : IsHeader h₂) (hcomplete : (decodePatch (h₁ ++ b₁)).error = none)
    (b₂ : Bytes) :
    let single := s.applyPatch (h ++ (b₁ ++ b₂))
    let first := s.applyPatch (h₁ ++ b₁)
    let second := first.2.applyPatch (h₂ ++ b₂)
    second.2.store = single.2.store ∧
      single.1.applied = first.1.applied + second.1.applied ∧
      single.1.rejected = first.1.rejected + second.1.rejected ∧
      single.1.firstRejection = first.1.firstRejection.or second.1.firstRejection ∧
      single.1.status = second.1.status.mapOffset (· + b₁.length) := by
  intro single first second
  have hread := hh.decodePatch_append_append hh₁ hh₂ hcomplete b₂
  refine ⟨?_, ?_, ?_, ?_, ?_⟩
  · simp only [single, first, second, applyPatch_eq, hread, Store.applyAll_append]
  · simp only [single, first, second, applyPatch_eq, hread, Store.applyAll_append, List.countP_append]
  · simp only [single, first, second, applyPatch_eq, hread, Store.applyAll_append, List.countP_append]
  · simp only [single, first, second, applyPatch_eq, hread, Store.applyAll_append,
      List.findSome?_append]
  · rw [status_applyPatch _ (hh.accepted_append _), status_applyPatch _ (hh₂.accepted_append _), hread]
    cases (decodePatch (h₂ ++ b₂)).error <;> rfl

theorem applyPatches_flatten (s : Session σ) {h : Bytes} (hh : IsHeader h) {groups : List (List Record)}
    {patches : List Bytes} (hrs : ∀ g ∈ groups, ∀ r ∈ g, r.Sendable)
    (hpatches : List.Forall₂ (fun g bytes => ∃ h, IsHeader h ∧ bytes = h ++ g.flatMap Record.encode)
      groups patches) :
    let single := s.applyPatch (h ++ groups.flatten.flatMap Record.encode)
    let many := s.applyPatches patches
    many.2.store = single.2.store ∧
      single.1.applied = (many.1.map PatchReport.applied).sum ∧
      single.1.rejected = (many.1.map PatchReport.rejected).sum ∧
      single.1.firstRejection = many.1.findSome? PatchReport.firstRejection ∧
      single.1.status = .complete ∧ ∀ report ∈ many.1, report.status = .complete := by
  induction hpatches generalizing s with
  | nil =>
      have hnone : ∀ r ∈ ([] : List Record), r.Sendable := fun _ hr => absurd hr List.not_mem_nil
      have hread := hh.decodePatch_records hnone
      have hstatus := status_applyPatch s (hh.accepted_append ([].flatMap Record.encode))
      rw [hread] at hstatus
      refine ⟨?_, ?_, ?_, ?_, hstatus, fun _ hr => absurd hr List.not_mem_nil⟩ <;>
        simp only [List.flatten_nil, applyPatch_eq, hread] <;> rfl
  | @cons g bytes groups patches hg _ ih =>
      -- The patch of all records is that of the first group's with the others behind them.
      obtain ⟨h', hh', rfl⟩ := hg
      obtain ⟨hg, hgroups⟩ := List.forall_mem_cons.mp hrs
      have hread := hh'.decodePatch_records hg
      have hfirst := status_applyPatch s (hh'.accepted_append (g.flatMap Record.encode))
      rw [hread] at hfirst
      obtain ⟨hstore, happlied, hrejected, hrejection, hstatus⟩ :=
        s.applyPatch_append_append hh hh' hh (congrArg DecodedPatch.error hread)
          (groups.flatten.flatMap Record.encode)
      obtain ⟨istore, iapplied, irejected, irejection, istatus, iall⟩ :=
        ih (s.applyPatch (h' ++ g.flatMap Record.encode)).2 hgroups
      simp only [List.flatten_cons, List.flatMap_append, applyPatches, List.map_cons, List.sum_cons]
      refine ⟨istore.trans hstore, ?_, ?_, ?_, ?_, List.forall_mem_cons.mpr ⟨hfirst, iall⟩⟩
      · rw [happlied, iapplied]
      · rw [hrejected, irejected]
      · rw [hrejection, irejection, List.findSome?_cons]
        cases (s.applyPatch (h' ++ g.flatMap Record.encode)).1.firstRejection <;> rfl
      · rw [hstatus, istatus]
        rfl

/-- Where a body is read to its end and another one follows, one patch with both leaves the tree that two
patches leave, one for each. It applies and refuses as many records as these together, and its first
refusal is the first of the two. Its status is that of the second patch, at offsets that are so much
greater as the first body is long. So records may be sent in any number of patches, down to one for each
record. -/
theorem applyPatch_batches (s : Session σ) :
    (∀ h h₁ h₂ b₁ b₂ : Bytes, IsHeader h → IsHeader h₁ → IsHeader h₂ →
      (decodePatch (h₁ ++ b₁)).error = none →
      let single := s.applyPatch (h ++ (b₁ ++ b₂))
      let first := s.applyPatch (h₁ ++ b₁)
      let second := first.2.applyPatch (h₂ ++ b₂)
      second.2.store = single.2.store ∧
      single.1.applied = first.1.applied + second.1.applied ∧
      single.1.rejected = first.1.rejected + second.1.rejected ∧
      single.1.firstRejection = first.1.firstRejection.or second.1.firstRejection ∧
      single.1.status = second.1.status.mapOffset (· + b₁.length) ∧
      second.1.status = single.1.status.mapOffset (· - b₁.length)) ∧
    ∀ (h : Bytes) (groups : List (List Record)) (patches : List Bytes), IsHeader h →
      (∀ g ∈ groups, ∀ r ∈ g, r.Sendable) →
      List.Forall₂ (fun g bytes => ∃ h, IsHeader h ∧ bytes = h ++ g.flatMap Record.encode)
        groups patches →
      let single := s.applyPatch (h ++ groups.flatten.flatMap Record.encode)
      let many := s.applyPatches patches
      many.2.store = single.2.store ∧
      single.1.applied = (many.1.map PatchReport.applied).sum ∧
      single.1.rejected = (many.1.map PatchReport.rejected).sum ∧
      single.1.firstRejection = many.1.findSome? PatchReport.firstRejection ∧
      single.1.status = .complete ∧ ∀ report ∈ many.1, report.status = .complete := by
  refine ⟨fun h h₁ h₂ b₁ b₂ hh hh₁ hh₂ hcomplete => ?_, fun h groups patches hh hrs hpatches =>
    s.applyPatches_flatten hh hrs hpatches⟩
  intro single first second
  obtain ⟨hstore, happlied, hrejected, hrejection, hstatus⟩ :=
    s.applyPatch_append_append hh hh₁ hh₂ hcomplete b₂
  refine ⟨hstore, happlied, hrejected, hrejection, hstatus, ?_⟩
  rw [hstatus, DecodeStatus.mapOffset_sub_add]

/-- A record that is applied and one that is refused. -/
def sampleRecords : List Record := [.createNode 1 1, .appendChild 1 2]

/-- A record before a byte that starts none. -/
def stoppedBody : Bytes := (Record.createNode 2 5).encode ++ [9]

/-- A new session that draws for nobody. -/
def unseen : Session Unit where
  config := {}
  surface := ⟨20, 40⟩
  device := .gl
  sink := ()

theorem applyPatch_batches_stopped :
    let h := Draft.header 0
    let body := sampleRecords.flatMap Record.encode
    IsHeader h ∧ (decodePatch (h ++ body)).error = none ∧ (∀ r ∈ sampleRecords, r.Sendable) ∧
      (unseen.applyPatch (h ++ (body ++ stoppedBody))).1.status = .truncated (.unknownOpcode 33 9) ∧
      ((unseen.applyPatch (h ++ body)).2.applyPatch (h ++ stoppedBody)).1.status =
        .truncated (.unknownOpcode 15 9) ∧
      (unseen.applyPatches (sampleRecords.map (h ++ ·.encode))).2.store =
        (unseen.applyPatch (h ++ body)).2.store := by
  intro h body
  have hh : IsHeader h := by decide
  have hrs : ∀ r ∈ sampleRecords, r.Sendable := by decide
  have hcomplete : (decodePatch (h ++ body)).error = none :=
    congrArg DecodedPatch.error (hh.decodePatch_records hrs)
  have hsingle : (unseen.applyPatch (h ++ (body ++ stoppedBody))).1.status =
      .truncated (.unknownOpcode 33 9) := by
    have hread : (decodePatch (h ++ (body ++ stoppedBody))).error = some (.unknownOpcode 33 9) := by cbv
    rw [status_applyPatch _ (hh.accepted_append _), hread]
    rfl
  obtain ⟨htwo, hmany⟩ := applyPatch_batches unseen
  refine ⟨hh, hcomplete, hrs, hsingle, ?_, ?_⟩
  · rw [(htwo h h h body stoppedBody hh hh hh hcomplete).2.2.2.2.2, hsingle]
    rfl
  · refine (hmany h (sampleRecords.map ([·])) (sampleRecords.map (h ++ ·.encode)) hh ?_ ?_).1.trans ?_
    · intro g hg r hr
      obtain ⟨r', hr', rfl⟩ := List.mem_map.mp hg
      exact hrs r (List.mem_singleton.mp hr ▸ hr')
    · rw [List.forall₂_map_left_iff, List.forall₂_map_right_iff, List.forall₂_same]
      exact fun r _ => ⟨h, hh, by rw [List.flatMap_singleton]⟩
    · rfl

end Session

end RetainedUi
