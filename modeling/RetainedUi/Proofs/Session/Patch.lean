import RetainedUi.Proofs.Edit.Refinement
import RetainedUi.Proofs.Wire.Decoding
import RetainedUi.Session.Basic

/-!
# Patches in a session

A session reads and applies a patch record by record. What it leaves and reports is what decoding
the whole patch first and then applying the records gives.
-/

namespace RetainedUi

/-- Why a record was refused, if it was. -/
def refusal? : Except EditError Unit → Option EditError
  | .ok () => none
  | .error e => some e

theorem isOk_ok (a : Unit) : (Except.ok a : Except EditError Unit).isOk = true := rfl

theorem isOk_error (e : EditError) : (Except.error e : Except EditError Unit).isOk = false := rfl

theorem Store.length_applyAll (s : Store) (rs : List Record) : (s.applyAll rs).1.length = rs.length := by
  induction rs generalizing s with
  | nil => rfl
  | cons r rs ih => exact congrArg (· + 1) (ih (s.apply r).2)

/-! ## Counting -/

theorem DecodeStatus.error?_eq_none_iff {status : DecodeStatus} :
    status.error? = none ↔ status = .complete := by
  cases status <;> simp [error?]

namespace PatchReport

variable {p : PatchReport}

theorem status_count (p : PatchReport) (answer : Except EditError Unit) :
    (p.count answer).status = p.status := by
  cases answer <;> rfl

/-- Counting answers adds up the applied and the refused ones, and keeps the first refusal. -/
theorem foldl_count (answers : List (Except EditError Unit)) (p : PatchReport) :
    answers.foldl count p = { p with
      applied := p.applied + answers.countP Except.isOk
      rejected := p.rejected + answers.countP (!·.isOk)
      firstRejection := p.firstRejection.or (answers.findSome? refusal?) } := by
  induction answers generalizing p with
  | nil => simp
  | cons answer answers ih =>
      rw [List.foldl_cons, ih]
      cases answer with
      | ok _ =>
          simp only [count, List.countP_cons, List.findSome?_cons, isOk_ok, refusal?]
          simp +arith
      | error e =>
          simp only [count, List.countP_cons, List.findSome?_cons, isOk_error, refusal?, Option.or_assoc]
          simp +arith

theorem isClean_iff : p.isClean = true ↔ p.status.error? = none ∧ p.rejected = 0 := by
  rw [isClean, decide_eq_true_iff, DecodeStatus.error?_eq_none_iff]

theorem toResult_of_decode {e : DecodeError} (h : p.status.error? = some e) :
    p.toResult = .error (.decode e) := by
  simp only [toResult, h]

theorem toResult_of_edit {e : EditError} (h : p.status.error? = none)
    (hfirst : p.firstRejection = some e) : p.toResult = .error (.edit e) := by
  simp only [toResult, h, hfirst]

theorem exists_toResult_eq_ok_iff :
    (∃ q, p.toResult = .ok q) ↔ p.status.error? = none ∧ p.firstRejection = none := by
  rw [toResult]
  cases p.status.error? <;> cases p.firstRejection <;> simp

end PatchReport

/-- There is a first refusal exactly if some record is refused. -/
theorem findSome?_refusal?_eq_none_iff (answers : List (Except EditError Unit)) :
    answers.findSome? refusal? = none ↔ answers.countP (!·.isOk) = 0 := by
  rw [List.findSome?_eq_none_iff, List.countP_eq_zero]
  refine forall₂_congr fun answer _ => ?_
  cases answer <;> simp [refusal?, Except.isOk, Except.toBool]

namespace Session

variable {σ : Type}

/-- The loop over a decoder counts the answers of one run over its records. -/
theorem applyRecords_eq (d : Decoder) (store : Store) (report : PatchReport) :
    applyRecords d store report =
      ({ (store.applyAll d.records.1).1.foldl PatchReport.count report with
          status := (d.records.2.1.map .truncated).getD report.status
          consumed := d.records.2.2 },
        (store.applyAll d.records.1).2) := by
  fun_induction applyRecords d store report with
  | case1 d store report record d' h _ answer store' happly ih =>
      rw [Decoder.records_of_ok h]
      simp only [ih, Store.applyAll, happly, List.foldl_cons, PatchReport.status_count]
  | case2 d store report e d' h =>
      rw [Decoder.records_of_error h]
      rfl
  | case3 d store report d' h =>
      rw [Decoder.records_of_none h]
      rfl

/-- How reading ended, by what became of the header and what stopped the records. -/
def readingStatus : Except DecodeError Decoder → Option DecodeError → DecodeStatus
  | .error e, _ => .ignored e
  | .ok _, some e => .truncated e
  | .ok _, none => .complete

theorem error?_readingStatus (bytes : Bytes) :
    (readingStatus (Decoder.ofBytes bytes) (decodePatch bytes).error).error? =
      (decodePatch bytes).error := by
  rw [decodePatch]
  cases Decoder.ofBytes bytes with
  | error e => rfl
  | ok d => cases h : d.records.2.1 <;> simp only [h, readingStatus, DecodeStatus.error?]

/-- A patch is answered and applied as its records are, one after the other. -/
theorem applyPatch_eq (s : Session σ) (bytes : Bytes) :
    s.applyPatch bytes =
      let patch := decodePatch bytes
      let run := s.store.applyAll patch.records
      let report : PatchReport := {
        status := readingStatus (Decoder.ofBytes bytes) patch.error
        applied := run.1.countP Except.isOk
        rejected := run.1.countP (!·.isOk)
        consumed := patch.consumed
        firstRejection := run.1.findSome? refusal? }
      (report, { s with
        store := run.2, lastPatch := retained s.lastPatch bytes, stats := s.stats.countPatch report }) := by
  rw [applyPatch, decodePatch]
  cases h : Decoder.ofBytes bytes with
  | error e => rfl
  | ok d =>
      simp only [applyRecords_eq, PatchReport.foldl_count]
      cases d.records.2.1 <;> simp [readingStatus]

/-- Applying a patch gives the store that its records lead to, and a report that agrees with decoding
them and with their answers. Of the rest of a session only the patch it remembers and its counters
change. -/
theorem applyPatch_agrees (s : Session σ) (bytes : Bytes) :
    let patch := decodePatch bytes
    let answers := (s.store.applyAll patch.records).1
    let report := (s.applyPatch bytes).1
    let after := (s.applyPatch bytes).2
    after.store = (s.store.applyAll patch.records).2 ∧
      after = { s with
        store := after.store, lastPatch := after.lastPatch, stats := after.stats } ∧
      report.consumed = patch.consumed ∧
      (∀ e, Decoder.ofBytes bytes = .error e → report.status = .ignored e) ∧
      (∀ d e, Decoder.ofBytes bytes = .ok d → patch.error = some e → report.status = .truncated e) ∧
      (patch.error = none → report.status = .complete) ∧
      report.applied = answers.countP Except.isOk ∧
      report.rejected = answers.countP (!·.isOk) ∧
      report.applied + report.rejected = patch.records.length ∧
      report.firstRejection = answers.findSome? refusal? ∧
      (report.isClean = true ↔ ∃ p, report.toResult = .ok p) ∧
      (∀ e, patch.error = some e → report.toResult = .error (.decode e)) ∧
      ∀ e, patch.error = none → report.firstRejection = some e →
        report.toResult = .error (.edit e) := by
  have hstatus := error?_readingStatus bytes
  have hcount := List.length_eq_countP_add_countP Except.isOk
    (l := (s.store.applyAll (decodePatch bytes).records).1)
  rw [Store.length_applyAll] at hcount
  rw [applyPatch_eq]
  refine ⟨rfl, rfl, rfl, ?_, ?_, ?_, rfl, rfl, ?_, rfl, ?_, ?_, ?_⟩
  · intro e he
    simp only [he, readingStatus]
  · intro d e hd he
    simp only [hd, he, readingStatus]
  · intro hnone
    exact DecodeStatus.error?_eq_none_iff.mp (hstatus.trans hnone)
  · rw [hcount]
    simp only [Bool.not_eq_true, Bool.decide_eq_false]
  · rw [PatchReport.isClean_iff, PatchReport.exists_toResult_eq_ok_iff,
      findSome?_refusal?_eq_none_iff]
  · intro e he
    exact PatchReport.toResult_of_decode (hstatus.trans he)
  · intro e hnone hfirst
    exact PatchReport.toResult_of_edit (hstatus.trans hnone) hfirst

end Session

end RetainedUi
