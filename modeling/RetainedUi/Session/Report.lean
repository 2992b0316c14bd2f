import RetainedUi.Failure

/-!
# Reports and counters

What a session answers to a patch and to a request for a frame, and what it has counted so far.
-/

namespace RetainedUi

/-! ## Patches -/

/-- How the reading of a patch ended. -/
inductive DecodeStatus where
  /-- Every byte belonged to a complete record. -/
  | complete
  /-- The header was refused and nothing was read. -/
  | ignored (cause : DecodeError)
  /-- The records before the cause were read. -/
  | truncated (cause : DecodeError)
deriving DecidableEq, Repr

namespace DecodeStatus

def error? : DecodeStatus → Option DecodeError
  | complete => none
  | ignored cause | truncated cause => some cause

/-- The status as it is shown in a listing of fields. -/
def detail : DecodeStatus → String
  | complete => "Complete"
  | ignored cause => s!"Ignored({cause.detail})"
  | truncated cause => s!"Truncated({cause.detail})"

end DecodeStatus

structure PatchReport where
  status : DecodeStatus := .complete
  applied : Nat := 0
  /-- How many records were read and refused. -/
  rejected : Nat := 0
  /-- The bytes of the header and the records read. -/
  consumed : Nat := 0
  /-- Why the first refused record was refused. -/
  firstRejection : Option EditError := none
deriving DecidableEq, Repr

namespace PatchReport

/-- The report of a patch whose header is refused. -/
def ofIgnored (e : DecodeError) : PatchReport := { status := .ignored e }

/-- Counts a record that was answered. -/
def count (p : PatchReport) : Except EditError Unit → PatchReport
  | .ok () => { p with applied := p.applied + 1 }
  | .error e =>
    { p with rejected := p.rejected + 1, firstRejection := p.firstRejection.or (some e) }

/-- The whole patch was read and every record applied. -/
def isClean (p : PatchReport) : Bool := p.status = .complete ∧ p.rejected = 0

/-- The report for hosts that take any fault for a failure; a fault in reading comes first. -/
def toResult (p : PatchReport) : Except Failure PatchReport :=
  match p.status.error?, p.firstRejection with
  | some e, _ => .error (.decode e)
  | none, some e => .error (.edit e)
  | none, none => .ok p

end PatchReport

/-! ## Frames -/

inductive FrameOutcome where
  | presented
  /-- It was drawn, and the sink refused it. -/
  | sinkFailed (cause : Failure)
  /-- There was no room to draw it. -/
  | skipped
deriving DecidableEq, Repr

/-- The answer to a request for a frame. -/
structure FrameReport where
  /-- The index of the frame, unless it was skipped. -/
  index : Option Nat
  outcome : FrameOutcome
  nodesPainted : Nat
  /-- The time that the host gave. -/
  timestamp : Nat
deriving DecidableEq, Repr

/-! ## Counters -/

/-- What a session has counted so far. -/
structure Stats where
  patchesAccepted : Nat := 0
  patchesIgnored : Nat := 0
  patchesTruncated : Nat := 0
  recordsApplied : Nat := 0
  recordsRejected : Nat := 0
  framesPresented : Nat := 0
  sinkFailures : Nat := 0
  framesSkipped : Nat := 0
  inputDropped : Nat := 0
deriving DecidableEq, Repr

namespace Stats

/-- Counts how the reading of a patch ended. -/
def countStatus (s : Stats) : DecodeStatus → Stats
  | .complete => { s with patchesAccepted := s.patchesAccepted + 1 }
  | .ignored _ => { s with patchesIgnored := s.patchesIgnored + 1 }
  | .truncated _ =>
    { s with
      patchesAccepted := s.patchesAccepted + 1
      patchesTruncated := s.patchesTruncated + 1 }

/-- Counts a patch and its records. -/
def countPatch (s : Stats) (p : PatchReport) : Stats :=
  let s := s.countStatus p.status
  { s with
    recordsApplied := s.recordsApplied + p.applied
    recordsRejected := s.recordsRejected + p.rejected }

def countFrame (s : Stats) : FrameOutcome → Stats
  | .presented => { s with framesPresented := s.framesPresented + 1 }
  | .sinkFailed _ => { s with sinkFailures := s.sinkFailures + 1 }
  | .skipped => { s with framesSkipped := s.framesSkipped + 1 }

end Stats

end RetainedUi
