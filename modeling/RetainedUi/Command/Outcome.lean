import RetainedUi.Failure
import RetainedUi.Files.Tree

/-!
# Outcomes of commands

A command prints lines to two streams, leaves files behind, and ends well or with a failure.
-/

namespace RetainedUi

inductive CommandFailure where
  | failure (cause : Failure)
  /-- The sink refused `failed` of the `requested` frames. -/
  | framesFailed (failed requested : Nat)
deriving DecidableEq, Repr

namespace CommandFailure

def message : CommandFailure → String
  | failure cause => cause.message
  | framesFailed failed requested => s!"{failed} of {requested} frames failed to write"

/-- The text that a command ends with: the failure and what it came from. -/
def report (e : CommandFailure) : String :=
  let cause := match e with
    | failure f => f.cause?
    | framesFailed .. => none
  match cause with
  | some c => s!"Error: {e.message}\n\nCaused by:\n    {c.message}\n"
  | none => s!"Error: {e.message}\n"

end CommandFailure

structure Outcome where
  tree : FileTree
  /-- The text for the output stream. -/
  output : String := ""
  /-- The lines for the error stream. -/
  notes : List String := []
  /-- Why the command ended badly, if it did. -/
  failure : Option CommandFailure := none

namespace Outcome

/-- The command ended badly before it did anything. -/
def ofFailure (tree : FileTree) (e : Failure) : Outcome := { tree, failure := some (.failure e) }

def code (o : Outcome) : Nat := if o.failure.isSome then 1 else 0

/-- The text for the error stream. -/
def errorText (o : Outcome) : String :=
  String.join (o.notes.map (· ++ "\n")) ++ (o.failure.map CommandFailure.report).getD ""

end Outcome

end RetainedUi
