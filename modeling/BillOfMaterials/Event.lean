import BillOfMaterials.Path

/-! # The course of a run

    A run tells what it does, step by step: messages for the user, and what it
    asks of the disk. -/

namespace BillOfMaterials

inductive Event where
  | report (message : String)
  /-- `current` of `total` steps are done. -/
  | progress (current total : Nat) (message? : Option String)
  | warning (message : String)
  | error (message : String)
  | completion (message : String)
  /-- A directory is made ready for the reports. -/
  | prepare (directory : Path)
  /-- A hash manifest is loaded. -/
  | load (path : Path)
  /-- A report is written. -/
  | write (path : Path) (content : String)
  /-- A report could not be written.  The content is implicit, as nobody is told of it. -/
  | writeFailed (path : Path) {content : String}
  deriving DecidableEq, Repr

/-- Whether an event is a message for the user. -/
def Event.isMessage : Event → Bool
  | .report .. | .progress .. | .warning .. | .error .. | .completion .. => true
  | .prepare .. | .load .. | .write .. | .writeFailed .. => false

end BillOfMaterials
