import BillOfMaterials.Event

/-! # What the user sees of a run

    The messages of a run go to the terminal, each on a line of its own.  What
    they warn of and what they end with is coloured.  Progress is not shown. -/

namespace BillOfMaterials.Console

/-- What puts a terminal into a state that a number stands for. -/
def state (number : Nat) : String := "\x1b[" ++ number.repr ++ "m"

/-- A text in a colour. -/
def coloured (number : Nat) (text : String) : String := state number ++ text ++ state 39

def bold (text : String) : String := state 1 ++ text ++ state 0

def red : Nat := 31
def green : Nat := 32
def yellow : Nat := 33

/-- What is shown of an event. -/
def text : Event → String
  | .report message => message ++ "\n"
  | .warning message => bold (coloured yellow "warning:") ++ " " ++ message ++ "\n"
  | .error message => bold (coloured red "error:") ++ " " ++ message ++ "\n"
  | .completion message => "\n" ++ coloured green message ++ "\n"
  | .progress .. | .prepare .. | .load .. | .write .. | .writeFailed .. => ""

/-- What is shown of a run. -/
def transcript (events : List Event) : String := String.join (events.map text)

end BillOfMaterials.Console
