import TapeMachine.Event
import TapeMachine.Text.Number

/-!
# Lines for the reader

How errors in a source and executed steps are told. A header is a line that stands out on a
terminal.
-/

namespace TapeMachine

inductive Line where
  | plain (text : String)
  | header (text : String)
deriving DecidableEq, Repr

namespace Report

/-! ## Errors in a source -/

/-- Characters shown on either side of an error. -/
def reach : Nat := 32

/-- Characters that would break the caret's column are shown as blanks. -/
def flatten (c : Char) : Char :=
  if c = '\n' ∨ c = '\r' ∨ c = '\t' then ' ' else c

/-- The characters around a position, with the index of the first. -/
def around (code : List Char) (pos : Nat) : List Char × Nat :=
  let start := pos - reach
  (((code.drop start).take (pos + reach + 1 - start)).map flatten, start)

/-- A header with the position, the text around it, and a caret under it. -/
def errorContext (title code : String) (pos : Nat) : List Line :=
  let (shown, start) := around code.toList pos
  [.header s!"{title} at offset {pos}",
    .plain (String.ofList (' ' :: ' ' :: shown)),
    .plain (String.ofList (List.replicate (pos - start + 2) ' ' ++ ['^']))]

/-- A message, after the name of the program when it is given. -/
def signed (program : Option String) (message : String) : String :=
  match program with
  | some p => s!"{p}: {message}"
  | none => message

def loadError (program : Option String) (code : String) : LoadError → List Line
  | .empty => [.header (signed program "Load error: no executable instructions")]
  | .unmatched side _ offset =>
    errorContext (signed program s!"Parse error: unmatched bracket {side.text}") code offset

/-- The byte index of a character, or of the end when the text is shorter. -/
def byteIndex (text : String) (index : Nat) : Nat :=
  (text.toList.take index).foldl (fun size c => size + c.utf8Size) 0

/-! ## Steps -/

/-- An instruction, with its count when it stands for several. -/
def counted (op : Instruction) (run : Nat) : String :=
  if 1 < run then s!"{op.text}x{run}" else op.text

def trace (e : StepEvent) : String :=
  s!"step {Text.rightDecimal 7 e.step}  ip {Text.rightDecimal 5 e.index}  " ++
    s!"{Text.leftText 6 (counted e.op e.run)} src {Text.rightDecimal 5 e.source.start}.." ++
    s!"{Text.leftDecimal 5 e.source.stop} ptr {Text.hex 4 e.pointer} = " ++
    Text.hex 2 e.cell.toNat

end Report

end TapeMachine
