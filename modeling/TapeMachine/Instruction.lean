/-!
# Instructions

The eight instructions and the characters that stand for them. Every other character of a source
text is a comment.
-/

namespace TapeMachine

inductive Instruction where
  | right
  | left
  | increment
  | decrement
  | write
  | read
  | loopOpen
  | loopClose
deriving DecidableEq, Repr, Inhabited

namespace Instruction

def ofChar? : Char → Option Instruction
  | '>' => some right
  | '<' => some left
  | '+' => some increment
  | '-' => some decrement
  | '.' => some write
  | ',' => some read
  | '[' => some loopOpen
  | ']' => some loopClose
  | _ => none

def toChar : Instruction → Char
  | right => '>'
  | left => '<'
  | increment => '+'
  | decrement => '-'
  | write => '.'
  | read => ','
  | loopOpen => '['
  | loopClose => ']'

@[simp]
theorem ofChar?_toChar (i : Instruction) : ofChar? i.toChar = some i := by
  cases i <;> rfl

def text (i : Instruction) : String :=
  String.singleton i.toChar

end Instruction

/-! ## Instructions in a source text -/

/-- An instruction and the number of source characters before it. -/
structure Placed where
  op : Instruction
  offset : Nat
deriving DecidableEq, Repr, Inhabited

/-- The instructions of a text in order; comments are dropped and offsets count characters. -/
def placedInstructions (source : List Char) : List Placed :=
  source.zipIdx.filterMap fun (c, offset) => (Instruction.ofChar? c).map (⟨·, offset⟩)

end TapeMachine
