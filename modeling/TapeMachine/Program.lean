import TapeMachine.Brackets
import TapeMachine.Text.Number

/-!
# Programs

A program is a source text that has been checked: it has an instruction, and its brackets match.
-/

namespace TapeMachine

inductive LoadError where
  | empty
  | unmatched (side : BracketSide) (index offset : Nat)
deriving DecidableEq, Repr

namespace LoadError

def message : LoadError → String
  | empty => "no executable instructions"
  | unmatched side _ offset => s!"unmatched bracket {side.text} at source offset {offset}"

def offset? : LoadError → Option Nat
  | empty => none
  | unmatched _ _ offset => some offset

end LoadError

/-- Source characters from `start` up to, and without, `stop`. -/
structure Span where
  start : Nat
  stop : Nat
deriving DecidableEq, Repr, Inhabited

def Span.contains (s : Span) (offset : Nat) : Bool :=
  s.start ≤ offset && offset < s.stop

structure Program where
  code : Array Placed
  jumps : Jumps
  code_pos : 0 < code.size
  jumps_eq : Jumps.ofInstructions (code.toList.map Placed.op) = .ok jumps

namespace Program

def ofPlaced (code : Array Placed) : Except LoadError Program :=
  if pos : 0 < code.size then
    match matched : Jumps.ofInstructions (code.toList.map Placed.op) with
    | .ok jumps => .ok ⟨code, jumps, pos, matched⟩
    | .error e =>
      .error (.unmatched e.side e.index ((code[e.index]?.map Placed.offset).getD 0))
  else .error .empty

def load (source : String) : Except LoadError Program :=
  ofPlaced (placedInstructions source.toList).toArray

def size (p : Program) : Nat :=
  p.code.size

def op? (p : Program) (index : Nat) : Option Instruction :=
  p.code[index]?.map Placed.op

def offset? (p : Program) (index : Nat) : Option Nat :=
  p.code[index]?.map Placed.offset

def ops (p : Program) : List Instruction :=
  p.code.toList.map Placed.op

def partner? (p : Program) (index : Nat) : Option Nat :=
  p.jumps.partner? index

/-- How many instructions from `index` on equal `op` without a break. -/
def countFrom (code : Array Placed) (op : Instruction) (index : Nat) : Nat :=
  if h : index < code.size then
    if code[index].op = op then countFrom code op (index + 1) + 1 else 0
  else 0
termination_by code.size - index

/-- Length of the run of equal instructions that starts at `index`. -/
def runLength (p : Program) (index : Nat) : Nat :=
  match p.op? index with
  | none => 0
  | some op => countFrom p.code op index

/-- The index of the last of `len` instructions from `start` on, in 64-bit arithmetic. A length of
0 counts as 1. -/
def lastIndex (start len : Nat) : Nat :=
  (start + max len 1 + (Text.wordSize - 1)) % Text.wordSize

/-- The source characters of `len` instructions from `start` on, with the comments between them. -/
def span (p : Program) (start len : Nat) : Span :=
  match p.offset? start with
  | none => ⟨0, 0⟩
  | some first =>
    let last := min (lastIndex start len) (p.size - 1)
    have := p.code_pos
    have : last < p.code.size := by unfold last size; omega
    ⟨first, p.code[last].offset + 1⟩

end Program

end TapeMachine
