import TapeMachine.Instruction

/-!
# Matching brackets

One pass from left to right pairs each `[` with its `]`. The pass fails at a `]` with nothing open,
and, at the end, at the last `[` that is still open.
-/

namespace TapeMachine

inductive BracketSide where
  | opening
  | closing
deriving DecidableEq, Repr

def BracketSide.text : BracketSide → String
  | opening => "'['"
  | closing => "']'"

/-- A bracket without a partner, by its index among the instructions. -/
structure BracketError where
  side : BracketSide
  index : Nat
deriving DecidableEq, Repr

def BracketError.message (e : BracketError) : String :=
  s!"Unmatched bracket {e.side.text} at instruction {e.index}"

/-- For each instruction, the index of the bracket it is paired with. -/
structure Jumps where
  partners : Array (Option Nat)
deriving DecidableEq, Repr

namespace Jumps

def partner? (j : Jumps) (index : Nat) : Option Nat :=
  j.partners[index]?.join

/-- The pass part of the way: the partners found so far, and the brackets still open, last one
first. -/
structure Pass where
  partners : Array (Option Nat) := #[]
  opened : List Nat := []

def Pass.advance (p : Pass) (op : Instruction) : Except BracketError Pass :=
  let here := p.partners.size
  match op, p.opened with
  | .loopOpen, opened => .ok ⟨p.partners.push none, here :: opened⟩
  | .loopClose, [] => .error ⟨.closing, here⟩
  | .loopClose, partner :: opened =>
    .ok ⟨(p.partners.setIfInBounds partner (some here)).push (some partner), opened⟩
  | _, opened => .ok ⟨p.partners.push none, opened⟩

def Pass.run (p : Pass) : List Instruction → Except BracketError Pass
  | [] => .ok p
  | op :: rest =>
    match p.advance op with
    | .ok next => next.run rest
    | .error e => .error e

def ofInstructions (ops : List Instruction) : Except BracketError Jumps :=
  match Pass.run {} ops with
  | .error e => .error e
  | .ok ⟨partners, []⟩ => .ok ⟨partners⟩
  | .ok ⟨_, last :: _⟩ => .error ⟨.opening, last⟩

end Jumps

end TapeMachine
