import TapeMachine.Machine

/-!
# Structured programs

A program as a tree: instructions in sequence, and loops around a block. What a block does is said
without a program counter and without jumps: a loop means to do its body while the cell is not zero.
-/

namespace TapeMachine

/-- The instructions that are not brackets. -/
inductive Primitive where
  | right
  | left
  | increment
  | decrement
  | write
  | read
deriving DecidableEq, Repr

def Primitive.instruction : Primitive → Instruction
  | right => .right
  | left => .left
  | increment => .increment
  | decrement => .decrement
  | write => .write
  | read => .read

inductive Block where
  | done
  | first (op : Primitive) (rest : Block)
  | loop (body rest : Block)
deriving DecidableEq, Repr

/-- The instructions of a block in order, each loop between its brackets. -/
def Block.instructions : Block → List Instruction
  | done => []
  | first op rest => op.instruction :: rest.instructions
  | loop body rest => .loopOpen :: body.instructions ++ .loopClose :: rest.instructions

/-! ## What a block does -/

/-- What `,` reads from. -/
structure Feed where
  input : Array UInt8
  eof : EofPolicy

/-- What a block changes: the tape, how much input is used up, and what has been written. -/
structure Store where
  tape : Tape
  cursor : Nat
  output : List UInt8

def Store.fetch (s : Store) (feed : Feed) : Option UInt8 :=
  feed.input[s.cursor]?.or feed.eof.fill

def Primitive.apply (feed : Feed) (s : Store) : Primitive → Store
  | right => { s with tape := s.tape.moveRight }
  | left => { s with tape := s.tape.moveLeft }
  | increment => { s with tape := s.tape.add 1 }
  | decrement => { s with tape := s.tape.sub 1 }
  | write => { s with output := s.output ++ [s.tape.get] }
  | read =>
    { s with
      tape := (s.fetch feed).elim s.tape s.tape.set
      cursor := min (s.cursor + 1) feed.input.size }

/-- A block takes a store to another at a cost. An instruction costs one, and so does each look at
the cell of a loop, on entering it and after each time its body is done. -/
inductive Block.Runs (feed : Feed) : Block → Store → Nat → Store → Prop where
  | done (s : Store) : Runs feed .done s 0 s
  | first {op : Primitive} {rest : Block} {s t : Store} {n : Nat}
      (later : Runs feed rest (op.apply feed s) n t) :
      Runs feed (.first op rest) s (n + 1) t
  | leave {body rest : Block} {s t : Store} {n : Nat} (zero : s.tape.get = 0)
      (later : Runs feed rest s n t) :
      Runs feed (.loop body rest) s (n + 1) t
  | again {body rest : Block} {s t u : Store} {m n : Nat} (nonzero : s.tape.get ≠ 0)
      (once : Runs feed body s m t) (later : Runs feed (.loop body rest) t n u) :
      Runs feed (.loop body rest) s (m + n + 1) u

end TapeMachine
