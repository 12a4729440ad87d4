import TapeMachine.Program
import TapeMachine.Screen

/-!
# The source with its colours

Each character of a source in the colour of its instruction, except those of the step that was
executed last.
-/

namespace TapeMachine.Highlight

/-- The look of what is being executed, and of the cell at the pointer. -/
def active : Style where
  fg := .black
  bg := Palette.yellow.onScreen
  bold := true

def style (span : Option Span) (offset : Nat) (c : Char) : Style :=
  if span.any (·.contains offset) then active else { fg := (Palette.ofChar c).onScreen }

/-- The lines from character `offset` on, the first of which already holds the cells of `line`,
backwards. -/
def linesFrom (span : Option Span) (offset : Nat) (line : Row) : List Char → List Row
  | [] => if line.isEmpty then [] else [line.reverse]
  | '\n' :: rest => line.reverse :: linesFrom span (offset + 1) [] rest
  | c :: rest => linesFrom span (offset + 1) (⟨[c], style span offset c⟩ :: line) rest

/-- The lines of a source; one without a character has one line. -/
def lines (source : List Char) (span : Option Span) : List Row :=
  match linesFrom span 0 [] source with
  | [] => [[]]
  | ls => ls

/-- The line that a character is on. -/
def lineOf (source : List Char) (offset : Nat) : Nat :=
  (source.take offset).count '\n'

/-- Lines skipped so that the line of the span's start is in the middle of `height` lines, as a
16-bit number. -/
def scroll (source : List Char) (span : Option Span) (height : Nat) : Nat :=
  let focus := span.elim 0 fun s => lineOf source s.start
  (focus - height / 2) % 0x10000

/-- The lines to show in `height` rows, none if the number of the last row does not fit 16 bits. -/
def linesToShow (source : List Char) (span : Option Span) (height : Nat) : List Row :=
  let first := scroll source span height
  if first + height < 0x10000 then (lines source span).drop first else []

end TapeMachine.Highlight
