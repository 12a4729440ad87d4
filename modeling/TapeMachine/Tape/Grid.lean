import TapeMachine.Tape
import TapeMachine.Text.Number

/-!
# The tape as a grid

Sixteen cells a row, each row under the address of its first cell.
-/

namespace TapeMachine

inductive CellFormat where
  | hex
  | dec
deriving DecidableEq, Repr, Inhabited

namespace CellFormat

def toggle : CellFormat → CellFormat
  | hex => dec
  | dec => hex

def label : CellFormat → String
  | hex => "hex"
  | dec => "dec"

/-- A cell in two hexadecimal digits, or in three columns of decimal. -/
def cell : CellFormat → UInt8 → String
  | hex, value => Text.hex 2 value.toNat
  | dec, value => Text.rightDecimal 3 value.toNat

/-- A cell without padding on the left. -/
def bareCell : CellFormat → UInt8 → String
  | hex, value => Text.hex 2 value.toNat
  | dec, value => Text.decimal value.toNat

end CellFormat

namespace Tape

def rowWidth : Nat := 16

def rowCount (t : Tape) : Nat :=
  (t.capacity + (rowWidth - 1)) / rowWidth

def pointerRow (t : Tape) : Nat :=
  t.pointer / rowWidth

/-- The index of a row's first cell, as a machine word. -/
def rowStart (row : Nat) : Nat :=
  row * rowWidth % Text.wordSize

/-- The cells of a row with their indices. -/
def rowCells (t : Tape) (row : Nat) : List (UInt8 × Nat) :=
  (t.window (rowStart row) rowWidth).zipIdx (rowStart row)

/-- The cell at the pointer stands in brackets, any other between blanks. -/
def gridCell (t : Tape) (format : CellFormat) : UInt8 × Nat → String
  | (value, index) =>
    if index = t.pointer then s!"[{format.cell value}]" else s!" {format.cell value} "

def gridRow (t : Tape) (row : Nat) (format : CellFormat) : String :=
  Text.hex 4 (rowStart row) ++ ":" ++ String.join ((t.rowCells row).map (t.gridCell format))

/-- The rows up to the one with the furthest cell that was touched. -/
def touchedRows (t : Tape) (format : CellFormat) : List String :=
  (List.range (t.highWaterMark / rowWidth + 1)).map (t.gridRow · format)

end Tape

end TapeMachine
