import TapeMachine.Proofs.Dump
import TapeMachine.Viewer.Draw

/-!
# Rows of the memory pane

A row of the memory pane reads back as its address and the cells of the tape there, each with the
look it is drawn in.
-/

namespace TapeMachine

/-! ## Reading rows -/

/-- A value as it is drawn, all in one style. -/
structure DrawnCell where
  value : UInt8
  style : Style
deriving DecidableEq, Repr

structure DrawnRow where
  address : Nat
  cells : List DrawnCell
deriving DecidableEq, Repr

namespace CellFormat

/-- A blank, then the columns of a value, one at least and all in one style. -/
def readDrawnCell (format : CellFormat) : Row → Option DrawnCell
  | blank :: first :: rest =>
    if blank = ⟨[' '], {}⟩ ∧ ∀ column ∈ rest, column.style = first.style then
      (format.readValue ((first :: rest).flatMap Cell.symbol)).map (⟨·, first.style⟩)
    else none
  | _ => none

def readDrawnCells (format : CellFormat) (row : Row) : Option (List DrawnCell) :=
  readPieces format.width format.readDrawnCell row

/-- An address in hexadecimal, a blank and cells. -/
def readMemoryRow (format : CellFormat) (row : Row) : Option DrawnRow :=
  match row.dropWhile (·.symbol ≠ [' ']) with
  | [] => none
  | _ :: cells =>
    (Text.readDigits 16 0 ((row.takeWhile (·.symbol ≠ [' '])).flatMap Cell.symbol)).bind
      fun address => (format.readDrawnCells cells).map (⟨address, ·⟩)

/-- All the cells that some rows show. -/
def readMemory (format : CellFormat) (rows : List Row) : List DrawnCell :=
  (rows.filterMap format.readMemoryRow).flatMap DrawnRow.cells

end CellFormat

/-! ## One cell -/

theorem Row.flatMap_symbol_ofString (text : String) (style : Style) :
    (Row.ofString text style).flatMap Cell.symbol = text.toList := by
  simp [Row.ofString, Row.ofChars, List.flatMap_map]

theorem Row.style_of_mem_ofString {text : String} {style : Style} {column : Cell}
    (h : column ∈ Row.ofString text style) : column.style = style := by
  obtain ⟨c, -, rfl⟩ := List.mem_map.mp h
  rfl

namespace CellFormat

theorem readDrawnCell_ofString (format : CellFormat) (value : UInt8) (style : Style) :
    (⟨[' '], {}⟩ :: Row.ofString (format.cell value) style : Row).length = format.width + 1 ∧
      format.readDrawnCell (⟨[' '], {}⟩ :: Row.ofString (format.cell value) style) =
        some ⟨value, style⟩ := by
  obtain ⟨hlength, hread⟩ := format.toList_cell value
  have hsymbols := Row.flatMap_symbol_ofString (format.cell value) style
  have hstyle : ∀ column ∈ Row.ofString (format.cell value) style, column.style = style :=
    fun column => Row.style_of_mem_ofString
  have hcolumns : (Row.ofString (format.cell value) style).length = format.width := by
    simp [Row.ofString, Row.ofChars, hlength]
  refine ⟨congrArg (· + 1) hcolumns, ?_⟩
  generalize Row.ofString (format.cell value) style = columns at *
  cases columns with
  | nil =>
    -- No format writes a value in no column at all.
    cases format <;> cases hcolumns
  | cons first rest =>
    rw [List.forall_mem_cons] at hstyle
    obtain ⟨rfl, hrest⟩ := hstyle
    rw [readDrawnCell, if_pos ⟨rfl, hrest⟩, hsymbols, hread]
    rfl

theorem readMemoryRow_of_parts (format : CellFormat) {text : String} {style : Style} {cells : Row}
    {address : Nat} {drawn : List DrawnCell}
    (hdigits : Text.readDigits 16 0 text.toList = some address)
    (hcells : format.readDrawnCells cells = some drawn) :
    format.readMemoryRow (Row.ofString (text ++ " ") style ++ cells) = some ⟨address, drawn⟩ := by
  have hblank : ∀ column ∈ Row.ofString text style, decide (column.symbol ≠ [' ']) = true := by
    intro column hcolumn
    obtain ⟨c, hc, rfl⟩ := List.mem_map.mp hcolumn
    simpa using Text.ne_of_mem_digits hdigits hc (by decide)
  have hrow : Row.ofString (text ++ " ") style ++ cells =
      Row.ofString text style ++ ⟨[' '], style⟩ :: cells := by
    simp [Row.ofString, Row.ofChars]
  unfold readMemoryRow
  rw [hrow, List.dropWhile_append_of_pos hblank, List.takeWhile_append_of_pos hblank]
  simp [Row.flatMap_symbol_ofString, hdigits, hcells]

end CellFormat

/-! ## Rows -/

namespace Viewer

/-- The cells of the tape in their order, as the memory pane draws them. -/
def drawnCells (v : Viewer) : List DrawnCell :=
  v.session.tape.cells.toList.zipIdx.map fun cell =>
    ⟨cell.1, cellStyle v.session.tape.pointer cell⟩

/-- The cells of a row, as many as there are, under the address of the first. -/
def drawnRow (v : Viewer) (row : Nat) : DrawnRow :=
  ⟨Tape.rowWidth * row, (v.drawnCells.drop (Tape.rowWidth * row)).take Tape.rowWidth⟩

theorem readDrawnCells_rowCells (v : Viewer) (cells : List (UInt8 × Nat)) :
    v.format.readDrawnCells (cells.flatMap fun cell =>
        ⟨[' '], {}⟩ ::
          Row.ofString (v.format.cell cell.1) (cellStyle v.session.tape.pointer cell)) =
      some (cells.map fun cell => ⟨cell.1, cellStyle v.session.tape.pointer cell⟩) := by
  apply readPieces_flatMap
  · intro cell
    exact (v.format.readDrawnCell_ofString cell.1 _).1
  · intro cell
    exact (v.format.readDrawnCell_ofString cell.1 _).2

theorem readMemoryRow_memoryRow (v : Viewer) {row : Nat}
    (hrow : Tape.rowWidth * row < Text.wordSize) :
    v.format.readMemoryRow (v.memoryRow row) = some (v.drawnRow row) := by
  unfold memoryRow
  rw [Tape.rowStart_eq hrow, v.format.readMemoryRow_of_parts (Text.readDigits_hex 4 _)
    (v.readDrawnCells_rowCells _), Tape.rowCells_eq_slice _ hrow, List.map_take, List.map_drop]
  rfl

theorem cells_drawnRows (v : Viewer) (first n : Nat) :
    ((List.range' first n).map v.drawnRow).flatMap DrawnRow.cells =
      (v.drawnCells.drop (Tape.rowWidth * first)).take (Tape.rowWidth * n) := by
  rw [List.flatMap_map]
  exact flatMap_slices v.drawnCells Tape.rowWidth first n

end Viewer

end TapeMachine
