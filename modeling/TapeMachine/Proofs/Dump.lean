import TapeMachine.Proofs.Numerals
import TapeMachine.Tape.Grid

/-!
# The dump of a tape

The rows of a dump can be read again. They show all cells up to the furthest one that is not zero or
under the pointer, and some zeros behind it, so that a dump and the number of cells tell the tape.
-/

namespace TapeMachine

/-! ## Pieces of a list -/

section Pieces

variable {α β : Type} {more : Nat} {read : List α → Option β}

/-- Pieces of `more + 1` entries one after the other. -/
def readPieces (more : Nat) (read : List α → Option β) : List α → Option (List β)
  | [] => some []
  | first :: rest =>
    (read (first :: rest.take more)).bind fun piece =>
      (readPieces more read (rest.drop more)).map (piece :: ·)
termination_by entries => entries.length
decreasing_by
  rw [List.length_drop, List.length_cons]
  omega

theorem readPieces_append {front rest : List α} {piece : β} (hlength : front.length = more + 1)
    (hread : read front = some piece) :
    readPieces more read (front ++ rest) = (readPieces more read rest).map (piece :: ·) := by
  cases front with
  | nil => cases hlength
  | cons first front =>
    have hmore : front.length = more := Nat.succ.inj hlength
    rw [List.cons_append, readPieces, List.take_left' hmore, List.drop_left' hmore, hread]
    rfl

theorem readPieces_flatMap {γ : Type} {write : γ → List α} {shown : γ → β}
    (hlength : ∀ item, (write item).length = more + 1)
    (hread : ∀ item, read (write item) = some (shown item)) (items : List γ) :
    readPieces more read (items.flatMap write) = some (items.map shown) := by
  induction items with
  | nil => simp [readPieces]
  | cons item rest ih =>
    rw [List.flatMap_cons, readPieces_append (hlength item) (hread item), ih]
    rfl

theorem filterMap_of_map_eq {readOne : α → Option β} {entries : List α} {shown : List β}
    (h : entries.map readOne = shown.map some) : entries.filterMap readOne = shown := by
  have hfilter := congrArg (List.filterMap id) h
  simpa [List.filterMap_map] using hfilter

theorem flatMap_slices (entries : List α) (width first n : Nat) :
    (List.range' first n).flatMap (fun i => (entries.drop (width * i)).take width) =
      (entries.drop (width * first)).take (width * n) := by
  induction n with
  | zero => simp
  | succ n ih =>
    rw [List.range'_concat, List.flatMap_append, ih, List.flatMap_singleton, Nat.one_mul,
      Nat.mul_succ, List.take_add, List.drop_drop, Nat.mul_add]

end Pieces

/-! ## Reading rows -/

structure ShownCell where
  value : UInt8
  bracketed : Bool
deriving DecidableEq, Repr

structure ShownRow where
  address : Nat
  cells : List ShownCell
deriving DecidableEq, Repr

namespace CellFormat

/-- Columns of a value. -/
def width : CellFormat → Nat
  | hex => 2
  | dec => 3

def readValue : CellFormat → List Char → Option UInt8
  | hex, cs => Text.readHexByte cs
  | dec, cs => (Text.readUnsigned 10 256 (cs.dropWhile (· = ' '))).map UInt8.ofNat

/-- A value in brackets or between blanks. -/
def readCell (format : CellFormat) (cs : List Char) : Option ShownCell :=
  match cs.head?, cs.getLast? with
  | some '[', some ']' => (format.readValue cs.tail.dropLast).map (⟨·, true⟩)
  | some ' ', some ' ' => (format.readValue cs.tail.dropLast).map (⟨·, false⟩)
  | _, _ => none

/-- Cells one after the other, all of the same width. -/
def readCells (format : CellFormat) (cs : List Char) : Option (List ShownCell) :=
  readPieces (format.width + 1) format.readCell cs

/-- An address in hexadecimal, a colon and cells. -/
def readRow (format : CellFormat) (line : String) : Option ShownRow :=
  match line.toList.dropWhile (· ≠ ':') with
  | [] => none
  | _ :: cells =>
    (Text.readDigits 16 0 (line.toList.takeWhile (· ≠ ':'))).bind fun address =>
      (format.readCells cells).map (⟨address, ·⟩)

/-- All the cells that some lines show. -/
def readLines (format : CellFormat) (lines : List String) : List ShownCell :=
  (lines.filterMap format.readRow).flatMap ShownRow.cells

/-! ## One cell -/

theorem toList_cell (format : CellFormat) (value : UInt8) :
    (format.cell value).toList.length = format.width ∧
      format.readValue (format.cell value).toList = some value := by
  have hlt := value.toNat_lt
  cases format with
  | hex =>
    simp only [cell, Text.hex, String.toList_ofList, Text.padLeft_hexDigits hlt, readValue]
    refine ⟨rfl, ?_⟩
    have hhigh := Text.digitIn_digitChar_toUpper (d := value.toNat / 16) (by omega)
    have hlow := Text.digitIn_digitChar_toUpper (d := value.toNat % 16) (by omega)
    rw [Text.readHexByte_pair hhigh hlow, Nat.div_add_mod', UInt8.ofNat_toNat]
  | dec =>
    have hdigits := Text.readDigits_decimalDigits value.toNat
    have hblank : ' ' ∉ Text.decimalDigits value.toNat := fun hmem =>
      Text.ne_of_mem_digits hdigits hmem (by decide) rfl
    simp only [cell, Text.rightDecimal, String.toList_ofList, readValue, width,
      Text.dropWhile_padLeft hblank, Text.length_padLeft]
    rw [Text.readUnsigned_of_digits (Text.decimalDigits_ne_nil _) hdigits hlt]
    have hlength := Text.length_decimalDigits_le hlt
    exact ⟨by omega, by simp⟩

theorem readCell_marked (format : CellFormat) (value : UInt8) {first last : Char} {marked : Bool}
    (h : first = '[' ∧ last = ']' ∧ marked = true ∨ first = ' ' ∧ last = ' ' ∧ marked = false) :
    format.readCell (first :: ((format.cell value).toList ++ [last])) = some ⟨value, marked⟩ := by
  have hread := (format.toList_cell value).2
  have hlast : (first :: ((format.cell value).toList ++ [last])).getLast? = some last := by
    rw [← List.cons_append]
    exact List.getLast?_concat
  unfold readCell
  rcases h with ⟨rfl, rfl, rfl⟩ | ⟨rfl, rfl, rfl⟩
  · simp [hlast, hread]
  · simp [hlast, hread]

theorem readRow_of_parts (format : CellFormat) {line : String} {digits cells : List Char}
    {address : Nat} {shown : List ShownCell} (hline : line.toList = digits ++ ':' :: cells)
    (hdigits : Text.readDigits 16 0 digits = some address)
    (hcells : format.readCells cells = some shown) :
    format.readRow line = some ⟨address, shown⟩ := by
  have hcolon : ∀ c ∈ digits, decide (c ≠ ':') = true := fun c hc =>
    decide_eq_true (Text.ne_of_mem_digits hdigits hc (by decide))
  unfold readRow
  rw [hline, List.dropWhile_append_of_pos hcolon, List.takeWhile_append_of_pos hcolon]
  simp [hdigits, hcells]

end CellFormat

/-! ## Rows -/

namespace Tape

/-- The cells of a tape in their order, that at the pointer in brackets. -/
def shownCells (t : Tape) : List ShownCell :=
  t.cells.toList.zipIdx.map fun (value, index) => ⟨value, index = t.pointer⟩

/-- The cells of a row, as many as there are, under the address of the first. -/
def shownRow (t : Tape) (row : Nat) : ShownRow :=
  ⟨rowWidth * row, (t.shownCells.drop (rowWidth * row)).take rowWidth⟩

theorem readCell_gridCell (t : Tape) (format : CellFormat) (value : UInt8) (index : Nat) :
    (t.gridCell format (value, index)).toList.length = format.width + 2 ∧
      format.readCell (t.gridCell format (value, index)).toList =
        some ⟨value, index = t.pointer⟩ := by
  have hlength := (format.toList_cell value).1
  unfold gridCell
  by_cases hpointer : index = t.pointer
  · have hread := format.readCell_marked value (Or.inl ⟨rfl, rfl, rfl⟩)
    simpa [hpointer, hlength, ToString.toString] using hread
  · have hread := format.readCell_marked value (Or.inr ⟨rfl, rfl, rfl⟩)
    simpa [hpointer, hlength, ToString.toString] using hread

theorem readCells_gridCells (t : Tape) (format : CellFormat) (cells : List (UInt8 × Nat)) :
    format.readCells (cells.flatMap fun cell => (t.gridCell format cell).toList) =
      some (cells.map fun (value, index) => ⟨value, index = t.pointer⟩) := by
  apply readPieces_flatMap
  · rintro ⟨value, index⟩
    exact (t.readCell_gridCell format value index).1
  · rintro ⟨value, index⟩
    exact (t.readCell_gridCell format value index).2

theorem rowStart_eq {row : Nat} (hrow : rowWidth * row < Text.wordSize) :
    rowStart row = rowWidth * row := by
  unfold rowStart
  rw [Nat.mul_comm, Nat.mod_eq_of_lt hrow]

theorem rowCells_eq_slice (t : Tape) {row : Nat} (hrow : rowWidth * row < Text.wordSize) :
    t.rowCells row = (t.cells.toList.zipIdx.drop (rowWidth * row)).take rowWidth := by
  unfold rowCells window
  rw [rowStart_eq hrow, Array.toList_extract, List.extract_eq_take_drop]
  apply List.ext_getElem?
  intro j
  simp only [List.getElem?_zipIdx, List.getElem?_take, List.getElem?_drop,
    Nat.add_sub_cancel_left, Nat.zero_add]
  split <;> rfl

theorem rowCells_eq (t : Tape) {row : Nat} (hrow : rowWidth * row < Text.wordSize) :
    (t.rowCells row).map (fun (value, index) => ⟨value, index = t.pointer⟩) =
      (t.shownRow row).cells := by
  rw [rowCells_eq_slice t hrow, List.map_take, List.map_drop]
  rfl

theorem readRow_gridRow (t : Tape) (format : CellFormat) {row : Nat}
    (hrow : rowWidth * row < Text.wordSize) :
    format.readRow (t.gridRow row format) = some (t.shownRow row) := by
  have hline : (t.gridRow row format).toList =
      (Text.hex 4 (rowWidth * row)).toList ++
        ':' :: (t.rowCells row).flatMap fun cell => (t.gridCell format cell).toList := by
    unfold gridRow
    rw [rowStart_eq hrow]
    simp [String.toList_join, List.flatMap_map]
  rw [format.readRow_of_parts hline (Text.readDigits_hex 4 _) (t.readCells_gridCells format _),
    rowCells_eq t hrow]
  rfl

theorem cells_shownRows (t : Tape) (n : Nat) :
    ((List.range n).map t.shownRow).flatMap ShownRow.cells = t.shownCells.take (rowWidth * n) := by
  rw [List.flatMap_map, List.range_eq_range']
  exact flatMap_slices t.shownCells rowWidth 0 n

/-! ## The furthest cell -/

/-- A cell that the pointer is at or that is not zero. -/
def Touched (t : Tape) (i : Nat) : Prop :=
  i = t.pointer ∨ ∃ value, t.cells[i]? = some value ∧ value ≠ 0

theorem le_lastNonzeroBelow {cells : Array UInt8} {bound i : Nat} (hi : i < bound)
    (hne : cells.getD i 0 ≠ 0) : i ≤ lastNonzeroBelow cells bound := by
  induction bound with
  | zero => omega
  | succ bound ih =>
    rw [lastNonzeroBelow]
    split
    · omega
    · rename_i hzero
      apply ih
      rcases Nat.lt_or_eq_of_le (Nat.le_of_lt_succ hi) with hlt | rfl
      · exact hlt
      · exact absurd hne hzero

theorem getD_lastNonzeroBelow {cells : Array UInt8} {bound : Nat}
    (h : lastNonzeroBelow cells bound ≠ 0) : cells.getD (lastNonzeroBelow cells bound) 0 ≠ 0 := by
  induction bound with
  | zero => exact absurd rfl h
  | succ bound ih =>
    rw [lastNonzeroBelow] at h ⊢
    split at h
    · rename_i hne
      rwa [if_pos hne]
    · rename_i hzero
      rw [if_neg hzero]
      exact ih h

section Furthest

variable {t : Tape} {i : Nat}

theorem touched_iff : t.Touched i ↔ i = t.pointer ∨ t.cells.getD i 0 ≠ 0 := by
  unfold Touched
  rw [Array.getD_eq_getD_getElem?]
  cases t.cells[i]? <;> simp

theorem touched_highWaterMark (t : Tape) : t.Touched t.highWaterMark := by
  rw [touched_iff]
  unfold highWaterMark
  rcases Nat.le_total (lastNonzeroBelow t.cells t.cells.size) t.pointer with hle | hle
  · exact Or.inl (Nat.max_eq_right hle)
  · rw [Nat.max_eq_left hle]
    by_cases hzero : lastNonzeroBelow t.cells t.cells.size = 0
    · exact Or.inl (by omega)
    · exact Or.inr (getD_lastNonzeroBelow hzero)

theorem Touched.lt_capacity (h : t.Touched i) : i < t.capacity := by
  rcases h with rfl | ⟨value, hvalue, -⟩
  · exact t.pointer_lt
  · exact (Array.getElem?_eq_some_iff.mp hvalue).1

theorem Touched.le_highWaterMark (h : t.Touched i) : i ≤ t.highWaterMark := by
  have hlt := h.lt_capacity
  unfold highWaterMark
  rcases touched_iff.mp h with rfl | hne
  · exact Nat.le_max_right ..
  · exact Nat.le_trans (le_lastNonzeroBelow hlt hne) (Nat.le_max_left ..)

theorem Touched.lt_rows (h : t.Touched i) :
    i < rowWidth * (t.highWaterMark / rowWidth + 1) := by
  have hle := h.le_highWaterMark
  have hmod := Nat.div_add_mod t.highWaterMark rowWidth
  have hlt := Nat.mod_lt t.highWaterMark (by decide : 0 < rowWidth)
  rw [Nat.mul_succ]
  omega

theorem getElem?_of_not_touched (h : ¬t.Touched i) (hi : i < t.capacity) :
    t.cells[i]? = some 0 := by
  obtain ⟨value, hvalue⟩ : ∃ value, t.cells[i]? = some value := ⟨_, Array.getElem?_eq_getElem hi⟩
  by_cases hzero : value = 0
  · rw [hvalue, hzero]
  · exact absurd (Or.inr ⟨value, hvalue, hzero⟩) h

end Furthest

/-! ## Whole dumps -/

theorem getElem?_shownCells (t : Tape) (i : Nat) :
    t.shownCells[i]? = t.cells[i]?.map (⟨·, i = t.pointer⟩) := by
  simp [shownCells, Function.comp_def]

section Dump

variable {t : Tape} (format : CellFormat) (hfits : t.capacity ≤ Text.wordSize)

include hfits

theorem map_readRow_touchedRows :
    (t.touchedRows format).map format.readRow =
      (List.range (t.highWaterMark / rowWidth + 1)).map fun row => some (t.shownRow row) := by
  unfold touchedRows
  rw [List.map_map, List.map_inj_left]
  intro row hrow
  rw [List.mem_range] at hrow
  have hle : rowWidth * row ≤ t.highWaterMark :=
    Nat.le_trans (Nat.mul_le_mul_left _ (Nat.le_of_lt_succ hrow)) (Nat.mul_div_le ..)
  rw [Function.comp_apply]
  apply t.readRow_gridRow
  exact Nat.lt_of_lt_of_le (Nat.lt_of_le_of_lt hle t.touched_highWaterMark.lt_capacity) hfits

theorem readLines_touchedRows :
    format.readLines (t.touchedRows format) =
      t.shownCells.take (rowWidth * (t.highWaterMark / rowWidth + 1)) := by
  have hread : (t.touchedRows format).filterMap format.readRow =
      (List.range (t.highWaterMark / rowWidth + 1)).map t.shownRow := by
    apply filterMap_of_map_eq
    rw [map_readRow_touchedRows format hfits, List.map_map]
    rfl
  unfold CellFormat.readLines
  rw [hread, cells_shownRows]

theorem getElem?_printed {i : Nat} (hi : i < rowWidth * (t.highWaterMark / rowWidth + 1)) :
    (format.readLines (t.touchedRows format))[i]? =
      t.cells[i]?.map (⟨·, i = t.pointer⟩) := by
  rw [readLines_touchedRows format hfits, List.getElem?_take, if_pos hi, getElem?_shownCells]

theorem bracketed_iff (i : Nat) :
    (∃ value, (format.readLines (t.touchedRows format))[i]? = some ⟨value, true⟩) ↔
      i = t.pointer := by
  constructor
  · rintro ⟨value, hvalue⟩
    rw [readLines_touchedRows format hfits, List.getElem?_take] at hvalue
    split at hvalue
    · rw [getElem?_shownCells] at hvalue
      obtain ⟨_, -, hcell⟩ := Option.map_eq_some_iff.mp hvalue
      simpa using congrArg ShownCell.bracketed hcell
    · cases hvalue
  · rintro rfl
    have hpointer : t.Touched t.pointer := Or.inl rfl
    refine ⟨t.get, ?_⟩
    rw [getElem?_printed format hfits hpointer.lt_rows, Array.getElem?_eq_getElem t.pointer_lt]
    simp [get]

theorem eq_of_touchedRows {t' : Tape} (hcapacity : t'.capacity = t.capacity)
    (h : t'.touchedRows format = t.touchedRows format) : t' = t := by
  have hfits' : t'.capacity ≤ Text.wordSize := hcapacity ▸ hfits
  have hrows : t'.highWaterMark / rowWidth = t.highWaterMark / rowWidth := by
    simpa [touchedRows] using congrArg List.length h
  have hpointer : t'.pointer = t.pointer := by
    rw [← bracketed_iff format hfits, ← h, bracketed_iff format hfits']
  have hcells : t'.cells = t.cells := by
    apply Array.ext_getElem?
    intro i
    rcases Nat.lt_or_ge i (rowWidth * (t.highWaterMark / rowWidth + 1)) with hin | hout
    · have hcell := getElem?_printed format hfits' (hrows ▸ hin)
      rw [h, getElem?_printed format hfits hin] at hcell
      have hvalue := congrArg (Option.map ShownCell.value) hcell
      rw [Option.map_map, Option.map_map] at hvalue
      simpa [Function.comp_def] using hvalue.symm
    · -- Behind the last row both tapes hold zeros, as far as they go.
      have huntouched : ¬t.Touched i := fun hi => Nat.not_lt.mpr hout hi.lt_rows
      have huntouched' : ¬t'.Touched i := fun hi => Nat.not_lt.mpr (hrows ▸ hout) hi.lt_rows
      rcases Nat.lt_or_ge i t.capacity with hlt | hge
      · rw [getElem?_of_not_touched huntouched hlt,
          getElem?_of_not_touched huntouched' (hcapacity ▸ hlt)]
      · have hge' : t'.capacity ≤ i := hcapacity ▸ hge
        rw [Array.getElem?_eq_none hge, Array.getElem?_eq_none hge']
  cases t
  cases t'
  simp_all

end Dump

end Tape

/-- A dump is faithful. It goes up to the row of the furthest cell that is not zero or at the
pointer, and reads back row by row as the cells of the tape. So all cells of these rows are there,
once each and in their order, those that are not zero among them, and the one in brackets is that at
the pointer. No other tape of as many cells has the same dump. Addresses are 64-bit numbers, and so
there are no more cells than these can tell apart. -/
theorem dump_faithful (t : Tape) (format : CellFormat) (hfits : t.capacity ≤ Text.wordSize) :
    let last := t.highWaterMark
    let printed := format.readLines (t.touchedRows format)
    (t.Touched last ∧ ∀ i, t.Touched i → i ≤ last) ∧
    (t.touchedRows format).map format.readRow =
      (List.range (last / Tape.rowWidth + 1)).map (fun row => some (t.shownRow row)) ∧
    printed = t.shownCells.take (Tape.rowWidth * (last / Tape.rowWidth + 1)) ∧
    (∀ i, (∃ value, printed[i]? = some ⟨value, true⟩) ↔ i = t.pointer) ∧
    (∀ (i : Nat) (value : UInt8), t.cells[i]? = some value → value ≠ 0 →
      printed[i]? = some ⟨value, i = t.pointer⟩) ∧
    (∀ t' : Tape, t'.capacity = t.capacity → t'.touchedRows format = t.touchedRows format →
      t' = t) := by
  intro last printed
  refine ⟨⟨t.touched_highWaterMark, fun i hi => hi.le_highWaterMark⟩,
    Tape.map_readRow_touchedRows format hfits, Tape.readLines_touchedRows format hfits,
    Tape.bracketed_iff format hfits, ?_, fun t' => Tape.eq_of_touchedRows format hfits⟩
  intro i value hvalue hne
  have htouched : t.Touched i := Or.inr ⟨value, hvalue, hne⟩
  rw [Tape.getElem?_printed format hfits htouched.lt_rows, hvalue]
  rfl

theorem dump_faithful_short_row :
    let t : Tape := ⟨(Array.replicate 18 0).set 17 7, 1, by decide⟩
    (t.touchedRows .dec).map CellFormat.dec.readRow =
      [some (t.shownRow 0), some ⟨16, [⟨0, false⟩, ⟨7, false⟩]⟩] ∧
    ∀ t' : Tape, t'.capacity = 18 → t'.touchedRows .dec = t.touchedRows .dec → t' = t := by
  intro t
  have hfits : t.capacity ≤ Text.wordSize := by decide
  obtain ⟨-, hrows, -, -, -, honly⟩ := dump_faithful t .dec hfits
  refine ⟨hrows.trans ?_, honly⟩
  decide +kernel

end TapeMachine
