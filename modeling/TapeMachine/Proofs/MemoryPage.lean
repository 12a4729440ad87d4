import Mathlib.Data.List.Basic
import TapeMachine.Proofs.MemoryRows
import TapeMachine.Proofs.Scheduling

/-!
# The memory on the screen

The memory pane shows as many rows as it has room for, or all there are. Unless the user has
scrolled it shows the row of the pointer, and the one cell that looks different there is that at the
pointer.
-/

namespace TapeMachine

/-! ## Cells of some rows -/

namespace Tape

variable (t : Tape)

theorem pointerRow_lt : t.pointerRow < t.rowCount := by
  have hlt := t.pointer_lt_capacity
  unfold pointerRow rowCount rowWidth
  omega

theorem rowStart_lt {row : Nat} (hrow : row < t.rowCount) : rowWidth * row < t.capacity := by
  unfold rowCount rowWidth at *
  omega

theorem flatMap_rowCells (hfits : t.capacity ≤ Text.wordSize) (first : Nat) {n : Nat}
    (hrows : first + n ≤ t.rowCount) :
    (List.range' first n).flatMap t.rowCells =
      (t.cells.toList.zipIdx.drop (rowWidth * first)).take (rowWidth * n) := by
  rw [← flatMap_slices]
  apply List.flatMap_congr
  intro row hrow
  rw [List.mem_range'_1] at hrow
  have hstart := t.rowStart_lt (show row < t.rowCount by omega)
  exact t.rowCells_eq_slice (Nat.lt_of_lt_of_le hstart hfits)

theorem filter_index {cells : List (UInt8 × Nat)} {first i : Nat} {cell : UInt8 × Nat}
    (hindex : ∀ j c, cells[j]? = some c → c.2 = first + j) (hcell : cells[i]? = some cell) :
    cells.filter (·.2 = first + i) = [cell] := by
  obtain ⟨hlt, rfl⟩ := List.getElem?_eq_some_iff.mp hcell
  rw [List.filter_eq_cons_iff]
  -- The entries before have smaller indices, and those behind it have greater ones.
  refine ⟨cells.take i, cells.drop (i + 1), ?_, ?_, ?_, ?_⟩
  · rw [List.getElem_cons_drop, List.take_append_drop]
  · intro c hc
    obtain ⟨j, hj⟩ := List.mem_iff_getElem?.mp hc
    rw [List.getElem?_take] at hj
    split at hj
    · have := hindex j c hj
      simp only [decide_eq_true_eq]
      omega
    · cases hj
  · exact decide_eq_true (hindex i _ hcell)
  · rw [List.filter_eq_nil_iff]
    intro c hc
    obtain ⟨j, hj⟩ := List.mem_iff_getElem?.mp hc
    rw [List.getElem?_drop] at hj
    have := hindex _ c hj
    simp only [decide_eq_true_eq]
    omega

theorem filter_pointer {first n : Nat} (hfirst : first ≤ t.pointerRow)
    (hlast : t.pointerRow < first + n) :
    ((t.cells.toList.zipIdx.drop (rowWidth * first)).take (rowWidth * n)).filter
      (·.2 = t.pointer) = [(t.get, t.pointer)] := by
  have hle : rowWidth * first ≤ t.pointer := by
    unfold pointerRow rowWidth at *
    omega
  have hlt : t.pointer < rowWidth * first + rowWidth * n := by
    unfold pointerRow rowWidth at *
    omega
  have hindex : ∀ j c, ((t.cells.toList.zipIdx.drop (rowWidth * first)).take (rowWidth * n))[j]? =
      some c → c.2 = rowWidth * first + j := by
    intro j c hc
    rw [List.getElem?_take] at hc
    split at hc
    · rw [List.getElem?_drop, List.getElem?_zipIdx] at hc
      obtain ⟨value, -, rfl⟩ := Option.map_eq_some_iff.mp hc
      simp
    · cases hc
  have hcell : ((t.cells.toList.zipIdx.drop (rowWidth * first)).take
      (rowWidth * n))[t.pointer - rowWidth * first]? = some (t.get, t.pointer) := by
    rw [List.getElem?_take_of_lt (by omega), List.getElem?_drop, Nat.add_sub_of_le hle,
      List.getElem?_zipIdx]
    simp [Array.getElem?_eq_getElem t.pointer_lt, get]
  have hone := filter_index hindex hcell
  rwa [Nat.add_sub_of_le hle] at hone

end Tape

namespace Viewer

/-! ## The rows that are shown -/

section Rows

variable (v : Viewer) {visible : Nat}

theorem firstRow_add_le (visible : Nat) :
    v.firstRow visible + min visible v.session.tape.rowCount ≤ v.session.tape.rowCount := by
  unfold firstRow
  simp only
  omega

theorem shownRows_eq (visible : Nat) :
    v.shownRows visible =
      List.range' (v.firstRow visible) (min visible v.session.tape.rowCount) := by
  have hle := v.firstRow_add_le visible
  unfold shownRows
  simp only
  congr 1
  omega

variable {v}

theorem pointerRow_shown (hvisible : 1 ≤ visible) (hfollows : v.scroll = none) :
    v.session.tape.pointerRow ∈ v.shownRows visible := by
  have hlt := v.session.tape.pointerRow_lt
  rw [shownRows_eq, List.mem_range'_1, firstRow, hfollows]
  simp only [Option.getD_none]
  omega

theorem firstRow_scrolled (hvisible : 1 ≤ visible) {row : Nat} (hscroll : v.scroll = some row) :
    v.firstRow visible = min row (v.session.tape.rowCount - visible) := by
  rw [firstRow, hscroll, Nat.max_eq_left hvisible]
  rfl

theorem scrolled_shown (hvisible : 1 ≤ visible) {row : Nat} (hscroll : v.scroll = some row)
    (hrow : row < v.session.tape.rowCount) : row ∈ v.shownRows visible := by
  rw [shownRows_eq, List.mem_range'_1, firstRow_scrolled hvisible hscroll]
  omega

end Rows

/-! ## The look of the cells -/

theorem cellStyle_eq_active_iff {pointer : Nat} {cell : UInt8 × Nat} :
    cellStyle pointer cell = Highlight.active ↔ cell.2 = pointer := by
  unfold cellStyle
  simp only
  split
  · simpa using by assumption
  · rename_i helsewhere
    split <;> simp [Highlight.active, helsewhere]

theorem cellStyle_pointer (pointer : Nat) (value : UInt8) :
    cellStyle pointer (value, pointer) = Highlight.active :=
  if_pos rfl

theorem filter_ofString (text : String) (style : Style) :
    (Row.ofString text style).filter (·.style = Highlight.active) =
      if style = Highlight.active then Row.ofString text style else [] := by
  unfold Row.ofString Row.ofChars
  split
  · rename_i hactive
    rw [List.filter_eq_self]
    intro cell hcell
    obtain ⟨c, -, rfl⟩ := List.mem_map.mp hcell
    exact decide_eq_true hactive
  · rename_i hplain
    rw [List.filter_eq_nil_iff]
    intro cell hcell
    obtain ⟨c, -, rfl⟩ := List.mem_map.mp hcell
    simpa using hplain

theorem filter_cellTexts (format : CellFormat) (pointer : Nat) (cells : List (UInt8 × Nat)) :
    (cells.flatMap fun cell =>
        ⟨[' '], {}⟩ :: Row.ofString (format.cell cell.1) (cellStyle pointer cell)).filter
          (·.style = Highlight.active) =
      (cells.filter (·.2 = pointer)).flatMap
        fun cell => Row.ofString (format.cell cell.1) Highlight.active := by
  induction cells with
  | nil => rfl
  | cons cell rest ih =>
    rw [List.flatMap_cons, List.filter_append, ih, List.filter_cons_of_neg (by decide),
      filter_ofString, List.filter_cons]
    by_cases hhere : cell.2 = pointer
    · simp [cellStyle_eq_active_iff.mpr hhere, hhere]
    · simp [cellStyle_eq_active_iff, hhere]

theorem filter_memoryRow (v : Viewer) (row : Nat) :
    (v.memoryRow row).filter (·.style = Highlight.active) =
      ((v.session.tape.rowCells row).filter (·.2 = v.session.tape.pointer)).flatMap
        fun cell => Row.ofString (v.format.cell cell.1) Highlight.active := by
  unfold memoryRow
  simp only
  rw [List.filter_append, filter_ofString, if_neg (by decide), List.nil_append, filter_cellTexts]

theorem filter_memoryPane (v : Viewer) (height : Nat) :
    (v.memoryPane height).lines.flatten.filter (·.style = Highlight.active) =
      (((v.shownRows (height - 2)).flatMap v.session.tape.rowCells).filter
        (·.2 = v.session.tape.pointer)).flatMap
          fun cell => Row.ofString (v.format.cell cell.1) Highlight.active := by
  have hlines : (v.memoryPane height).lines = (v.shownRows (height - 2)).map v.memoryRow := rfl
  rw [hlines, List.filter_flatten, List.map_map, List.filter_flatMap,
    List.flatMap_assoc, List.flatMap_def]
  apply congrArg List.flatten
  apply List.map_congr_left
  intro row _
  rw [Function.comp_apply, v.filter_memoryRow]

/-! ## The cells that are drawn -/

section Drawn

variable {v : Viewer} {first n : Nat}

theorem getElem?_drawnCells (v : Viewer) (i : Nat) :
    v.drawnCells[i]? = v.session.tape.cells[i]?.map
      fun value => ⟨value, cellStyle v.session.tape.pointer (value, i)⟩ := by
  simp [drawnCells, Function.comp_def]

theorem map_readMemoryRow (hfits : v.session.tape.capacity ≤ Text.wordSize)
    (hrows : first + n ≤ v.session.tape.rowCount) :
    ((List.range' first n).map v.memoryRow).map v.format.readMemoryRow =
      (List.range' first n).map fun row => some (v.drawnRow row) := by
  rw [List.map_map, List.map_inj_left]
  intro row hrow
  rw [List.mem_range'_1] at hrow
  rw [Function.comp_apply]
  apply v.readMemoryRow_memoryRow
  exact Nat.lt_of_lt_of_le (v.session.tape.rowStart_lt (by omega)) hfits

theorem readMemory_memoryRows (hfits : v.session.tape.capacity ≤ Text.wordSize)
    (hrows : first + n ≤ v.session.tape.rowCount) :
    v.format.readMemory ((List.range' first n).map v.memoryRow) =
      (v.drawnCells.drop (Tape.rowWidth * first)).take (Tape.rowWidth * n) := by
  have hread : ((List.range' first n).map v.memoryRow).filterMap v.format.readMemoryRow =
      (List.range' first n).map v.drawnRow := by
    apply filterMap_of_map_eq
    rw [map_readMemoryRow hfits hrows, List.map_map]
    rfl
  unfold CellFormat.readMemory
  rw [hread, cells_drawnRows]

theorem drawn_active_iff (hlast : v.session.tape.pointerRow < first + n) (i : Nat) :
    (∃ value, ((v.drawnCells.drop (Tape.rowWidth * first)).take (Tape.rowWidth * n))[i]? =
      some ⟨value, Highlight.active⟩) ↔ Tape.rowWidth * first + i = v.session.tape.pointer := by
  constructor
  · rintro ⟨value, hvalue⟩
    rw [List.getElem?_take] at hvalue
    split at hvalue
    · rw [List.getElem?_drop, getElem?_drawnCells] at hvalue
      obtain ⟨here, -, hcell⟩ := Option.map_eq_some_iff.mp hvalue
      have hstyle : cellStyle v.session.tape.pointer (here, Tape.rowWidth * first + i) =
          Highlight.active := congrArg DrawnCell.style hcell
      exact cellStyle_eq_active_iff.mp hstyle
    · cases hvalue
  · intro hi
    have hlt : i < Tape.rowWidth * n := by
      unfold Tape.pointerRow Tape.rowWidth at *
      omega
    refine ⟨v.session.tape.get, ?_⟩
    rw [List.getElem?_take_of_lt hlt, List.getElem?_drop, hi, getElem?_drawnCells,
      Array.getElem?_eq_getElem v.session.tape.pointer_lt, Option.map_some, cellStyle_pointer]
    rfl

theorem filter_drawn (hfirst : first ≤ v.session.tape.pointerRow)
    (hlast : v.session.tape.pointerRow < first + n) :
    ((v.drawnCells.drop (Tape.rowWidth * first)).take (Tape.rowWidth * n)).filter
      (·.style = Highlight.active) = [⟨v.session.tape.get, Highlight.active⟩] := by
  unfold drawnCells
  rw [← List.map_drop, ← List.map_take, List.filter_map]
  simp only [Function.comp_def, cellStyle_eq_active_iff]
  rw [v.session.tape.filter_pointer hfirst hlast, List.map_singleton, cellStyle_pointer]

theorem filter_memoryRows (hfits : v.session.tape.capacity ≤ Text.wordSize) {visible : Nat}
    (hshown : v.session.tape.pointerRow ∈ v.shownRows visible) :
    (v.memoryPane (visible + 2)).lines.flatten.filter (·.style = Highlight.active) =
      Row.ofString (v.format.cell v.session.tape.get) Highlight.active := by
  have hrows := v.firstRow_add_le visible
  rw [shownRows_eq, List.mem_range'_1] at hshown
  rw [v.filter_memoryPane, Nat.add_sub_cancel, shownRows_eq,
    v.session.tape.flatMap_rowCells hfits _ hrows,
    v.session.tape.filter_pointer hshown.1 hshown.2, List.flatMap_singleton]

end Drawn

/-! ## A viewer on a terminal -/

/-- An input, or that the viewer is drawn on a screen and gets to know how much memory it shows. -/
inductive Happening where
  | input (i : Input)
  | drawn (height : Nat)

def happen (v : Viewer) : Happening → Viewer
  | .input i => (v.respond i).viewer
  | .drawn height => { v with page := pageOf height }

def happenAll (v : Viewer) (happenings : List Happening) : Viewer :=
  happenings.foldl happen v

theorem Scheduled.happen {v : Viewer} {capacity : Nat} (h : v.Scheduled capacity)
    (happening : Happening) : (v.happen happening).Scheduled capacity := by
  cases happening with
  | input i => exact h.respond i
  | drawn height => exact ⟨h.session, h.deadline, h.rung, h.scroll⟩

theorem Scheduled.happenAll {v : Viewer} {capacity : Nat} (h : v.Scheduled capacity)
    (happenings : List Happening) : (v.happenAll happenings).Scheduled capacity := by
  induction happenings generalizing v with
  | nil => exact h
  | cons happening rest ih => exact ih (h.happen happening)

end Viewer

/-- The memory pane shows a full page. Whatever has happened to a viewer, a pane with room for
`visible` rows shows that many rows of the tape, one after the other, or all if there are fewer, and
these read back row by row as the cells of the tape. When the pane follows the pointer, the row of
the pointer is among them, and of all the cells that are drawn only that at the pointer has the look
of the pointer. When the user has scrolled to a row, the page begins there, unless that would leave
room below the last row, and shows that row in any case. Addresses are 64-bit numbers, and so there
are no more cells than these can tell apart. -/
theorem memory_page_full (settings : Settings) (source : String) (input : Array UInt8)
    (title : String) (happenings : List Viewer.Happening) (visible : Nat)
    (hvisible : 1 ≤ visible) :
    let v := (Viewer.new settings source input title).happenAll happenings
    let t := v.session.tape
    let first := v.firstRow visible
    let count := min visible t.rowCount
    let pane := (v.memoryPane (visible + 2)).lines
    let drawn := v.format.readMemory pane
    (pane = (List.range' first count).map v.memoryRow ∧ first + count ≤ t.rowCount) ∧
    (settings.tapeSize ≤ Text.wordSize →
      pane.map v.format.readMemoryRow =
        (List.range' first count).map (fun row => some (v.drawnRow row)) ∧
      drawn = (v.drawnCells.drop (Tape.rowWidth * first)).take (Tape.rowWidth * count)) ∧
    (v.scroll = none →
      (first ≤ t.pointerRow ∧ t.pointerRow < first + count) ∧
      (settings.tapeSize ≤ Text.wordSize →
        drawn.filter (·.style = Highlight.active) = [⟨t.get, Highlight.active⟩] ∧
        (∀ i, (∃ value, drawn[i]? = some ⟨value, Highlight.active⟩) ↔
          Tape.rowWidth * first + i = t.pointer) ∧
        pane.flatten.filter (·.style = Highlight.active) =
          Row.ofString (v.format.cell t.get) Highlight.active)) ∧
    ∀ row, v.scroll = some row →
      first = min row (t.rowCount - visible) ∧ first ≤ row ∧ row < first + count := by
  intro v t first count pane drawn
  have h : v.Scheduled (max settings.tapeSize 1) :=
    (Viewer.scheduled_new settings source input title).happenAll happenings
  have hrows := v.firstRow_add_le visible
  have hpane : pane = (List.range' first count).map v.memoryRow :=
    congrArg (List.map v.memoryRow) (v.shownRows_eq visible)
  have hcapacity : settings.tapeSize ≤ Text.wordSize → t.capacity ≤ Text.wordSize := by
    intro hfits
    have hword : 1 ≤ Text.wordSize := by decide
    rw [h.session.capacity_tape]
    omega
  have hdrawn : settings.tapeSize ≤ Text.wordSize →
      drawn = (v.drawnCells.drop (Tape.rowWidth * first)).take (Tape.rowWidth * count) := by
    intro hfits
    exact (congrArg v.format.readMemory hpane).trans
      (Viewer.readMemory_memoryRows (hcapacity hfits) hrows)
  refine ⟨⟨hpane, hrows⟩, fun hfits => ⟨?_, hdrawn hfits⟩, ?_, ?_⟩
  · rw [hpane]
    exact Viewer.map_readMemoryRow (hcapacity hfits) hrows
  · -- The page is laid around the row of the pointer.
    intro hfollows
    have hrow := Viewer.pointerRow_shown hvisible hfollows
    have hshown := hrow
    rw [v.shownRows_eq, List.mem_range'_1] at hshown
    refine ⟨hshown, fun hfits => ?_⟩
    rw [hdrawn hfits]
    exact ⟨Viewer.filter_drawn hshown.1 hshown.2, Viewer.drawn_active_iff hshown.2,
      Viewer.filter_memoryRows (hcapacity hfits) hrow⟩
  · -- Scrolling stays above the last row, whatever else has happened.
    intro row hscroll
    have hshown := Viewer.scrolled_shown hvisible hscroll (h.scroll row hscroll)
    rw [v.shownRows_eq, List.mem_range'_1] at hshown
    exact ⟨Viewer.firstRow_scrolled hvisible hscroll, hshown⟩

theorem memory_page_full_last_cell :
    let start := Viewer.new { tapeSize := 40 } "<+" #[] "left"
    let moved : Viewer.Happening := .input (.press ⟨.char 's', false⟩ 0)
    let v := start.happenAll [moved]
    let w := start.happenAll [moved, .drawn 5, .input (.press ⟨.pageUp, false⟩ 1)]
    (v.scroll = none ∧ (v.firstRow 2 ≤ 2 ∧ 2 < v.firstRow 2 + 2) ∧
      (v.memoryPane 4).lines.map v.format.readMemoryRow =
        [some (v.drawnRow 1), some ⟨32, List.replicate 7 ⟨0, { fg := Palette.surface.onScreen }⟩ ++
          [⟨0, Highlight.active⟩]⟩] ∧
      (v.format.readMemory (v.memoryPane 4).lines).filter (·.style = Highlight.active) =
        [⟨0, Highlight.active⟩]) ∧
    w.scroll = some 0 ∧ w.firstRow 2 = 0 := by
  intro start moved v w
  have hfollows : v.scroll = none := by decide +kernel
  have hget : v.session.tape.get = 0 := by decide +kernel
  have hrow : v.session.tape.pointerRow = 2 := by decide +kernel
  have hcount : min 2 v.session.tape.rowCount = 2 := by decide +kernel
  have hfirst : v.firstRow 2 = 1 := by decide +kernel
  have hscroll : w.scroll = some 0 := by decide +kernel
  obtain ⟨-, hread, hfollowed, -⟩ :=
    memory_page_full { tapeSize := 40 } "<+" #[] "left" [moved] 2 (by decide)
  obtain ⟨-, -, -, hscrolled⟩ := memory_page_full { tapeSize := 40 } "<+" #[] "left"
    [moved, .drawn 5, .input (.press ⟨.pageUp, false⟩ 1)] 2 (by decide)
  obtain ⟨hrows, -⟩ := hread (by decide)
  obtain ⟨hshown, hactive⟩ := hfollowed hfollows
  have hone := (hactive (by decide)).1
  rw [hrow, hcount] at hshown
  rw [hget] at hone
  refine ⟨⟨hfollows, hshown, hrows.trans ?_, hone⟩, hscroll, ?_⟩
  · rw [hfirst, hcount]
    decide +kernel
  · rw [(hscrolled 0 hscroll).1, Nat.zero_min]

end TapeMachine
