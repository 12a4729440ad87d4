import Mathlib.Data.List.TakeWhile
import TapeMachine.Screen.Highlight

/-!
# Where the characters of a source are drawn

A source is drawn line by line. Each of its characters but the line feeds has one cell: its line is
the number of line feeds before it, its column the number of characters since the last of these.
There are no other cells.
-/

namespace TapeMachine.Highlight

/-- The column that a character is in. -/
def columnOf (source : List Char) (offset : Nat) : Nat :=
  ((source.take offset).reverse.takeWhile (· ≠ '\n')).length

/-- The cell of a character. -/
def cellOf (span : Option Span) (offset : Nat) (c : Char) : Cell :=
  ⟨[c], style span offset c⟩

theorem style_eq_active_iff {span : Option Span} {offset : Nat} {c : Char} :
    style span offset c = active ↔ span.any (·.contains offset) = true := by
  unfold style
  split
  · simpa using by assumption
  · rename_i hout
    simp [active, hout]

/-! ## One character more -/

section Cons

variable (rest : List Char) (i : Nat)

theorem lineOf_cons_feed : lineOf ('\n' :: rest) (i + 1) = lineOf rest i + 1 := by
  simp [lineOf]

theorem lineOf_cons {c : Char} (hc : c ≠ '\n') : lineOf (c :: rest) (i + 1) = lineOf rest i := by
  simp [lineOf, hc]

theorem length_takeWhile_iff (xs : List Char) :
    (xs.reverse.takeWhile (· ≠ '\n')).length = xs.reverse.length ↔ xs.count '\n' = 0 := by
  have hall : xs.reverse.takeWhile (· ≠ '\n') = xs.reverse ↔ xs.count '\n' = 0 := by
    rw [List.takeWhile_eq_self_iff, List.count_eq_zero]
    simp only [List.mem_reverse, decide_eq_true_eq]
    exact ⟨fun h hin => h _ hin rfl, fun h c hc => ne_of_mem_of_not_mem hc h⟩
  rw [← hall]
  exact ⟨(List.takeWhile_prefix _).eq_of_length, congrArg List.length⟩

theorem columnOf_cons_feed : columnOf ('\n' :: rest) (i + 1) = columnOf rest i := by
  unfold columnOf
  rw [List.take_succ_cons, List.reverse_cons, List.takeWhile_append]
  split
  · rename_i hall
    rw [hall]
    simp
  · rfl

theorem columnOf_cons {c : Char} (hc : c ≠ '\n') :
    columnOf (c :: rest) (i + 1) = columnOf rest i + if lineOf rest i = 0 then 1 else 0 := by
  unfold columnOf lineOf
  rw [List.take_succ_cons, List.reverse_cons, List.takeWhile_append]
  simp only [length_takeWhile_iff]
  split
  · rename_i hfirst
    rw [(length_takeWhile_iff _).mpr hfirst]
    simp [hc]
  · rfl

end Cons

/-- A cell stands in a line and a column of some rows. -/
def DrawnAt (rows : List Row) (line column : Nat) (cell : Cell) : Prop :=
  ∃ row, rows[line]? = some row ∧ row[column]? = some cell

theorem drawnAt_nil {line column : Nat} {cell : Cell} : ¬DrawnAt [] line column cell := by
  rintro ⟨row, h, -⟩
  simp at h

theorem drawnAt_cons_zero {row : Row} {rows : List Row} {column : Nat} {cell : Cell} :
    DrawnAt (row :: rows) 0 column cell ↔ row[column]? = some cell := by
  simp [DrawnAt]

theorem drawnAt_cons_succ {row : Row} {rows : List Row} {line column : Nat} {cell : Cell} :
    DrawnAt (row :: rows) (line + 1) column cell ↔ DrawnAt rows line column cell := by
  simp [DrawnAt]

/-- A character of the source, the first of which is at `offset`, has this cell in this place. -/
def HasCell (span : Option Span) (offset : Nat) (source : List Char) (line column : Nat)
    (cell : Cell) : Prop :=
  ∃ i c, source[i]? = some c ∧ c ≠ '\n' ∧ lineOf source i = line ∧ columnOf source i = column ∧
    cell = cellOf span (offset + i) c

section Rows

variable {span : Option Span} {offset line column : Nat} {cell : Cell} {rest : List Char}

theorem not_hasCell_nil : ¬HasCell span offset [] line column cell := by
  simp [HasCell]

theorem hasCell_cons_feed :
    HasCell span offset ('\n' :: rest) line column cell ↔
      ∃ above, line = above + 1 ∧ HasCell span (offset + 1) rest above column cell := by
  constructor
  · rintro ⟨i, c, hi, hc, rfl, rfl, rfl⟩
    cases i with
    | zero => exact absurd (Option.some.inj hi).symm hc
    | succ i =>
      refine ⟨lineOf rest i, lineOf_cons_feed rest i, i, c, hi, hc, rfl, ?_, ?_⟩
      · rw [columnOf_cons_feed]
      · rw [Nat.add_assoc, Nat.add_comm 1]
  · rintro ⟨above, rfl, i, c, hi, hc, rfl, rfl, rfl⟩
    refine ⟨i + 1, c, hi, hc, lineOf_cons_feed rest i, columnOf_cons_feed rest i, ?_⟩
    rw [Nat.add_assoc, Nat.add_comm 1]

theorem hasCell_cons {c : Char} (hc : c ≠ '\n') :
    HasCell span offset (c :: rest) line column cell ↔
      (line = 0 ∧ column = 0 ∧ cell = cellOf span offset c) ∨
      ∃ k, HasCell span (offset + 1) rest line k cell ∧
        column = k + if line = 0 then 1 else 0 := by
  constructor
  · rintro ⟨i, d, hi, hd, rfl, rfl, rfl⟩
    cases i with
    | zero =>
      cases hi
      exact Or.inl ⟨rfl, rfl, rfl⟩
    | succ i =>
      refine Or.inr ⟨columnOf rest i, ⟨i, d, hi, hd, ?_, rfl, ?_⟩, ?_⟩
      · rw [lineOf_cons rest i hc]
      · rw [Nat.add_assoc, Nat.add_comm 1]
      · rw [lineOf_cons rest i hc, columnOf_cons rest i hc]
  · rintro (⟨rfl, rfl, rfl⟩ | ⟨k, ⟨i, d, hi, hd, rfl, rfl, rfl⟩, rfl⟩)
    · exact ⟨0, c, rfl, hc, rfl, rfl, rfl⟩
    · refine ⟨i + 1, d, hi, hd, lineOf_cons rest i hc, columnOf_cons rest i hc, ?_⟩
      rw [Nat.add_assoc, Nat.add_comm 1]

theorem getElem?_concat_iff {row : Row} {last : Cell} :
    (row ++ [last])[column]? = some cell ↔
      row[column]? = some cell ∨ column = row.length ∧ cell = last := by
  rw [List.getElem?_append]
  split
  · rename_i hlt
    simp [Nat.ne_of_lt hlt]
  · rename_i hge
    have hnone : row[column]? = none := List.getElem?_eq_none (Nat.le_of_not_lt hge)
    rw [List.getElem?_singleton, hnone]
    split
    · simp [show column = row.length by omega, eq_comm]
    · simp [show column ≠ row.length by omega]

/-- The cells are those that the first line holds already, and one for each character. -/
theorem drawnAt_linesFrom {held : Row} {source : List Char} :
    DrawnAt (linesFrom span offset held source) line column cell ↔
      (line = 0 ∧ held.reverse[column]? = some cell) ∨
      ∃ k, HasCell span offset source line k cell ∧
        column = k + if line = 0 then held.length else 0 := by
  fun_induction linesFrom span offset held source generalizing line with
  | case1 offset held hempty =>
    rw [List.isEmpty_iff.mp hempty]
    simp [drawnAt_nil, not_hasCell_nil]
  | case2 offset held hempty =>
    cases line with
    | zero => simp [drawnAt_cons_zero, not_hasCell_nil]
    | succ line => simp [drawnAt_cons_succ, drawnAt_nil, not_hasCell_nil]
  | case3 offset held rest ih =>
    cases line with
    | zero => simp [drawnAt_cons_zero, hasCell_cons_feed]
    | succ line =>
      rw [drawnAt_cons_succ, ih]
      simp [hasCell_cons_feed]
  | case4 offset held c rest hc ih =>
    -- The cell of `c` is the last one that the first line holds, and the first one of the rest.
    rw [ih, List.reverse_cons, getElem?_concat_iff, List.length_reverse]
    simp only [hasCell_cons hc]
    constructor
    · rintro (⟨rfl, hheld | ⟨rfl, rfl⟩⟩ | ⟨k, hk, rfl⟩)
      · exact Or.inl ⟨rfl, hheld⟩
      · exact Or.inr ⟨0, Or.inl ⟨rfl, rfl, rfl⟩, by simp⟩
      · refine Or.inr ⟨_, Or.inr ⟨k, hk, rfl⟩, ?_⟩
        by_cases hline : line = 0
        · simp only [hline, if_true, List.length_cons]
          omega
        · simp [hline]
    · rintro (⟨rfl, hheld⟩ | ⟨k, ⟨rfl, rfl, rfl⟩ | ⟨k, hk, rfl⟩, rfl⟩)
      · exact Or.inl ⟨rfl, Or.inl hheld⟩
      · exact Or.inl ⟨rfl, Or.inr ⟨by simp, rfl⟩⟩
      · refine Or.inr ⟨k, hk, ?_⟩
        by_cases hline : line = 0
        · simp only [hline, if_true, List.length_cons]
          omega
        · simp [hline]

theorem drawnAt_lines {source : List Char} :
    DrawnAt (lines source span) line column cell ↔ HasCell span 0 source line column cell := by
  have hfrom : DrawnAt (linesFrom span 0 [] source) line column cell ↔
      HasCell span 0 source line column cell := by
    simp [drawnAt_linesFrom]
  rw [← hfrom]
  unfold lines
  split
  · rename_i hempty
    rw [hempty]
    cases line <;> simp [DrawnAt]
  · rfl

end Rows

end TapeMachine.Highlight
