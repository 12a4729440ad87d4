import TapeMachine.Proofs.Lines
import TapeMachine.Proofs.Offsets
import TapeMachine.Proofs.Placement

/-!
# The source as it is drawn

Nothing of a source is lost when it is drawn: its lines, put together again, are the source, and
each character is in the line and the column that counting finds for it, in its own colour or in
that of the highlight.
-/

namespace TapeMachine

/-! ## Colours -/

namespace Palette

theorem ofChar_eq_dim_iff {c : Char} : ofChar c = dim ↔ Instruction.ofChar? c = none := by
  unfold ofChar Instruction.ofChar?
  split <;> simp_all <;> decide

theorem onScreen_ne_dim {c : Char} {op : Instruction} (hc : Instruction.ofChar? c = some op) :
    (ofChar c).onScreen ≠ dim.onScreen := by
  rw [Instruction.ofChar?_eq_some_iff.mp hc]
  cases op <;> decide

theorem not_bracket {c : Char} (hc : Instruction.ofChar? c = none) : ¬(c = '[' ∨ c = ']') := by
  rintro (rfl | rfl) <;> cases hc

/-- Two characters have the same colour when they stand for the same instruction or for none, and
when both are brackets. -/
theorem onScreen_ofChar_eq_iff {c d : Char} :
    (ofChar c).onScreen = (ofChar d).onScreen ↔
      Instruction.ofChar? c = Instruction.ofChar? d ∨
        (c = '[' ∨ c = ']') ∧ (d = '[' ∨ d = ']') := by
  cases hc : Instruction.ofChar? c with
  | none =>
    rw [ofChar_eq_dim_iff.mpr hc]
    cases hd : Instruction.ofChar? d with
    | none => simp [ofChar_eq_dim_iff.mpr hd]
    | some op => simp [not_bracket hc, (onScreen_ne_dim hd).symm]
  | some op =>
    cases hd : Instruction.ofChar? d with
    | none => simp [ofChar_eq_dim_iff.mpr hd, not_bracket hd, onScreen_ne_dim hc]
    | some op' =>
      rw [Instruction.ofChar?_eq_some_iff.mp hc, Instruction.ofChar?_eq_some_iff.mp hd]
      cases op <;> cases op' <;> decide

end Palette

namespace Highlight

/-! ## Columns by offsets -/

/-- The line that a character at `offset` is on begins at `start`: behind the line feed that is
last before it, or with the source. -/
structure StartsLine (source : List Char) (offset start : Nat) : Prop where
  le : start ≤ offset
  ended : Text.Ended (source.take start)
  unbroken : '\n' ∉ (source.take offset).drop start

theorem exists_take_split (source : List Char) (offset : Nat) :
    ∃ before line, source.take offset = before ++ line ∧ Text.Ended before ∧ '\n' ∉ line ∧
      columnOf source offset = line.length := by
  have hsplit : (source.take offset).reverse.takeWhile (· ≠ '\n') ++
      (source.take offset).reverse.dropWhile (· ≠ '\n') = (source.take offset).reverse :=
    List.takeWhile_append_dropWhile
  refine ⟨((source.take offset).reverse.dropWhile (· ≠ '\n')).reverse,
    ((source.take offset).reverse.takeWhile (· ≠ '\n')).reverse, ?_, ?_, ?_, ?_⟩
  · rw [← List.reverse_append, hsplit, List.reverse_reverse]
  · cases hdrop : (source.take offset).reverse.dropWhile (· ≠ '\n') with
    | nil => exact Or.inl rfl
    | cons c rest =>
      have hfeed := List.head?_dropWhile_not (· ≠ '\n') (source.take offset).reverse
      rw [hdrop] at hfeed
      right
      simpa using hfeed
  · intro hmem
    have hne := List.mem_takeWhile_imp (List.mem_reverse.mp hmem)
    simp at hne
  · rw [List.length_reverse]
    rfl

theorem exists_startsLine {source : List Char} {offset : Nat} (h : offset ≤ source.length) :
    ∃ start, StartsLine source offset start ∧ offset - start = columnOf source offset := by
  obtain ⟨before, line, hsplit, hended, hline, hcolumn⟩ := exists_take_split source offset
  have hlength : before.length + line.length = offset := by
    rw [← List.length_append, ← hsplit, List.length_take, Nat.min_eq_left h]
  have hbefore : source.take before.length = before := by
    have htake := congrArg (List.take before.length) hsplit
    rwa [List.take_take, Nat.min_eq_left (by omega), List.take_left] at htake
  refine ⟨before.length, ⟨by omega, by rwa [hbefore], ?_⟩, by omega⟩
  rw [hsplit, List.drop_left]
  exact hline

/-! ## All that is drawn -/

def chars (row : Row) : List Char :=
  row.flatMap Cell.symbol

theorem symbol_linesFrom (span : Option Span) (offset : Nat) (held : Row) (source : List Char) :
    (linesFrom span offset held source).flatten.map Cell.symbol =
      held.reverse.map Cell.symbol ++ (source.filter (· ≠ '\n')).map ([·]) := by
  fun_induction linesFrom span offset held source with
  | case1 offset held hempty => simp [List.isEmpty_iff.mp hempty]
  | case2 offset held hempty => simp
  | case3 offset held rest ih => simpa using ih
  | case4 offset held c rest hc ih =>
    have hne : c ≠ '\n' := hc
    simpa [hne] using ih

/-- The line feed that a last line lacks if it is not empty. -/
def lackedFeed (held : Row) (source : List Char) : List Char :=
  if source.getLast?.elim held.isEmpty (· == '\n') then [] else ['\n']

theorem lackedFeed_feed (held : Row) (rest : List Char) :
    lackedFeed held ('\n' :: rest) = lackedFeed [] rest := by
  unfold lackedFeed
  rw [List.getLast?_cons]
  cases rest.getLast? <;> rfl

theorem lackedFeed_cons (held : Row) (cell : Cell) {c : Char} (hc : c ≠ '\n') (rest : List Char) :
    lackedFeed held (c :: rest) = lackedFeed (cell :: held) rest := by
  unfold lackedFeed
  rw [List.getLast?_cons]
  cases rest.getLast? <;> simp [hc]

theorem written_linesFrom (span : Option Span) (offset : Nat) (held : Row) (source : List Char) :
    (linesFrom span offset held source).flatMap (chars · ++ ['\n']) =
      chars held.reverse ++ source ++ lackedFeed held source := by
  fun_induction linesFrom span offset held source with
  | case1 offset held hempty => simp [List.isEmpty_iff.mp hempty, chars, lackedFeed]
  | case2 offset held hempty => simp [lackedFeed, hempty]
  | case3 offset held rest ih =>
    rw [List.flatMap_cons, ih, lackedFeed_feed]
    simp [chars]
  | case4 offset held c rest hc ih =>
    rw [ih, lackedFeed_cons held ⟨[c], style span offset c⟩ hc]
    simp [chars]

theorem intercalate_feed {lines : List (List Char)} (hne : lines ≠ []) :
    List.intercalate ['\n'] lines ++ ['\n'] = lines.flatMap (· ++ ['\n']) := by
  induction lines with
  | nil => exact absurd rfl hne
  | cons line rest ih =>
    cases rest with
    | nil => simp
    | cons next rest =>
      rw [List.intercalate_cons_cons, List.flatMap_cons, ← ih (by simp)]
      simp

theorem eq_nil_of_linesFrom {span : Option Span} {source : List Char}
    (h : linesFrom span 0 [] source = []) : source = [] := by
  have hwritten := written_linesFrom span 0 [] source
  rw [h, List.flatMap_nil, eq_comm, List.append_eq_nil_iff] at hwritten
  simpa [chars] using hwritten.1

theorem lines_cases (source : List Char) (span : Option Span) :
    (source = [] ∧ lines source span = [[]]) ∨
      (linesFrom span 0 [] source ≠ [] ∧ lines source span = linesFrom span 0 [] source) := by
  unfold lines
  split
  · rename_i hempty
    exact Or.inl ⟨eq_nil_of_linesFrom hempty, rfl⟩
  · rename_i hne
    exact Or.inr ⟨hne, rfl⟩

section Lines

variable (source : List Char) (span : Option Span)

theorem symbol_lines :
    (lines source span).flatten.map Cell.symbol = (source.filter (· ≠ '\n')).map ([·]) := by
  have hfrom := symbol_linesFrom span 0 [] source
  rcases lines_cases source span with ⟨rfl, hlines⟩ | ⟨-, hlines⟩
  · simp [hlines]
  · rw [hlines, hfrom]
    rfl

theorem intercalate_lines :
    List.intercalate ['\n'] ((lines source span).map chars) ++
      (if source.getLast? = some '\n' then ['\n'] else []) = source := by
  rcases lines_cases source span with ⟨rfl, hlines⟩ | ⟨hne, hlines⟩
  · simp [hlines, chars]
  · have hwritten := written_linesFrom span 0 [] source
    have hjoined : List.intercalate ['\n'] ((lines source span).map chars) ++ ['\n'] =
        source ++ lackedFeed [] source := by
      rw [intercalate_feed (by simpa [hlines] using hne), hlines, List.flatMap_map, hwritten]
      simp [chars]
    cases hlast : source.getLast? with
    | none =>
      rw [List.getLast?_eq_none_iff] at hlast
      subst hlast
      exact absurd rfl hne
    | some c =>
      by_cases hc : c = '\n'
      · subst hc
        rw [if_pos rfl, hjoined, lackedFeed, hlast]
        simp
      · rw [lackedFeed, hlast] at hjoined
        simpa [hc] using hjoined

end Lines

end Highlight

open Highlight in
/-- A source is drawn without loss. Its characters other than line feeds are drawn once each, in
their order; each stands in the line that counts the line feeds before it, as far from the left as
it is behind the start of that line, with the look of the highlight exactly if the highlight covers
it, and otherwise in the colour of its instruction, which it shares with no other but for the two
brackets. The lines, joined by line feeds, are the source up to a line feed at its end. -/
theorem source_drawn_lossless (source : List Char) (span : Option Span) :
    let rows := lines source span
    rows.flatten.map Cell.symbol = (source.filter (· ≠ '\n')).map ([·]) ∧
    (∀ (offset : Nat) (c : Char), source[offset]? = some c → c ≠ '\n' →
      ∃ start cell, StartsLine source offset start ∧
        DrawnAt rows (lineOf source offset) (offset - start) cell ∧ cell.symbol = [c] ∧
        (cell.style = active ↔ ∃ s, span = some s ∧ s.start ≤ offset ∧ offset < s.stop) ∧
        (cell.style ≠ active → cell.style = { fg := (Palette.ofChar c).onScreen })) ∧
    List.intercalate ['\n'] (rows.map chars) ++
      (if source.getLast? = some '\n' then ['\n'] else []) = source := by
  intro rows
  refine ⟨symbol_lines source span, ?_, intercalate_lines source span⟩
  intro offset c hc hfeed
  have hlt := (List.getElem?_eq_some_iff.mp hc).1
  obtain ⟨start, hstart, hcolumn⟩ := exists_startsLine (Nat.le_of_lt hlt)
  have hdrawn : DrawnAt rows (lineOf source offset) (offset - start) (cellOf span offset c) := by
    rw [hcolumn]
    exact drawnAt_lines.mpr ⟨offset, c, hc, hfeed, rfl, rfl, by rw [Nat.zero_add]⟩
  refine ⟨start, cellOf span offset c, hstart, hdrawn, rfl, ?_, ?_⟩
  · rw [cellOf, style_eq_active_iff]
    cases span <;> simp [Span.contains]
  · intro hplain
    have hout := mt style_eq_active_iff.mpr hplain
    simp only [cellOf, style]
    rw [if_neg hout]

open Highlight in
theorem source_drawn_lossless_last_line :
    let source := "+\n\n[-]\n".toList
    let rows := lines source (some ⟨3, 5⟩)
    (∃ start cell, StartsLine source 4 start ∧ DrawnAt rows 2 (4 - start) cell ∧
      cell.symbol = ['-'] ∧ cell.style = active) ∧
    (∃ start cell, StartsLine source 5 start ∧ DrawnAt rows 2 (5 - start) cell ∧
      cell.symbol = [']'] ∧ cell.style = { fg := Palette.mauve.onScreen }) ∧
    List.intercalate ['\n'] (rows.map chars) ++ ['\n'] = source := by
  intro source rows
  obtain ⟨-, hplaced, hjoined⟩ := source_drawn_lossless source (some ⟨3, 5⟩)
  obtain ⟨start, cell, hstart, hdrawn, hsymbol, hactive, -⟩ := hplaced 4 '-' rfl (by decide)
  obtain ⟨start', cell', hstart', hdrawn', hsymbol', hactive', hplain⟩ :=
    hplaced 5 ']' rfl (by decide)
  refine ⟨⟨start, cell, hstart, hdrawn, hsymbol, hactive.mpr ⟨_, rfl, by decide, by decide⟩⟩,
    ⟨start', cell', hstart', hdrawn', hsymbol', hplain ?_⟩, hjoined⟩
  rw [ne_eq, hactive']
  rintro ⟨s, hs, -, hlt⟩
  cases hs
  exact absurd hlt (by decide)

end TapeMachine
