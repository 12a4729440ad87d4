import TapeMachine.Proofs.Placement
import TapeMachine.Proofs.Spans
import TapeMachine.Proofs.Watching

/-!
# The executing line in view

The lines that a source pane skips are counted so that the start of the highlight comes to stand in
its middle. The count is a 16-bit number, so in a very long source the lines that are shown may be
others, and just before that none are shown.
-/

namespace TapeMachine

namespace Highlight

/-! ## The first highlighted line -/

def highlighted (row : Row) : Bool :=
  row.any (·.style = active)

/-- The first line with a highlighted character. -/
def firstLine? (source : List Char) (span : Span) : Option Nat :=
  (lines source (some span)).findIdx? highlighted

theorem lineOf_mono (source : List Char) {i j : Nat} (h : i ≤ j) :
    lineOf source i ≤ lineOf source j :=
  (List.take_sublist_take_left h).count_le _

theorem highlighted_iff {source : List Char} {span : Span} {line : Nat} :
    (∃ row, (lines source (some span))[line]? = some row ∧ highlighted row = true) ↔
      ∃ offset c, source[offset]? = some c ∧ c ≠ '\n' ∧ lineOf source offset = line ∧
        span.contains offset = true := by
  constructor
  · rintro ⟨row, hrow, hany⟩
    obtain ⟨cell, hcell, hactive⟩ := List.any_eq_true.mp hany
    obtain ⟨column, hcolumn⟩ := List.mem_iff_getElem?.mp hcell
    obtain ⟨offset, c, hc, hfeed, hline, -, rfl⟩ := drawnAt_lines.mp ⟨row, hrow, hcolumn⟩
    rw [Nat.zero_add] at hactive
    exact ⟨offset, c, hc, hfeed, hline, style_eq_active_iff.mp (of_decide_eq_true hactive)⟩
  · rintro ⟨offset, c, hc, hfeed, hline, hin⟩
    obtain ⟨row, hrow, hcolumn⟩ := drawnAt_lines.mpr ⟨offset, c, hc, hfeed, hline, rfl, rfl⟩
    refine ⟨row, hrow, List.any_eq_true.mpr ⟨_, List.mem_of_getElem? hcolumn, ?_⟩⟩
    rw [Nat.zero_add]
    exact decide_eq_true (style_eq_active_iff.mpr hin)

section FirstLine

variable {source : List Char} {span : Span} {line : Nat}

theorem firstLine?_eq_some_iff :
    firstLine? source span = some line ↔
      (∃ row, (lines source (some span))[line]? = some row ∧ highlighted row = true) ∧
      ∀ before < line, ¬∃ row,
        (lines source (some span))[before]? = some row ∧ highlighted row = true := by
  unfold firstLine?
  rw [List.findIdx?_eq_some_iff_getElem]
  constructor
  · rintro ⟨hlt, hrow, hbefore⟩
    refine ⟨⟨_, List.getElem?_eq_getElem hlt, hrow⟩, ?_⟩
    rintro before hlt' ⟨row, hget, hrow'⟩
    obtain ⟨_, rfl⟩ := List.getElem?_eq_some_iff.mp hget
    exact hbefore before hlt' hrow'
  · rintro ⟨⟨row, hget, hrow⟩, hbefore⟩
    obtain ⟨hlt, rfl⟩ := List.getElem?_eq_some_iff.mp hget
    refine ⟨hlt, hrow, fun before hlt' hrow' => hbefore before hlt' ⟨_, ?_, hrow'⟩⟩
    exact List.getElem?_eq_getElem _

theorem lineOf_start_le (h : firstLine? source span = some line) :
    lineOf source span.start ≤ line := by
  obtain ⟨offset, c, -, -, rfl, hin⟩ := highlighted_iff.mp (firstLine?_eq_some_iff.mp h).1
  simp only [Span.contains, Bool.and_eq_true, decide_eq_true_eq] at hin
  exact lineOf_mono source hin.1

theorem firstLine?_eq {c : Char} (hc : source[span.start]? = some c) (hfeed : c ≠ '\n')
    (hspan : span.start < span.stop) :
    firstLine? source span = some (lineOf source span.start) := by
  have hin : span.contains span.start = true := by simp [Span.contains, hspan]
  rw [firstLine?_eq_some_iff]
  refine ⟨highlighted_iff.mpr ⟨span.start, c, hc, hfeed, rfl, hin⟩, ?_⟩
  intro before hbefore hrow
  obtain ⟨offset, c', -, -, rfl, hin'⟩ := highlighted_iff.mp hrow
  simp only [Span.contains, Bool.and_eq_true, decide_eq_true_eq] at hin'
  exact absurd (lineOf_mono source hin'.1) (Nat.not_le_of_lt hbefore)

theorem eq_lineOf_start (h : firstLine? source span = some line)
    (hfeed : source[span.start]? ≠ some '\n') : line = lineOf source span.start := by
  obtain ⟨offset, c, hc, -, -, hin⟩ := highlighted_iff.mp (firstLine?_eq_some_iff.mp h).1
  simp only [Span.contains, Bool.and_eq_true, decide_eq_true_eq] at hin
  have hlt : span.start < source.length :=
    Nat.lt_of_le_of_lt hin.1 (List.getElem?_eq_some_iff.mp hc).1
  have hstart := List.getElem?_eq_getElem hlt
  have hne : source[span.start] ≠ '\n' := fun heq => hfeed (by rw [hstart, heq])
  have hfirst := firstLine?_eq hstart hne (Nat.lt_of_le_of_lt hin.1 hin.2)
  exact Option.some.inj (h.symm.trans hfirst)

end FirstLine

/-! ## The lines that are shown -/

/-- With `skipped` lines left out, line `line` is among the `height` lines that come next. -/
def InView (skipped height line : Nat) : Prop :=
  skipped ≤ line ∧ line < skipped + height

theorem inView_scroll_iff {source : List Char} {span : Span} {height line : Nat}
    (hheight : 0 < height) (hrows : height < 0x10000) (hle : lineOf source span.start ≤ line) :
    InView (scroll source (some span) height) height line ↔
      lineOf source span.start - height / 2 < 0x10000 ∧
        line < lineOf source span.start - height / 2 + height := by
  unfold InView scroll
  simp only [Option.elim_some]
  omega

/-- A pane has the lines in view in their places, or it has no line at all. -/
theorem getElem?_linesToShow {source : List Char} {span : Option Span} {height line : Nat}
    (hview : InView (scroll source span height) height line) :
    ((linesToShow source span height).take height)[line - scroll source span height]? =
      if scroll source span height + height < 0x10000 then (lines source span)[line]?
      else none := by
  obtain ⟨hskipped, hshown⟩ := hview
  rw [List.getElem?_take_of_lt (by omega)]
  unfold linesToShow
  simp only
  split
  · rw [List.getElem?_drop, Nat.add_sub_of_le hskipped]
  · rfl

end Highlight

/-! ## The highlight of a viewer -/

theorem Viewer.highlight_starts {settings : Settings} {source : String} {input : Array UInt8}
    {title : String} {inputs : List Viewer.Input} {span : Span}
    (hfits : source.length ≤ Text.wordSize)
    (h : ((Viewer.new settings source input title).after inputs).display.highlight = some span) :
    span.start < span.stop ∧ ∃ op : Instruction, source.toList[span.start]? = some op.toChar := by
  have hwatches := Watches.after (watches_new settings source input title) inputs
  generalize (Viewer.new settings source input title).after inputs = v at h hwatches
  cases hbench : v.session.bench with
  | idle t =>
    rw [(hwatches.idle t hbench).2.highlight_eq (by simp [haltsOf])] at h
    cases h
  | live m =>
    obtain ⟨program, hload, -, hshows⟩ := hwatches.live m hbench
    have halive : (Session.newRun (Viewer.new settings source input title).session
      program).status.isTerminal = false := rfl
    rw [hshows.highlight_of_told (Machine.told_driveAll halive _) halive] at h
    split at h
    · cases h
    · obtain ⟨e, he, rfl⟩ := Option.map_eq_some_iff.mp h
      obtain ⟨i, -, hshown⟩ := Machine.mem_shownSteps.mp (List.mem_of_getLast? he)
      obtain ⟨hstretch, hsource⟩ := Machine.stretch_of_shown rfl hshown
      obtain ⟨first, last, hspan, hle, hfirst, -⟩ := hstretch.span_eq hload hfits
      have heq : e.source = ⟨first, last + 1⟩ := hsource.trans hspan
      rw [heq]
      exact ⟨Nat.lt_succ_of_le hle, e.op, hfirst.char⟩

open Highlight in
/-- The first highlighted line is in view as long as the number of lines to skip in front of it fits
16 bits. This is so for any span that does not start with line feeds, and so for any highlight of a
viewer, which starts at an instruction. A line in view is drawn in its place, unless the number of
the row below the pane does not fit 16 bits: then the pane stays empty. -/
theorem executing_line_in_view {height : Nat} (hheight : 0 < height) (hrows : height < 0x10000) :
    (∀ source span line, firstLine? source span = some line →
      let start := lineOf source span.start
      (InView (scroll source (some span) height) height line ↔
        start - height / 2 < 0x10000 ∧ line < start - height / 2 + height) ∧
      (source[span.start]? ≠ some '\n' → line = start)) ∧
    (∀ settings source input title inputs span, source.length ≤ Text.wordSize →
      let v := (Viewer.new settings source input title).after inputs
      v.display.highlight = some span →
      ∃ line, firstLine? v.session.source.toList span = some line ∧
        (InView (scroll v.session.source.toList (some span) height) height line ↔
          line - height / 2 < 0x10000)) ∧
    ∀ source span line, InView (scroll source span height) height line →
      ((linesToShow source span height).take height)[line - scroll source span height]? =
        if scroll source span height + height < 0x10000 then (lines source span)[line]?
        else none := by
  refine ⟨?_, ?_, fun source span line => getElem?_linesToShow⟩
  · intro source span line hline start
    exact ⟨inView_scroll_iff hheight hrows (lineOf_start_le hline), eq_lineOf_start hline⟩
  · intro settings source input title inputs span hfits v hspan
    have hsource : v.session.source = source :=
      (Viewer.Watches.after (Viewer.watches_new settings source input title) inputs).source
    obtain ⟨hlt, op, hop⟩ := Viewer.highlight_starts hfits hspan
    have hfeed : op.toChar ≠ '\n' := by cases op <;> decide
    rw [hsource]
    refine ⟨_, firstLine?_eq hop hfeed hlt, ?_⟩
    rw [inView_scroll_iff hheight hrows (Nat.le_refl _)]
    omega

open Highlight in
theorem executing_line_in_view_one_row :
    firstLine? "+\n-.".toList ⟨2, 3⟩ = some 1 ∧
    InView (scroll "+\n-.".toList (some ⟨2, 3⟩) 1) 1 1 ∧
    let v := (Viewer.new { tapeSize := 1 } "+\n-." #[] "lines").after
      [.press ⟨.char 's', false⟩ 0, .press ⟨.char 's', false⟩ 1]
    v.display.highlight = some ⟨2, 3⟩ ∧
      InView (scroll v.session.source.toList (some ⟨2, 3⟩) 1) 1 1 := by
  have hline : firstLine? "+\n-.".toList ⟨2, 3⟩ = some 1 := by decide
  have hview := executing_line_in_view Nat.one_pos (by decide)
  refine ⟨hline, (hview.1 _ _ _ hline).1.mpr (by decide), ?_⟩
  intro v
  have hspan : v.display.highlight = some ⟨2, 3⟩ := by decide +kernel
  have hsource : v.session.source = "+\n-." := by decide +kernel
  obtain ⟨line, hfirst, hin⟩ := hview.2.1 _ _ _ _ _ _ (by decide) hspan
  rw [hsource, hline] at hfirst
  cases hfirst
  exact ⟨hspan, hin.mpr (by decide)⟩

open Highlight in
/-- With 65538 lines before it and room for five, the executing line is looked for in the first
ones. -/
theorem executing_line_out_of_view :
    let source := List.replicate 65538 '\n' ++ ['+', '.']
    firstLine? source ⟨65538, 65539⟩ = some 65538 ∧
      scroll source (some ⟨65538, 65539⟩) 5 = 0 ∧
      ¬InView (scroll source (some ⟨65538, 65539⟩) 5) 5 65538 := by
  intro source
  have hline : lineOf source 65538 = 65538 := by
    unfold lineOf source
    rw [List.take_left' List.length_replicate, List.count_replicate_self]
  have hchar : source[65538]? = some '+' := by
    unfold source
    rw [List.getElem?_append_right (Nat.le_of_eq List.length_replicate), List.length_replicate]
    rfl
  have hfirst : firstLine? source ⟨65538, 65539⟩ = some (lineOf source 65538) :=
    firstLine?_eq hchar (by decide) (by decide)
  have hscroll : scroll source (some ⟨65538, 65539⟩) 5 = 0 := by
    unfold scroll
    rw [Option.elim_some, hline]
  rw [hline] at hfirst
  refine ⟨hfirst, hscroll, ?_⟩
  rw [hscroll]
  exact fun h => absurd h.2 (by decide)

end TapeMachine
