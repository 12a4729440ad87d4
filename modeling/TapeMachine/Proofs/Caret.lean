import TapeMachine.CommandLine.Console
import TapeMachine.Proofs.Unmatched

/-!
# The caret under a bracket

The lines about a bracket that does not match show the text around it, and the caret stands under
that very bracket. Cutting the text out by bytes gives the same as cutting it out by characters.
-/

namespace TapeMachine.Report

/-! ## Bytes and characters -/

theorem byteIndex_eq (text : String) (n : Nat) :
    byteIndex text n = (String.ofList (text.toList.take n)).utf8ByteSize := by
  unfold byteIndex
  generalize text.toList.take n = chars
  have hsum (size : Nat) : chars.foldl (fun size c => size + c.utf8Size) size =
      size + (String.ofList chars).utf8ByteSize := by
    induction chars generalizing size with
    | nil => simp
    | cons c rest ih =>
      rw [List.foldl_cons, ih, String.ofList_cons, String.utf8ByteSize_append]
      simp
      omega
  simpa using hsum 0

theorem isValid_byteIndex (text : String) (n : Nat) :
    String.Pos.Raw.IsValid text ⟨byteIndex text n⟩ := by
  rw [byteIndex_eq]
  exact String.Pos.Raw.isValid_iff_exists_take_toList.mpr ⟨n, rfl⟩

/-- The position before character `n`, or at the end of a shorter text. -/
def position (text : String) (n : Nat) : text.Pos :=
  text.pos ⟨byteIndex text n⟩ (isValid_byteIndex text n)

theorem toByteArray_middle (before middle after : String) :
    (before ++ (middle ++ after)).toByteArray.extract before.utf8ByteSize
      (before.utf8ByteSize + middle.utf8ByteSize) = middle.toByteArray := by
  rw [String.toByteArray_append, String.toByteArray_append, ← String.size_toByteArray,
    ← String.size_toByteArray]
  have hskip := ByteArray.extract_append_size_add (a := before.toByteArray)
    (b := middle.toByteArray ++ after.toByteArray) (i := 0) (j := middle.toByteArray.size)
  rw [Nat.add_zero] at hskip
  rw [hskip, ByteArray.extract_append_eq_left rfl]

section Slices

variable (text : String) {start stop : Nat} (hle : start ≤ stop)

include hle

theorem ofList_take : String.ofList (text.toList.take stop) =
    String.ofList (text.toList.take start) ++
      String.ofList ((text.toList.take stop).drop start) := by
  have hsplit := List.take_append_drop start (text.toList.take stop)
  rw [List.take_take, Nat.min_eq_left hle] at hsplit
  rw [← String.ofList_append, hsplit]

theorem byteIndex_add : byteIndex text stop = byteIndex text start +
    (String.ofList ((text.toList.take stop).drop start)).utf8ByteSize := by
  rw [byteIndex_eq, byteIndex_eq, ofList_take text hle, String.utf8ByteSize_append]

theorem position_le : position text start ≤ position text stop := by
  rw [String.Pos.le_iff, String.Pos.Raw.le_iff]
  have := byteIndex_add text hle
  simp [position]
  omega

theorem extract_position :
    text.extract (position text start) (position text stop) =
      String.ofList ((text.toList.take stop).drop start) := by
  have htext : text = String.ofList (text.toList.take start) ++
      (String.ofList ((text.toList.take stop).drop start) ++
        String.ofList (text.toList.drop stop)) := by
    rw [← String.append_assoc, ← ofList_take text hle, ← String.ofList_append,
      List.take_append_drop, String.ofList_toList]
  have hbytes : text.toByteArray = _ := congrArg String.toByteArray htext
  apply String.toByteArray_inj.mp
  rw [String.toByteArray_extract, hbytes]
  simp only [position, String.offset_pos]
  rw [byteIndex_add text hle, byteIndex_eq, toByteArray_middle]

end Slices

/-! ## The text around a position -/

theorem fst_around (text : List Char) (pos : Nat) :
    (around text pos).1 = ((text.take (pos + reach + 1)).drop (pos - reach)).map flatten := by
  unfold around
  rw [List.drop_take]

theorem length_around (text : List Char) (pos : Nat) :
    (around text pos).1.length = min (pos + reach + 1) text.length - (pos - reach) := by
  rw [fst_around]
  simp

theorem getElem?_around {text : List Char} {pos n : Nat} (hn : n < (around text pos).1.length) :
    (around text pos).1[n]? = (text[pos - reach + n]?).map flatten := by
  rw [length_around] at hn
  rw [fst_around, List.getElem?_map, List.getElem?_drop, List.getElem?_take_of_lt (by omega)]

theorem flatten_toChar (op : Instruction) : flatten op.toChar = op.toChar := by
  cases op <;> rfl

theorem getElem?_around_caret {text : List Char} {pos : Nat} {c : Char}
    (hc : text[pos]? = some c) : (around text pos).1[pos - (pos - reach)]? = some (flatten c) := by
  have hlt := (List.getElem?_eq_some_iff.mp hc).1
  rw [getElem?_around, Nat.add_sub_of_le (Nat.sub_le pos reach), hc]
  · rfl
  · rw [length_around]
    omega

end TapeMachine.Report

namespace TapeMachine

/-- The report about a bracket that does not match has three lines. The second shows what stands
around the bracket, up to 32 characters on either side, on one line: the bytes to cut out for it
begin and end with characters. The caret of the third stands under the bracket. -/
theorem caret_under_bracket (program : Option String) {code : String} {side : BracketSide}
    {index offset : Nat} (h : Program.load code = .error (.unmatched side index offset)) :
    let onOneLine (c : Char) := if c = '\n' ∨ c = '\r' ∨ c = '\t' then ' ' else c
    let stop := min (offset + 33) code.length
    ∃ header window column,
      (Report.loadError program code (.unmatched side index offset)).map
          (CommandLine.renderLine false) =
        [header, String.ofList (' ' :: ' ' :: window),
          String.ofList (List.replicate column ' ' ++ ['^'])] ∧
      window.length = stop - (offset - 32) ∧
      (∀ n < window.length, window[n]? = (code.toList[offset - 32 + n]?).map onOneLine) ∧
      (' ' :: ' ' :: window)[column]? = some side.instruction.toChar ∧
      ∃ first last : code.Pos, first ≤ last ∧
        first.offset.byteIdx = Report.byteIndex code (offset - 32) ∧
        last.offset.byteIdx = Report.byteIndex code stop ∧
        (code.extract first last).toList.map onOneLine = window := by
  intro onOneLine stop
  have hstands := (Program.load_unmatched_iff.mp h).2
  have hlt := hstands.lt_length
  rw [String.length_toList] at hlt
  refine ⟨_, (Report.around code.toList offset).1, _, rfl, ?_, fun n hn => ?_, ?_,
    Report.position code (offset - 32), Report.position code stop, ?_, rfl, rfl, ?_⟩
  · rw [Report.length_around, String.length_toList]
    rfl
  · exact Report.getElem?_around hn
  · rw [← Report.flatten_toChar side.instruction]
    exact Report.getElem?_around_caret hstands.char
  · exact Report.position_le code (by omega)
  · rw [Report.extract_position code (by omega), String.toList_ofList, Report.fst_around,
      List.take_eq_take_min (i := offset + Report.reach + 1), String.length_toList]
    rfl

theorem caret_under_bracket_wide :
    Program.load "ü\t]" = .error (.unmatched .closing 0 2) ∧
    ∃ header window column,
      (Report.loadError (some "bfvm") "ü\t]" (.unmatched .closing 0 2)).map
          (CommandLine.renderLine false) =
        [header, String.ofList (' ' :: ' ' :: window),
          String.ofList (List.replicate column ' ' ++ ['^'])] ∧
      window.length = 3 ∧ (' ' :: ' ' :: window)[column]? = some ']' := by
  have hload : Program.load "ü\t]" = .error (.unmatched .closing 0 2) := rfl
  obtain ⟨header, window, column, hlines, hlength, -, hcaret, -⟩ :=
    caret_under_bracket (some "bfvm") hload
  exact ⟨hload, header, window, column, hlines, hlength, hcaret⟩

end TapeMachine
