import TapeMachine.Proofs.Spans

/-!
# Queries that reach too far

A query for the characters of some instructions, or for some cells of the tape, may ask for more
than there is, and is answered with what there is. Both queries add a length to a position in 64
bits. The one for cells stops at the greatest number, so it is right for all arguments. The one for
characters wraps round instead, and past 2^64 its answer ends where it starts or before.
-/

namespace TapeMachine

/-! ## Arithmetic in 64 bits -/

namespace Word

/-- The sum, if it is a 64-bit number. -/
def add? (a b : UInt64) : Option UInt64 :=
  -- A sum that has wrapped round is below both summands.
  if a ≤ a + b then some (a + b) else none

/-- The difference, if it is not below zero. -/
def sub? (a b : UInt64) : Option UInt64 :=
  if b ≤ a then some (a - b) else none

/-- The sum, or the greatest 64-bit number where it is not one. -/
def saturatingAdd (a b : UInt64) : UInt64 :=
  (add? a b).getD (-1)

variable {a b : UInt64}

theorem toNat_lt_wordSize (a : UInt64) : a.toNat < Text.wordSize :=
  a.toNat_lt

theorem toNat_ofNat {n : Nat} (h : n < Text.wordSize) : (UInt64.ofNat n).toNat = n :=
  UInt64.toNat_ofNat_of_lt' h

theorem toNat_max_one (a : UInt64) : (max a 1).toNat = max a.toNat 1 :=
  UInt64.toNat_max a 1

theorem le_add_iff : a ≤ a + b ↔ a.toNat + b.toNat < Text.wordSize := by
  have ha := toNat_lt_wordSize a
  have hb := toNat_lt_wordSize b
  rw [UInt64.le_iff_toNat_le, UInt64.toNat_add]
  unfold Text.wordSize at *
  omega

theorem exists_add (h : a.toNat + b.toNat < Text.wordSize) :
    ∃ c, add? a b = some c ∧ c.toNat = a.toNat + b.toNat := by
  refine ⟨a + b, if_pos (le_add_iff.mpr h), ?_⟩
  rw [UInt64.toNat_add]
  exact Nat.mod_eq_of_lt h

theorem add?_eq_none (h : Text.wordSize ≤ a.toNat + b.toNat) : add? a b = none :=
  if_neg (mt le_add_iff.mp (Nat.not_lt.mpr h))

theorem exists_sub (h : b.toNat ≤ a.toNat) :
    ∃ c, sub? a b = some c ∧ c.toNat = a.toNat - b.toNat :=
  have hle : b ≤ a := UInt64.le_iff_toNat_le.mpr h
  ⟨a - b, if_pos hle, UInt64.toNat_sub_of_le a b hle⟩

theorem toNat_saturatingAdd (a b : UInt64) :
    (saturatingAdd a b).toNat = min (a.toNat + b.toNat) (Text.wordSize - 1) := by
  unfold saturatingAdd
  by_cases hfits : a.toNat + b.toNat < Text.wordSize
  · obtain ⟨c, hsum, hexact⟩ := exists_add hfits
    rw [hsum, Option.getD_some]
    omega
  · rw [add?_eq_none (Nat.not_lt.mp hfits), Nat.min_eq_right (by omega)]
    rfl

end Word

/-! ## Spans -/

namespace Program

/-- The span goes from the character of instruction `first` to that of instruction `last`. -/
structure Covers (p : Program) (span : Span) (first last : Nat) : Prop where
  start : p.offset? first = some span.start
  stop : ∃ offset, p.offset? last = some offset ∧ span.stop = offset + 1

/-- The span, but with a failure where a 64-bit number would have to wrap round. -/
def checkedSpan (p : Program) (start len : UInt64) : Option Span :=
  match p.offset? start.toNat with
  | none => some ⟨0, 0⟩
  | some first => do
    let behind ← Word.add? start (max len 1)
    let last ← Word.sub? behind 1
    let greatest ← Word.sub? (.ofNat p.size) 1
    let offset ← p.offset? (min last greatest).toNat
    let stop ← Word.add? (.ofNat offset) 1
    return ⟨first, stop.toNat⟩

section Lookup

variable {p : Program} {source : String} {index offset : Nat}

theorem offset?_eq_none (h : p.size ≤ index) : p.offset? index = none :=
  congrArg (Option.map Placed.offset) (Array.getElem?_eq_none h)

theorem exists_offset (h : index < p.size) : ∃ offset, p.offset? index = some offset :=
  ⟨_, congrArg (Option.map Placed.offset) (Array.getElem?_eq_getElem h)⟩

theorem standsAt_of_offset (hload : load source = .ok p) (h : p.offset? index = some offset) :
    ∃ op, StandsAt source.toList index offset op := by
  obtain ⟨⟨op, _⟩, hcode, rfl⟩ := Option.map_eq_some_iff.mp h
  exact ⟨op, (getElem?_code hload).mp hcode⟩

end Lookup

section Spans

variable {p : Program} {source : String} {span : Span} {start len first last : Nat}

theorem span_of_size_le (h : p.size ≤ start) : p.span start len = ⟨0, 0⟩ := by
  unfold span
  rw [offset?_eq_none h]

theorem covers_span (h : start < p.size) :
    p.Covers (p.span start len) start (min (lastIndex start len) (p.size - 1)) := by
  obtain ⟨first, hfirst⟩ := exists_offset h
  have hlast : min (lastIndex start len) (p.size - 1) < p.code.size := by
    unfold size at *
    omega
  unfold span
  rw [hfirst]
  exact ⟨hfirst, _, congrArg (Option.map Placed.offset) (Array.getElem?_eq_getElem hlast), rfl⟩

theorem Covers.start_lt_stop_iff (h : p.Covers span first last) (hload : load source = .ok p) :
    span.start < span.stop ↔ first ≤ last := by
  obtain ⟨offset, hoffset, hstop⟩ := h.stop
  obtain ⟨_, hfirst⟩ := standsAt_of_offset hload h.start
  obtain ⟨_, hlast⟩ := standsAt_of_offset hload hoffset
  have horder := hlast.offset_lt_iff hfirst
  omega

theorem Covers.stop_le_length (h : p.Covers span first last) (hload : load source = .ok p) :
    span.stop ≤ source.length := by
  obtain ⟨offset, hoffset, hstop⟩ := h.stop
  obtain ⟨_, hlast⟩ := standsAt_of_offset hload hoffset
  rw [hstop]
  exact hlast.lt_length

theorem lastIndex_max (start len : Nat) : lastIndex start (max len 1) = lastIndex start len := by
  unfold lastIndex
  rw [Nat.max_assoc, Nat.max_self]

theorem lastIndex_of_le (h : start + max len 1 ≤ Text.wordSize) :
    lastIndex start len = start + max len 1 - 1 := by
  rw [← lastIndex_max, lastIndex_eq (by omega) h]

theorem lastIndex_of_lt (hstart : start < Text.wordSize) (hlen : len < Text.wordSize)
    (h : Text.wordSize < start + max len 1) :
    lastIndex start len = start + max len 1 - 1 - Text.wordSize := by
  rw [← lastIndex_max, lastIndex_eq_mod (by omega), Nat.mod_eq_sub_mod (by omega),
    Nat.mod_eq_of_lt (by omega)]

end Spans

section Words

variable {p : Program} {source : String} {start len : UInt64}

theorem lastIndex_toNat (start len : UInt64) :
    lastIndex start.toNat len.toNat = (start + max len 1 - 1).toNat := by
  have hone : (1 : UInt64).toNat = 1 := rfl
  rw [UInt64.toNat_sub, UInt64.toNat_add, Word.toNat_max_one, hone]
  unfold lastIndex Text.wordSize
  omega

theorem covers_span_of_le (h : start.toNat < p.size)
    (hfits : start.toNat + max len.toNat 1 ≤ Text.wordSize) :
    p.Covers (p.span start.toNat len.toNat) start.toNat
      (min (start.toNat + max len.toNat 1 - 1) (p.size - 1)) := by
  rw [← lastIndex_of_le hfits]
  exact covers_span h

theorem covers_span_of_lt (h : start.toNat < p.size)
    (hover : Text.wordSize < start.toNat + max len.toNat 1) :
    p.Covers (p.span start.toNat len.toNat) start.toNat
      (start.toNat + max len.toNat 1 - 1 - Text.wordSize) := by
  have hlen := Word.toNat_lt_wordSize len
  have hlast := lastIndex_of_lt (Word.toNat_lt_wordSize start) hlen hover
  have hmin : min (lastIndex start.toNat len.toNat) (p.size - 1) =
      start.toNat + max len.toNat 1 - 1 - Text.wordSize := by omega
  rw [← hmin]
  exact covers_span h

theorem checkedSpan_of_size_le (h : p.size ≤ start.toNat) :
    p.checkedSpan start len = some (p.span start.toNat len.toNat) := by
  unfold checkedSpan
  rw [offset?_eq_none h, span_of_size_le h]

theorem checkedSpan_eq_none (h : start.toNat < p.size)
    (hover : Text.wordSize ≤ start.toNat + max len.toNat 1) : p.checkedSpan start len = none := by
  obtain ⟨first, hfirst⟩ := exists_offset h
  rw [← Word.toNat_max_one] at hover
  unfold checkedSpan
  rw [hfirst]
  simp only [Word.add?_eq_none hover]
  rfl

theorem checkedSpan_eq_span (hload : load source = .ok p) (htext : source.length < Text.wordSize)
    (h : start.toNat < p.size) (hfits : start.toNat + max len.toNat 1 < Text.wordSize) :
    p.checkedSpan start len = some (p.span start.toNat len.toNat) := by
  have hcovers := covers_span_of_le h (Nat.le_of_lt hfits)
  have hend := hcovers.stop_le_length hload
  obtain ⟨offset, hoffset, hstop⟩ := hcovers.stop
  have hsize : (UInt64.ofNat p.size).toNat = p.size :=
    Word.toNat_ofNat (Nat.lt_of_le_of_lt (size_le_of_load hload) htext)
  have hword : (UInt64.ofNat offset).toNat = offset := Word.toNat_ofNat (by omega)
  have hone : (1 : UInt64).toNat = 1 := rfl
  -- No step fails: the first sum fits, a program has an instruction, and offsets lie in the text.
  obtain ⟨behind, hadd, hbehind⟩ := Word.exists_add (Word.toNat_max_one len ▸ hfits)
  rw [Word.toNat_max_one] at hbehind
  obtain ⟨last, hsub, hlast⟩ := Word.exists_sub (a := behind) (b := 1) (by omega)
  obtain ⟨greatest, hsub', hgreatest⟩ := Word.exists_sub (a := .ofNat p.size) (b := 1) (by omega)
  obtain ⟨stop, hadd', hstop'⟩ := Word.exists_add (a := .ofNat offset) (b := 1) (by omega)
  have hindex : (min last greatest).toNat =
      min (start.toNat + max len.toNat 1 - 1) (p.size - 1) := by
    rw [UInt64.toNat_min, hlast, hgreatest, hbehind, hsize, hone]
  have hspan : stop.toNat = (p.span start.toNat len.toNat).stop := by
    rw [hstop', hstop, hword, hone]
  unfold checkedSpan
  rw [hcovers.start]
  simp only [hadd, hsub, hsub', hindex, hoffset, hadd', hspan, Option.bind_eq_bind,
    Option.bind_some]
  rfl

end Words

end Program

/-! ## Windows -/

namespace Tape

/-- The cells of a window, but with a failure where they would lie outside the tape. Its bounds are
found in 64-bit arithmetic. -/
def checkedWindow (t : Tape) (base len : UInt64) : Option (List UInt8) :=
  let size := UInt64.ofNat t.capacity
  let first := min base size
  let last := min (Word.saturatingAdd base len) size
  if first ≤ last ∧ last.toNat ≤ t.capacity then
    some (t.cells.extract first.toNat last.toNat).toList
  else none

theorem filter_between (cells : List UInt8) (base len : Nat) :
    (cells.zipIdx.filter fun c => base ≤ c.2 ∧ c.2 < base + len).map Prod.fst =
      (cells.drop base).take len := by
  induction cells using List.reverseRecOn with
  | nil => simp
  | append_singleton cells cell ih =>
    rw [List.zipIdx_append, List.filter_append, List.map_append, ih, List.drop_append,
      List.take_append, List.length_drop, List.zipIdx_singleton, Nat.zero_add]
    congr 1
    by_cases hin : base ≤ cells.length ∧ cells.length < base + len
    · rw [Nat.sub_eq_zero_of_le hin.1, List.drop_zero,
        List.take_of_length_le (by rw [List.length_singleton]; omega)]
      simp [hin]
    · have hnone : ([cell].drop (base - cells.length)).take (len - (cells.length - base)) = [] := by
        rw [List.take_eq_nil_iff, List.drop_eq_nil_iff, List.length_singleton]
        omega
      rw [hnone]
      simpa using hin

theorem extract_min (cells : Array UInt8) (base len : Nat) :
    cells.extract (min base cells.size) (min (base + len) cells.size) =
      cells.extract base (base + len) := by
  apply Array.ext
  · simp only [Array.size_extract]
    omega
  · intro i _ hi
    rw [Array.size_extract] at hi
    simp only [Array.getElem_extract]
    congr 1
    omega

theorem window_eq_filter (t : Tape) (base len : Nat) :
    t.window base len =
      (t.cells.toList.zipIdx.filter fun c => base ≤ c.2 ∧ c.2 < base + len).map Prod.fst := by
  unfold window
  rw [filter_between, Array.toList_extract, List.extract_eq_take_drop, Nat.add_sub_cancel_left]

theorem checkedWindow_eq_window (t : Tape) (hfits : t.capacity < Text.wordSize)
    (base len : UInt64) : t.checkedWindow base len = some (t.window base.toNat len.toNat) := by
  have hbase := Word.toNat_lt_wordSize base
  have hfirst : (min base (UInt64.ofNat t.capacity)).toNat = min base.toNat t.capacity := by
    rw [UInt64.toNat_min, Word.toNat_ofNat hfits]
  -- The greatest number is not below the capacity, so the sum may well stop at it.
  have hlast : (min (Word.saturatingAdd base len) (UInt64.ofNat t.capacity)).toNat =
      min (base.toNat + len.toNat) t.capacity := by
    rw [UInt64.toNat_min, Word.toNat_saturatingAdd, Word.toNat_ofNat hfits]
    omega
  unfold checkedWindow window
  rw [if_pos]
  · rw [hfirst, hlast]
    exact congrArg (fun cells => some cells.toList) (extract_min t.cells _ _)
  · rw [UInt64.le_iff_toNat_le, hfirst, hlast]
    omega

end Tape

/-- Queries with any two 64-bit numbers. A span that starts behind the last instruction of a program
is empty. Any other goes from the first instruction asked for to the last one, or to the last one of
the program, as long as what is asked for adds up to no more than 2^64; it is then not empty and
lies in the text. Past 2^64 the sum wraps round, so the span goes back to an instruction before the
first one and holds nothing. The first sum that does not fit 64 bits is 2^64 itself, where only an
arithmetic that fails on overflow gives no answer. A window is always the cells with the indices
asked for, without an overflow and without a look outside of the tape. -/
theorem queries_clamped (start len : UInt64) :
    (∀ source program, Program.load source = .ok program →
      let span := program.span start.toNat len.toNat
      let behind := start.toNat + max len.toNat 1
      Program.lastIndex start.toNat len.toNat = (start + max len 1 - 1).toNat ∧
      (program.size ≤ start.toNat → span = ⟨0, 0⟩) ∧
      (start.toNat < program.size → behind ≤ Text.wordSize →
        program.Covers span start.toNat (min (behind - 1) (program.size - 1)) ∧
          span.start < span.stop ∧ span.stop ≤ source.length) ∧
      (start.toNat < program.size → Text.wordSize < behind →
        program.Covers span start.toNat (behind - 1 - Text.wordSize) ∧
          span.stop ≤ span.start) ∧
      (source.length < Text.wordSize → program.checkedSpan start len =
        if start.toNat < program.size ∧ Text.wordSize ≤ behind then none else some span)) ∧
    (∀ tape : Tape,
      let window := tape.window start.toNat len.toNat
      window = (tape.cells.toList.zipIdx.filter fun c =>
        start.toNat ≤ c.2 ∧ c.2 < start.toNat + len.toNat).map Prod.fst ∧
      (tape.capacity < Text.wordSize → tape.checkedWindow start len = some window)) := by
  constructor
  · intro source program hload span behind
    refine ⟨Program.lastIndex_toNat start len, Program.span_of_size_le, ?_, ?_, ?_⟩
    · intro hstart hfits
      have hcovers := Program.covers_span_of_le hstart hfits
      exact ⟨hcovers, (hcovers.start_lt_stop_iff hload).mpr (by omega),
        hcovers.stop_le_length hload⟩
    · intro hstart hover
      have hcovers := Program.covers_span_of_lt hstart hover
      have hlen := Word.toNat_lt_wordSize len
      refine ⟨hcovers, Nat.not_lt.mp ?_⟩
      rw [hcovers.start_lt_stop_iff hload]
      omega
    · intro htext
      split
      · rename_i hover
        exact Program.checkedSpan_eq_none hover.1 hover.2
      · by_cases hstart : start.toNat < program.size
        · exact Program.checkedSpan_eq_span hload htext hstart (by omega)
        · exact Program.checkedSpan_of_size_le (Nat.not_lt.mp hstart)
  · intro tape window
    exact ⟨tape.window_eq_filter _ _, fun hfits => tape.checkedWindow_eq_window hfits start len⟩

theorem queries_clamped_at_limit :
    (∃ program, Program.load "+ + +." = .ok program ∧
      program.span 9 1 = ⟨0, 0⟩ ∧
      program.Covers (program.span 1 0xFFFFFFFFFFFFFFFF) 1 3 ∧
      program.Covers (program.span 3 0xFFFFFFFFFFFFFFFF) 3 1 ∧
      program.checkedSpan 0 0xFFFFFFFFFFFFFFFF = some ⟨0, 6⟩) ∧
    (Tape.blank 20).checkedWindow 16 0xFFFFFFFFFFFFFFFF = some [0, 0, 0, 0] := by
  refine ⟨⟨_, rfl, ?_, ?_, ?_, ?_⟩, ?_⟩
  · exact ((queries_clamped 9 1).1 "+ + +." _ rfl).2.1 (by decide)
  · exact (((queries_clamped 1 0xFFFFFFFFFFFFFFFF).1 "+ + +." _ rfl).2.2.1 (by decide)
      (by decide)).1
  · exact (((queries_clamped 3 0xFFFFFFFFFFFFFFFF).1 "+ + +." _ rfl).2.2.2.1 (by decide)
      (by decide)).1
  · exact ((queries_clamped 0 0xFFFFFFFFFFFFFFFF).1 "+ + +." _ rfl).2.2.2.2 (by decide)
  · exact ((queries_clamped 16 0xFFFFFFFFFFFFFFFF).2 (.blank 20)).2 (by decide)

/-- At one more than 2^64 the span of the last `+` ends before it starts. -/
theorem span_turned_round :
    ∃ program, Program.load "+++" = .ok program ∧
      let start : UInt64 := 2
      let len : UInt64 := 0xFFFFFFFFFFFFFFFF
      let span := program.span start.toNat len.toNat
      let last := min (start.toNat + max len.toNat 1 - 1) (program.size - 1)
      start.toNat < program.size ∧ program.Covers ⟨2, 3⟩ start.toNat last ∧
      span = ⟨2, 1⟩ ∧ ¬program.Covers span start.toNat last ∧
      program.checkedSpan start len = none := by
  refine ⟨_, rfl, ?_⟩
  intro start len span last
  have hspan : span = ⟨2, 1⟩ := by decide +kernel
  refine ⟨by decide, ⟨rfl, 2, rfl, rfl⟩, hspan, ?_, by decide +kernel⟩
  rintro ⟨-, offset, hoffset, hstop⟩
  obtain rfl : 2 = offset := Option.some.inj hoffset
  rw [hspan] at hstop
  cases hstop

end TapeMachine
