import TapeMachine.Proofs.Nesting
import TapeMachine.Proofs.Offsets

/-!
# Unmatched brackets

A source that does not load has no instruction at all, a `]` that nothing opens, or a `[` that
nothing closes. Which bracket is reported, and where, is told by counting brackets.
-/

namespace TapeMachine

def BracketSide.instruction : BracketSide → Instruction
  | opening => .loopOpen
  | closing => .loopClose

/-- Up to here and with this instruction, more brackets have been closed than opened. -/
def Unopened (ops : List Instruction) (index : Nat) : Prop :=
  index < ops.length ∧
    (ops.take (index + 1)).count .loopOpen < (ops.take (index + 1)).count .loopClose

/-- A `[` from which on more brackets are opened than closed, however far one reads. -/
def Unclosed (ops : List Instruction) (index : Nat) : Prop :=
  ops[index]? = some .loopOpen ∧ ∀ last, index ≤ last → last < ops.length →
    ((ops.take (last + 1)).drop index).count .loopClose <
      ((ops.take (last + 1)).drop index).count .loopOpen

structure FirstUnopened (ops : List Instruction) (index : Nat) : Prop where
  unopened : Unopened ops index
  first : ∀ i < index, ¬ Unopened ops i

structure LastUnclosed (ops : List Instruction) (index : Nat) : Prop where
  covered : ∀ i, ¬ Unopened ops i
  unclosed : Unclosed ops index
  last : ∀ i, Unclosed ops i → i ≤ index

/-! ## Counting brackets -/

section Counting

variable {ops before inside later : List Instruction} {i : Nat}

theorem covered_iff : Covered ops ↔ ∀ i, ¬ Unopened ops i := by
  constructor
  · intro h i hi
    exact absurd (h (i + 1)) (Nat.not_le.mpr hi.2)
  · intro h n
    apply Nat.le_of_not_lt
    intro hcount
    rw [List.take_eq_take_min] at hcount
    cases hread : min n ops.length with
    | zero => simp [hread] at hcount
    | succ i => exact h i ⟨by omega, hread ▸ hcount⟩

theorem FirstUnopened.unique {k : Nat} (h : FirstUnopened ops i) (h' : FirstUnopened ops k) :
    i = k := by
  have hle : ¬ i < k := fun hlt => h'.first i hlt h.unopened
  have hge : ¬ k < i := fun hlt => h.first k hlt h'.unopened
  omega

theorem LastUnclosed.unique {k : Nat} (h : LastUnclosed ops i) (h' : LastUnclosed ops k) :
    i = k :=
  Nat.le_antisymm (h'.last i h.unclosed) (h.last k h'.unclosed)

theorem Balanced.firstUnopened (h : Balanced before) (later : List Instruction) :
    FirstUnopened (before ++ .loopClose :: later) before.length := by
  have heven := h.even
  refine ⟨⟨by simp, ?_⟩, ?_⟩
  · simp [List.take_append, List.take_of_length_le]
    omega
  · rintro i hi ⟨-, hcount⟩
    rw [List.take_append_of_le_length hi] at hcount
    exact absurd (h.covered (i + 1)) (Nat.not_le.mpr hcount)

theorem Unclosed.drop_lt (h : Unclosed ops i) :
    (ops.drop i).count .loopClose < (ops.drop i).count .loopOpen := by
  have hi := (List.getElem?_eq_some_iff.mp h.1).1
  have hlast := h.2 (ops.length - 1) (by omega) (by omega)
  rwa [Nat.sub_add_cancel (by omega), List.take_length] at hlast

theorem Balanced.not_unclosed (h : Balanced ops) (i : Nat) : ¬ Unclosed ops i := by
  intro hi
  exact absurd (h.drop_le i) (Nat.not_le.mpr hi.drop_lt)

theorem Balanced.lastUnclosed (h : Balanced inside) (hbefore : Covered before) :
    LastUnclosed (before ++ .loopOpen :: inside) before.length := by
  refine ⟨covered_iff.mp (hbefore.append h.covered.cons_loopOpen), ⟨by simp, ?_⟩, ?_⟩
  · intro last hle _
    have hcovered := h.covered (last - before.length)
    rw [List.take_append, List.take_of_length_le (by omega), List.drop_left,
      show last + 1 - before.length = last - before.length + 1 by omega]
    simp
    omega
  · intro i hi
    apply Nat.le_of_not_lt
    intro hlt
    have hdrop := hi.drop_lt
    rw [List.drop_append, List.drop_of_length_le (by omega),
      show i - before.length = i - before.length - 1 + 1 by omega] at hdrop
    exact absurd (h.drop_le (i - before.length - 1)) (Nat.not_le.mpr hdrop)

end Counting

namespace Jumps

/-! ## What the pass reports -/

variable {ops : List Instruction} {index : Nat}

theorem closing_error_iff :
    ofInstructions ops = .error ⟨.closing, index⟩ ↔ FirstUnopened ops index := by
  rcases ofInstructions_cases ops with ⟨j, hj, hbalanced, -⟩ |
    ⟨before, later, rfl, hbefore, herror⟩ | ⟨before, inside, rfl, hbefore, hinside, herror⟩
  · simp only [hj, reduceCtorEq, false_iff]
    exact fun h => covered_iff.mp hbalanced.covered index h.unopened
  · have hfirst := hbefore.firstUnopened later
    simp only [herror, Except.error.injEq, BracketError.mk.injEq, true_and]
    exact ⟨fun heq => heq ▸ hfirst, hfirst.unique⟩
  · simp only [herror, Except.error.injEq, BracketError.mk.injEq, reduceCtorEq, false_and,
      false_iff]
    exact fun h => (hinside.lastUnclosed hbefore).covered index h.unopened

theorem opening_error_iff :
    ofInstructions ops = .error ⟨.opening, index⟩ ↔ LastUnclosed ops index := by
  rcases ofInstructions_cases ops with ⟨j, hj, hbalanced, -⟩ |
    ⟨before, later, rfl, hbefore, herror⟩ | ⟨before, inside, rfl, hbefore, hinside, herror⟩
  · simp only [hj, reduceCtorEq, false_iff]
    exact fun h => hbalanced.not_unclosed index h.unclosed
  · simp only [herror, Except.error.injEq, BracketError.mk.injEq, reduceCtorEq, false_and,
      false_iff]
    exact fun h => h.covered _ (hbefore.firstUnopened later).unopened
  · have hlast := hinside.lastUnclosed hbefore
    simp only [herror, Except.error.injEq, BracketError.mk.injEq, true_and]
    exact ⟨fun heq => heq ▸ hlast, hlast.unique⟩

theorem exists_ok_iff_matched :
    (∃ j, ofInstructions ops = .ok j) ↔ (∀ i, ¬ Unopened ops i) ∧ ∀ i, ¬ Unclosed ops i := by
  rcases ofInstructions_cases ops with ⟨j, hj, hbalanced, -⟩ |
    ⟨before, later, rfl, hbefore, herror⟩ | ⟨before, inside, rfl, hbefore, hinside, herror⟩
  · exact ⟨fun _ => ⟨covered_iff.mp hbalanced.covered, hbalanced.not_unclosed⟩, fun _ => ⟨j, hj⟩⟩
  · simp only [herror, reduceCtorEq, exists_false, false_iff]
    exact fun h => h.1 _ (hbefore.firstUnopened later).unopened
  · simp only [herror, reduceCtorEq, exists_false, false_iff]
    exact fun h => h.2 _ (hinside.lastUnclosed hbefore).unclosed

theorem op_of_error {e : BracketError} (h : ofInstructions ops = .error e) :
    ops[e.index]? = some e.side.instruction := by
  rcases ofInstructions_cases ops with ⟨j, hj, -⟩ | ⟨before, later, rfl, -, herror⟩ |
    ⟨before, inside, rfl, -, -, herror⟩
  · simp [hj] at h
  · obtain rfl := Except.error.inj (h.symm.trans herror)
    simp [BracketSide.instruction]
  · obtain rfl := Except.error.inj (h.symm.trans herror)
    simp [BracketSide.instruction]

end Jumps

/-! ## What loading reports -/

theorem Program.load_cases (source : String) :
    (instructionsIn source.toList = [] ∧ load source = .error .empty) ∨
    (∃ program j, instructionsIn source.toList ≠ [] ∧
      Jumps.ofInstructions (instructionsIn source.toList) = .ok j ∧ load source = .ok program) ∨
    (∃ e offset, Jumps.ofInstructions (instructionsIn source.toList) = .error e ∧
      StandsAt source.toList e.index offset e.side.instruction ∧
      load source = .error (.unmatched e.side e.index offset)) := by
  have hops := map_op_placedInstructions source.toList
  unfold load ofPlaced
  split
  · rename_i hpos
    have hne : instructionsIn source.toList ≠ [] := by
      apply List.ne_nil_of_length_pos
      rwa [← hops, List.length_map]
    split
    · rename_i j hj
      simp [hops] at hj
      exact Or.inr (Or.inl ⟨_, j, hne, hj, rfl⟩)
    · -- The index of a bracket is that of an instruction, so it has an offset.
      rename_i e he
      simp [hops] at he
      obtain ⟨offset, hstands⟩ := exists_standsAt (Jumps.op_of_error he)
      refine Or.inr (Or.inr ⟨e, offset, he, hstands, ?_⟩)
      simp [getElem?_placedInstructions.mpr hstands]
  · rename_i hnone
    left
    refine ⟨?_, rfl⟩
    rw [← hops]
    simpa using hnone

theorem Program.load_unmatched_iff {source : String} {side : BracketSide} {index offset : Nat} :
    load source = .error (.unmatched side index offset) ↔
      Jumps.ofInstructions (instructionsIn source.toList) = .error ⟨side, index⟩ ∧
        StandsAt source.toList index offset side.instruction := by
  rcases load_cases source with ⟨hnil, hload⟩ | ⟨program, j, -, hj, hload⟩ |
    ⟨e, offset', herror, hstands, hload⟩
  · simp [hload, hnil, Jumps.ofInstructions, Jumps.Pass.run]
  · simp [hload, hj]
  · simp only [hload, herror, Except.error.injEq, LoadError.unmatched.injEq]
    constructor
    · rintro ⟨rfl, rfl, rfl⟩
      exact ⟨rfl, hstands⟩
    · rintro ⟨rfl, hstands'⟩
      exact ⟨rfl, rfl, (hstands.unique hstands').1⟩

theorem Program.exists_unmatched_iff {source : String} {side : BracketSide} {index : Nat} :
    (∃ offset, load source = .error (.unmatched side index offset)) ↔
      Jumps.ofInstructions (instructionsIn source.toList) = .error ⟨side, index⟩ := by
  simp only [load_unmatched_iff, exists_and_left, and_iff_left_iff_imp]
  exact fun herror => exists_standsAt (Jumps.op_of_error herror)

theorem Program.load_empty_iff {source : String} :
    load source = .error .empty ↔ instructionsIn source.toList = [] := by
  rcases load_cases source with ⟨hnil, hload⟩ | ⟨program, j, hne, -, hload⟩ |
    ⟨e, offset, herror, hstands, hload⟩
  · simp [hload, hnil]
  · simp [hload, hne]
  · have hop := Jumps.op_of_error herror
    simp only [hload, Except.error.injEq, reduceCtorEq, false_iff]
    intro hnil
    simp [hnil] at hop

theorem Program.exists_load_iff {source : String} :
    (∃ program, load source = .ok program) ↔
      instructionsIn source.toList ≠ [] ∧
        ∃ j, Jumps.ofInstructions (instructionsIn source.toList) = .ok j := by
  rcases load_cases source with ⟨hnil, hload⟩ | ⟨program, j, hne, hj, hload⟩ |
    ⟨e, offset, herror, -, hload⟩
  · simp [hload, hnil]
  · simp [hload, hne, hj]
  · simp [hload, herror]

/-- Why a source does not load. It is empty if it has no instruction character. A `]` is reported
if it is the first one at which more brackets are closed than opened; a `[` if there is no such `]`,
and it is the last one that stays open. The offset is that of the very bracket, with as many
instructions before it as the index says. In all other cases the source loads. -/
theorem load_error_located (source : String) :
    let text := source.toList
    let ops := text.filterMap Instruction.ofChar?
    (Program.load source = .error .empty ↔ ∀ c ∈ text, Instruction.ofChar? c = none) ∧
    (∀ index, (∃ offset, Program.load source = .error (.unmatched .closing index offset)) ↔
      Unopened ops index ∧ ∀ i < index, ¬ Unopened ops i) ∧
    (∀ index, (∃ offset, Program.load source = .error (.unmatched .opening index offset)) ↔
      (∀ i, ¬ Unopened ops i) ∧ Unclosed ops index ∧ ∀ i, Unclosed ops i → i ≤ index) ∧
    (∀ side index offset, Program.load source = .error (.unmatched side index offset) →
      text[offset]? = some side.instruction.toChar ∧
      (text.take offset).countP (fun c => (Instruction.ofChar? c).isSome) = index) ∧
    ((∃ program, Program.load source = .ok program) ↔
      ops ≠ [] ∧ (∀ i, ¬ Unopened ops i) ∧ ∀ i, ¬ Unclosed ops i) := by
  intro text ops
  refine ⟨?_, ?_, ?_, ?_, ?_⟩
  · rw [Program.load_empty_iff]
    exact List.filterMap_eq_nil_iff
  · intro index
    rw [Program.exists_unmatched_iff, Jumps.closing_error_iff]
    exact ⟨fun h => ⟨h.unopened, h.first⟩, fun h => ⟨h.1, h.2⟩⟩
  · intro index
    rw [Program.exists_unmatched_iff, Jumps.opening_error_iff]
    exact ⟨fun h => ⟨h.covered, h.unclosed, h.last⟩, fun h => ⟨h.1, h.2.1, h.2.2⟩⟩
  · intro side index offset h
    have hstands := (Program.load_unmatched_iff.mp h).2
    exact ⟨hstands.char, hstands.before⟩
  · rw [Program.exists_load_iff, Jumps.exists_ok_iff_matched]
    rfl

end TapeMachine
