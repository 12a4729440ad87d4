import Mathlib.Data.List.Induction
import TapeMachine.Program

/-!
# Where instructions stand

An instruction of a text is told by its index among the instructions or by its offset among the
characters. The two orders agree, and what lies between two offsets are the instructions between
the two indices.
-/

namespace TapeMachine

theorem Instruction.ofChar?_eq_some_iff {c : Char} {op : Instruction} :
    ofChar? c = some op ↔ c = op.toChar := by
  constructor
  · intro h
    unfold ofChar? at h
    split at h
    all_goals simp_all [toChar]
    all_goals subst h; rfl
  · rintro rfl
    exact ofChar?_toChar op

def instructionsIn (text : List Char) : List Instruction :=
  text.filterMap Instruction.ofChar?

/-- Instruction `index` of the text is `op` and stands at `offset`: its character is there, behind
as many instruction characters as the index says. -/
structure StandsAt (text : List Char) (index offset : Nat) (op : Instruction) : Prop where
  char : text[offset]? = some op.toChar
  before : (text.take offset).countP (fun c => (Instruction.ofChar? c).isSome) = index

theorem length_instructionsIn (text : List Char) :
    (instructionsIn text).length = text.countP fun c => (Instruction.ofChar? c).isSome :=
  List.length_filterMap_eq_countP

/-! ## The list of places -/

theorem placedInstructions_concat (text : List Char) (c : Char) :
    placedInstructions (text ++ [c]) =
      placedInstructions text ++ ((Instruction.ofChar? c).map (⟨·, text.length⟩)).toList := by
  unfold placedInstructions
  rw [List.zipIdx_append, List.filterMap_append]
  cases h : Instruction.ofChar? c <;> simp [h]

theorem map_op_placedInstructions (text : List Char) :
    (placedInstructions text).map Placed.op = instructionsIn text := by
  induction text using List.reverseRecOn with
  | nil => rfl
  | append_singleton text c ih =>
    rw [placedInstructions_concat, List.map_append, ih]
    cases h : Instruction.ofChar? c <;> simp [instructionsIn, h]

section Places

variable {text : List Char} {index offset index' offset' : Nat} {op op' : Instruction}

theorem StandsAt.lt_length (h : StandsAt text index offset op) : offset < text.length :=
  (List.getElem?_eq_some_iff.mp h.char).1

theorem StandsAt.append (h : StandsAt text index offset op) (later : List Char) :
    StandsAt (text ++ later) index offset op := by
  have hlt := h.lt_length
  constructor
  · rw [List.getElem?_append_left hlt, h.char]
  · rw [List.take_append_of_le_length (by omega), h.before]

theorem StandsAt.countP_take_succ (h : StandsAt text index offset op) :
    (text.take (offset + 1)).countP (fun c => (Instruction.ofChar? c).isSome) = index + 1 := by
  simp [List.take_add_one, h.char, h.before]

theorem StandsAt.lt_countP_take (h : StandsAt text index offset op) {n : Nat} (hn : offset < n) :
    index < (text.take n).countP fun c => (Instruction.ofChar? c).isSome := by
  have hprefix : text.take (offset + 1) <+: text.take n := List.take_prefix_take_left hn
  have hle := hprefix.countP_le (p := fun c => (Instruction.ofChar? c).isSome)
  rwa [h.countP_take_succ] at hle

theorem StandsAt.offset_lt_iff (h : StandsAt text index offset op)
    (h' : StandsAt text index' offset' op') : offset < offset' ↔ index < index' := by
  have hforth (hlt : offset < offset') : index < index' := h'.before ▸ h.lt_countP_take hlt
  have hback (hlt : offset' < offset) : index' < index := h.before ▸ h'.lt_countP_take hlt
  have hsame (heq : offset = offset') : index = index' := by rw [← h.before, ← h'.before, heq]
  omega

theorem StandsAt.unique (h : StandsAt text index offset op)
    (h' : StandsAt text index offset' op') : offset = offset' ∧ op = op' := by
  have hle := h.offset_lt_iff h'
  have hge := h'.offset_lt_iff h
  obtain rfl : offset = offset' := by omega
  refine ⟨rfl, Option.some.inj ?_⟩
  rw [← Instruction.ofChar?_toChar op, ← Instruction.ofChar?_toChar op']
  exact congrArg _ (Option.some.inj (h.char.symm.trans h'.char))

theorem standsAt_of_placed (h : (placedInstructions text)[index]? = some ⟨op, offset⟩) :
    StandsAt text index offset op := by
  induction text using List.reverseRecOn with
  | nil => cases h
  | append_singleton text c ih =>
    rw [placedInstructions_concat, List.getElem?_append] at h
    split at h
    · exact (ih h).append _
    · -- Nothing is left but the last character, and it is the instruction.
      obtain ⟨placed, hplaced, heq⟩ : ∃ placed, Instruction.ofChar? c = some placed ∧
          index = (placedInstructions text).length ∧ placed = op ∧ text.length = offset := by
        cases hc : Instruction.ofChar? c with
        | none => simp [hc] at h
        | some placed =>
          have hzero : index - (placedInstructions text).length = 0 := by
            have := (List.getElem?_eq_some_iff.mp h).1
            simpa [hc] using this
          simp [hc, hzero] at h
          exact ⟨placed, rfl, by omega, h⟩
      obtain ⟨hindex, rfl, rfl⟩ := heq
      have hlength := congrArg List.length (map_op_placedInstructions text)
      rw [List.length_map, length_instructionsIn, ← hindex] at hlength
      exact ⟨by simp [Instruction.ofChar?_eq_some_iff.mp hplaced], by simp [hlength]⟩

theorem getElem?_placedInstructions :
    (placedInstructions text)[index]? = some ⟨op, offset⟩ ↔ StandsAt text index offset op := by
  refine ⟨standsAt_of_placed, fun h => ?_⟩
  have hlt : index < (placedInstructions text).length := by
    have hcount := h.lt_countP_take h.lt_length
    rwa [List.take_length, ← length_instructionsIn, ← map_op_placedInstructions,
      List.length_map] at hcount
  obtain ⟨⟨op', offset'⟩, hplaced⟩ : ∃ placed, (placedInstructions text)[index]? = some placed :=
    ⟨_, List.getElem?_eq_getElem hlt⟩
  obtain ⟨rfl, rfl⟩ := h.unique (standsAt_of_placed hplaced)
  exact hplaced

theorem exists_standsAt (h : (instructionsIn text)[index]? = some op) :
    ∃ offset, StandsAt text index offset op := by
  rw [← map_op_placedInstructions, List.getElem?_map] at h
  obtain ⟨⟨op', offset⟩, hplaced, rfl⟩ := Option.map_eq_some_iff.mp h
  exact ⟨offset, standsAt_of_placed hplaced⟩

/-! ## The instructions between two offsets -/

theorem instructionsIn_split (text : List Char) (n : Nat) :
    instructionsIn text = instructionsIn (text.take n) ++ instructionsIn (text.drop n) := by
  unfold instructionsIn
  rw [← List.filterMap_append, List.take_append_drop]

theorem instructionsIn_take (text : List Char) (n : Nat) :
    instructionsIn (text.take n) =
      (instructionsIn text).take
        ((text.take n).countP fun c => (Instruction.ofChar? c).isSome) := by
  rw [instructionsIn_split text n, List.take_left' (length_instructionsIn _)]

theorem instructionsIn_drop (text : List Char) (n : Nat) :
    instructionsIn (text.drop n) =
      (instructionsIn text).drop
        ((text.take n).countP fun c => (Instruction.ofChar? c).isSome) := by
  rw [instructionsIn_split text n, List.drop_left' (length_instructionsIn _)]

theorem StandsAt.instructionsIn_between (h : StandsAt text index offset op)
    (h' : StandsAt text index' offset' op') (hle : offset ≤ offset') :
    instructionsIn ((text.take (offset' + 1)).drop offset) =
      ((instructionsIn text).take (index' + 1)).drop index := by
  rw [instructionsIn_drop, List.take_take, Nat.min_eq_left (by omega), h.before,
    instructionsIn_take, h'.countP_take_succ]

end Places

/-! ## The places of a program -/

theorem Program.code_of_load {source : String} {program : Program}
    (h : Program.load source = .ok program) :
    program.code = (placedInstructions source.toList).toArray := by
  unfold load ofPlaced at h
  split at h
  · split at h
    · obtain rfl := Except.ok.inj h
      rfl
    · cases h
  · cases h

theorem Program.getElem?_code {source : String} {program : Program} {index offset : Nat}
    {op : Instruction} (h : Program.load source = .ok program) :
    program.code[index]? = some ⟨op, offset⟩ ↔ StandsAt source.toList index offset op := by
  rw [code_of_load h, List.getElem?_toArray, getElem?_placedInstructions]

theorem Program.ops_of_load {source : String} {program : Program}
    (h : Program.load source = .ok program) : program.ops = instructionsIn source.toList := by
  unfold ops
  rw [code_of_load h]
  exact map_op_placedInstructions source.toList

end TapeMachine
