import TapeMachine.Proofs.Reports
import TapeMachine.Proofs.Offsets

/-!
# Highlighted spans

A highlight covers the characters of the instructions that its step takes, with the comments
between them. Two highlights of one run are of the same instructions or do not meet: no step begins
inside of what another one takes.
-/

namespace TapeMachine

/-! ## Stretches of a program -/

/-- `run` instructions `op` from `index` on that one step takes: all that stand there in a row if
such ones are taken together, and otherwise a single one. -/
structure Stretch (program : Program) (together : Bool) (index run : Nat) (op : Instruction) :
    Prop where
  pos : 0 < run
  same : ∀ k < run, program.op? (index + k) = some op
  extent : if together = true ∧ (op = .increment ∨ op = .decrement) then
      program.op? (index + run) ≠ some op ∧ (index = 0 ∨ program.op? (index - 1) ≠ some op)
    else run = 1

section Stretches

variable {program : Program} {together : Bool} {index run index' run' : Nat} {op op' : Instruction}

theorem Stretch.op_last (h : Stretch program together index run op) :
    program.op? (index + run - 1) = some op := by
  have hpos := h.pos
  rw [Nat.add_sub_assoc hpos]
  exact h.same (run - 1) (by omega)

theorem Stretch.le_size (h : Stretch program together index run op) :
    index + run ≤ program.size := by
  have hpos := h.pos
  have hlast := Program.lt_size_of_op h.op_last
  omega

theorem Stretch.le_of_lt (h : Stretch program together index run op)
    (h' : Stretch program together index' run' op') (hlt : index < index') :
    index + run ≤ index' := by
  apply Nat.le_of_not_lt
  intro hinside
  have hhere : program.op? index' = some op := by
    have := h.same (index' - index) (by omega)
    rwa [Nat.add_sub_of_le (Nat.le_of_lt hlt)] at this
  have hbefore : program.op? (index' - 1) = some op := by
    have := h.same (index' - 1 - index) (by omega)
    rwa [Nat.add_sub_of_le (by omega)] at this
  obtain rfl : op = op' := Option.some.inj (hhere.symm.trans (h'.same 0 h'.pos))
  have hextent := h.extent
  have hextent' := h'.extent
  split at hextent
  · rename_i hjoins
    rw [if_pos hjoins] at hextent'
    rcases hextent'.2 with hzero | hne
    · omega
    · exact hne hbefore
  · omega

theorem Stretch.ops_eq (h : Stretch program together index run op) :
    (program.ops.take (index + run)).drop index = List.replicate run op := by
  apply List.ext_getElem?
  intro k
  rw [List.getElem?_drop, List.getElem?_take, List.getElem?_replicate]
  by_cases hk : k < run
  · rw [if_pos (by omega), if_pos hk, ← h.same k hk]
    simp [Program.ops, Program.op?]
  · rw [if_neg (by omega), if_neg hk]

end Stretches

/-! ## The characters of a stretch -/

namespace Program

theorem lastIndex_eq {start len : Nat} (hpos : 0 < len) (hfits : start + len ≤ Text.wordSize) :
    lastIndex start len = start + len - 1 := by
  rw [lastIndex_eq_mod hpos, Nat.mod_eq_of_lt (by omega)]

theorem span_eq {p : Program} {start len first last : Nat} {op op' : Instruction} (hpos : 0 < len)
    (hfits : start + len ≤ Text.wordSize) (hfirst : p.code[start]? = some ⟨op, first⟩)
    (hlast : p.code[start + len - 1]? = some ⟨op', last⟩) :
    p.span start len = ⟨first, last + 1⟩ := by
  obtain ⟨hlt, hcode⟩ := Array.getElem?_eq_some_iff.mp hlast
  have hmin : min (lastIndex start len) (p.size - 1) = start + len - 1 := by
    rw [lastIndex_eq hpos hfits]
    exact Nat.min_eq_left (Nat.le_sub_one_of_lt hlt)
  have hoffset : p.offset? start = some first := by simp [offset?, hfirst]
  unfold span
  rw [hoffset]
  simp only [hmin]
  rw [hcode]

theorem size_le_of_load {source : String} {program : Program}
    (h : Program.load source = .ok program) : program.size ≤ source.length := by
  have hops := congrArg List.length (ops_of_load h)
  rw [length_instructionsIn, ops, List.length_map, Array.length_toList] at hops
  unfold size
  rw [hops]
  exact List.countP_le_length

theorem exists_standsAt_of_op {source : String} {program : Program} {index : Nat}
    {op : Instruction} (hload : Program.load source = .ok program)
    (hop : program.op? index = some op) :
    ∃ offset, program.code[index]? = some ⟨op, offset⟩ ∧
      StandsAt source.toList index offset op := by
  obtain ⟨⟨op', offset⟩, hcode, rfl⟩ := Option.map_eq_some_iff.mp hop
  exact ⟨offset, hcode, (getElem?_code hload).mp hcode⟩

end Program

section Places

variable {source : String} {program : Program} {together : Bool} {index run index' run' : Nat}
  {op op' : Instruction}

theorem Stretch.span_eq (h : Stretch program together index run op)
    (hload : Program.load source = .ok program) (hfits : source.length ≤ Text.wordSize) :
    ∃ first last, program.span index run = ⟨first, last + 1⟩ ∧ first ≤ last ∧
      StandsAt source.toList index first op ∧
      StandsAt source.toList (index + run - 1) last op := by
  have hpos := h.pos
  have hword : index + run ≤ Text.wordSize :=
    Nat.le_trans h.le_size (Nat.le_trans (Program.size_le_of_load hload) hfits)
  obtain ⟨first, hcode, hfirst⟩ := Program.exists_standsAt_of_op hload (h.same 0 hpos)
  obtain ⟨last, hcode', hlast⟩ := Program.exists_standsAt_of_op hload h.op_last
  refine ⟨first, last, Program.span_eq hpos hword hcode hcode', ?_, hfirst, hlast⟩
  apply Nat.le_of_not_lt
  rw [hlast.offset_lt_iff hfirst]
  omega

theorem Stretch.stop_le_start (h : Stretch program together index run op)
    (h' : Stretch program together index' run' op') (hload : Program.load source = .ok program)
    (hfits : source.length ≤ Text.wordSize) (hlt : index < index') :
    (program.span index run).stop ≤ (program.span index' run').start := by
  obtain ⟨first, last, hspan, -, -, hlast⟩ := h.span_eq hload hfits
  obtain ⟨first', last', hspan', -, hfirst', -⟩ := h'.span_eq hload hfits
  have hpos := h.pos
  have hle := h.le_of_lt h' hlt
  rw [hspan, hspan']
  exact (hlast.offset_lt_iff hfirst').mpr (by omega)

theorem Stretch.instructionsIn_eq {first last : Nat} (h : Stretch program together index run op)
    (hload : Program.load source = .ok program) (hfirst : StandsAt source.toList index first op)
    (hlast : StandsAt source.toList (index + run - 1) last op) (hle : first ≤ last) :
    instructionsIn ((source.toList.take (last + 1)).drop first) = List.replicate run op := by
  have hpos := h.pos
  rw [hfirst.instructionsIn_between hlast hle, ← Program.ops_of_load hload,
    Nat.sub_add_cancel (by omega), h.ops_eq]

end Places

/-! ## What a highlight shows -/

namespace Machine

theorem reach_eq (m : Machine) (op : Instruction) :
    m.reach op = if m.config.coalesce = true ∧ (op = .increment ∨ op = .decrement) then
      m.program.runLength m.pc else 1 := by
  cases op <;> simp [reach]

theorem stretch_reach {m : Machine} {op : Instruction} (hop : m.program.op? m.pc = some op)
    (hstart : m.config.coalesce = true → m.program.StartsRun m.pc) :
    Stretch m.program m.config.coalesce m.pc (m.reach op) op := by
  rw [reach_eq]
  split
  · rename_i hjoins
    refine ⟨Program.runLength_pos hop, fun k hk => Program.op?_of_lt_runLength hop hk, ?_⟩
    rw [if_pos hjoins]
    exact ⟨Program.op?_runLength_ne hop, hstart hjoins.1 op hjoins.2 hop⟩
  · rename_i hsingle
    refine ⟨Nat.one_pos, fun k hk => ?_, ?_⟩
    · obtain rfl : k = 0 := by omega
      exact hop
    · rw [if_neg hsingle]

/-- A highlight shows a stretch, whatever step of a run it is of. -/
theorem stretch_of_shown {start : Machine} {i : Nat} {e : StepEvent} (hpc : start.pc = 0)
    (h : (start.after i).shown? = some e) :
    Stretch start.program start.config.coalesce e.index e.run e.op ∧
      e.source = start.program.span e.index e.run := by
  obtain ⟨op, hnext, rfl⟩ := Option.map_eq_some_iff.mp h
  have hop := (next?_eq_some_iff.mp hnext).2.2
  have hstart : start.config.coalesce = true → start.program.StartsRun (start.after i).pc := by
    intro htogether
    apply startsRun_after htogether
    rw [hpc]
    exact start.program.startsRun_zero
  rw [← start.after_config i, ← start.after_program i] at hstart ⊢
  refine ⟨stretch_reach hop hstart, ?_⟩
  simp only [stepEvent, after_program]

theorem stretch_of_mem {start : Machine} {drives : List Drive} {e : StepEvent}
    (halive : start.status.isTerminal = false) (hpc : start.pc = 0)
    (he : e ∈ stepsOf (start.driveAll drives).2) :
    Stretch start.program start.config.coalesce e.index e.run e.op ∧
      e.source = start.program.span e.index e.run := by
  rw [(told_driveAll halive drives).shown] at he
  obtain ⟨i, -, hshown⟩ := mem_shownSteps.mp he
  exact stretch_of_shown hpc hshown

end Machine

/-- What is highlighted is exactly what is executed, however a run is driven. The span of a
highlight lies in the text, goes from the character of instruction `index` to that of the last
instruction taken, and holds `run` times `op` and nothing else but comments. With runs taken
together no `+` or `-` equal to those of the span stands next to them, and all else is highlighted
one by one. So the spans of different instructions do not meet. The last instruction is found in
64-bit arithmetic, so the text has no more characters than such numbers can tell apart. -/
theorem highlights_exact {source : String} {program : Program} (tape : Tape)
    (input : Array UInt8) (config : Config) (drives : List Drive)
    (hfits : source.length ≤ Text.wordSize) (hload : Program.load source = .ok program) :
    let text := source.toList
    let shown := stepsOf ((Machine.fresh program tape input config).driveAll drives).2
    (∀ e ∈ shown,
      (e.source.start < e.source.stop ∧ e.source.stop ≤ text.length) ∧
      StandsAt text e.index e.source.start e.op ∧
      StandsAt text (e.index + e.run - 1) (e.source.stop - 1) e.op ∧
      instructionsIn ((text.take e.source.stop).drop e.source.start) =
        List.replicate e.run e.op ∧
      (if config.coalesce = true ∧ (e.op = .increment ∨ e.op = .decrement) then
        program.op? (e.index + e.run) ≠ some e.op ∧
          (e.index = 0 ∨ program.op? (e.index - 1) ≠ some e.op)
      else e.run = 1)) ∧
    (∀ e ∈ shown, ∀ e' ∈ shown, e.index ≠ e'.index →
      e.source.stop ≤ e'.source.start ∨ e'.source.stop ≤ e.source.start) := by
  intro text shown
  have hshown (e : StepEvent) (he : e ∈ shown) :
      Stretch program config.coalesce e.index e.run e.op ∧
        e.source = program.span e.index e.run := Machine.stretch_of_mem rfl rfl he
  refine ⟨?_, ?_⟩
  · intro e he
    obtain ⟨hstretch, hsource⟩ := hshown e he
    obtain ⟨first, last, hspan, hle, hfirst, hlast⟩ := hstretch.span_eq hload hfits
    rw [hsource, hspan]
    exact ⟨⟨Nat.lt_succ_of_le hle, hlast.lt_length⟩, hfirst, hlast,
      hstretch.instructionsIn_eq hload hfirst hlast hle, hstretch.extent⟩
  · intro e he e' he' hne
    obtain ⟨hstretch, hsource⟩ := hshown e he
    obtain ⟨hstretch', hsource'⟩ := hshown e' he'
    rw [hsource, hsource']
    rcases Nat.lt_or_gt_of_ne hne with hlt | hgt
    · exact Or.inl (hstretch.stop_le_start hstretch' hload hfits hlt)
    · exact Or.inr (hstretch'.stop_le_start hstretch hload hfits hgt)

theorem highlights_exact_commented :
    ∃ program, Program.load "ü+ +." = .ok program ∧
      let shown := stepsOf ((Machine.fresh program (.blank 1) #[] ⟨8, .zero, true⟩).driveAll
        [.step true, .step true]).2
      shown.map (fun e => (e.index, e.run, e.source)) = [(0, 2, ⟨1, 4⟩), (2, 1, ⟨4, 5⟩)] ∧
      ∀ e ∈ shown, instructionsIn (("ü+ +.".toList.take e.source.stop).drop e.source.start) =
        List.replicate e.run e.op := by
  refine ⟨_, rfl, ?_, ?_⟩
  · decide +kernel
  · intro e he
    exact ((highlights_exact (.blank 1) #[] ⟨8, .zero, true⟩ [.step true, .step true]
      (by decide) rfl).1 e he).2.2.2.1

end TapeMachine
