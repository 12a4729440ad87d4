import TapeMachine.Proofs.Coalescing
import TapeMachine.Proofs.Coherence

/-!
# Reachable machines

What holds of a machine after any number of steps: the program counter never gets past the end of
the program, the steps stay within the budget, and the status tells where the run stands. So a step
that is not the last finds an instruction, and a bracket finds its partner.
-/

namespace TapeMachine

theorem Program.lastIndex_eq_mod {start len : Nat} (hpos : 0 < len) :
    lastIndex start len = (start + len - 1) % Text.wordSize := by
  have hlast : start + max len 1 + (Text.wordSize - 1) = start + len - 1 + Text.wordSize := by
    have : 0 < Text.wordSize := by decide
    omega
  unfold lastIndex
  rw [hlast, Nat.add_mod_right]

namespace Machine

/-! ## Where a step leads -/

section Leads

variable {m : Machine} {op : Instruction}

theorem reach_le_size (hop : m.program.op? m.pc = some op) :
    m.pc + m.reach op ≤ m.program.size := by
  rcases m.reach_cases op with hone | ⟨p, -, -, hrun⟩
  · have := Program.lt_size_of_op hop
    omega
  · have hpos := Program.runLength_pos hop
    have hlast := Program.lt_size_of_op
      (Program.op?_of_lt_runLength hop (k := m.program.runLength m.pc - 1) (by omega))
    omega

theorem exists_partner (h : m.program.op? m.pc = some .loopOpen ∨
    m.program.op? m.pc = some .loopClose) :
    ∃ j < m.program.size, m.program.partner? m.pc = some j := by
  obtain ⟨j, hpair | hpair⟩ := Program.exists_paired h
  · exact ⟨j, Program.lt_size_of_op hpair.isClose, hpair.ahead⟩
  · exact ⟨j, Program.lt_size_of_op hpair.isOpen, hpair.back⟩

theorem jumpTarget_le_size (h : m.program.op? m.pc = some .loopOpen ∨
    m.program.op? m.pc = some .loopClose) : m.jumpTarget ≤ m.program.size := by
  obtain ⟨j, hj, hpartner⟩ := exists_partner h
  unfold jumpTarget
  rw [hpartner]
  exact hj

theorem execute_pc_le_size (hop : m.program.op? m.pc = some op) :
    (m.execute op (m.reach op)).pc ≤ m.program.size := by
  have hlt := Program.lt_size_of_op hop
  have hreach := reach_le_size hop
  cases op with
  | increment | decrement => exact hreach
  | loopOpen =>
    have hjump := jumpTarget_le_size (Or.inl hop)
    simp only [execute]
    split <;> omega
  | loopClose =>
    have hjump := jumpTarget_le_size (Or.inr hop)
    simp only [execute]
    split <;> omega
  | right | left | write | read => exact hlt

theorem lastIndex_lt_size (hop : m.program.op? m.pc = some op) :
    Program.lastIndex m.pc (m.reach op) < m.program.size := by
  have hpos := reach_pos hop
  have hreach := reach_le_size hop
  rw [Program.lastIndex_eq_mod hpos]
  have := Nat.mod_le (m.pc + m.reach op - 1) Text.wordSize
  omega

end Leads

/-! ## The invariant -/

structure Consistent (m : Machine) : Prop where
  budget_pos : 0 < m.config.maxSteps
  pc_le : m.pc ≤ m.program.size
  steps_le : m.steps ≤ m.config.maxSteps
  ready_iff : m.status = .ready ↔ m.steps = 0
  halted_iff : m.status = .halted ↔ m.pc = m.program.size
  steps_of_limit : m.status = .stepLimit → m.steps = m.config.maxSteps
  not_failed : m.status ≠ .failed

theorem consistent_fresh (program : Program) (tape : Tape) (input : Array UInt8)
    (config : Config) : (fresh program tape input config).Consistent where
  budget_pos := by simp only [fresh]; omega
  pc_le := Nat.zero_le _
  steps_le := Nat.zero_le _
  ready_iff := by simp [fresh]
  halted_iff := by
    have hpos : 0 < program.size := program.code_pos
    simp only [fresh, reduceCtorEq, false_iff]
    omega
  steps_of_limit h := by cases h
  not_failed h := by cases h

section Invariant

variable {m : Machine}

theorem Consistent.lt_size (h : m.Consistent) (hstatus : m.status ≠ .halted) :
    m.pc < m.program.size :=
  Nat.lt_of_le_of_ne h.pc_le fun heq => hstatus (h.halted_iff.mpr heq)

theorem Consistent.lt_size_of_alive (h : m.Consistent) (halive : m.status.isTerminal = false) :
    m.pc < m.program.size := by
  apply h.lt_size
  intro hhalted
  simp [hhalted, Status.isTerminal] at halive

theorem Consistent.exists_op (h : m.Consistent) (halive : m.status.isTerminal = false) :
    ∃ op, m.program.op? m.pc = some op :=
  Program.exists_op (h.lt_size_of_alive halive)

theorem Consistent.step (h : m.Consistent) (highlight : Bool) :
    (m.step highlight).1.Consistent := by
  rcases step_cases m with hended | ⟨halive, hlimit⟩ | ⟨halive, -, hop⟩ | ⟨op, halive, hroom, hop⟩
  · rwa [step_of_terminal _ hended]
  · have hpos := h.budget_pos
    have hin := h.lt_size_of_alive halive
    rw [step_of_limit _ halive hlimit]
    refine ⟨hpos, h.pc_le, h.steps_le, ?_, ?_, fun _ => Nat.le_antisymm h.steps_le hlimit, ?_⟩
    · simp only [reduceCtorEq, false_iff]
      omega
    · simp only [reduceCtorEq, false_iff]
      omega
    · simp
  · obtain ⟨op, hsome⟩ := h.exists_op halive
    rw [hop] at hsome
    cases hsome
  · have hle := execute_pc_le_size hop
    rw [step_of_op _ halive hroom hop, perform_fst]
    refine ⟨?_, ?_, ?_, ?_, ?_, ?_, ?_⟩
    · simpa using h.budget_pos
    · simpa using hle
    · simp only [execute_config]
      omega
    -- The others turn on whether this step has left the program.
    all_goals
      simp only [execute_program, execute_config]
      split <;> simp <;> omega

theorem Consistent.after (h : m.Consistent) (n : Nat) : (m.after n).Consistent := by
  induction n with
  | zero => exact h
  | succ n ih => exact ih.step false

end Invariant

/-! ## Instructions that have been executed -/

/-- The instruction that the next step executes, if it executes one. -/
def next? (m : Machine) : Option Instruction :=
  if m.status.isTerminal || m.config.maxSteps ≤ m.steps then none else m.program.op? m.pc

/-- The instructions that `n` steps execute. -/
def executed (m : Machine) (n : Nat) : List Instruction :=
  (List.range n).filterMap fun i => (m.after i).next?

theorem executed_succ (m : Machine) (n : Nat) :
    m.executed (n + 1) = m.executed n ++ (m.after n).next?.toList := by
  unfold executed
  rw [List.range_succ, List.filterMap_append]
  cases hnext : (m.after n).next? <;> simp [hnext]

section Next

variable {m : Machine}

theorem next?_eq_none (h : m.status.isTerminal = true ∨ m.config.maxSteps ≤ m.steps ∨
    m.program.op? m.pc = none) : m.next? = none := by
  unfold next?
  rcases h with h | h | h <;> simp [h]

theorem next?_eq_some {op : Instruction} (halive : m.status.isTerminal = false)
    (hroom : m.steps < m.config.maxSteps) (hop : m.program.op? m.pc = some op) :
    m.next? = some op := by
  unfold next?
  rw [if_neg, hop]
  simp [halive, hroom]

theorem step_steps_eq (m : Machine) (highlight : Bool) :
    (m.step highlight).1.steps = m.steps + m.next?.toList.length := by
  rcases step_cases m with h | ⟨h, hlimit⟩ | ⟨h, hroom, hop⟩ | ⟨op, h, hroom, hop⟩
  · rw [step_of_terminal _ h, next?_eq_none (Or.inl h)]
    rfl
  · rw [step_of_limit _ h hlimit, next?_eq_none (Or.inr (Or.inl hlimit))]
    rfl
  · rw [step_of_none _ h hroom hop, next?_eq_none (Or.inr (Or.inr hop))]
    rfl
  · rw [step_of_op _ h hroom hop, perform_steps, next?_eq_some h hroom hop]
    rfl

theorem step_cursor (m : Machine) (highlight : Bool) :
    (m.step highlight).1.cursor =
      if m.next? = some .read then m.nextCursor else m.cursor := by
  rcases step_cases m with h | ⟨h, hlimit⟩ | ⟨h, hroom, hop⟩ | ⟨op, h, hroom, hop⟩
  · simp [step_of_terminal _ h, next?_eq_none (Or.inl h)]
  · simp [step_of_limit _ h hlimit, next?_eq_none (Or.inr (Or.inl hlimit))]
  · simp [step_of_none _ h hroom hop, next?_eq_none (Or.inr (Or.inr hop))]
  · simp [step_of_op _ h hroom hop, perform_fst, next?_eq_some h hroom hop, execute_cursor]

end Next

theorem after_steps_eq (m : Machine) (n : Nat) :
    (m.after n).steps = m.steps + (m.executed n).length := by
  induction n with
  | zero => rfl
  | succ n ih => rw [after, step_steps_eq, ih, executed_succ, List.length_append, Nat.add_assoc]

theorem after_cursor_eq (m : Machine) (n : Nat) (hcursor : m.cursor ≤ m.input.size) :
    (m.after n).cursor = min (m.cursor + (m.executed n).count .read) m.input.size := by
  induction n with
  | zero => simp [executed, hcursor]
  | succ n ih =>
    have hbefore : (m.after n).cursor ≤ (m.after n).input.size := by
      rw [ih, after_input]
      exact Nat.min_le_right ..
    rw [after, step_cursor, nextCursor_eq hbefore, after_input, ih, executed_succ,
      List.count_append]
    cases hnext : (m.after n).next? with
    | none => simp
    | some op =>
      by_cases hop : op = .read
      · simp [hop]
        omega
      · simp [hop]

/-! ## Any steps -/

/-- The machine after steps with a highlight each or without. -/
def stepAll (m : Machine) (highlights : List Bool) : Machine :=
  highlights.foldl (fun m highlight => (m.step highlight).1) m

theorem stepAll_eq (m : Machine) (highlights : List Bool) :
    m.stepAll highlights = m.after highlights.length := by
  induction highlights generalizing m with
  | nil => rfl
  | cons highlight rest ih =>
    rw [List.length_cons, Nat.add_comm, after_add, after_one, ← step_fst m highlight, ← ih]
    rfl

end Machine

/-- The invariant of a machine, whatever steps it takes. The program counter, the steps and the
status fit together; the program, the input, the settings and the size of the tape stay what they
were; and the input is used up as far as it has been read. So a step that comes before the end finds
an instruction, its partner if it is a bracket, and all that it covers and highlights lies in the
program. -/
theorem machine_invariant (program : Program) (tape : Tape) (input : Array UInt8)
    (config : Config) (highlights : List Bool) :
    let start := Machine.fresh program tape input config
    let m := start.stepAll highlights
    let executed := start.executed highlights.length
    (m.pc ≤ program.size ∧ m.steps ≤ max config.maxSteps 1 ∧
      (config.maxSteps < Text.wordSize → m.steps < Text.wordSize)) ∧
    (m.status = .ready ↔ m.steps = 0) ∧
    (m.status = .halted ↔ m.pc = program.size) ∧
    (m.status = .stepLimit → m.steps = max config.maxSteps 1 ∧ m.pc < program.size) ∧
    (m.status = .running → 1 ≤ m.steps ∧ m.pc < program.size) ∧
    m.status ≠ .failed ∧
    (m.tape.pointer < tape.capacity ∧ m.tape.capacity = tape.capacity ∧ m.program = program ∧
      m.input = input ∧ m.config = { config with maxSteps := max config.maxSteps 1 }) ∧
    (m.steps = executed.length ∧ m.cursor = min (executed.count .read) input.size) ∧
    (m.status.isTerminal = false → ∃ op, program.op? m.pc = some op ∧
      (op = .loopOpen ∨ op = .loopClose → ∃ j < program.size, program.partner? m.pc = some j) ∧
      1 ≤ m.reach op ∧ m.pc + m.reach op ≤ program.size ∧
      Program.lastIndex m.pc (m.reach op) < program.size) := by
  intro start m executed
  have hm : m = start.after highlights.length := start.stepAll_eq highlights
  have h : m.Consistent := hm ▸ (Machine.consistent_fresh program tape input config).after _
  have hprogram : m.program = program := hm ▸ start.after_program _
  have hconfig : m.config = { config with maxSteps := max config.maxSteps 1 } :=
    hm ▸ start.after_config _
  have hcapacity : m.tape.capacity = tape.capacity := by
    rw [hm, Machine.capacity_after]
    exact Tape.capacity_cleared tape
  have hsteps : m.steps ≤ max config.maxSteps 1 := by
    have := h.steps_le
    rwa [hconfig] at this
  have hinside : m.status ≠ .halted → m.pc < program.size := hprogram ▸ h.lt_size
  refine ⟨⟨hprogram ▸ h.pc_le, hsteps, ?_⟩, h.ready_iff, hprogram ▸ h.halted_iff, ?_, ?_,
    h.not_failed, ⟨?_, hcapacity, hprogram, hm ▸ start.after_input _, hconfig⟩, ⟨?_, ?_⟩, ?_⟩
  · intro hword
    have : 1 < Text.wordSize := by decide
    omega
  · -- Only a run that has used up its budget ends at the limit, and it is still inside.
    intro hlimit
    have hall := h.steps_of_limit hlimit
    rw [hconfig] at hall
    exact ⟨hall, hinside (by simp [hlimit])⟩
  · intro hrunning
    have hsome : m.steps ≠ 0 := by
      intro hzero
      simp [h.ready_iff.mpr hzero] at hrunning
    exact ⟨Nat.pos_of_ne_zero hsome, hinside (by simp [hrunning])⟩
  · rw [← hcapacity]
    exact m.tape.pointer_lt_capacity
  · rw [hm, Machine.after_steps_eq]
    exact Nat.zero_add _
  · rw [hm, start.after_cursor_eq _ (Nat.zero_le _)]
    exact congrArg (min · _) (Nat.zero_add _)
  · -- Before the end there is an instruction; what it needs is a fact about the program.
    intro halive
    obtain ⟨op, hop⟩ := h.exists_op halive
    have hpos := Machine.reach_pos hop
    have hreach := Machine.reach_le_size hop
    have hlast := Machine.lastIndex_lt_size hop
    have hpartner : op = .loopOpen ∨ op = .loopClose →
        ∃ j < m.program.size, m.program.partner? m.pc = some j := by
      rintro (rfl | rfl)
      · exact Machine.exists_partner (Or.inl hop)
      · exact Machine.exists_partner (Or.inr hop)
    rw [hprogram] at hop hreach hlast hpartner
    exact ⟨op, hop, hpartner, hpos, hreach, hlast⟩

end TapeMachine
