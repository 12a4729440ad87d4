import TapeMachine.Pace

/-!
# Step by step

The machine after a number of steps and what these steps report. Every way to drive a run comes
down to these two.
-/

namespace TapeMachine

/-! ## Events that tell about the run itself -/

/-- Highlights and looks at the tape are for whoever watches. -/
def Event.isView : Event → Bool
  | .step _ | .tape _ => true
  | _ => false

def essential (events : List Event) : List Event :=
  events.filter fun e => !e.isView

@[simp]
theorem essential_nil : essential [] = [] := rfl

@[simp]
theorem essential_append (before after : List Event) :
    essential (before ++ after) = essential before ++ essential after :=
  List.filter_append ..

@[simp]
theorem essential_tape (t : Tape) : essential [.tape t] = [] := rfl

theorem outputOf_essential (events : List Event) :
    outputOf (essential events) = outputOf events := by
  induction events with
  | nil => rfl
  | cons e rest ih => cases e <;> simp_all [outputOf, essential, Event.isView]

theorem diagnosticsOf_essential (events : List Event) :
    diagnosticsOf (essential events) = diagnosticsOf events := by
  induction events with
  | nil => rfl
  | cons e rest ih => cases e <;> simp_all [diagnosticsOf, essential, Event.isView]

theorem haltsOf_essential (events : List Event) :
    haltsOf (essential events) = haltsOf events := by
  induction events with
  | nil => rfl
  | cons e rest ih => cases e <;> simp_all [haltsOf, essential, Event.isView]

namespace Program

theorem lt_size_of_op {p : Program} {i : Nat} {op : Instruction} (h : p.op? i = some op) :
    i < p.size := by
  unfold op? at h
  obtain ⟨placed, hplaced, -⟩ := Option.map_eq_some_iff.mp h
  exact (Array.getElem?_eq_some_iff.mp hplaced).1

theorem exists_op {p : Program} {i : Nat} (h : i < p.size) : ∃ op, p.op? i = some op := by
  unfold op?
  rw [Array.getElem?_eq_getElem h]
  exact ⟨_, rfl⟩

end Program

namespace Machine

/-! ## One step -/

@[simp]
theorem execute_program (m : Machine) (op : Instruction) (run : Nat) :
    (m.execute op run).program = m.program := by
  cases op <;> rfl

@[simp]
theorem execute_input (m : Machine) (op : Instruction) (run : Nat) :
    (m.execute op run).input = m.input := by
  cases op <;> rfl

theorem execute_cursor (m : Machine) (op : Instruction) (run : Nat) :
    (m.execute op run).cursor = if op = .read then m.nextCursor else m.cursor := by
  cases op <;> simp [execute]

theorem nextCursor_eq {m : Machine} (hcursor : m.cursor ≤ m.input.size) :
    m.nextCursor = min (m.cursor + 1) m.input.size := by
  unfold nextCursor
  split <;> omega

theorem nextCursor_le_succ (m : Machine) : m.nextCursor ≤ m.cursor + 1 := by
  unfold nextCursor
  split <;> omega

theorem perform_fst (m : Machine) (op : Instruction) (highlight : Bool) :
    (m.perform op highlight).1 =
      { m.execute op (m.reach op) with
        steps := m.steps + 1
        status := if m.program.size ≤ (m.execute op (m.reach op)).pc then .halted else .running } := by
  unfold perform settle halt
  simp only [execute_program, execute_steps]
  split <;> rfl

theorem perform_snd (m : Machine) (op : Instruction) (highlight : Bool) :
    (m.perform op highlight).2 =
      (if op = .write then [.output m.tape.get] else []) ++
        (if highlight then [.step ((m.perform op highlight).1.stepEvent m.pc op (m.reach op))] else []) ++
        (if m.program.size ≤ (m.execute op (m.reach op)).pc then [.halted .halted] else []) := by
  unfold perform settle halt
  simp only [execute_program]
  by_cases hend : m.program.size ≤ (m.execute op (m.reach op)).pc
  · rw [if_pos hend, if_pos hend]
    rfl
  · rw [if_neg hend, if_neg hend]
    rfl

theorem filterMap_ite {α β : Type} (f : α → Option β) (c : Prop) [Decidable c] (a : α) :
    (if c then [a] else []).filterMap f = if c then (f a).toList else [] := by
  split
  · cases h : f a <;> simp [h]
  · rfl

theorem outputOf_perform (m : Machine) (op : Instruction) (highlight : Bool) :
    outputOf (m.perform op highlight).2 = if op = .write then [m.tape.get] else [] := by
  simp [outputOf, perform_snd, filterMap_ite]

theorem stepsOf_perform (m : Machine) (op : Instruction) (highlight : Bool) :
    stepsOf (m.perform op highlight).2 =
      if highlight then [(m.perform op highlight).1.stepEvent m.pc op (m.reach op)] else [] := by
  rw [perform_snd]
  simp [stepsOf, filterMap_ite]

theorem tapesOf_perform (m : Machine) (op : Instruction) (highlight : Bool) :
    tapesOf (m.perform op highlight).2 = [] := by
  simp [tapesOf, perform_snd, filterMap_ite]

theorem haltsOf_perform (m : Machine) (op : Instruction) (highlight : Bool) :
    haltsOf (m.perform op highlight).2 =
      if m.program.size ≤ (m.execute op (m.reach op)).pc then [.halted] else [] := by
  simp [haltsOf, perform_snd, filterMap_ite]

theorem step_of_terminal {m : Machine} (highlight : Bool) (h : m.status.isTerminal = true) :
    m.step highlight = (m, []) := by
  unfold step
  rw [if_pos h]

theorem step_of_limit {m : Machine} (highlight : Bool) (h : m.status.isTerminal = false)
    (hlimit : m.config.maxSteps ≤ m.steps) :
    m.step highlight = ({ m with status := .stepLimit },
      [.diagnostic (.stepLimitExceeded m.config.maxSteps), .halted .stepLimit]) := by
  unfold step
  rw [if_neg (by simp [h]), if_pos hlimit]
  rfl

theorem step_of_none {m : Machine} (highlight : Bool) (h : m.status.isTerminal = false)
    (hroom : m.steps < m.config.maxSteps) (hop : m.program.op? m.pc = none) :
    m.step highlight = ({ m with status := .halted }, [.halted .halted]) := by
  unfold step
  rw [if_neg (by simp [h]), if_neg (by omega), hop]
  rfl

theorem step_of_op {m : Machine} {op : Instruction} (highlight : Bool)
    (h : m.status.isTerminal = false) (hroom : m.steps < m.config.maxSteps)
    (hop : m.program.op? m.pc = some op) : m.step highlight = m.perform op highlight := by
  unfold step
  rw [if_neg (by simp [h]), if_neg (by omega), hop]

/-- What one step can be. -/
theorem step_cases (m : Machine) :
    m.status.isTerminal = true ∨
    (m.status.isTerminal = false ∧ m.config.maxSteps ≤ m.steps) ∨
    (m.status.isTerminal = false ∧ m.steps < m.config.maxSteps ∧ m.program.op? m.pc = none) ∨
    ∃ op, m.status.isTerminal = false ∧ m.steps < m.config.maxSteps ∧ m.program.op? m.pc = some op := by
  cases hstatus : m.status.isTerminal with
  | true => exact Or.inl rfl
  | false =>
    right
    rcases Nat.lt_or_ge m.steps m.config.maxSteps with hroom | hlimit
    · right
      cases hop : m.program.op? m.pc with
      | none => exact Or.inl ⟨rfl, hroom, rfl⟩
      | some op => exact Or.inr ⟨op, rfl, hroom, rfl⟩
    · exact Or.inl ⟨rfl, hlimit⟩

theorem step_fst (m : Machine) (highlight : Bool) :
    (m.step highlight).1 = (m.step false).1 := by
  rcases step_cases m with h | ⟨h, hlimit⟩ | ⟨h, hroom, hop⟩ | ⟨op, h, hroom, hop⟩
  · rw [step_of_terminal _ h, step_of_terminal _ h]
  · rw [step_of_limit _ h hlimit, step_of_limit _ h hlimit]
  · rw [step_of_none _ h hroom hop, step_of_none _ h hroom hop]
  · rw [step_of_op _ h hroom hop, step_of_op _ h hroom hop, perform_fst, perform_fst]

theorem essential_step (m : Machine) (highlight : Bool) :
    essential (m.step highlight).2 = essential (m.step false).2 := by
  rcases step_cases m with h | ⟨h, hlimit⟩ | ⟨h, hroom, hop⟩ | ⟨op, h, hroom, hop⟩
  · rw [step_of_terminal _ h, step_of_terminal _ h]
  · rw [step_of_limit _ h hlimit, step_of_limit _ h hlimit]
  · rw [step_of_none _ h hroom hop, step_of_none _ h hroom hop]
  · rw [step_of_op _ h hroom hop, step_of_op _ h hroom hop, perform_snd, perform_snd]
    cases highlight <;> simp [essential, Event.isView]

theorem step_program (m : Machine) (highlight : Bool) :
    (m.step highlight).1.program = m.program := by
  rcases step_cases m with h | ⟨h, hlimit⟩ | ⟨h, hroom, hop⟩ | ⟨op, h, hroom, hop⟩
  · rw [step_of_terminal _ h]
  · rw [step_of_limit _ h hlimit]
  · rw [step_of_none _ h hroom hop]
  · rw [step_of_op _ h hroom hop, perform_fst]
    exact execute_program ..

theorem step_input (m : Machine) (highlight : Bool) :
    (m.step highlight).1.input = m.input := by
  rcases step_cases m with h | ⟨h, hlimit⟩ | ⟨h, hroom, hop⟩ | ⟨op, h, hroom, hop⟩
  · rw [step_of_terminal _ h]
  · rw [step_of_limit _ h hlimit]
  · rw [step_of_none _ h hroom hop]
  · rw [step_of_op _ h hroom hop, perform_fst]
    exact execute_input ..

theorem step_steps_le (m : Machine) (highlight : Bool) :
    (m.step highlight).1.steps ≤ m.steps + 1 := by
  rcases step_cases m with h | ⟨h, hlimit⟩ | ⟨h, hroom, hop⟩ | ⟨op, h, hroom, hop⟩
  · rw [step_of_terminal _ h]
    exact Nat.le_succ _
  · rw [step_of_limit _ h hlimit]
    exact Nat.le_succ _
  · rw [step_of_none _ h hroom hop]
    exact Nat.le_succ _
  · exact Nat.le_of_eq (by rw [step_of_op _ h hroom hop, perform_steps])

theorem step_steps_of_alive {m : Machine} {highlight : Bool}
    (halive : (m.step highlight).1.status.isTerminal = false) :
    (m.step highlight).1.steps = m.steps + 1 := by
  rcases step_cases m with h | ⟨h, hlimit⟩ | ⟨h, hroom, hop⟩ | ⟨op, h, hroom, hop⟩
  · rw [step_of_terminal _ h, h] at halive
    cases halive
  · rw [step_of_limit _ h hlimit] at halive
    cases halive
  · rw [step_of_none _ h hroom hop] at halive
    cases halive
  · rw [step_of_op _ h hroom hop, perform_steps]

theorem exists_op_of_step_steps {m : Machine} {highlight : Bool}
    (hsteps : (m.step highlight).1.steps = m.steps + 1) :
    ∃ op, m.status.isTerminal = false ∧ m.steps < m.config.maxSteps ∧ m.program.op? m.pc = some op := by
  rcases step_cases m with h | ⟨h, hlimit⟩ | ⟨h, hroom, hop⟩ | hop
  · rw [step_of_terminal _ h] at hsteps
    exact absurd hsteps (Nat.ne_of_lt (Nat.lt_succ_self _))
  · rw [step_of_limit _ h hlimit] at hsteps
    exact absurd hsteps (Nat.ne_of_lt (Nat.lt_succ_self _))
  · rw [step_of_none _ h hroom hop] at hsteps
    exact absurd hsteps (Nat.ne_of_lt (Nat.lt_succ_self _))
  · exact hop

/-! ## Many steps -/

/-- The machine after `n` steps. -/
def after (m : Machine) : Nat → Machine
  | 0 => m
  | n + 1 => ((m.after n).step false).1

/-- What `n` steps report. -/
def reports (m : Machine) : Nat → List Event
  | 0 => []
  | n + 1 => m.reports n ++ ((m.after n).step false).2

@[simp]
theorem after_zero (m : Machine) : m.after 0 = m := rfl

@[simp]
theorem reports_zero (m : Machine) : m.reports 0 = [] := rfl

theorem after_one (m : Machine) : m.after 1 = (m.step false).1 := rfl

theorem reports_one (m : Machine) : m.reports 1 = (m.step false).2 := rfl

theorem after_succ (m : Machine) (n : Nat) : m.after (n + 1) = (m.after n).after 1 := rfl

theorem after_add (m : Machine) (a b : Nat) : m.after (a + b) = (m.after a).after b := by
  induction b with
  | zero => rfl
  | succ b ih => rw [← Nat.add_assoc, after_succ, ih, ← after_succ]

theorem reports_add (m : Machine) (a b : Nat) :
    m.reports (a + b) = m.reports a ++ (m.after a).reports b := by
  induction b with
  | zero => exact (List.append_nil _).symm
  | succ b ih =>
    rw [← Nat.add_assoc, reports, reports, ih, after_add, List.append_assoc]

theorem after_of_terminal {m : Machine} (h : m.status.isTerminal = true) (n : Nat) :
    m.after n = m := by
  induction n with
  | zero => rfl
  | succ n ih => rw [after, ih, step_of_terminal _ h]

theorem reports_of_terminal {m : Machine} (h : m.status.isTerminal = true) (n : Nat) :
    m.reports n = [] := by
  induction n with
  | zero => rfl
  | succ n ih => rw [reports, ih, after_of_terminal h, step_of_terminal _ h]; rfl

theorem after_program (m : Machine) (n : Nat) : (m.after n).program = m.program := by
  induction n with
  | zero => rfl
  | succ n ih => rw [after, step_program, ih]

theorem after_config (m : Machine) (n : Nat) : (m.after n).config = m.config := by
  induction n with
  | zero => rfl
  | succ n ih => rw [after, step_config, ih]

theorem after_input (m : Machine) (n : Nat) : (m.after n).input = m.input := by
  induction n with
  | zero => rfl
  | succ n ih => rw [after, step_input, ih]

theorem after_steps_le (m : Machine) (n : Nat) : (m.after n).steps ≤ m.steps + n := by
  induction n with
  | zero => exact Nat.le_refl _
  | succ n ih => exact Nat.le_trans (step_steps_le ..) (by omega)

theorem alive_of_after {m : Machine} {a b : Nat} (hle : a ≤ b)
    (h : (m.after b).status.isTerminal = false) : (m.after a).status.isTerminal = false := by
  cases ha : (m.after a).status.isTerminal with
  | false => rfl
  | true =>
    rw [← Nat.add_sub_of_le hle, after_add, after_of_terminal ha, ha] at h
    cases h

theorem after_steps_of_alive {m : Machine} {n : Nat}
    (h : (m.after n).status.isTerminal = false) : (m.after n).steps = m.steps + n := by
  induction n with
  | zero => rfl
  | succ n ih =>
    have hn := ih (alive_of_after (Nat.le_succ n) h)
    rw [after, step_steps_of_alive h, hn, Nat.add_assoc]

theorem after_eq_of_terminal {m : Machine} {a b : Nat} (hle : a ≤ b)
    (h : (m.after a).status.isTerminal = true) :
    m.after b = m.after a ∧ m.reports b = m.reports a := by
  rw [← Nat.add_sub_of_le hle, after_add, reports_add, after_of_terminal h, reports_of_terminal h]
  exact ⟨rfl, List.append_nil _⟩

theorem after_unique {m : Machine} {a b : Nat} (ha : (m.after a).status.isTerminal = true)
    (hb : (m.after b).status.isTerminal = true) :
    m.after a = m.after b ∧ m.reports a = m.reports b := by
  rcases Nat.le_total a b with hle | hle
  · obtain ⟨hafter, hreports⟩ := after_eq_of_terminal hle ha
    exact ⟨hafter.symm, hreports.symm⟩
  · exact after_eq_of_terminal hle hb

/-- Calls that execute nothing leave everything but the status alone, so the executed steps are
enough to get as far. -/
theorem after_counted (m : Machine) (n : Nat) :
    ∃ k, (m.after n).steps = m.steps + k ∧ (m.after k).steps = m.steps + k ∧
      (m.after n).pc = (m.after k).pc ∧ (m.after n).tape = (m.after k).tape ∧
      (m.after n).cursor = (m.after k).cursor ∧
      outputOf (m.reports n) = outputOf (m.reports k) := by
  induction n with
  | zero => exact ⟨0, rfl, rfl, rfl, rfl, rfl, rfl⟩
  | succ n ih =>
    rw [reports, after, outputOf_append]
    rcases step_cases (m.after n) with h | ⟨h, hlimit⟩ | ⟨h, hroom, hop⟩ | ⟨op, h, hroom, hop⟩
    · rw [step_of_terminal _ h]
      simpa [outputOf] using ih
    · rw [step_of_limit _ h hlimit]
      simpa [outputOf] using ih
    · rw [step_of_none _ h hroom hop]
      simpa [outputOf] using ih
    · have hsteps : ((m.after n).step false).1.steps = m.steps + (n + 1) := by
        rw [step_of_op _ h hroom hop, perform_steps, after_steps_of_alive h, Nat.add_assoc]
      refine ⟨n + 1, hsteps, hsteps, rfl, rfl, rfl, ?_⟩
      rw [reports, outputOf_append]

theorem le_of_counted {m : Machine} {k n : Nat} (hk : (m.after k).steps = m.steps + k)
    (hended : (m.after n).status.isTerminal = true) : k ≤ n := by
  apply Nat.le_of_not_lt
  intro hlt
  rw [(after_eq_of_terminal (Nat.le_of_lt hlt) hended).1] at hk
  have := m.after_steps_le n
  omega

/-! ## Runs in one go -/

theorem runFor_eq (n : Nat) (m : Machine) (log : Array Event) :
    m.runFor n log = (m.after n, log ++ m.reports n) := by
  induction n generalizing m log with
  | zero => simp [runFor]
  | succ n ih =>
    rw [runFor, Nat.add_comm n 1, after_add, reports_add, after_one, reports_one]
    split
    · rename_i h
      rw [step_of_terminal _ h, after_of_terminal h, reports_of_terminal h]
      simp
    · simp only [ih, Prod.mk.injEq, true_and]
      apply Array.ext'
      simp

theorem remaining_after {m : Machine} {n : Nat} (h : (m.after n).status.isTerminal = false) :
    (m.after n).remaining + n ≤ m.remaining := by
  induction n with
  | zero => exact Nat.le_refl _
  | succ n ih =>
    have hstep : (m.after (n + 1)).remaining < (m.after n).remaining := remaining_step_lt h
    have := ih (alive_of_after (Nat.le_succ n) h)
    omega

theorem terminal_after_remaining (m : Machine) :
    (m.after (m.remaining + 1)).status.isTerminal = true := by
  cases h : (m.after (m.remaining + 1)).status.isTerminal with
  | true => rfl
  | false =>
    have := remaining_after h
    omega

theorem runToEnd_eq (m : Machine) (log : Array Event) :
    m.runToEnd log = (m.after (m.remaining + 1), log ++ m.reports (m.remaining + 1)) :=
  runFor_eq ..

theorem runToEnd_eq_of_terminal {m : Machine} {n : Nat} (log : Array Event)
    (h : (m.after n).status.isTerminal = true) :
    m.runToEnd log = (m.after n, log ++ m.reports n) := by
  obtain ⟨hafter, hreports⟩ := after_unique h m.terminal_after_remaining
  rw [runToEnd_eq, hafter, hreports]

/-! ## Runs that the budget has not cut short -/

/-- The run goes on inside the program, and has come to its normal end outside. It has not used up
more of the input than there is. -/
structure OnCourse (m : Machine) : Prop where
  inside : m.pc < m.program.size → m.status.isTerminal = false
  outside : m.program.size ≤ m.pc → m.status = .halted
  cursor : m.cursor ≤ m.input.size

theorem onCourse_fresh (program : Program) (tape : Tape) (input : Array UInt8) (config : Config) :
    (fresh program tape input config).OnCourse := by
  refine ⟨fun _ => rfl, fun h => ?_, Nat.zero_le _⟩
  have hpos : 0 < program.size := program.code_pos
  exact absurd hpos (Nat.not_lt.mpr h)

theorem OnCourse.lt_size {m : Machine} (h : m.OnCourse) (halive : m.status.isTerminal = false) :
    m.pc < m.program.size := by
  rcases Nat.lt_or_ge m.pc m.program.size with hlt | hge
  · exact hlt
  · rw [h.outside hge] at halive
    cases halive

theorem OnCourse.step_eq {m : Machine} {op : Instruction} (h : m.OnCourse) (highlight : Bool)
    (hroom : m.steps < m.config.maxSteps) (hop : m.program.op? m.pc = some op) :
    m.step highlight = m.perform op highlight :=
  step_of_op highlight (h.inside (Program.lt_size_of_op hop)) hroom hop

theorem OnCourse.step {m : Machine} (h : m.OnCourse) (highlight : Bool)
    (hroom : m.steps < m.config.maxSteps) : (m.step highlight).1.OnCourse := by
  cases hstatus : m.status.isTerminal with
  | true => rwa [step_of_terminal _ hstatus]
  | false =>
    obtain ⟨op, hop⟩ := Program.exists_op (h.lt_size hstatus)
    rw [h.step_eq highlight hroom hop, perform_fst]
    constructor
    · intro hlt
      simp only [execute_program] at hlt ⊢
      rw [if_neg (Nat.not_le.mpr hlt)]
      rfl
    · intro hge
      simp only [execute_program] at hge ⊢
      rw [if_pos hge]
    · have hcursor := h.cursor
      simp only [execute_cursor, execute_input, nextCursor_eq hcursor]
      split <;> omega

theorem OnCourse.after {m : Machine} (h : m.OnCourse) {n : Nat}
    (hroom : m.steps + n ≤ m.config.maxSteps) : (m.after n).OnCourse := by
  induction n with
  | zero => exact h
  | succ n ih =>
    apply (ih (by omega)).step
    have := m.after_steps_le n
    rw [after_config]
    omega

theorem OnCourse.exists_exact {m : Machine} (h : m.OnCourse) {n : Nat}
    (hroom : m.steps + n ≤ m.config.maxSteps) :
    ∃ k ≤ n, m.after n = m.after k ∧ m.reports n = m.reports k ∧ (m.after k).steps = m.steps + k := by
  induction n with
  | zero => exact ⟨0, Nat.le_refl 0, rfl, rfl, rfl⟩
  | succ n ih =>
    cases hstatus : (m.after n).status.isTerminal with
    | true =>
      obtain ⟨k, hk, hafter, hreports, hsteps⟩ := ih (by omega)
      obtain ⟨hafter', hreports'⟩ := after_eq_of_terminal (Nat.le_succ n) hstatus
      exact ⟨k, by omega, hafter'.trans hafter, hreports'.trans hreports, hsteps⟩
    | false =>
      refine ⟨n + 1, Nat.le_refl _, rfl, rfl, ?_⟩
      have hcourse := h.after (n := n) (by omega)
      have hsteps := after_steps_of_alive hstatus
      obtain ⟨op, hop⟩ := Program.exists_op (hcourse.lt_size hstatus)
      rw [Machine.after, hcourse.step_eq false (by rw [after_config]; omega) hop, perform_steps]
      omega

theorem OnCourse.halted_of_outside {m : Machine} (h : m.OnCourse) {n : Nat}
    (hroom : m.steps + n ≤ m.config.maxSteps) (hout : m.program.size ≤ (m.after n).pc) :
    (m.after n).status = .halted :=
  (h.after hroom).outside (by rwa [after_program])

theorem limit_of_inside {m : Machine} {n : Nat} (h : m.OnCourse)
    (hroom : m.steps + n = m.config.maxSteps) (hin : (m.after n).pc < m.program.size)
    (log : Array Event) : (m.runToEnd log).1.status = .stepLimit := by
  have halive : (m.after n).status.isTerminal = false :=
    (h.after (Nat.le_of_eq hroom)).inside (by rwa [after_program])
  have hlimit : (m.after n).config.maxSteps ≤ (m.after n).steps := by
    rw [after_config, after_steps_of_alive halive]
    omega
  have hstatus : (m.after (n + 1)).status = .stepLimit := by
    rw [Machine.after, step_of_limit _ halive hlimit]
  rw [runToEnd_eq_of_terminal (n := n + 1) log (by rw [hstatus]; rfl)]
  exact hstatus

theorem outside_of_halted {m : Machine} (h : m.OnCourse) (hsteps : m.steps ≤ m.config.maxSteps)
    {log : Array Event} (hstatus : (m.runToEnd log).1.status = .halted) :
    m.program.size ≤ (m.after m.remaining).pc := by
  apply Nat.le_of_not_lt
  intro hin
  rw [limit_of_inside h (Nat.add_sub_of_le hsteps) hin] at hstatus
  cases hstatus

end Machine

end TapeMachine
