import Mathlib.Data.Nat.Find
import TapeMachine.Proofs.Reports

/-!
# Budgets

A run under a smaller budget is the run under a larger one, cut off. The one question at the cut is
whether the program has been left with the last step that the smaller budget allows: then the run
has ended as it should, and nothing tells that there was no step to spare.
-/

namespace TapeMachine

namespace Machine

/-! ## Another budget -/

def withBudget (m : Machine) (budget : Nat) : Machine :=
  { m with config := { m.config with maxSteps := budget } }

section Step

variable {m : Machine} {budget : Nat}

@[simp]
theorem withBudget_maxSteps : (m.withBudget budget).config.maxSteps = budget := rfl

theorem reach_withBudget (op : Instruction) : (m.withBudget budget).reach op = m.reach op := rfl

theorem execute_withBudget (op : Instruction) (run : Nat) :
    (m.withBudget budget).execute op run = (m.execute op run).withBudget budget := by
  cases op <;> rfl

theorem stepEvent_withBudget (index : Nat) (op : Instruction) (run : Nat) :
    (m.withBudget budget).stepEvent index op run = m.stepEvent index op run := rfl

theorem perform_withBudget (op : Instruction) (highlight : Bool) :
    (m.withBudget budget).perform op highlight =
      ((m.perform op highlight).1.withBudget budget, (m.perform op highlight).2) := by
  have hfst : ((m.withBudget budget).perform op highlight).1 =
      (m.perform op highlight).1.withBudget budget := by
    simp only [perform_fst, reach_withBudget, execute_withBudget]
    rfl
  have hsnd : ((m.withBudget budget).perform op highlight).2 = (m.perform op highlight).2 := by
    rw [perform_snd, hfst, perform_snd m]
    simp only [reach_withBudget, execute_withBudget, stepEvent_withBudget]
    rfl
  exact Prod.ext hfst hsnd

theorem step_withBudget (highlight : Bool) (hroom : m.steps < m.config.maxSteps)
    (hroom' : m.steps < budget) :
    (m.withBudget budget).step highlight =
      ((m.step highlight).1.withBudget budget, (m.step highlight).2) := by
  rcases step_cases m with h | ⟨-, hlimit⟩ | ⟨h, -, hop⟩ | ⟨op, h, -, hop⟩
  · rw [step_of_terminal _ h, step_of_terminal (m := m.withBudget budget) _ h]
  · omega
  · rw [step_of_none _ h hroom hop, step_of_none (m := m.withBudget budget) _ h hroom' hop]
    rfl
  · rw [step_of_op _ h hroom hop, step_of_op (m := m.withBudget budget) _ h hroom' hop,
      perform_withBudget]

theorem after_withBudget {n : Nat} (hroom : m.steps + n ≤ m.config.maxSteps)
    (hroom' : m.steps + n ≤ budget) :
    (m.withBudget budget).after n = (m.after n).withBudget budget ∧
      (m.withBudget budget).reports n = m.reports n := by
  induction n with
  | zero => exact ⟨rfl, rfl⟩
  | succ n ih =>
    obtain ⟨hafter, hreports⟩ := ih (by omega) (by omega)
    have hsteps := m.after_steps_le n
    have hstep : ((m.after n).withBudget budget).step false =
        (((m.after n).step false).1.withBudget budget, ((m.after n).step false).2) := by
      apply step_withBudget
      · rw [after_config]
        omega
      · omega
    simp only [after, reports, hafter, hreports, hstep, and_self]

end Step

/-! ## Steps up to the end -/

/-- `n` calls of `step`, of which the last is the first to end the run, lead to `run`. -/
structure EndsIn (m : Machine) (n : Nat) (run : Machine × Array Event) : Prop where
  machine : run.1 = m.after n
  report : run.2.toList = m.reports n
  ended : (m.after n).status.isTerminal = true
  first : ∀ i < n, (m.after i).status.isTerminal = false

theorem exists_endsIn (m : Machine) : ∃ n ≤ m.remaining + 1, m.EndsIn n (m.runToEnd #[]) := by
  have hexists : ∃ n, (m.after n).status.isTerminal = true := ⟨_, m.terminal_after_remaining⟩
  refine ⟨Nat.find hexists, Nat.find_min' hexists m.terminal_after_remaining, ?_⟩
  have hended := Nat.find_spec hexists
  have hrun := runToEnd_eq_of_terminal #[] hended
  refine ⟨by rw [hrun], by rw [hrun]; simp, hended, ?_⟩
  intro i hi
  exact Bool.eq_false_iff.mpr (Nat.find_min hexists hi)

/-! ## At the cut -/

section Cut

variable {m : Machine} {limit : Nat} (hnew : m.steps = 0) (hle : limit ≤ m.config.maxSteps)

include hnew hle

theorem cut_withBudget :
    (m.withBudget limit).after limit = (m.after limit).withBudget limit ∧
      (m.withBudget limit).reports limit = m.reports limit :=
  after_withBudget (by omega) (by omega)

theorem output_prefix_of_cut :
    outputOf (m.reports limit) <+: outputOf (m.runToEnd #[]).2.toList := by
  have hfar : limit ≤ m.remaining + 1 := by unfold remaining; omega
  rw [runToEnd_eq, ← Nat.add_sub_of_le hfar, reports_add]
  simp

variable (hcourse : m.OnCourse)

include hcourse

theorem runToEnd_of_outside (hout : m.program.size ≤ (m.after limit).pc) :
    (m.after limit).status = .halted ∧
      m.runToEnd #[] = (m.after limit, (m.reports limit).toArray) ∧
      (m.withBudget limit).runToEnd #[] =
        ((m.after limit).withBudget limit, (m.reports limit).toArray) := by
  obtain ⟨hafter, hreports⟩ := cut_withBudget hnew hle
  have hhalted := hcourse.halted_of_outside (by omega) hout
  have hended : (m.after limit).status.isTerminal = true := by rw [hhalted]; rfl
  have hended' : ((m.withBudget limit).after limit).status.isTerminal = true := by
    rw [hafter]
    exact hended
  refine ⟨hhalted, ?_⟩
  rw [runToEnd_eq_of_terminal #[] hended, runToEnd_eq_of_terminal #[] hended', hafter, hreports]
  simp

variable (hin : (m.after limit).pc < m.program.size)

include hin

theorem steps_of_inside :
    (m.after limit).status.isTerminal = false ∧ (m.after limit).steps = limit := by
  have halive : (m.after limit).status.isTerminal = false :=
    (hcourse.after (by omega)).inside (by rwa [after_program])
  have hsteps := after_steps_of_alive halive
  exact ⟨halive, by omega⟩

theorem runToEnd_of_inside :
    ((m.withBudget limit).runToEnd #[]).1 =
        { (m.after limit).withBudget limit with status := .stepLimit } ∧
      ((m.withBudget limit).runToEnd #[]).2.toList =
        m.reports limit ++ [.diagnostic (.stepLimitExceeded limit), .halted .stepLimit] := by
  obtain ⟨hafter, hreports⟩ := cut_withBudget hnew hle
  obtain ⟨halive, hsteps⟩ := steps_of_inside hnew hle hcourse hin
  have hstep := step_of_limit (m := (m.after limit).withBudget limit) false halive
    (Nat.le_of_eq hsteps.symm)
  have hended : ((m.withBudget limit).after (limit + 1)).status.isTerminal = true := by
    rw [after, hafter, hstep]
    rfl
  rw [runToEnd_eq_of_terminal #[] hended, reports, after, hafter, hreports, hstep]
  simp

end Cut

theorem lt_steps_of_halted {m : Machine} {limit : Nat} (hnew : m.steps = 0) (hcourse : m.OnCourse)
    (hin : (m.after limit).pc < m.program.size)
    (hhalted : (m.runToEnd #[]).1.status = .halted) : limit < (m.runToEnd #[]).1.steps := by
  have hout := outside_of_halted hcourse (by omega) hhalted
  obtain ⟨k, hk, hafter, -, hsteps⟩ := hcourse.exists_exact (n := m.remaining)
    (by unfold remaining; omega)
  rw [hafter] at hout
  have hended : (m.after k).status.isTerminal = true := by
    rw [hcourse.halted_of_outside (by unfold remaining at hk; omega) hout]
    rfl
  rw [runToEnd_eq_of_terminal #[] hended, hsteps, hnew, Nat.zero_add]
  -- Had the run ended by then, it would stand outside the program at the cut as well.
  apply Nat.lt_of_not_le
  intro hfew
  rw [(after_eq_of_terminal (a := k) (by omega) hended).1] at hin
  omega

end Machine

/-- The budget only truncates. Under either of two budgets the run comes to an end. If the run under
the larger one comes to its normal end within the smaller one, the two are the same. Otherwise the
smaller budget is used up to the last step, and the run stands where the other stands after as many
steps, with the output up to there and one diagnostic that names the limit. -/
theorem budget_truncates (program : Program) (tape : Tape) (input : Array UInt8) (eof : EofPolicy)
    (coalesce : Bool) (budget budget' : Nat) (hle : budget ≤ budget') :
    let start (limit : Nat) := Machine.fresh program tape input ⟨limit, eof, coalesce⟩
    let limit := max budget 1
    let short := (start budget).runToEnd #[]
    let long := (start budget').runToEnd #[]
    let cut := (start budget').after limit
    ((∃ n ≤ limit + 1, (start budget).EndsIn n short) ∧
      ∃ n ≤ max budget' 1 + 1, (start budget').EndsIn n long) ∧
    (long.1.status = .halted ∧ long.1.steps ≤ limit →
      short.1 = long.1.withBudget limit ∧ short.2 = long.2 ∧
        diagnosticsOf short.2.toList = []) ∧
    (¬(long.1.status = .halted ∧ long.1.steps ≤ limit) →
      short.1.status = .stepLimit ∧ short.1.steps = limit ∧ cut.steps = limit ∧
        short.1.pc = cut.pc ∧ short.1.tape = cut.tape ∧ short.1.cursor = cut.cursor ∧
        outputOf short.2.toList = outputOf ((start budget').reports limit) ∧
        outputOf short.2.toList <+: outputOf long.2.toList ∧
        diagnosticsOf short.2.toList = [.stepLimitExceeded limit]) := by
  intro start limit short long cut
  have hcourse : (start budget').OnCourse := Machine.onCourse_fresh ..
  have hlimit : limit ≤ (start budget').config.maxSteps := by
    simp only [start, limit, Machine.fresh]
    omega
  refine ⟨⟨(start budget).exists_endsIn, (start budget').exists_endsIn⟩, ?_⟩
  rcases Nat.lt_or_ge cut.pc program.size with hin | hout
  · -- At the cut the run is inside the program: it takes more steps if it gets out at all.
    have hlong : ¬(long.1.status = .halted ∧ long.1.steps ≤ limit) := by
      rintro ⟨hhalted, hwithin⟩
      have hmore := Machine.lt_steps_of_halted rfl hcourse hin hhalted
      exact absurd hwithin (Nat.not_le.mpr hmore)
    obtain ⟨halive, hsteps⟩ := Machine.steps_of_inside rfl hlimit hcourse hin
    obtain ⟨hmachine, hreport⟩ := Machine.runToEnd_of_inside rfl hlimit hcourse hin
    have hshort : short.1 = { cut.withBudget limit with status := .stepLimit } := hmachine
    have hevents : short.2.toList = (start budget').reports limit ++
        [.diagnostic (.stepLimitExceeded limit), .halted .stepLimit] := hreport
    have houtput : outputOf short.2.toList = outputOf ((start budget').reports limit) := by
      rw [hevents]
      simp [outputOf]
    have hdiagnostics : diagnosticsOf short.2.toList = [.stepLimitExceeded limit] := by
      rw [hevents, diagnosticsOf_append, Machine.diagnosticsOf_reports rfl,
        if_neg (Machine.ne_stepLimit_of_alive halive)]
      rfl
    refine ⟨fun h => absurd h hlong, fun _ => ?_⟩
    rw [hshort]
    refine ⟨rfl, hsteps, hsteps, rfl, rfl, rfl, houtput, ?_, hdiagnostics⟩
    rw [houtput]
    exact Machine.output_prefix_of_cut rfl hlimit
  · -- At the cut the run is over: neither budget has cut anything off.
    obtain ⟨hhalted, hrun, hrun'⟩ := Machine.runToEnd_of_outside rfl hlimit hcourse hout
    have hlong : long = (cut, ((start budget').reports limit).toArray) := hrun
    have hshort : short = (cut.withBudget limit, ((start budget').reports limit).toArray) := hrun'
    have hwithin : cut.steps ≤ limit :=
      Nat.le_trans ((start budget').after_steps_le limit) (Nat.le_of_eq (Nat.zero_add limit))
    rw [hlong, hshort]
    refine ⟨fun _ => ⟨rfl, rfl, ?_⟩, fun h => absurd ⟨hhalted, hwithin⟩ h⟩
    rw [Machine.diagnosticsOf_reports rfl, if_neg]
    rw [hhalted]
    decide

theorem budget_truncates_counting :
    ∃ program, Program.load "+.+.+." = .ok program ∧
      let run (limit : Nat) :=
        (Machine.fresh program (.blank 1) #[] ⟨limit, .zero, true⟩).runToEnd #[]
      (run 9).1.status = .halted ∧ (run 9).1.steps = 6 ∧ (run 6).2 = (run 9).2 ∧
        (run 4).1.status = .stepLimit ∧ outputOf (run 4).2.toList <+: outputOf (run 9).2.toList ∧
        outputOf (run 4).2.toList = [1, 2] ∧
        diagnosticsOf (run 4).2.toList = [.stepLimitExceeded 4] := by
  have hlong : ∃ program, Program.load "+.+.+." = .ok program ∧
      let run (limit : Nat) :=
        (Machine.fresh program (.blank 1) #[] ⟨limit, .zero, true⟩).runToEnd #[]
      (run 9).1.status = .halted ∧ (run 9).1.steps = 6 ∧ outputOf (run 4).2.toList = [1, 2] :=
    ⟨_, rfl, by decide +kernel, by decide +kernel, by decide +kernel⟩
  obtain ⟨program, hload, hhalted, hsteps, houtput⟩ := hlong
  have hsame := (budget_truncates program (.blank 1) #[] .zero true 6 9 (by decide)).2.1
    ⟨hhalted, Nat.le_of_eq hsteps⟩
  have hcut := (budget_truncates program (.blank 1) #[] .zero true 4 9 (by decide)).2.2
    fun h => absurd (hsteps ▸ h.2) (by decide)
  obtain ⟨hlimit, -, -, -, -, -, -, hprefix, hdiagnostics⟩ := hcut
  exact ⟨program, hload, hhalted, hsteps, hsame.2.1, hlimit, hprefix, houtput, hdiagnostics⟩

end TapeMachine
