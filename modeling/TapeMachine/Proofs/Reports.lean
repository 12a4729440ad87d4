import TapeMachine.Proofs.Reachable

/-!
# What a run reports

However a machine is driven, and whether it is asked to go on after its end or not, what it reports
keeps to one order: the end is reported once and last, a diagnostic only right before the end, and
what is written as it is written. Only highlights and looks at the tape depend on who drives.
-/

namespace TapeMachine

/-! ## Ways to drive a machine -/

inductive Drive where
  | step (highlight : Bool)
  | runToEnd
  | runInstant
  | tick (speed : Speed)
  | runPaced (pacer : Pacer) (cancel : Bool)

/-- A paced run makes a pause after each tick but the one that ends it. -/
def PacedRun.ticks (run : PacedRun) : Nat :=
  match run.outcome with
  | .ended _ => run.pauses.size + 1
  | .cancelled => run.pauses.size

namespace Machine

def drive (m : Machine) : Drive → Machine × List Event
  | .step highlight => m.step highlight
  | .runToEnd => ((m.runToEnd #[]).1, (m.runToEnd #[]).2.toList)
  | .runInstant => ((m.runInstant #[]).1, (m.runInstant #[]).2.toList)
  | .tick speed => ((m.tick speed #[]).1, (m.tick speed #[]).2.1.toList)
  | .runPaced pacer cancel =>
    ((m.runPaced pacer cancel #[] #[]).machine, (m.runPaced pacer cancel #[] #[]).log.toList)

/-- One drive after the other, with all that is reported. -/
def driveAll (m : Machine) : List Drive → Machine × List Event
  | [] => (m, [])
  | d :: rest =>
    (((m.drive d).1.driveAll rest).1, (m.drive d).2 ++ ((m.drive d).1.driveAll rest).2)

theorem driveAll_concat (m : Machine) (drives : List Drive) (d : Drive) :
    m.driveAll (drives ++ [d]) =
      (((m.driveAll drives).1.drive d).1,
        (m.driveAll drives).2 ++ ((m.driveAll drives).1.drive d).2) := by
  induction drives generalizing m with
  | nil => simp [driveAll]
  | cons first rest ih => simp [driveAll, ih]

/-! ## Which steps are to be highlighted -/

/-- The steps that a tick asks for. Those that it asks for after the end of the run are not
executed. -/
def tickHighlights (m : Machine) : Speed → List Bool
  | .instant => List.replicate (m.remaining + 1) false
  | .delay d => true :: List.replicate (d.stepsPerTick - 1) false

/-- The steps that the first `n` ticks of a pacer ask for. -/
def ticksHighlights (m : Machine) (pacer : Pacer) (n : Nat) : List Bool :=
  (List.range n).flatMap fun i => (m.afterTicks pacer i).tickHighlights (pacer.speedAfter i)

/-- The steps that a drive asks for, each with whether it is to be highlighted. -/
def highlights (m : Machine) : Drive → List Bool
  | .step highlight => [highlight]
  | .runToEnd | .runInstant => List.replicate (m.remaining + 1) false
  | .tick speed => m.tickHighlights speed
  | .runPaced pacer cancel => m.ticksHighlights pacer (m.runPaced pacer cancel #[] #[]).ticks

def highlightsAll (m : Machine) : List Drive → List Bool
  | [] => []
  | d :: rest => m.highlights d ++ (m.drive d).1.highlightsAll rest

/-- What a highlight of the next step shows, if it executes an instruction. -/
def shown? (m : Machine) : Option StepEvent :=
  m.next?.map fun op => (m.after 1).stepEvent m.pc op (m.reach op)

/-- What the highlighted ones show of the steps that are asked for with `highlights`. -/
def shownSteps (m : Machine) (highlights : List Bool) : List StepEvent :=
  highlights.zipIdx.filterMap fun (highlight, i) => if highlight then (m.after i).shown? else none

theorem shownSteps_append (m : Machine) (highlights : List Bool) (highlight : Bool) :
    m.shownSteps (highlights ++ [highlight]) = m.shownSteps highlights ++
      if highlight then (m.after highlights.length).shown?.toList else [] := by
  unfold shownSteps
  rw [List.zipIdx_append, List.filterMap_append]
  cases highlight with
  | false => simp
  | true => cases hshown : (m.after highlights.length).shown? <;> simp [hshown]

theorem mem_shownSteps {m : Machine} {highlights : List Bool} {e : StepEvent} :
    e ∈ m.shownSteps highlights ↔
      ∃ i, highlights[i]? = some true ∧ (m.after i).shown? = some e := by
  unfold shownSteps
  simp only [List.mem_filterMap, Prod.exists, List.mem_zipIdx_iff_getElem?]
  constructor
  · rintro ⟨highlight, i, hi, he⟩
    cases highlight with
    | false => simp at he
    | true => exact ⟨i, hi, by simpa using he⟩
  · rintro ⟨i, hi, he⟩
    exact ⟨true, i, hi, by simpa using he⟩

theorem ne_stepLimit_of_alive {m : Machine} (halive : m.status.isTerminal = false) :
    m.status ≠ .stepLimit := by
  intro hlimit
  simp [hlimit, Status.isTerminal] at halive

/-! ## One step -/

theorem perform_ne_stepLimit (m : Machine) (op : Instruction) (highlight : Bool) :
    (m.perform op highlight).1.status ≠ .stepLimit := by
  rw [perform_fst]
  simp only
  split <;> simp

section Step

variable (m : Machine) (highlight : Bool)

theorem stepsOf_step :
    stepsOf (m.step highlight).2 = if highlight then m.shown?.toList else [] := by
  unfold shown?
  rcases step_cases m with h | ⟨h, hlimit⟩ | ⟨h, hroom, hop⟩ | ⟨op, h, hroom, hop⟩
  · simp [step_of_terminal _ h, next?_eq_none (Or.inl h), stepsOf]
  · simp [step_of_limit _ h hlimit, next?_eq_none (Or.inr (Or.inl hlimit)), stepsOf]
  · simp [step_of_none _ h hroom hop, next?_eq_none (Or.inr (Or.inr hop)), stepsOf]
  · rw [next?_eq_some h hroom hop, after_one, step_of_op _ h hroom hop, stepsOf_perform,
      step_of_op _ h hroom hop, perform_fst, perform_fst]
    rfl

theorem outputOf_step :
    outputOf (m.step highlight).2 = if m.next? = some .write then [m.tape.get] else [] := by
  rcases step_cases m with h | ⟨h, hlimit⟩ | ⟨h, hroom, hop⟩ | ⟨op, h, hroom, hop⟩
  · simp [step_of_terminal _ h, next?_eq_none (Or.inl h), outputOf]
  · simp [step_of_limit _ h hlimit, next?_eq_none (Or.inr (Or.inl hlimit)), outputOf]
  · simp [step_of_none _ h hroom hop, next?_eq_none (Or.inr (Or.inr hop)), outputOf]
  · rw [step_of_op _ h hroom hop, outputOf_perform, next?_eq_some h hroom hop]
    simp

theorem haltsOf_step_eq (halive : m.status.isTerminal = false) :
    haltsOf (m.step highlight).2 =
      if (m.step highlight).1.status.isTerminal then [(m.step highlight).1.status] else [] := by
  rcases step_cases m with h | ⟨h, hlimit⟩ | ⟨h, hroom, hop⟩ | ⟨op, h, hroom, hop⟩
  · rw [h] at halive
    cases halive
  · rw [step_of_limit _ h hlimit]
    rfl
  · rw [step_of_none _ h hroom hop]
    rfl
  · rw [step_of_op _ h hroom hop, haltsOf_perform, perform_fst]
    simp only
    split <;> rfl

theorem diagnosticsOf_step_eq (halive : m.status.isTerminal = false) :
    diagnosticsOf (m.step highlight).2 =
      if (m.step highlight).1.status = .stepLimit then [.stepLimitExceeded m.config.maxSteps]
      else [] := by
  rcases step_cases m with h | ⟨h, hlimit⟩ | ⟨h, hroom, hop⟩ | ⟨op, h, hroom, hop⟩
  · rw [h] at halive
    cases halive
  · rw [step_of_limit _ h hlimit]
    rfl
  · rw [step_of_none _ h hroom hop]
    rfl
  · rw [step_of_op _ h hroom hop, if_neg (perform_ne_stepLimit _ _ _), perform_snd]
    simp [diagnosticsOf, filterMap_ite]

theorem step_closing (halive : m.status.isTerminal = false)
    (hended : (m.step highlight).1.status.isTerminal = true) :
    ∃ before, (m.step highlight).2 = before ++ [.halted (m.step highlight).1.status] ∧
      ((m.step highlight).1.status = .stepLimit →
        before = [.diagnostic (.stepLimitExceeded m.config.maxSteps)]) := by
  rcases step_cases m with h | ⟨h, hlimit⟩ | ⟨h, hroom, hop⟩ | ⟨op, h, hroom, hop⟩
  · rw [h] at halive
    cases halive
  · rw [step_of_limit _ h hlimit]
    exact ⟨[.diagnostic (.stepLimitExceeded m.config.maxSteps)], rfl, fun _ => rfl⟩
  · rw [step_of_none _ h hroom hop]
    exact ⟨[], rfl, fun hlimit => by cases hlimit⟩
  · rw [step_of_op _ h hroom hop] at hended ⊢
    rw [perform_fst] at hended
    have hout : m.program.size ≤ (m.execute op (m.reach op)).pc := by
      apply Nat.le_of_not_lt
      intro hin
      simp [if_neg (Nat.not_le.mpr hin), Status.isTerminal] at hended
    rw [perform_snd, perform_fst]
    simp only [if_pos hout]
    exact ⟨_, rfl, fun hlimit => by cases hlimit⟩

end Step

/-! ## Many steps -/

section Steps

variable {m : Machine} (halive : m.status.isTerminal = false) (n : Nat)

theorem outputOf_reports (m : Machine) (n : Nat) :
    outputOf (m.reports n) =
      ((List.range n).filter fun i => (m.after i).next? = some .write).map
        fun i => (m.after i).tape.get := by
  induction n with
  | zero => rfl
  | succ n ih =>
    rw [reports, outputOf_append, ih, outputOf_step, List.range_succ, List.filter_append,
      List.map_append]
    by_cases h : (m.after n).next? = some .write <;> simp [h]

include halive

theorem haltsOf_reports_eq :
    haltsOf (m.reports n) =
      if (m.after n).status.isTerminal then [(m.after n).status] else [] := by
  induction n with
  | zero => simp [halive, haltsOf]
  | succ n ih =>
    rw [reports, haltsOf_append, ih, after]
    cases hended : (m.after n).status.isTerminal with
    | true => simp [step_of_terminal _ hended, hended, haltsOf]
    | false => simp [haltsOf_step_eq _ _ hended]

theorem diagnosticsOf_reports :
    diagnosticsOf (m.reports n) =
      if (m.after n).status = .stepLimit then [.stepLimitExceeded m.config.maxSteps] else [] := by
  induction n with
  | zero => simp [ne_stepLimit_of_alive halive, diagnosticsOf]
  | succ n ih =>
    rw [reports, diagnosticsOf_append, ih, after]
    cases hended : (m.after n).status.isTerminal with
    | true => simp [step_of_terminal _ hended, diagnosticsOf]
    | false =>
      simp [diagnosticsOf_step_eq _ _ hended, ne_stepLimit_of_alive hended, after_config]

end Steps

/-! ## The account of a run -/

/-- `start` has been asked for steps with `highlights` and stands as `m` now, and `events` is what
has been reported meanwhile, with looks at the tape in between. -/
structure Told (start : Machine) (highlights : List Bool) (m : Machine) (events : List Event) :
    Prop where
  machine : m = start.after highlights.length
  essence : essential events = essential (start.reports highlights.length)
  shown : stepsOf events = start.shownSteps highlights
  closing : m.status.isTerminal = true → ∃ (before : List Event) (looks : List Tape),
    events = before ++ .halted m.status :: looks.map .tape ∧
      (m.status = .stepLimit →
        ∃ earlier, before = earlier ++ [.diagnostic (.stepLimitExceeded m.config.maxSteps)])

theorem told_nothing {start : Machine} (halive : start.status.isTerminal = false) :
    start.Told [] start [] := by
  refine ⟨rfl, rfl, rfl, ?_⟩
  intro hended
  rw [hended] at halive
  cases halive

section Told

variable {start m : Machine} {highlights : List Bool} {events : List Event}

theorem Told.step (h : start.Told highlights m events) (highlight : Bool) :
    start.Told (highlights ++ [highlight]) (m.step highlight).1
      (events ++ (m.step highlight).2) := by
  have hm := h.machine
  refine ⟨?_, ?_, ?_, ?_⟩
  · simp [after, ← hm, step_fst m highlight]
  · simp [reports, ← hm, h.essence, essential_step m highlight]
  · rw [stepsOf_append, h.shown, stepsOf_step, shownSteps_append, ← hm]
  · intro hended
    cases halive : m.status.isTerminal with
    | true =>
      rw [step_of_terminal _ halive, List.append_nil]
      exact h.closing halive
    | false =>
      obtain ⟨before, hstep, hlimit⟩ := step_closing m highlight halive hended
      refine ⟨events ++ before, [], ?_, ?_⟩
      · rw [hstep]
        simp
      · intro hstatus
        refine ⟨events, ?_⟩
        rw [hlimit hstatus, step_config]

theorem Told.look (h : start.Told highlights m events) :
    start.Told highlights m (events ++ [.tape m.tape]) := by
  refine ⟨h.machine, ?_, ?_, ?_⟩
  · simp [h.essence]
  · rw [stepsOf_append, h.shown]
    exact List.append_nil _
  · intro hended
    obtain ⟨before, looks, rfl, hlimit⟩ := h.closing hended
    refine ⟨before, looks ++ [m.tape], ?_, hlimit⟩
    simp

theorem Told.steps (h : start.Told highlights m events) (n : Nat) :
    start.Told (highlights ++ List.replicate n false) (m.after n) (events ++ m.reports n) := by
  induction n with
  | zero => simpa using h
  | succ n ih =>
    have hnext := ih.step false
    rwa [List.append_assoc, List.append_assoc, ← List.replicate_succ'] at hnext

theorem Told.tick (h : start.Told highlights m events) (speed : Speed) (log : Array Event) :
    start.Told (highlights ++ m.tickHighlights speed) (m.tick speed log).1
      (events ++ (m.tick speed #[]).2.1.toList) := by
  cases speed with
  | instant =>
    rw [tick_instant, tick_instant]
    simpa [tickHighlights] using (h.steps (m.remaining + 1)).look
  | delay d =>
    have hbatch := ((h.step true).steps (d.stepsPerTick - 1)).look
    rw [step_fst, ← after_one, after_batch] at hbatch
    rw [tick_delay, tick_delay]
    simpa [tickHighlights, batch] using hbatch

theorem tick_log (m : Machine) (speed : Speed) (log : Array Event) :
    (m.tick speed log).2.1.toList = log.toList ++ (m.tick speed #[]).2.1.toList := by
  cases speed with
  | instant => simp [tick_instant]
  | delay d => simp [tick_delay]

theorem ticksHighlights_succ (m : Machine) (pacer : Pacer) (n : Nat) :
    m.ticksHighlights pacer (n + 1) =
      m.ticksHighlights pacer n ++ (m.afterTicks pacer n).tickHighlights (pacer.speedAfter n) := by
  unfold ticksHighlights
  rw [List.range_succ, List.flatMap_append, List.flatMap_singleton]

theorem Told.nextTick {first : Machine} {pacer : Pacer} {log : Array Event} {n : Nat}
    (hm : m = first.afterTicks pacer n)
    (h : start.Told (highlights ++ first.ticksHighlights pacer n) m (events ++ log.toList)) :
    (m.tick (pacer.speedAfter n) log).1 = first.afterTicks pacer (n + 1) ∧
    start.Told (highlights ++ first.ticksHighlights pacer (n + 1))
      (m.tick (pacer.speedAfter n) log).1
      (events ++ (m.tick (pacer.speedAfter n) log).2.1.toList) := by
  constructor
  · rw [afterTicks, ← hm, tick_fst m _ #[] log]
  · have hnext := h.tick (pacer.speedAfter n) log
    rw [ticksHighlights_succ, ← hm, tick_log, ← List.append_assoc, ← List.append_assoc]
    exact hnext

theorem Told.pacedFrom {first : Machine} {pacer : Pacer} {cancel : Bool} {log : Array Event}
    {pauses : Array Delay} (hm : m = first.afterTicks pacer pauses.size)
    (h : start.Told (highlights ++ first.ticksHighlights pacer pauses.size) m
      (events ++ log.toList)) :
    let run := m.runPaced pacer cancel log pauses
    start.Told (highlights ++ first.ticksHighlights pacer run.ticks) run.machine
      (events ++ run.log.toList) := by
  -- With each pause the account grows by one tick, and so it does with the tick that ends the run.
  fun_induction runPaced m pacer cancel log pauses with
  | case1 m log pauses => exact h
  | case2 m cancel log pauses _ m' log' status htick =>
    obtain ⟨-, hnext⟩ := Told.nextTick hm h
    rw [htick] at hnext
    exact hnext
  | case3 m cancel log pauses _ m' log' d htick ih =>
    obtain ⟨hm', hnext⟩ := Told.nextTick hm h
    rw [htick] at hm' hnext
    rw [← Array.size_push d] at hm' hnext
    exact ih hm' hnext

theorem Told.drive (h : start.Told highlights m events) (d : Drive) :
    start.Told (highlights ++ m.highlights d) (m.drive d).1 (events ++ (m.drive d).2) := by
  cases d with
  | step highlight => exact h.step highlight
  | runToEnd =>
    have hend := h.steps (m.remaining + 1)
    simpa [Machine.drive, Machine.highlights, runToEnd_eq] using hend
  | runInstant =>
    have hend := (h.steps (m.remaining + 1)).look
    simpa [Machine.drive, Machine.highlights, runInstant, runToEnd_eq] using hend
  | tick speed => exact h.tick speed #[]
  | runPaced pacer cancel =>
    have hbefore : start.Told (highlights ++ m.ticksHighlights pacer (#[] : Array Delay).size) m
        (events ++ (#[] : Array Event).toList) := by
      simpa [ticksHighlights] using h
    exact Told.pacedFrom rfl hbefore

theorem Told.driveAll (h : start.Told highlights m events) (drives : List Drive) :
    start.Told (highlights ++ m.highlightsAll drives) (m.driveAll drives).1
      (events ++ (m.driveAll drives).2) := by
  induction drives generalizing m highlights events with
  | nil => simpa [highlightsAll, Machine.driveAll] using h
  | cons d rest ih =>
    have hrest := ih (h.drive d)
    rwa [List.append_assoc, List.append_assoc] at hrest

theorem told_driveAll (halive : start.status.isTerminal = false) (drives : List Drive) :
    start.Told (start.highlightsAll drives) (start.driveAll drives).1 (start.driveAll drives).2 :=
  (told_nothing halive).driveAll drives

end Told

/-! ## Counting calls and steps -/

theorem next?_eq_some_iff {m : Machine} {op : Instruction} :
    m.next? = some op ↔
      m.status.isTerminal = false ∧ m.steps < m.config.maxSteps ∧ m.program.op? m.pc = some op := by
  constructor
  · intro h
    unfold next? at h
    split at h
    · cases h
    · rename_i hgoes
      simp only [Bool.or_eq_true, decide_eq_true_eq, not_or, Bool.not_eq_true, Nat.not_le] at hgoes
      exact ⟨hgoes.1, hgoes.2, h⟩
  · rintro ⟨halive, hroom, hop⟩
    exact next?_eq_some halive hroom hop

section Counting

variable {start : Machine} (hnew : start.steps = 0)

include hnew

theorem steps_of_alive {n : Nat} (halive : (start.after n).status.isTerminal = false) :
    (start.after n).steps = n := by
  rw [after_steps_of_alive halive, hnew, Nat.zero_add]

theorem step_of_shown {i : Nat} {e : StepEvent} (h : (start.after i).shown? = some e) :
    e.step = i + 1 := by
  obtain ⟨op, hnext, rfl⟩ := Option.map_eq_some_iff.mp h
  have hsteps := step_steps_eq (start.after i) false
  have halive := steps_of_alive hnew (next?_eq_some_iff.mp hnext).1
  simp only [hnext, Option.toList_some, List.length_singleton] at hsteps
  rw [halive] at hsteps
  exact hsteps

variable (hstart : start.Consistent)

include hstart

/-- Of the calls that have been made, as many have executed something as there are steps: the
first ones. -/
theorem exists_next_iff {i n : Nat} (hi : i < n) :
    (∃ op, (start.after i).next? = some op) ↔ i < (start.after n).steps := by
  constructor
  · rintro ⟨op, hnext⟩
    have hsteps := step_steps_eq (start.after i) false
    -- The run was going on there, so every call before has counted.
    have halive := steps_of_alive hnew (next?_eq_some_iff.mp hnext).1
    have hlater := (start.after (i + 1)).steps_le_after (n - (i + 1))
    rw [← after_add, Nat.add_sub_of_le hi, after, hsteps, halive, hnext] at hlater
    exact hlater
  · intro hlt
    have halive : (start.after i).status.isTerminal = false := by
      apply Bool.eq_false_iff.mpr
      intro hended
      rw [(after_eq_of_terminal (Nat.le_of_lt hi) hended).1] at hlt
      have := start.after_steps_le i
      omega
    have hroom := (hstart.after n).steps_le
    rw [after_config] at hroom
    obtain ⟨op, hop⟩ := (hstart.after i).exists_op halive
    refine ⟨op, next?_eq_some halive ?_ hop⟩
    rw [steps_of_alive hnew halive, after_config]
    omega

theorem reports_exact (n : Nat) :
    start.reports n = start.reports
      ((start.after n).steps + if (start.after n).status = .stepLimit then 1 else 0) := by
  induction n with
  | zero =>
    have hready : start.status = .ready := hstart.ready_iff.mpr hnew
    simp [hnew, hready]
  | succ n ih =>
    cases hended : (start.after n).status.isTerminal with
    | true =>
      obtain ⟨hafter, hreports⟩ := after_eq_of_terminal (Nat.le_succ n) hended
      rw [hafter, hreports, ih]
    | false =>
      have hsteps := steps_of_alive hnew hended
      obtain ⟨op, hop⟩ := (hstart.after n).exists_op hended
      rw [after]
      rcases Nat.lt_or_ge (start.after n).steps (start.after n).config.maxSteps with hroom | hlimit
      · rw [step_of_op _ hended hroom hop, perform_steps, if_neg (perform_ne_stepLimit _ _ _),
          hsteps]
      · -- The call that says that the budget is used up executes nothing, and is the one more.
        rw [step_of_limit _ hended hlimit]
        simp [hsteps]

end Counting

section Protocol

variable {start m : Machine} {highlights : List Bool} {events : List Event}

theorem Told.haltsOf_eq (h : start.Told highlights m events)
    (halive : start.status.isTerminal = false) :
    haltsOf events = if m.status.isTerminal then [m.status] else [] := by
  rw [← haltsOf_essential, h.essence, haltsOf_essential, haltsOf_reports_eq halive, h.machine]

theorem Told.diagnosticsOf_eq (h : start.Told highlights m events)
    (halive : start.status.isTerminal = false) :
    diagnosticsOf events =
      if m.status = .stepLimit then [.stepLimitExceeded m.config.maxSteps] else [] := by
  rw [← diagnosticsOf_essential, h.essence, diagnosticsOf_essential, diagnosticsOf_reports halive,
    h.machine, after_config]

theorem Told.essence_exact (h : start.Told highlights m events) (hnew : start.steps = 0)
    (hstart : start.Consistent) :
    essential events = essential
      (start.reports (m.steps + if m.status = .stepLimit then 1 else 0)) := by
  rw [h.essence, reports_exact hnew hstart, h.machine]

theorem Told.counted (h : start.Told highlights m events) (hnew : start.steps = 0) :
    (start.after m.steps).steps = m.steps ∧ m.tape = (start.after m.steps).tape ∧
      outputOf events = outputOf (start.reports m.steps) := by
  obtain ⟨k, hsteps, hk, -, htape, -, houtput⟩ := start.after_counted highlights.length
  rw [hnew, Nat.zero_add, ← h.machine] at hsteps
  rw [hnew, Nat.zero_add] at hk
  rw [hsteps]
  refine ⟨hk, ?_, ?_⟩
  · rw [h.machine, htape]
  · rw [← outputOf_essential, h.essence, outputOf_essential, houtput]

theorem Told.outputOf_eq (h : start.Told highlights m events) (hnew : start.steps = 0) :
    outputOf events =
      ((List.range m.steps).filter fun i => (start.after i).next? = some .write).map
        fun i => (start.after i).tape.get := by
  rw [(h.counted hnew).2.2, outputOf_reports]

theorem Told.steps_increase (h : start.Told highlights m events) (hnew : start.steps = 0) :
    ((stepsOf events).map StepEvent.step).Pairwise (· < ·) := by
  have hindices : highlights.zipIdx.Pairwise fun a b => a.2 < b.2 := by
    apply List.pairwise_map.mp
    rw [List.zipIdx_map_snd]
    exact List.pairwise_lt_range'
  rw [h.shown, List.pairwise_map]
  refine hindices.filterMap _ ?_
  rintro ⟨highlight, i⟩ ⟨highlight', j⟩ hlt e he e' he'
  simp only [Option.ite_none_right_eq_some] at he he'
  rw [step_of_shown hnew he.2, step_of_shown hnew he'.2]
  exact Nat.succ_lt_succ hlt

theorem Told.mem_steps_iff (h : start.Told highlights m events) (hnew : start.steps = 0)
    (hstart : start.Consistent) (k : Nat) :
    k ∈ (stepsOf events).map StepEvent.step ↔
      1 ≤ k ∧ k ≤ m.steps ∧ highlights[k - 1]? = some true := by
  rw [h.shown, List.mem_map]
  constructor
  · rintro ⟨e, he, rfl⟩
    obtain ⟨i, hi, hshown⟩ := mem_shownSteps.mp he
    obtain ⟨op, hnext, -⟩ := Option.map_eq_some_iff.mp hshown
    have hlt := (exists_next_iff hnew hstart (List.getElem?_eq_some_iff.mp hi).1).mp ⟨op, hnext⟩
    rw [← h.machine] at hlt
    rw [step_of_shown hnew hshown]
    exact ⟨Nat.le_add_left 1 i, hlt, hi⟩
  · rintro ⟨hpos, hle, hi⟩
    obtain ⟨i, rfl⟩ := Nat.exists_eq_add_of_le' hpos
    rw [Nat.add_sub_cancel] at hi
    rw [h.machine] at hle
    obtain ⟨op, hnext⟩ :=
      (exists_next_iff hnew hstart (List.getElem?_eq_some_iff.mp hi).1).mpr hle
    have hshown : (start.after i).shown? = some _ := Option.map_eq_some_iff.mpr ⟨op, hnext, rfl⟩
    exact ⟨_, mem_shownSteps.mpr ⟨i, hi, hshown⟩, step_of_shown hnew hshown⟩

end Protocol

end Machine

/-- What a run reports, however it is driven. The end is reported once, if and only if the run has
ended, and nothing but looks at the tape comes after it; the diagnostic of the step limit comes
once, right before the end, if that is what ended the run. Each `.` writes the cell as it is.
Exactly the executed steps that were to be highlighted are shown, in their order. All the rest
depends on nothing but the number of executed steps and the status. -/
theorem report_protocol (program : Program) (tape : Tape) (input : Array UInt8) (config : Config)
    (drives : List Drive) :
    let start := Machine.fresh program tape input config
    let m := (start.driveAll drives).1
    let events := (start.driveAll drives).2
    let shown := (stepsOf events).map StepEvent.step
    haltsOf events = (if m.status.isTerminal then [m.status] else []) ∧
    diagnosticsOf events =
      (if m.status = .stepLimit then [.stepLimitExceeded m.config.maxSteps] else []) ∧
    (m.status.isTerminal = true → ∃ (before : List Event) (looks : List Tape),
      events = before ++ .halted m.status :: looks.map .tape ∧
        (m.status = .stepLimit →
          ∃ earlier, before = earlier ++ [.diagnostic (.stepLimitExceeded m.config.maxSteps)])) ∧
    outputOf events =
      ((List.range m.steps).filter fun i => (start.after i).next? = some .write).map
        (fun i => (start.after i).tape.get) ∧
    shown.Pairwise (· < ·) ∧
    (∀ k, k ∈ shown ↔
      1 ≤ k ∧ k ≤ m.steps ∧ (start.highlightsAll drives)[k - 1]? = some true) ∧
    (∀ others : List Drive,
      (start.driveAll others).1.steps = m.steps → (start.driveAll others).1.status = m.status →
        essential (start.driveAll others).2 = essential events) := by
  intro start m events shown
  have hnew : start.steps = 0 := rfl
  have halive : start.status.isTerminal = false := rfl
  have hstart : start.Consistent := Machine.consistent_fresh ..
  have h := Machine.told_driveAll halive drives
  refine ⟨h.haltsOf_eq halive, h.diagnosticsOf_eq halive, h.closing, h.outputOf_eq hnew,
    h.steps_increase hnew, h.mem_steps_iff hnew hstart, ?_⟩
  intro others hsteps hstatus
  have hothers := Machine.told_driveAll halive others
  rw [hothers.essence_exact hnew hstart, h.essence_exact hnew hstart, hsteps, hstatus]

end TapeMachine
