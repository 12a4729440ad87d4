import TapeMachine.Proofs.Steps

/-!
# Ticks and batches

A tick is a batch of plain steps, with a highlight for the first and a look at the tape behind the
last. A paced run is a number of such batches, and a request to cancel stops it between two.
-/

namespace TapeMachine

theorem Delay.stepsPerTick_pos (d : Delay) : 0 < d.stepsPerTick := by
  unfold stepsPerTick
  split
  · exact Nat.le_max_right _ 1
  · exact Nat.zero_lt_one

namespace Machine

/-! ## What a step shows -/

theorem tapesOf_step (m : Machine) (highlight : Bool) : tapesOf (m.step highlight).2 = [] := by
  rcases step_cases m with h | ⟨h, hlimit⟩ | ⟨h, hroom, hop⟩ | ⟨op, h, hroom, hop⟩
  · rw [step_of_terminal _ h]
    rfl
  · rw [step_of_limit _ h hlimit]
    rfl
  · rw [step_of_none _ h hroom hop]
    rfl
  · rw [step_of_op _ h hroom hop]
    exact tapesOf_perform ..

theorem stepsOf_step_false (m : Machine) : stepsOf (m.step false).2 = [] := by
  rcases step_cases m with h | ⟨h, hlimit⟩ | ⟨h, hroom, hop⟩ | ⟨op, h, hroom, hop⟩
  · rw [step_of_terminal _ h]
    rfl
  · rw [step_of_limit _ h hlimit]
    rfl
  · rw [step_of_none _ h hroom hop]
    rfl
  · rw [step_of_op _ h hroom hop, stepsOf_perform]
    rfl

theorem length_stepsOf_step {m : Machine} (halive : (m.step true).1.status.isTerminal = false) :
    (stepsOf (m.step true).2).length = 1 := by
  obtain ⟨op, h, hroom, hop⟩ := exists_op_of_step_steps (step_steps_of_alive halive)
  rw [step_of_op _ h hroom hop, stepsOf_perform]
  rfl

theorem haltsOf_step {m : Machine} {highlight : Bool}
    (halive : (m.step highlight).1.status.isTerminal = false) :
    haltsOf (m.step highlight).2 = [] := by
  obtain ⟨op, h, hroom, hop⟩ := exists_op_of_step_steps (step_steps_of_alive halive)
  rw [step_of_op _ h hroom hop] at halive ⊢
  rw [haltsOf_perform, if_neg]
  intro hend
  rw [perform_fst] at halive
  simp only [if_pos hend] at halive
  cases halive

theorem stepsOf_reports (m : Machine) (n : Nat) : stepsOf (m.reports n) = [] := by
  induction n with
  | zero => rfl
  | succ n ih => rw [reports, stepsOf_append, ih, stepsOf_step_false]; rfl

theorem tapesOf_reports (m : Machine) (n : Nat) : tapesOf (m.reports n) = [] := by
  induction n with
  | zero => rfl
  | succ n ih => rw [reports, tapesOf_append, ih, tapesOf_step]; rfl

theorem haltsOf_reports {m : Machine} {n : Nat} (halive : (m.after n).status.isTerminal = false) :
    haltsOf (m.reports n) = [] := by
  induction n with
  | zero => rfl
  | succ n ih =>
    rw [reports, haltsOf_append, ih (alive_of_after (Nat.le_succ n) halive), haltsOf_step halive]
    rfl

/-! ## One tick -/

/-- What a tick at the delay `d` reports. -/
def batch (m : Machine) (d : Delay) : List Event :=
  (m.step true).2 ++ (m.after 1).reports (d.stepsPerTick - 1) ++ [.tape (m.after d.stepsPerTick).tape]

theorem after_batch (m : Machine) (d : Delay) :
    (m.after 1).after (d.stepsPerTick - 1) = m.after d.stepsPerTick := by
  rw [← after_add, Nat.add_sub_of_le d.stepsPerTick_pos]

theorem tick_delay (m : Machine) (d : Delay) (log : Array Event) :
    m.tick (.delay d) log = (m.after d.stepsPerTick, log ++ m.batch d,
      if (m.after d.stepsPerTick).status.isTerminal then
        .finished (m.after d.stepsPerTick).status
      else .goesOn d) := by
  unfold tick
  simp only [runFor_eq, step_fst, ← after_one, after_batch, Prod.mk.injEq, and_true, true_and]
  apply Array.ext'
  simp [batch]

theorem tick_instant (m : Machine) (log : Array Event) :
    m.tick .instant log = (m.after (m.remaining + 1),
      (log ++ m.reports (m.remaining + 1)).push (.tape (m.after (m.remaining + 1)).tape),
      .finished (m.after (m.remaining + 1)).status) := by
  unfold tick runInstant
  simp only [runToEnd_eq]

theorem essential_batch (m : Machine) (d : Delay) :
    essential (m.batch d) = essential (m.reports d.stepsPerTick) := by
  unfold batch
  rw [essential_append, essential_tape, List.append_nil, essential_append, essential_step,
    ← reports_one, ← essential_append, ← reports_add, Nat.add_sub_of_le d.stepsPerTick_pos]

theorem stepsOf_batch (m : Machine) (d : Delay) :
    stepsOf (m.batch d) = stepsOf (m.step true).2 := by
  unfold batch
  rw [stepsOf_append, stepsOf_append, stepsOf_reports, List.append_nil]
  exact List.append_nil _

theorem tapesOf_batch (m : Machine) (d : Delay) :
    tapesOf (m.batch d) = [(m.after d.stepsPerTick).tape] := by
  unfold batch
  rw [tapesOf_append, tapesOf_append, tapesOf_step, tapesOf_reports]
  rfl

end Machine

/-! ## Ticks in a row -/

/-- Steps in the first `n` ticks at the delays `d 0`, `d 1` and so on. -/
def stepsInTicks (d : Nat → Delay) : Nat → Nat
  | 0 => 0
  | n + 1 => stepsInTicks d n + (d n).stepsPerTick

theorem le_stepsInTicks (d : Nat → Delay) (n : Nat) : n ≤ stepsInTicks d n := by
  induction n with
  | zero => exact Nat.le_refl 0
  | succ n ih =>
    have := (d n).stepsPerTick_pos
    rw [stepsInTicks]
    omega

/-- The delay that a pacer asks for after `n` pauses, if it asks for one. -/
def Pacer.delayAfter (pacer : Pacer) (n : Nat) : Delay :=
  match pacer.speedAfter n with
  | .instant => default
  | .delay d => d

/-- The request to cancel as it stands after `n` pauses, if it was clear before. -/
def Pacer.asks (pacer : Pacer) : Nat → Bool
  | 0 => false
  | n + 1 => pacer.cancelsIn (n + 1)

namespace Machine

/-- The machine after `n` ticks at the speeds of a pacer. -/
def afterTicks (m : Machine) (pacer : Pacer) : Nat → Machine
  | 0 => m
  | n + 1 => ((m.afterTicks pacer n).tick (pacer.speedAfter n) #[]).1

/-- What the first `n` ticks report. -/
def batches (m : Machine) (d : Nat → Delay) : Nat → List Event
  | 0 => []
  | n + 1 => m.batches d n ++ (m.after (stepsInTicks d n)).batch (d n)

theorem tick_of_terminal {m : Machine} (h : m.status.isTerminal = true) (speed : Speed)
    (log : Array Event) : (m.tick speed log).1 = m := by
  cases speed with
  | instant => rw [tick_instant, after_of_terminal h]
  | delay d => rw [tick_delay, after_of_terminal h]

theorem terminal_tick_instant (m : Machine) (log : Array Event) :
    (m.tick .instant log).1.status.isTerminal = true := by
  rw [tick_instant]
  exact m.terminal_after_remaining

section Ticks

variable {m : Machine} {pacer : Pacer} {d : Nat → Delay} {n : Nat}

theorem afterTicks_eq (hspeed : ∀ i < n, pacer.speedAfter i = .delay (d i)) :
    m.afterTicks pacer n = m.after (stepsInTicks d n) := by
  induction n with
  | zero => rfl
  | succ n ih =>
    rw [afterTicks, ih fun i hi => hspeed i (by omega), hspeed n (Nat.lt_succ_self n), tick_delay,
      stepsInTicks, after_add]

theorem alive_of_afterTicks {i : Nat} (hle : i ≤ n)
    (halive : (m.afterTicks pacer n).status.isTerminal = false) :
    (m.afterTicks pacer i).status.isTerminal = false := by
  induction n with
  | zero => rwa [Nat.le_zero.mp hle]
  | succ n ih =>
    rcases Nat.lt_or_eq_of_le hle with hlt | rfl
    · apply ih (Nat.le_of_lt_succ hlt)
      cases hended : (m.afterTicks pacer n).status.isTerminal with
      | false => rfl
      | true => rwa [afterTicks, tick_of_terminal hended, hended] at halive
    · exact halive

theorem speed_of_alive (halive : (m.afterTicks pacer n).status.isTerminal = false) :
    ∀ i < n, pacer.speedAfter i = .delay (pacer.delayAfter i) := by
  intro i hi
  have hthen := alive_of_afterTicks hi halive
  rw [afterTicks] at hthen
  unfold Pacer.delayAfter
  split
  · rename_i hspeed
    rw [hspeed, terminal_tick_instant] at hthen
    cases hthen
  · assumption

theorem essential_batches (m : Machine) (d : Nat → Delay) (n : Nat) :
    essential (m.batches d n) = essential (m.reports (stepsInTicks d n)) := by
  induction n with
  | zero => rfl
  | succ n ih =>
    rw [batches, stepsInTicks, reports_add, essential_append, essential_append, ih, essential_batch]

theorem tapesOf_batches (m : Machine) (d : Nat → Delay) (n : Nat) :
    tapesOf (m.batches d n) =
      (List.range n).map fun i => (m.after (stepsInTicks d (i + 1))).tape := by
  induction n with
  | zero => rfl
  | succ n ih =>
    rw [batches, tapesOf_append, ih, tapesOf_batch, List.range_succ, List.map_append,
      ← after_add]
    rfl

theorem stepsOf_batches (m : Machine) (d : Nat → Delay) (n : Nat) :
    stepsOf (m.batches d n) =
      (List.range n).flatMap fun i => stepsOf ((m.after (stepsInTicks d i)).step true).2 := by
  induction n with
  | zero => rfl
  | succ n ih =>
    rw [batches, stepsOf_append, ih, stepsOf_batch, List.range_succ, List.flatMap_append,
      List.flatMap_singleton]

theorem length_stepsOf_batches
    (halive : (m.after (stepsInTicks d n)).status.isTerminal = false) :
    (stepsOf (m.batches d n)).length = n := by
  induction n with
  | zero => rfl
  | succ n ih =>
    have hpos := (d n).stepsPerTick_pos
    rw [stepsInTicks] at halive
    have hfirst : ((m.after (stepsInTicks d n)).step true).1.status.isTerminal = false := by
      rw [step_fst]
      exact alive_of_after (a := stepsInTicks d n + 1) (by omega) halive
    rw [batches, stepsOf_append, List.length_append, stepsOf_batch, length_stepsOf_step hfirst,
      ih (alive_of_after (Nat.le_add_right ..) halive)]

/-! ## Paced runs -/

theorem runPaced_cancel (m : Machine) (pacer : Pacer) (log : Array Event) (pauses : Array Delay) :
    m.runPaced pacer true log pauses = ⟨m, log, pauses, .cancelled, true⟩ := by
  rw [runPaced]
  rfl

theorem runPaced_goesOn {m m' : Machine} {pacer : Pacer} {log log' : Array Event}
    {pauses : Array Delay} {d : Delay}
    (h : m.tick (pacer.speedAfter pauses.size) log = (m', log', .goesOn d)) :
    m.runPaced pacer false log pauses =
      m'.runPaced pacer (pacer.cancelsIn (pauses.size + 1)) log' (pauses.push d) := by
  rw [runPaced]
  simp only [Bool.false_eq_true, if_false]
  split
  · rename_i heq
    rw [h] at heq
    cases heq
  · rename_i heq
    rw [h] at heq
    cases heq
    rfl

theorem runPaced_finished {m m' : Machine} {pacer : Pacer} {log log' : Array Event}
    {pauses : Array Delay} {status : Status}
    (h : m.tick (pacer.speedAfter pauses.size) log = (m', log', .finished status)) :
    m.runPaced pacer false log pauses = ⟨m', log', pauses, .ended status, false⟩ := by
  rw [runPaced]
  simp only [Bool.false_eq_true, if_false]
  split
  · rename_i heq
    rw [h] at heq
    cases heq
    rfl
  · rename_i heq
    rw [h] at heq
    cases heq

theorem runPaced_ticks (hspeed : ∀ i < n, pacer.speedAfter i = .delay (d i))
    (hclear : ∀ i, 1 ≤ i → i < n → pacer.cancelsIn i = false)
    (halive : (m.after (stepsInTicks d n)).status.isTerminal = false) :
    m.runPaced pacer false #[] #[] =
      (m.after (stepsInTicks d n)).runPaced pacer (pacer.asks n) (m.batches d n).toArray
        ((List.range n).map d).toArray := by
  induction n with
  | zero => rfl
  | succ n ih =>
    have hasks : pacer.asks n = false := by
      cases n with
      | zero => rfl
      | succ n => exact hclear (n + 1) (by omega) (by omega)
    have hbefore := halive
    rw [stepsInTicks] at hbefore
    rw [ih (fun i hi => hspeed i (by omega)) (fun i hlo hhi => hclear i hlo (by omega))
      (alive_of_after (Nat.le_add_right ..) hbefore), hasks]
    have hsize : ((List.range n).map d).toArray.size = n := by simp
    have htick : (m.after (stepsInTicks d n)).tick
        (pacer.speedAfter ((List.range n).map d).toArray.size) (m.batches d n).toArray =
          (m.after (stepsInTicks d (n + 1)), (m.batches d (n + 1)).toArray, .goesOn (d n)) := by
      rw [hsize, hspeed n (Nat.lt_succ_self n), tick_delay, ← after_add, hbefore]
      simp [batches, stepsInTicks]
    rw [runPaced_goesOn htick, hsize, List.range_succ]
    simp [Pacer.asks]

end Ticks

theorem tick_fst (m : Machine) (speed : Speed) (log log' : Array Event) :
    (m.tick speed log).1 = (m.tick speed log').1 := by
  cases speed with
  | instant => rw [tick_instant, tick_instant]
  | delay d => rw [tick_delay, tick_delay]

theorem runInstant_of_terminal {m : Machine} {n : Nat} (log : Array Event)
    (h : (m.after n).status.isTerminal = true) :
    m.runInstant log = (m.after n, (log ++ m.reports n).push (.tape (m.after n).tape)) := by
  unfold runInstant
  rw [runToEnd_eq_of_terminal log h]

theorem tick_steps (m : Machine) (speed : Speed) (log : Array Event) :
    ∃ k log' tick, m.tick speed log = (m.after k, log', tick) ∧
      essential log'.toList = essential log.toList ++ essential (m.reports k) ∧
      ((m.after k).status.isTerminal = true → tick = .finished (m.after k).status) := by
  cases speed with
  | instant =>
    refine ⟨_, _, _, tick_instant m log, ?_, fun _ => rfl⟩
    simp
  | delay d =>
    refine ⟨_, _, _, tick_delay m d log, ?_, fun hended => if_pos hended⟩
    simp [essential_batch]

section Ends

variable {m : Machine} {pacer : Pacer}

theorem exists_last_tick (pacer : Pacer) (halive : m.status.isTerminal = false) :
    ∃ n, (m.afterTicks pacer n).status.isTerminal = false ∧
      (m.afterTicks pacer (n + 1)).status.isTerminal = true := by
  have hlast : ∃ n, (m.afterTicks pacer n).status.isTerminal = true := by
    refine ⟨m.remaining + 1, ?_⟩
    cases h : (m.afterTicks pacer (m.remaining + 1)).status.isTerminal with
    | true => rfl
    | false =>
      rw [afterTicks_eq (speed_of_alive h)] at h
      have hfew := remaining_after h
      have hmany := le_stepsInTicks pacer.delayAfter (m.remaining + 1)
      omega
  obtain ⟨n, hn⟩ := hlast
  induction n with
  | zero => rw [show m.status.isTerminal = true from hn] at halive; cases halive
  | succ n ih =>
    cases h : (m.afterTicks pacer n).status.isTerminal with
    | true => exact ih h
    | false => exact ⟨n, h, hn⟩

theorem runPaced_ended (halive : m.status.isTerminal = false)
    (hclear : ∀ i, 1 ≤ i → (m.afterTicks pacer i).status.isTerminal = false →
      pacer.cancelsIn i = false) :
    (m.runPaced pacer false #[] #[]).outcome = .ended (m.runInstant #[]).1.status ∧
    (m.runPaced pacer false #[] #[]).machine = (m.runInstant #[]).1 ∧
    essential (m.runPaced pacer false #[] #[]).log.toList =
      essential (m.runInstant #[]).2.toList := by
  obtain ⟨n, hn, hend⟩ := exists_last_tick pacer halive
  have hspeed := speed_of_alive hn
  have hasks : pacer.asks n = false := by
    cases n with
    | zero => rfl
    | succ n => exact hclear (n + 1) (by omega) hn
  have hbefore : ∀ i, 1 ≤ i → i < n → pacer.cancelsIn i = false := by
    intro i hlo hhi
    exact hclear i hlo (alive_of_afterTicks (Nat.le_of_lt hhi) hn)
  rw [afterTicks, afterTicks_eq hspeed, tick_fst _ _ _ (m.batches pacer.delayAfter n).toArray] at hend
  rw [afterTicks_eq hspeed] at hn
  -- All ticks but the last are batches, and what the last one adds ends the run.
  obtain ⟨k, log, tick, htick, hlog, hfinished⟩ := tick_steps (m.after (stepsInTicks pacer.delayAfter n))
    (pacer.speedAfter n) (m.batches pacer.delayAfter n).toArray
  rw [htick] at hend
  rw [hfinished hend] at htick
  have hsize : ((List.range n).map pacer.delayAfter).toArray.size = n := by simp
  rw [runPaced_ticks hspeed hbefore hn, hasks, runPaced_finished (by rw [hsize]; exact htick)]
  rw [← after_add] at hend ⊢
  rw [runInstant_of_terminal #[] hend]
  refine ⟨rfl, rfl, ?_⟩
  rw [essential_batches, ← essential_append, ← reports_add] at hlog
  rw [hlog]
  simp

end Ends

theorem terminal_runInstant (m : Machine) (log : Array Event) :
    (m.runInstant log).1.status.isTerminal = true := by
  rw [runInstant_of_terminal log m.terminal_after_remaining]
  exact m.terminal_after_remaining

/-- What a paced run has done when a request to cancel in its pause number `n` stops it. -/
theorem runPaced_cancelled {m : Machine} {pacer : Pacer} {n : Nat} (hn : 1 ≤ n)
    (hclear : ∀ i, 1 ≤ i → i < n → pacer.cancelsIn i = false) (hcancel : pacer.cancelsIn n = true)
    (halive : (m.afterTicks pacer n).status.isTerminal = false) :
    m.runPaced pacer false #[] #[] =
      ⟨m.after (stepsInTicks pacer.delayAfter n), (m.batches pacer.delayAfter n).toArray,
        ((List.range n).map pacer.delayAfter).toArray, .cancelled, true⟩ := by
  have hspeed := speed_of_alive halive
  have hasks : pacer.asks n = true := by
    obtain ⟨k, rfl⟩ := Nat.exists_eq_add_of_le' hn
    exact hcancel
  rw [afterTicks_eq hspeed] at halive
  rw [runPaced_ticks hspeed hclear halive, hasks, runPaced_cancel]

end Machine

/-- The account of a paced run. Cancelled in its pause number `n`, it stands after exactly the steps
of `n` batches; it has shown the tape behind each and highlighted the first step of each, and nothing
has ended. When no request to cancel meets a pause, it ends as it does in one go. A request that is
there before the first tick stops it at once. -/
theorem runPaced_accounting (m : Machine) (halive : m.status.isTerminal = false) (pacer : Pacer) :
    let run := m.runPaced pacer false #[] #[]
    let whole := m.runInstant #[]
    (∀ n, 1 ≤ n → (∀ i, 1 ≤ i → i < n → pacer.cancelsIn i = false) → pacer.cancelsIn n = true →
      (m.afterTicks pacer n).status.isTerminal = false →
      ∃ d : Nat → Delay, (∀ i < n, pacer.speedAfter i = .delay (d i)) ∧
        run.outcome = .cancelled ∧ run.machine = m.after (stepsInTicks d n) ∧
        run.pauses.toList = (List.range n).map d ∧
        tapesOf run.log.toList =
          (List.range n).map (fun i => (m.after (stepsInTicks d (i + 1))).tape) ∧
        stepsOf run.log.toList =
          (List.range n).flatMap (fun i => stepsOf ((m.after (stepsInTicks d i)).step true).2) ∧
        (stepsOf run.log.toList).length = n ∧
        outputOf run.log.toList = outputOf (m.reports (stepsInTicks d n)) ∧
        haltsOf run.log.toList = []) ∧
    ((∃ n, 1 ≤ n ∧ (∀ i, 1 ≤ i → i < n → pacer.cancelsIn i = false) ∧
        (m.afterTicks pacer n).status.isTerminal = true) ∨
      (∀ i, 1 ≤ i → pacer.cancelsIn i = false) →
      whole.1.status.isTerminal = true ∧ run.outcome = .ended whole.1.status ∧
        run.machine = whole.1 ∧ outputOf run.log.toList = outputOf whole.2.toList ∧
        diagnosticsOf run.log.toList = diagnosticsOf whole.2.toList ∧
        haltsOf run.log.toList = haltsOf whole.2.toList) ∧
    m.runPaced pacer true #[] #[] = ⟨m, #[], #[], .cancelled, true⟩ := by
  refine ⟨?_, ?_, Machine.runPaced_cancel ..⟩
  · intro n hn hclear hcancel hgoes
    have hspeed := Machine.speed_of_alive hgoes
    refine ⟨pacer.delayAfter, hspeed, ?_⟩
    rw [Machine.runPaced_cancelled hn hclear hcancel hgoes]
    rw [Machine.afterTicks_eq hspeed] at hgoes
    refine ⟨rfl, rfl, rfl, Machine.tapesOf_batches .., Machine.stepsOf_batches ..,
      Machine.length_stepsOf_batches hgoes, ?_, ?_⟩
    · rw [← outputOf_essential, Machine.essential_batches, outputOf_essential]
    · rw [← haltsOf_essential, Machine.essential_batches, haltsOf_essential,
        Machine.haltsOf_reports hgoes]
  · intro hends
    have hclear : ∀ i, 1 ≤ i → (m.afterTicks pacer i).status.isTerminal = false →
        pacer.cancelsIn i = false := by
      intro i hi hgoes
      rcases hends with ⟨n, hn, hbefore, hended⟩ | hnever
      · -- The pause takes place, so it comes before the tick that ends the run.
        apply hbefore i hi
        apply Nat.lt_of_not_le
        intro hle
        rw [Machine.alive_of_afterTicks hle hgoes] at hended
        cases hended
      · exact hnever i hi
    obtain ⟨houtcome, hmachine, hevents⟩ := Machine.runPaced_ended halive hclear
    refine ⟨m.terminal_runInstant #[], houtcome, hmachine, ?_, ?_, ?_⟩
    · rw [← outputOf_essential, hevents, outputOf_essential]
    · rw [← diagnosticsOf_essential, hevents, diagnosticsOf_essential]
    · rw [← haltsOf_essential, hevents, haltsOf_essential]

theorem runPaced_accounting_endless :
    ∃ program, Program.load "+[]" = .ok program ∧
      let m := Machine.fresh program (.blank 1) #[] ⟨100, .zero, false⟩
      let run := m.runPaced
        ⟨fun n => .delay (if n = 0 then .ofMillis 50 else .ofMillis 100), fun n => n == 2⟩
        false #[] #[]
      run.outcome = .cancelled ∧ run.machine = m.after 3 ∧
        run.pauses.toList = [.ofMillis 50, .ofMillis 100] := by
  have hgoes : ∃ program, Program.load "+[]" = .ok program ∧
      ((Machine.fresh program (.blank 1) #[] ⟨100, .zero, false⟩).afterTicks
        ⟨fun n => .delay (if n = 0 then .ofMillis 50 else .ofMillis 100), fun n => n == 2⟩
        2).status.isTerminal = false := ⟨_, rfl, by decide⟩
  obtain ⟨program, hload, hgoes⟩ := hgoes
  refine ⟨program, hload, ?_⟩
  have hclear : ∀ i, 1 ≤ i → i < 2 → (i == 2) = false := by
    intro i _ hi
    exact beq_eq_false_iff_ne.mpr (Nat.ne_of_lt hi)
  obtain ⟨d, hd, houtcome, hmachine, hpauses, -⟩ :=
    (runPaced_accounting _ rfl _).1 2 (by decide) hclear rfl hgoes
  have hfirst : .ofMillis 50 = d 0 := Speed.delay.inj (hd 0 (by decide))
  have hsecond : .ofMillis 100 = d 1 := Speed.delay.inj (hd 1 (by decide))
  refine ⟨houtcome, ?_, ?_⟩
  · rw [hmachine]
    simp only [stepsInTicks, ← hfirst, ← hsecond]
    rfl
  · rw [hpauses, hfirst, hsecond]
    rfl

end TapeMachine
