import TapeMachine.Proofs.Pacing

/-!
# Looks at a request to cancel

A paced run looks for a request to cancel before each tick, a run in single steps before each step.
Either takes what it does up to the first look that finds one, or up to its end.
-/

namespace TapeMachine

/-- What a paced run sees when it looks after `n` pauses, if the first look shows `first`. -/
def Pacer.seen (pacer : Pacer) (first : Bool) : Nat → Bool
  | 0 => first
  | n + 1 => pacer.cancelsIn (n + 1)

namespace Machine

/-! ## Paced runs -/

/-- The looks of a paced run of `m` find nothing up to the last. If that finds a request, the run
stands where it stood then; if not, one more tick has ended it. -/
def PacedAs (m : Machine) (pacer : Pacer) (first : Bool) (run : PacedRun) : Prop :=
  (∀ i < run.pauses.size, pacer.seen first i = false) ∧
  ((pacer.seen first run.pauses.size = true ∧ run.outcome = .cancelled ∧
      run.machine = m.afterTicks pacer run.pauses.size ∧ run.machine.status.isTerminal = false) ∨
    (pacer.seen first run.pauses.size = false ∧ run.outcome = .ended run.machine.status ∧
      run.machine = m.afterTicks pacer (run.pauses.size + 1) ∧
      run.machine.status.isTerminal = true))

theorem tick_status {m m' : Machine} {speed : Speed} {log log' : Array Event} {tick : Tick}
    (h : m.tick speed log = (m', log', tick)) :
    (m'.status.isTerminal = true ∧ tick = .finished m'.status) ∨
      (m'.status.isTerminal = false ∧ ∃ d, tick = .goesOn d) := by
  cases speed with
  | instant =>
    rw [tick_instant, Prod.mk.injEq, Prod.mk.injEq] at h
    obtain ⟨rfl, -, rfl⟩ := h
    exact Or.inl ⟨m.terminal_after_remaining, rfl⟩
  | delay d =>
    rw [tick_delay, Prod.mk.injEq, Prod.mk.injEq] at h
    obtain ⟨rfl, -, rfl⟩ := h
    cases hended : (m.after d.stepsPerTick).status.isTerminal with
    | true => exact Or.inl ⟨rfl, rfl⟩
    | false => exact Or.inr ⟨rfl, d, rfl⟩

theorem pacedAs_of_looks {start m : Machine} {pacer : Pacer} {first cancel : Bool}
    {log : Array Event} {pauses : Array Delay} (hm : m = start.afterTicks pacer pauses.size)
    (halive : m.status.isTerminal = false) (hcancel : cancel = pacer.seen first pauses.size)
    (hclear : ∀ i < pauses.size, pacer.seen first i = false) :
    start.PacedAs pacer first (m.runPaced pacer cancel log pauses) := by
  -- `m` stands where so many ticks have brought it as there were pauses, and no look has found
  -- anything yet: that is what comes round with the loop.
  fun_induction runPaced m pacer cancel log pauses with
  | case1 m log pauses => exact ⟨hclear, Or.inl ⟨hcancel.symm, rfl, hm, halive⟩⟩
  | case2 m cancel log pauses hfalse m' log' status htick =>
    have hnext : m' = start.afterTicks pacer (pauses.size + 1) := by
      rw [afterTicks, ← hm, tick_fst m _ #[] log, htick]
    have hseen : pacer.seen first pauses.size = false := by
      rw [← hcancel]
      exact Bool.eq_false_iff.mpr hfalse
    rcases tick_status htick with ⟨hended, hstatus⟩ | ⟨-, d, hgoes⟩
    · cases hstatus
      exact ⟨hclear, Or.inr ⟨hseen, rfl, hnext, hended⟩⟩
    · cases hgoes
  | case3 m cancel log pauses hfalse m' log' d htick ih =>
    have hseen : pacer.seen first pauses.size = false := by
      rw [← hcancel]
      exact Bool.eq_false_iff.mpr hfalse
    have hsize : (pauses.push d).size = pauses.size + 1 := Array.size_push d
    apply ih
    · rw [hsize, afterTicks, ← hm, tick_fst m _ #[] log, htick]
    · rcases tick_status htick with ⟨-, hstatus⟩ | ⟨hgoes, -⟩
      · cases hstatus
      · exact hgoes
    · rw [hsize]
      rfl
    · intro i hi
      rw [hsize] at hi
      rcases Nat.lt_succ_iff_lt_or_eq.mp hi with hlt | rfl
      · exact hclear i hlt
      · exact hseen

theorem pacedAs_runPaced {m : Machine} (halive : m.status.isTerminal = false) (pacer : Pacer)
    (first : Bool) : m.PacedAs pacer first (m.runPaced pacer first #[] #[]) :=
  pacedAs_of_looks rfl halive rfl fun _ hi => absurd hi (Nat.not_lt_zero _)

theorem exists_after_afterTicks (m : Machine) (pacer : Pacer) (n : Nat) :
    ∃ k, m.afterTicks pacer n = m.after k := by
  induction n with
  | zero => exact ⟨0, rfl⟩
  | succ n ih =>
    obtain ⟨a, ha⟩ := ih
    obtain ⟨b, log, tick, htick, -⟩ := (m.after a).tick_steps (pacer.speedAfter n) #[]
    exact ⟨a + b, by rw [afterTicks, ha, htick, after_add]⟩

/-! ## Single steps -/

/-- The looks of a run of `m` in single steps, after its steps number 1, 2 and so on, find nothing
up to the last. Then either the run has ended or a request is found. -/
def SteppedAs (m : Machine) (cancelsAfter : Nat → Bool) (run : SteppedRun) : Prop :=
  ∃ n, 1 ≤ n ∧ (∀ i, 1 ≤ i → i < n → cancelsAfter (m.after i).steps = false) ∧
    run.machine = m.after n ∧ run.cancel = cancelsAfter run.machine.steps ∧
    ((run.machine.status.isTerminal = true ∧ run.outcome = .ended run.machine.status) ∨
      (run.machine.status.isTerminal = false ∧ run.cancel = true ∧ run.outcome = .cancelled))

theorem runStepwise_cancel (m : Machine) (cancelsAfter : Nat → Bool) (log : Array Event) :
    m.runStepwise cancelsAfter true log = ⟨m, log, .cancelled, true⟩ := by
  rw [runStepwise]
  rfl

theorem steppedAs_runStepwise (m : Machine) (cancelsAfter : Nat → Bool) {cancel : Bool}
    (log : Array Event) (hclear : cancel = false) :
    m.SteppedAs cancelsAfter (m.runStepwise cancelsAfter cancel log) := by
  have hnone : ∀ i, 1 ≤ i → i < 1 → cancelsAfter (m.after i).steps = false :=
    fun i hlo hhi => absurd hhi (Nat.not_lt.mpr hlo)
  fun_induction runStepwise m cancelsAfter cancel log with
  | case1 m log => cases hclear
  | case2 m cancel log _ next log' hended =>
    exact ⟨1, Nat.le_refl 1, hnone, step_fst m true, rfl, Or.inl ⟨hended, rfl⟩⟩
  | case3 m cancel log _ next log' hgoes ih =>
    have hnext : next.1 = m.after 1 := step_fst m true
    cases hseen : cancelsAfter next.1.steps with
    | true =>
      rw [runStepwise_cancel]
      exact ⟨1, Nat.le_refl 1, hnone, hnext, hseen.symm,
        Or.inr ⟨Bool.eq_false_iff.mpr hgoes, rfl, rfl⟩⟩
    | false =>
      rw [hseen] at ih
      obtain ⟨n, hn, hbefore, hmachine, hlast⟩ :=
        ih rfl fun i hlo hhi => absurd hhi (Nat.not_lt.mpr hlo)
      refine ⟨1 + n, Nat.le_add_right 1 n, ?_, ?_, hlast⟩
      · -- The first look is the one after the step just taken; the others are those of the rest.
        intro i hlo hhi
        obtain ⟨j, rfl⟩ := Nat.exists_eq_add_of_le hlo
        rw [after_add, ← hnext]
        rcases Nat.eq_zero_or_pos j with rfl | hj
        · exact hseen
        · exact hbefore j hj (by omega)
      · rw [hmachine, after_add, ← hnext]

end Machine

end TapeMachine
