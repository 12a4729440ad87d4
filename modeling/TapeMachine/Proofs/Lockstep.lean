import Mathlib.Data.List.Forall2
import TapeMachine.Proofs.Reports

/-!
# Machines in lock-step

Two machines that a step takes to two of the same kind, and that report the same of it, stay so
however they are driven. It is enough to look at one step of both. Only what a look at the tape
shows may differ.
-/

namespace TapeMachine

/-- Machines that `R n` relates stay related for `n` steps and report the same of each. What looks
at their tapes show is related by `E`. -/
structure Lockstep (R : Nat → Machine → Machine → Prop) (E : Event → Event → Prop) : Prop where
  status : ∀ {n m m'}, R n m m' → m'.status = m.status
  remaining : ∀ {n m m'}, R n m m' → m'.remaining = m.remaining
  step : ∀ {n m m'}, R (n + 1) m m' → ∀ highlight,
    R n (m.step highlight).1 (m'.step highlight).1 ∧ (m'.step highlight).2 = (m.step highlight).2
  look : ∀ {n m m'}, R n m m' → E (.tape m.tape) (.tape m'.tape)
  same : ∀ e, E e e

namespace Lockstep

variable {R : Nat → Machine → Machine → Prop} {E : Event → Event → Prop} {m m' : Machine}

/-! ## Some steps -/

theorem after (h : Lockstep R E) {a b : Nat} (hm : R (a + b) m m') :
    R b (m.after a) (m'.after a) ∧ m'.reports a = m.reports a := by
  induction a generalizing b with
  | zero =>
    rw [Nat.zero_add] at hm
    exact ⟨hm, rfl⟩
  | succ a ih =>
    rw [Nat.succ_add_eq_add_succ] at hm
    obtain ⟨hbefore, hreports⟩ := ih hm
    obtain ⟨hnext, hreport⟩ := h.step hbefore false
    refine ⟨hnext, ?_⟩
    rw [Machine.reports, Machine.reports, hreports, hreport]

theorem steps (h : Lockstep R E) {highlights : List Bool} (hm : R highlights.length m m') :
    R 0 (m.driveAll (highlights.map .step)).1 (m'.driveAll (highlights.map .step)).1 ∧
      (m'.driveAll (highlights.map .step)).2 = (m.driveAll (highlights.map .step)).2 := by
  induction highlights generalizing m m' with
  | nil => exact ⟨hm, rfl⟩
  | cons highlight rest ih =>
    obtain ⟨hnext, hreport⟩ := h.step hm highlight
    obtain ⟨hrest, hreports⟩ := ih hnext
    refine ⟨hrest, ?_⟩
    simp only [List.map_cons, Machine.driveAll, Machine.drive, hreport, hreports]

/-! ## Any way to drive -/

section Always

variable (h : Lockstep R E) (hm : ∀ n, R n m m')

include h hm

theorem stepAny (highlight : Bool) :
    (∀ n, R n (m.step highlight).1 (m'.step highlight).1) ∧
      List.Forall₂ E (m.step highlight).2 (m'.step highlight).2 := by
  refine ⟨fun n => (h.step (hm (n + 1)) highlight).1, ?_⟩
  rw [(h.step (hm 1) highlight).2]
  exact List.forall₂_same.mpr fun e _ => h.same e

theorem afterAny (a : Nat) :
    (∀ n, R n (m.after a) (m'.after a)) ∧ List.Forall₂ E (m.reports a) (m'.reports a) := by
  refine ⟨fun n => (h.after (hm (a + n))).1, ?_⟩
  rw [(h.after (hm (a + 0))).2]
  exact List.forall₂_same.mpr fun e _ => h.same e

theorem lookAfter (a : Nat) :
    List.Forall₂ E [.tape (m.after a).tape] [.tape (m'.after a).tape] :=
  .cons (h.look ((h.afterAny hm a).1 0)) .nil

theorem batch (d : Delay) : List.Forall₂ E (m.batch d) (m'.batch d) := by
  have hfirst := (h.stepAny hm true).2
  have hrest := (h.afterAny (h.afterAny hm 1).1 (d.stepsPerTick - 1)).2
  exact List.rel_append (List.rel_append hfirst hrest) (h.lookAfter hm _)

theorem tick (speed : Speed) {log log' : Array Event}
    (hlog : List.Forall₂ E log.toList log'.toList) :
    (∀ n, R n (m.tick speed log).1 (m'.tick speed log').1) ∧
      List.Forall₂ E (m.tick speed log).2.1.toList (m'.tick speed log').2.1.toList ∧
      (m'.tick speed log').2.2 = (m.tick speed log).2.2 := by
  cases speed with
  | instant =>
    have hafter := h.afterAny hm (m.remaining + 1)
    have hlook := h.lookAfter hm (m.remaining + 1)
    rw [Machine.tick_instant, Machine.tick_instant, h.remaining (hm 0), h.status (hafter.1 0)]
    refine ⟨hafter.1, ?_, rfl⟩
    simpa using List.rel_append (List.rel_append hlog hafter.2) hlook
  | delay d =>
    have hafter := h.afterAny hm d.stepsPerTick
    rw [Machine.tick_delay, Machine.tick_delay, h.status (hafter.1 0)]
    refine ⟨hafter.1, ?_, rfl⟩
    simpa using List.rel_append hlog (h.batch hm d)

omit hm in
theorem runPaced {pacer : Pacer} {cancel : Bool} {log log' : Array Event} {pauses : Array Delay}
    (hm : ∀ n, R n m m') (hlog : List.Forall₂ E log.toList log'.toList) :
    (∀ n, R n (m.runPaced pacer cancel log pauses).machine
      (m'.runPaced pacer cancel log' pauses).machine) ∧
      List.Forall₂ E (m.runPaced pacer cancel log pauses).log.toList
        (m'.runPaced pacer cancel log' pauses).log.toList := by
  fun_induction Machine.runPaced m pacer cancel log pauses generalizing m' log' with
  | case1 m log pauses =>
    rw [Machine.runPaced_cancel]
    exact ⟨hm, hlog⟩
  | case2 m cancel log pauses hclear next log₁ status htick =>
    obtain ⟨hnext, hreport, hsame⟩ := h.tick hm (pacer.speedAfter pauses.size) hlog
    rw [htick] at hnext hreport hsame
    rw [Bool.eq_false_iff.mpr hclear, Machine.runPaced_finished (Prod.ext rfl (Prod.ext rfl hsame))]
    exact ⟨hnext, hreport⟩
  | case3 m cancel log pauses hclear next log₁ d htick ih =>
    obtain ⟨hnext, hreport, hsame⟩ := h.tick hm (pacer.speedAfter pauses.size) hlog
    rw [htick] at hnext hreport hsame
    rw [Bool.eq_false_iff.mpr hclear, Machine.runPaced_goesOn (Prod.ext rfl (Prod.ext rfl hsame))]
    exact ih hnext hreport

theorem drive (d : Drive) :
    (∀ n, R n (m.drive d).1 (m'.drive d).1) ∧
      List.Forall₂ E (m.drive d).2 (m'.drive d).2 := by
  have hend := h.afterAny hm (m.remaining + 1)
  cases d with
  | step highlight => exact h.stepAny hm highlight
  | runToEnd => simpa [Machine.drive, Machine.runToEnd_eq, h.remaining (hm 0)] using hend
  | runInstant =>
    have hlook := List.rel_append hend.2 (h.lookAfter hm (m.remaining + 1))
    simpa [Machine.drive, Machine.runInstant, Machine.runToEnd_eq, h.remaining (hm 0)] using
      And.intro hend.1 hlook
  | tick speed =>
    have hlog : List.Forall₂ E (#[] : Array Event).toList (#[] : Array Event).toList := .nil
    obtain ⟨hnext, hreport, -⟩ := h.tick hm speed hlog
    exact ⟨hnext, hreport⟩
  | runPaced pacer cancel => exact h.runPaced hm .nil

omit hm in
theorem driveAll (hm : ∀ n, R n m m') (drives : List Drive) :
    (∀ n, R n (m.driveAll drives).1 (m'.driveAll drives).1) ∧
      List.Forall₂ E (m.driveAll drives).2 (m'.driveAll drives).2 := by
  induction drives generalizing m m' with
  | nil => exact ⟨hm, .nil⟩
  | cons d rest ih =>
    obtain ⟨hnext, hreport⟩ := h.drive hm d
    obtain ⟨hrest, hreports⟩ := ih hnext
    exact ⟨hrest, List.rel_append hreport hreports⟩

end Always

end Lockstep

end TapeMachine
