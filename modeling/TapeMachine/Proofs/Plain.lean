import TapeMachine.Proofs.Steps
import TapeMachine.Proofs.Tree

/-!
# One instruction a step

What a machine does that takes no runs together, in the words of structured programs: the store it
stands for, and where a step leads it.
-/

namespace TapeMachine

namespace Machine

/-! ## The machine as a block sees it -/

def feed (m : Machine) : Feed :=
  ⟨m.input, m.config.eof⟩

/-- The store of a machine that has written `written`. -/
def store (m : Machine) (written : List UInt8) : Store :=
  ⟨m.tape, m.cursor, written⟩

/-- On course, one instruction a step, with `n` steps left at least. -/
structure Prepared (m : Machine) (n : Nat) : Prop where
  course : m.OnCourse
  single : m.config.coalesce = false
  room : m.steps + n ≤ m.config.maxSteps

theorem feed_after (m : Machine) (n : Nat) : (m.after n).feed = m.feed := by
  unfold feed
  rw [after_input, after_config]

theorem Prepared.after {m : Machine} {n k : Nat} (h : m.Prepared (n + k)) :
    (m.after n).Prepared k := by
  have hroom := h.room
  have hsteps := m.after_steps_le n
  refine ⟨h.course.after (by omega), ?_, ?_⟩
  · rw [after_config]
    exact h.single
  · rw [after_config]
    omega

theorem Prepared.mono {m : Machine} {n k : Nat} (h : m.Prepared n) (hle : k ≤ n) :
    m.Prepared k :=
  ⟨h.course, h.single, Nat.le_trans (Nat.add_le_add_left hle _) h.room⟩

/-- The machine, which has written `written`, is at `pc` after `n` steps, with the store `t`. -/
structure Arrives (m : Machine) (written : List UInt8) (n pc : Nat) (t : Store) : Prop where
  store : (m.after n).store (written ++ outputOf (m.reports n)) = t
  pc : (m.after n).pc = pc
  steps : (m.after n).steps = m.steps + n

theorem Arrives.trans {m : Machine} {written : List UInt8} {a b pc pc' : Nat} {s t : Store}
    (h : m.Arrives written a pc s)
    (h' : (m.after a).Arrives (written ++ outputOf (m.reports a)) b pc' t) :
    m.Arrives written (a + b) pc' t := by
  obtain ⟨hstore, hpc, hsteps⟩ := h'
  refine ⟨?_, ?_, ?_⟩
  · rw [after_add, reports_add, outputOf_append, ← List.append_assoc]
    exact hstore
  · rw [after_add, hpc]
  · rw [after_add, hsteps, h.steps, Nat.add_assoc]

/-! ## One step -/

theorem OnCourse.arrives_execute {m : Machine} {op : Instruction} (h : m.OnCourse)
    (hroom : m.steps < m.config.maxSteps) (hop : m.program.op? m.pc = some op)
    (hreach : m.reach op = 1) (written : List UInt8) :
    m.Arrives written 1 (m.execute op 1).pc
      ((m.execute op 1).store (written ++ if op = .write then [m.tape.get] else [])) := by
  have hstep := h.step_eq false hroom hop
  refine ⟨?_, ?_, ?_⟩
  · rw [after_one, reports_one, hstep, outputOf_perform, perform_fst, hreach]
    rfl
  · rw [after_one, hstep, perform_fst, hreach]
  · rw [after_one, hstep, perform_steps]

theorem Prepared.reach {m : Machine} {n : Nat} (h : m.Prepared n) (op : Instruction) :
    m.reach op = 1 := by
  unfold Machine.reach
  rw [h.single]
  cases op <;> rfl

theorem Prepared.lt_maxSteps {m : Machine} {n : Nat} (h : m.Prepared (n + 1)) :
    m.steps < m.config.maxSteps := by
  have hroom := h.room
  omega

theorem Prepared.arrives_execute {m : Machine} {n : Nat} {op : Instruction}
    (h : m.Prepared (n + 1)) (hop : m.program.op? m.pc = some op) (written : List UInt8) :
    m.Arrives written 1 (m.execute op 1).pc
      ((m.execute op 1).store (written ++ if op = .write then [m.tape.get] else [])) :=
  h.course.arrives_execute h.lt_maxSteps hop (h.reach op) written

theorem store_execute_primitive {m : Machine} (hcursor : m.cursor ≤ m.input.size)
    (written : List UInt8) (p : Primitive) :
    (m.execute p.instruction 1).store
      (written ++ if p.instruction = .write then [m.tape.get] else []) =
        p.apply m.feed (m.store written) := by
  cases p with
  | read =>
    unfold Primitive.apply Store.fetch
    simp only [Primitive.instruction, execute, fetch, store, feed, nextCursor_eq hcursor,
      List.append_nil, reduceCtorEq, if_false, Store.mk.injEq, and_self, and_true]
    cases (m.input[m.cursor]?.or m.config.eof.fill) <;> rfl
  | write => rfl
  | right => simp [Primitive.instruction, execute, store, Primitive.apply]
  | left => simp [Primitive.instruction, execute, store, Primitive.apply]
  | increment => simp [Primitive.instruction, execute, store, Primitive.apply]
  | decrement => simp [Primitive.instruction, execute, store, Primitive.apply]

theorem OnCourse.arrives_primitive {m : Machine} {p : Primitive} (h : m.OnCourse)
    (hroom : m.steps < m.config.maxSteps) (hop : m.program.op? m.pc = some p.instruction)
    (hreach : m.reach p.instruction = 1) (written : List UInt8) :
    m.Arrives written 1 (m.pc + 1) (p.apply m.feed (m.store written)) := by
  have hone := h.arrives_execute hroom hop hreach written
  have hpc : (m.execute p.instruction 1).pc = m.pc + 1 := by
    cases p <;> rfl
  rwa [store_execute_primitive h.cursor, hpc] at hone

theorem Prepared.arrives_primitive {m : Machine} {n : Nat} {p : Primitive} (h : m.Prepared (n + 1))
    (hop : m.program.op? m.pc = some p.instruction) (written : List UInt8) :
    m.Arrives written 1 (m.pc + 1) (p.apply m.feed (m.store written)) :=
  h.course.arrives_primitive h.lt_maxSteps hop (h.reach _) written

theorem OnCourse.arrives_bracket {m : Machine} {base close : Nat} (h : m.OnCourse)
    (hroom : m.steps < m.config.maxSteps) (hpair : m.program.Paired base close)
    (hpc : m.pc = base ∨ m.pc = close) (written : List UInt8) :
    m.Arrives written 1 (if m.tape.get = 0 then close + 1 else base + 1) (m.store written) := by
  rcases hpc with hpc | hpc
  · have hone := h.arrives_execute hroom (hpc ▸ hpair.isOpen) rfl written
    have hjump : m.jumpTarget = close + 1 := by
      unfold jumpTarget
      rw [hpc, hpair.ahead]
      rfl
    simpa [execute, store, hjump, hpc] using hone
  · have hone := h.arrives_execute hroom (hpc ▸ hpair.isClose) rfl written
    have hjump : m.jumpTarget = base + 1 := by
      unfold jumpTarget
      rw [hpc, hpair.back]
      rfl
    simpa [execute, store, hjump, hpc] using hone

theorem Prepared.arrives_bracket {m : Machine} {n base close : Nat} (h : m.Prepared (n + 1))
    (hpair : m.program.Paired base close) (hpc : m.pc = base ∨ m.pc = close)
    (written : List UInt8) :
    m.Arrives written 1 (if m.tape.get = 0 then close + 1 else base + 1) (m.store written) :=
  h.course.arrives_bracket h.lt_maxSteps hpair hpc written

end Machine

/-! ## Whole runs -/

/-- A run that has come to its normal end after `n` steps and leaves `t` behind. -/
structure EndsWith (run : Machine × Array Event) (n : Nat) (t : Store) : Prop where
  status : run.1.status = .halted
  steps : run.1.steps = n
  tape : run.1.tape = t.tape
  cursor : run.1.cursor = t.cursor
  output : outputOf run.2.toList = t.output

theorem EndsWith.unique {run : Machine × Array Event} {n n' : Nat} {t t' : Store}
    (h : EndsWith run n t) (h' : EndsWith run n' t') : n = n' ∧ t = t' := by
  refine ⟨h.steps.symm.trans h'.steps, ?_⟩
  cases t
  cases t'
  congr 1
  · exact h.tape.symm.trans h'.tape
  · exact h.cursor.symm.trans h'.cursor
  · exact h.output.symm.trans h'.output

namespace Machine

theorem prepared_fresh (program : Program) (capacity : Nat) (input : Array UInt8)
    (eof : EofPolicy) (budget : Nat) :
    (fresh program (.blank capacity) input ⟨budget, eof, false⟩).Prepared (max budget 1) :=
  ⟨onCourse_fresh .., rfl, by simp [fresh]⟩

theorem store_fresh (program : Program) (capacity : Nat) (input : Array UInt8) (config : Config) :
    (fresh program (.blank capacity) input config).store [] = ⟨.blank capacity, 0, []⟩ := by
  unfold store fresh
  rw [Tape.cleared_blank]

section

variable {m : Machine} {n : Nat} (hcourse : m.OnCourse) (hnew : m.steps = 0)

include hcourse hnew

theorem endsWith_of_outside (hroom : n ≤ m.config.maxSteps)
    (hout : m.program.size ≤ (m.after n).pc) :
    EndsWith (m.runToEnd #[]) (m.after n).steps ((m.after n).store (outputOf (m.reports n))) := by
  have hstatus := hcourse.halted_of_outside (by omega) hout
  rw [runToEnd_eq_of_terminal #[] (by rw [hstatus]; rfl)]
  exact ⟨hstatus, rfl, rfl, rfl, by simp [store]⟩

theorem Arrives.endsWith {pc : Nat} {t : Store} (h : m.Arrives [] n pc t)
    (hroom : n ≤ m.config.maxSteps) (hout : m.program.size ≤ pc) :
    EndsWith (m.runToEnd #[]) n t := by
  have hends := endsWith_of_outside hcourse hnew hroom (by rwa [h.pc])
  have hstore := h.store
  rw [List.nil_append] at hstore
  rwa [h.steps, hnew, Nat.zero_add, hstore] at hends

theorem exact_of_endsWith {t : Store} (h : EndsWith (m.runToEnd #[]) n t) :
    n ≤ m.config.maxSteps ∧ m.program.size ≤ (m.after n).pc ∧ (m.after n).steps = n ∧
      (m.after n).store (outputOf (m.reports n)) = t := by
  have hout := outside_of_halted hcourse (by omega) h.status
  obtain ⟨k, hk, hafter, hreports, hsteps⟩ := hcourse.exists_exact (n := m.remaining)
    (by unfold remaining; omega)
  have hroom : k ≤ m.config.maxSteps := Nat.le_trans hk (Nat.sub_le ..)
  rw [hafter] at hout
  obtain ⟨rfl, rfl⟩ := h.unique (endsWith_of_outside hcourse hnew hroom hout)
  rw [hnew, Nat.zero_add] at hsteps
  rw [hsteps]
  exact ⟨hroom, hout, hsteps, rfl⟩

end

end Machine

end TapeMachine
