import TapeMachine.Proofs.Plain

/-!
# Runs taken together

A machine that takes a run of equal `+` or `-` in one step does what a machine does that takes them
one by one. No jump leads into such a run: all that a jump leads to stands behind a bracket.
-/

namespace TapeMachine

namespace Program

/-! ## Runs of equal instructions -/

theorem countFrom_spec (code : Array Placed) (op : Instruction) (index : Nat) :
    (∀ k < countFrom code op index, code[index + k]?.map Placed.op = some op) ∧
      code[index + countFrom code op index]?.map Placed.op ≠ some op := by
  fun_induction countFrom code op index with
  | case1 index h heq ih =>
    obtain ⟨hrun, hend⟩ := ih
    refine ⟨fun k hk => ?_, ?_⟩
    · cases k with
      | zero =>
        rw [Nat.add_zero, Array.getElem?_eq_getElem h]
        exact congrArg some heq
      | succ k =>
        rw [Nat.add_comm k, ← Nat.add_assoc]
        exact hrun k (by omega)
    · rw [Nat.add_comm (countFrom code op (index + 1)), ← Nat.add_assoc]
      exact hend
  | case2 index h hne =>
    refine ⟨fun k hk => absurd hk (Nat.not_lt_zero k), ?_⟩
    rw [Nat.add_zero, Array.getElem?_eq_getElem h]
    exact fun heq => hne (Option.some.inj heq)
  | case3 index h =>
    refine ⟨fun k hk => absurd hk (Nat.not_lt_zero k), ?_⟩
    rw [Nat.add_zero, Array.getElem?_eq_none (Nat.le_of_not_lt h)]
    exact fun heq => nomatch heq

variable {p : Program} {i : Nat} {op : Instruction}

theorem runLength_eq (h : p.op? i = some op) : p.runLength i = countFrom p.code op i := by
  unfold runLength
  rw [h]

theorem op?_of_lt_runLength (h : p.op? i = some op) {k : Nat} (hk : k < p.runLength i) :
    p.op? (i + k) = some op := by
  rw [runLength_eq h] at hk
  exact (countFrom_spec p.code op i).1 k hk

theorem op?_runLength_ne (h : p.op? i = some op) : p.op? (i + p.runLength i) ≠ some op := by
  rw [runLength_eq h]
  exact (countFrom_spec p.code op i).2

theorem runLength_pos (h : p.op? i = some op) : 0 < p.runLength i := by
  rcases Nat.eq_zero_or_pos (p.runLength i) with hzero | hpos
  · have hne := op?_runLength_ne h
    rw [hzero] at hne
    exact absurd h hne
  · exact hpos

/-! ## Where a run starts -/

/-- A `+` or `-` at `pc` has no equal one right before it. -/
def StartsRun (p : Program) (pc : Nat) : Prop :=
  ∀ op, op = .increment ∨ op = .decrement → p.op? pc = some op →
    pc = 0 ∨ p.op? (pc - 1) ≠ some op

theorem startsRun_zero (p : Program) : p.StartsRun 0 := fun _ _ _ => Or.inl rfl

theorem startsRun_succ (hinc : p.op? i ≠ some .increment) (hdec : p.op? i ≠ some .decrement) :
    p.StartsRun (i + 1) := by
  intro op hop _
  right
  rw [Nat.add_sub_cancel]
  rcases hop with rfl | rfl
  · exact hinc
  · exact hdec

theorem startsRun_succ_of_op (h : p.op? i = some op) (hinc : op ≠ .increment)
    (hdec : op ≠ .decrement) : p.StartsRun (i + 1) := by
  apply startsRun_succ
  · rw [h]
    exact fun heq => hinc (Option.some.inj heq)
  · rw [h]
    exact fun heq => hdec (Option.some.inj heq)

theorem startsRun_runLength (h : p.op? i = some op) : p.StartsRun (i + p.runLength i) := by
  have hpos := runLength_pos h
  have hlast : p.op? (i + p.runLength i - 1) = some op := by
    rw [Nat.add_sub_assoc hpos]
    exact op?_of_lt_runLength h (by omega)
  intro next _ hnext
  right
  rw [hlast]
  rintro heq
  exact op?_runLength_ne h (hnext.trans heq.symm)

end Program

namespace Machine

theorem startsRun_jumpTarget {m : Machine}
    (h : m.program.op? m.pc = some .loopOpen ∨ m.program.op? m.pc = some .loopClose) :
    m.program.StartsRun m.jumpTarget := by
  obtain ⟨j, hpair | hpair⟩ := Program.exists_paired h
  -- Behind a bracket a run starts: a bracket is in none.
  · rw [jumpTarget, hpair.ahead]
    exact Program.startsRun_succ_of_op hpair.isClose (by decide) (by decide)
  · rw [jumpTarget, hpair.back]
    exact Program.startsRun_succ_of_op hpair.isOpen (by decide) (by decide)

theorem startsRun_execute {m : Machine} {op : Instruction} (htogether : m.config.coalesce = true)
    (hop : m.program.op? m.pc = some op) :
    m.program.StartsRun (m.execute op (m.reach op)).pc := by
  have hreach : m.reach .increment = m.program.runLength m.pc ∧
      m.reach .decrement = m.program.runLength m.pc := by
    unfold reach
    rw [htogether]
    exact ⟨rfl, rfl⟩
  cases op with
  | increment =>
    -- The whole run is covered, so what comes next is another instruction.
    rw [hreach.1]
    exact Program.startsRun_runLength hop
  | decrement =>
    rw [hreach.2]
    exact Program.startsRun_runLength hop
  | loopOpen =>
    unfold execute
    dsimp only
    split
    · exact startsRun_jumpTarget (Or.inl hop)
    · exact Program.startsRun_succ_of_op hop (by decide) (by decide)
  | loopClose =>
    unfold execute
    dsimp only
    split
    · exact Program.startsRun_succ_of_op hop (by decide) (by decide)
    · exact startsRun_jumpTarget (Or.inr hop)
  | right => exact Program.startsRun_succ_of_op hop (by decide) (by decide)
  | left => exact Program.startsRun_succ_of_op hop (by decide) (by decide)
  | write => exact Program.startsRun_succ_of_op hop (by decide) (by decide)
  | read => exact Program.startsRun_succ_of_op hop (by decide) (by decide)

theorem startsRun_step {m : Machine} (htogether : m.config.coalesce = true)
    (hstart : m.program.StartsRun m.pc) (highlight : Bool) :
    m.program.StartsRun (m.step highlight).1.pc := by
  rcases step_cases m with h | ⟨h, hlimit⟩ | ⟨h, hroom, hop⟩ | ⟨op, h, hroom, hop⟩
  · rwa [step_of_terminal _ h]
  · rwa [step_of_limit _ h hlimit]
  · rwa [step_of_none _ h hroom hop]
  · rw [step_of_op _ h hroom hop, perform_fst]
    exact startsRun_execute htogether hop

theorem startsRun_after {m : Machine} (htogether : m.config.coalesce = true)
    (hstart : m.program.StartsRun m.pc) (n : Nat) : m.program.StartsRun (m.after n).pc := by
  induction n with
  | zero => exact hstart
  | succ n ih =>
    rw [← m.after_config n] at htogether
    rw [← m.after_program n] at ih
    have hnext := startsRun_step htogether ih false
    rwa [after_program] at hnext

/-! ## One step against several -/

/-- How many instructions the next step covers. -/
def covers (m : Machine) : Nat :=
  (m.program.op? m.pc).elim 0 m.reach

/-- How many instructions the next `n` steps cover. -/
def covered (m : Machine) : Nat → Nat
  | 0 => 0
  | n + 1 => m.covered n + (m.after n).covers

/-- Two machines at the same place of the same program, one that takes runs together and one that
does not. What they have written is the same. -/
structure Alike (c : Machine) (written : List UInt8) (u : Machine) (written' : List UInt8) :
    Prop where
  program : c.program = u.program
  feed : c.feed = u.feed
  pc : c.pc = u.pc
  store : c.store written = u.store written'
  together : c.config.coalesce = true
  single : u.config.coalesce = false
  course : c.OnCourse
  course' : u.OnCourse

theorem execute_congr {c u : Machine} (hprogram : c.program = u.program) (hfeed : c.feed = u.feed)
    (hpc : c.pc = u.pc) (htape : c.tape = u.tape) (hcursor : c.cursor = u.cursor)
    (op : Instruction) (run : Nat) (written : List UInt8) :
    (c.execute op run).store written = (u.execute op run).store written ∧
      (c.execute op run).pc = (u.execute op run).pc := by
  obtain ⟨hinput, heof⟩ := Feed.mk.inj hfeed
  cases op <;>
    simp [execute, store, fetch, nextCursor, jumpTarget, hprogram, hpc, htape, hcursor, hinput, heof]

theorem reach_cases (m : Machine) (op : Instruction) :
    m.reach op = 1 ∨ ∃ p : Primitive, (p = .increment ∨ p = .decrement) ∧ op = p.instruction ∧
      m.reach op = m.program.runLength m.pc := by
  unfold reach
  cases htogether : m.config.coalesce with
  | false => cases op <;> exact Or.inl rfl
  | true =>
    cases op with
    | increment => exact Or.inr ⟨.increment, Or.inl rfl, rfl, rfl⟩
    | decrement => exact Or.inr ⟨.decrement, Or.inr rfl, rfl, rfl⟩
    | _ => exact Or.inl rfl

theorem reach_pos {m : Machine} {op : Instruction} (hop : m.program.op? m.pc = some op) :
    0 < m.reach op := by
  rcases m.reach_cases op with hone | ⟨p, -, -, hrun⟩
  · omega
  · rw [hrun]
    exact Program.runLength_pos hop

theorem Prepared.arrives_run {u : Machine} {p : Primitive} {n : Nat} (h : u.Prepared n)
    (hp : p = .increment ∨ p = .decrement)
    (hrun : ∀ k < n, u.program.op? (u.pc + k) = some p.instruction) (written : List UInt8) :
    u.Arrives written n (u.pc + n) ((u.execute p.instruction n).store written) := by
  induction n with
  | zero =>
    refine ⟨?_, rfl, rfl⟩
    rcases hp with rfl | rfl <;> simp [store, execute, Primitive.instruction, outputOf]
  | succ n ih =>
    have hn := ih (h.mono (Nat.le_succ n)) fun k hk => hrun k (by omega)
    have hone := h.after.arrives_primitive
      (by rw [hn.pc, after_program]; exact hrun n (Nat.lt_succ_self n))
      (written ++ outputOf (u.reports n))
    rw [hn.pc, hn.store] at hone
    have hboth := hn.trans hone
    rw [Nat.add_assoc] at hboth
    rcases hp with rfl | rfl
    · simpa [Primitive.apply, store, execute, Primitive.instruction, Tape.add_add] using hboth
    · simpa [Primitive.apply, store, execute, Primitive.instruction, Tape.sub_sub] using hboth

section Alike

variable {c u : Machine} {written written' : List UInt8} {op : Instruction}

theorem Alike.op_here (h : c.Alike written u written') (hop : c.program.op? c.pc = some op) :
    u.program.op? u.pc = some op := by
  rwa [← h.program, ← h.pc]

theorem Alike.op_run (h : c.Alike written u written') (hop : c.program.op? c.pc = some op) {k : Nat}
    (hk : k < c.program.runLength c.pc) : u.program.op? (u.pc + k) = some op := by
  rw [← h.program, ← h.pc]
  exact Program.op?_of_lt_runLength hop hk

theorem Alike.arrives (h : c.Alike written u written') (hop : c.program.op? c.pc = some op)
    (hroom : c.steps < c.config.maxSteps) (hroom' : u.steps + c.reach op ≤ u.config.maxSteps) :
    u.Arrives written' (c.reach op) (c.after 1).pc
      ((c.after 1).store (written ++ outputOf (c.reports 1))) := by
  have hready : u.Prepared (c.reach op) := ⟨h.course', h.single, hroom'⟩
  obtain ⟨htape, hcursor, hwritten⟩ := Store.mk.inj h.store
  have hexecute := execute_congr h.program h.feed h.pc htape hcursor op (c.reach op)
  rw [after_one, reports_one, h.course.step_eq false hroom hop, outputOf_perform, perform_fst]
  change u.Arrives written' (c.reach op) (c.execute op (c.reach op)).pc
    ((c.execute op (c.reach op)).store _)
  rw [(hexecute _).1, (hexecute []).2, hwritten, htape]
  rcases c.reach_cases op with hone | ⟨p, hp, rfl, hrun⟩
  · rw [hone] at hready ⊢
    exact hready.arrives_execute (h.op_here hop) written'
  · have harrives := hready.arrives_run hp (fun k hk => h.op_run hop (hrun ▸ hk)) written'
    rcases hp with rfl | rfl
    · simpa [Primitive.instruction, execute] using harrives
    · simpa [Primitive.instruction, execute] using harrives

theorem Alike.inside (h : c.Alike written u written') (hop : c.program.op? c.pc = some op) {j : Nat}
    (hj : j < c.reach op) (hroom' : u.steps + j ≤ u.config.maxSteps) :
    (u.after j).pc < u.program.size := by
  rcases c.reach_cases op with hone | ⟨p, hp, rfl, hrun⟩
  · rw [hone] at hj
    obtain rfl : j = 0 := by omega
    exact Program.lt_size_of_op (h.op_here hop)
  · rw [hrun] at hj
    have harrives := Prepared.arrives_run ⟨h.course', h.single, hroom'⟩ hp
      (fun k hk => h.op_run hop (Nat.lt_trans hk hj)) []
    rw [harrives.pc]
    exact Program.lt_size_of_op (h.op_run hop hj)

theorem Alike.next (h : c.Alike written u written') (hop : c.program.op? c.pc = some op)
    (hroom : c.steps < c.config.maxSteps) (hroom' : u.steps + c.reach op ≤ u.config.maxSteps) :
    (c.after 1).Alike (written ++ outputOf (c.reports 1)) (u.after (c.reach op))
      (written' ++ outputOf (u.reports (c.reach op))) := by
  have harrives := h.arrives hop hroom hroom'
  refine ⟨?_, ?_, harrives.pc.symm, harrives.store.symm, ?_, ?_, h.course.after hroom,
    h.course'.after hroom'⟩
  · rw [after_program, after_program, h.program]
  · rw [feed_after, feed_after, h.feed]
  · rw [after_config, h.together]
  · rw [after_config, h.single]

/-! ## Runs -/

/-- `k` steps that all count lead where the instructions they cover lead one by one. -/
theorem Alike.after (h : c.Alike written u written') {k : Nat}
    (hsteps : (c.after k).steps = c.steps + k) (hroom' : u.steps + c.covered k ≤ u.config.maxSteps) :
    (c.after k).Alike (written ++ outputOf (c.reports k)) (u.after (c.covered k))
      (written' ++ outputOf (u.reports (c.covered k))) ∧
    (u.after (c.covered k)).steps = u.steps + c.covered k := by
  induction k with
  | zero => exact ⟨by simpa [outputOf, covered] using h, rfl⟩
  | succ k ih =>
    rw [covered] at hroom'
    have hle := c.after_steps_le k
    have hstep : (c.after (k + 1)).steps ≤ (c.after k).steps + 1 := step_steps_le ..
    obtain ⟨halike, hu⟩ := ih (by omega) (by omega)
    have hcounts : ((c.after k).step false).1.steps = (c.after k).steps + 1 := by
      change (c.after (k + 1)).steps = _
      omega
    -- The last step counts as well, so it is at an instruction.
    obtain ⟨op, -, hroom, hop⟩ := exists_op_of_step_steps hcounts
    have hcovers : (c.after k).covers = (c.after k).reach op := by
      unfold covers
      rw [hop]
      rfl
    have hmore : (u.after (c.covered k)).steps + (c.after k).reach op ≤
        (u.after (c.covered k)).config.maxSteps := by
      rw [hu, after_config, ← hcovers]
      omega
    have hnext := halike.next hop hroom hmore
    have harrives := halike.arrives hop hroom hmore
    rw [covered, hcovers, after_add, after_add, reports_add, reports_add, outputOf_append,
      outputOf_append, ← List.append_assoc, ← List.append_assoc]
    refine ⟨hnext, ?_⟩
    rw [harrives.steps, hu, Nat.add_assoc]

theorem Alike.leaves {j : Nat} (h : c.Alike written u written') (hroom : c.steps + j ≤ c.config.maxSteps)
    (hroom' : u.steps + j ≤ u.config.maxSteps) (hout : u.program.size ≤ (u.after j).pc) :
    ∃ i ≤ j, c.program.size ≤ (c.after i).pc ∧
      (c.after i).store (written ++ outputOf (c.reports i)) =
        (u.after j).store (written' ++ outputOf (u.reports j)) ∧
      (c.after i).steps + u.steps ≤ (u.after j).steps + c.steps := by
  induction j using Nat.strongRecOn generalizing c u written written' with
  | ind j ih =>
    rcases Nat.lt_or_ge c.pc c.program.size with hin | hgone
    · -- A whole run lies ahead, or the other machine would not be outside after `j` steps.
      obtain ⟨op, hop⟩ := Program.exists_op hin
      have hpos := reach_pos hop
      have hreach : c.reach op ≤ j := by
        apply Nat.le_of_not_lt
        intro hlt
        exact absurd hout (Nat.not_le.mpr (h.inside hop hlt hroom'))
      obtain ⟨k, rfl⟩ := Nat.exists_eq_add_of_le hreach
      have hnext := h.next hop (by omega) (by omega)
      have harrives := h.arrives hop (by omega) (by omega)
      have hone := c.after_steps_le 1
      obtain ⟨i, hi, hend, hstore, hsteps⟩ := ih k (by omega) hnext
        (by rw [after_config]; omega) (by rw [after_config, harrives.steps]; omega)
        (by rw [after_program, ← after_add]; exact hout)
      rw [harrives.steps] at hsteps
      refine ⟨1 + i, by omega, ?_, ?_, ?_⟩
      · rwa [after_program, ← after_add] at hend
      · rw [after_add, after_add, reports_add, reports_add, outputOf_append, outputOf_append,
          ← List.append_assoc, ← List.append_assoc]
        exact hstore
      · rw [after_add, after_add]
        omega
    · -- Both are outside already.
      have hended : u.status.isTerminal = true := by
        rw [h.course'.outside (by rwa [← h.program, ← h.pc])]
        rfl
      refine ⟨0, Nat.zero_le j, hgone, ?_, ?_⟩
      · rw [after_of_terminal hended, reports_of_terminal hended]
        simpa [outputOf] using h.store
      · exact Nat.le_of_eq (by rw [after_of_terminal hended, after_zero, Nat.add_comm])

/-! ## Whole runs -/

theorem Alike.endsWith_joined (h : c.Alike [] u []) (hnew : c.steps = 0) (hnew' : u.steps = 0)
    (hbudget : c.config.maxSteps = u.config.maxSteps) {n : Nat} {t : Store}
    (hends : EndsWith (u.runToEnd #[]) n t) : ∃ k ≤ n, EndsWith (c.runToEnd #[]) k t := by
  obtain ⟨hroom, hout, hsteps, rfl⟩ := exact_of_endsWith h.course' hnew' hends
  obtain ⟨i, hi, hleft, hstore, hle⟩ := h.leaves (by omega) (by omega) hout
  have hjoined := endsWith_of_outside h.course hnew (by omega) hleft
  simp only [List.nil_append] at hstore
  rw [hstore] at hjoined
  exact ⟨_, by omega, hjoined⟩

theorem Alike.endsWith_single (h : c.Alike [] u []) (hnew : c.steps = 0) (hnew' : u.steps = 0)
    {k : Nat} {t : Store} (hends : EndsWith (c.runToEnd #[]) k t)
    (hroom : c.covered k ≤ u.config.maxSteps) : EndsWith (u.runToEnd #[]) (c.covered k) t := by
  obtain ⟨-, hout, hsteps, rfl⟩ := exact_of_endsWith h.course hnew hends
  obtain ⟨halike, hcount⟩ := h.after (k := k) (by omega) (by omega)
  have hleft : u.program.size ≤ (u.after (c.covered k)).pc := by
    rwa [← halike.pc, ← h.program]
  have hsingle := endsWith_of_outside h.course' hnew' hroom hleft
  have hstore := halike.store
  simp only [List.nil_append] at hstore
  rwa [hcount, hnew', Nat.zero_add, ← hstore] at hsingle

end Alike

theorem alike_fresh (program : Program) (capacity : Nat) (input : Array UInt8) (eof : EofPolicy)
    (budget budget' : Nat) :
    (fresh program (.blank capacity) input ⟨budget, eof, true⟩).Alike []
      (fresh program (.blank capacity) input ⟨budget', eof, false⟩) [] :=
  ⟨rfl, rfl, rfl, rfl, rfl, rfl, onCourse_fresh .., onCourse_fresh ..⟩

end Machine

/-- Taking runs together is not seen in what a program does. The program counter is never inside a
run. After `k` steps that count, everything is as after the instructions they cover, taken one by
one. So both ways come to the same end, and taking runs together never needs more steps. -/
theorem coalescing_transparent (program : Program) (capacity : Nat) (input : Array UInt8)
    (eof : EofPolicy) :
    let joined (budget : Nat) := Machine.fresh program (.blank capacity) input ⟨budget, eof, true⟩
    let single (budget : Nat) := Machine.fresh program (.blank capacity) input ⟨budget, eof, false⟩
    (∀ budget k op, op = .increment ∨ op = .decrement →
      program.op? ((joined budget).after k).pc = some op →
        ((joined budget).after k).pc = 0 ∨
          program.op? (((joined budget).after k).pc - 1) ≠ some op) ∧
    (∀ budget budget' k, ((joined budget).after k).steps = k →
      (joined budget).covered k ≤ max budget' 1 →
        let c := (joined budget).after k
        let u := (single budget').after ((joined budget).covered k)
        u.steps = (joined budget).covered k ∧ c.pc = u.pc ∧ c.tape = u.tape ∧ c.cursor = u.cursor ∧
          outputOf ((joined budget).reports k) =
            outputOf ((single budget').reports ((joined budget).covered k))) ∧
    (∀ budget n t, EndsWith ((single budget).runToEnd #[]) n t →
      ∃ k ≤ n, EndsWith ((joined budget).runToEnd #[]) k t) ∧
    (∀ budget budget' k t, EndsWith ((joined budget).runToEnd #[]) k t →
      (joined budget).covered k ≤ max budget' 1 →
        EndsWith ((single budget').runToEnd #[]) ((joined budget).covered k) t) := by
  intro joined single
  have halike (budget budget' : Nat) : (joined budget).Alike [] (single budget') [] :=
    Machine.alike_fresh program capacity input eof budget budget'
  refine ⟨?_, ?_, ?_, ?_⟩
  · intro budget k
    exact Machine.startsRun_after rfl program.startsRun_zero k
  · intro budget budget' k hk hroom
    obtain ⟨hsame, hsteps⟩ := (halike budget budget').after (hk.trans (Nat.zero_add k).symm)
      (Nat.le_trans (Nat.le_of_eq (Nat.zero_add _)) hroom)
    obtain ⟨htape, hcursor, houtput⟩ := Store.mk.inj hsame.store
    exact ⟨hsteps.trans (Nat.zero_add _), hsame.pc, htape, hcursor, houtput⟩
  · intro budget n t hends
    exact (halike budget budget).endsWith_joined rfl rfl rfl hends
  · intro budget budget' k t hends hroom
    exact (halike budget budget').endsWith_single rfl rfl hends hroom

theorem coalescing_transparent_countdown :
    ∃ program, Program.load "+++[-]" = .ok program ∧
      EndsWith ((Machine.fresh program (.blank 2) #[] ⟨8, .zero, true⟩).runToEnd #[])
        8 ⟨.blank 2, 0, []⟩ ∧
      EndsWith ((Machine.fresh program (.blank 2) #[] ⟨10, .zero, false⟩).runToEnd #[])
        10 ⟨.blank 2, 0, []⟩ := by
  have hload : ∃ program, Program.load "+++[-]" = .ok program ∧
      EndsWith ((Machine.fresh program (.blank 2) #[] ⟨8, .zero, true⟩).runToEnd #[])
        8 ⟨.blank 2, 0, []⟩ ∧
      (Machine.fresh program (.blank 2) #[] ⟨8, .zero, true⟩).covered 8 = 10 :=
    ⟨_, rfl, ⟨by decide +kernel, by decide +kernel, by decide +kernel, by decide +kernel,
      by decide +kernel⟩, by decide +kernel⟩
  obtain ⟨program, hload, hends, hcovered⟩ := hload
  obtain ⟨-, -, -, hsingle⟩ := coalescing_transparent program 2 #[] .zero
  refine ⟨program, hload, hends, ?_⟩
  have := hsingle 8 10 8 _ hends (by rw [hcovered]; decide)
  rwa [hcovered] at this

end TapeMachine
