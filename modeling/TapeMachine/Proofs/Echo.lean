import Mathlib.Data.List.TakeWhile
import TapeMachine.Proofs.Budget
import TapeMachine.Proofs.Driving
import TapeMachine.Proofs.Unmatched
import TapeMachine.Sample

/-!
# Copying the input

The sample `echo` writes what it reads up to the first zero byte. A turn of its loop takes three
steps, one of which writes, so that the number of steps tells how much has been copied, also when
the budget ends the run in the middle of a turn.
-/

namespace TapeMachine

/-! ## What is copied -/

/-- The bytes before the first zero. -/
def beforeZero (input : List UInt8) : List UInt8 :=
  input.takeWhile (· ≠ 0)

theorem take_beforeZero {input : List UInt8} {i : Nat} (h : i ≤ (beforeZero input).length) :
    input.take i = (beforeZero input).take i := by
  have hfront : beforeZero input <+: input := List.takeWhile_prefix _
  rw [List.prefix_iff_eq_take.mp hfront, List.take_take, Nat.min_eq_left h]

/-- How a run ends that copies `input` with a budget: with all that comes before the first zero
byte, or, when the budget is too small for that, with as many bytes as a third of its steps. -/
structure CopiesWithin (budget : Nat) (input : List UInt8) (m : Machine) (events : List Event) :
    Prop where
  whole : 2 + 3 * (beforeZero input).length ≤ budget →
    m.status = .halted ∧ m.steps = 2 + 3 * (beforeZero input).length ∧
      outputOf events = beforeZero input ∧ diagnosticsOf events = []
  cut : budget < 2 + 3 * (beforeZero input).length →
    m.status = .stepLimit ∧ m.steps = budget ∧
      outputOf events = (beforeZero input).take (budget / 3)

theorem CopiesWithin.look {budget : Nat} {input : List UInt8} {m : Machine} {events : List Event}
    (h : CopiesWithin budget input m events) (t : Tape) :
    CopiesWithin budget input m (events ++ [.tape t]) := by
  have houtput : outputOf (events ++ [.tape t]) = outputOf events := by
    rw [outputOf_append]
    exact List.append_nil _
  have hdiagnostics : diagnosticsOf (events ++ [.tape t]) = diagnosticsOf events := by
    rw [diagnosticsOf_append]
    exact List.append_nil _
  refine ⟨?_, ?_⟩
  · rw [houtput, hdiagnostics]
    exact h.whole
  · rw [houtput]
    exact h.cut

/-! ## The program -/

theorem instructionsIn_unlines (lines : List String) :
    instructionsIn (Text.unlines lines).toList = lines.flatMap (instructionsIn ·.toList) := by
  unfold Text.unlines
  rw [String.toList_join]
  simp [instructionsIn, List.filterMap_flatMap, List.flatMap_map, Instruction.ofChar?]

/-- `,[.,]` as a tree. -/
def Block.echo : Block :=
  .first .read (.loop (.first .write (.first .read .done)) .done)

theorem exists_echo :
    ∃ program, Program.load Sample.echo.code = .ok program ∧
      Block.echo.instructions = program.ops := by
  have hcode : instructionsIn Sample.echo.code.toList = Block.echo.instructions := by
    unfold Sample.echo
    rw [instructionsIn_unlines]
    decide +kernel
  have hloads : ∃ program, Program.load Sample.echo.code = .ok program := by
    rw [Program.exists_load_iff, hcode]
    exact ⟨by decide, _, rfl⟩
  obtain ⟨program, hload⟩ := hloads
  exact ⟨program, hload, by rw [Program.ops_of_load hload, hcode]⟩

/-! ## Steps of a run -/

namespace Machine

section Arrives

variable {m : Machine} {k pc : Nat} {s : Store} (hcourse : m.OnCourse)
  (h : m.Arrives [] k pc s) (hroom : m.steps + k < m.config.maxSteps)

include hcourse h hroom

theorem Arrives.primitive {p : Primitive} (hop : m.program.op? pc = some p.instruction)
    (hreach : ∀ m : Machine, m.reach p.instruction = 1) :
    m.Arrives [] (k + 1) (pc + 1) (p.apply m.feed s) := by
  have hone := (hcourse.after (Nat.le_of_lt hroom)).arrives_primitive
    (by rwa [h.steps, after_config]) (by rwa [h.pc, after_program]) (hreach _)
    ([] ++ outputOf (m.reports k))
  rw [h.store, h.pc, feed_after] at hone
  exact h.trans hone

theorem Arrives.bracket {base close : Nat} (hpair : m.program.Paired base close)
    (hpc : pc = base ∨ pc = close) :
    m.Arrives [] (k + 1) (if s.tape.get = 0 then close + 1 else base + 1) s := by
  have hone := (hcourse.after (Nat.le_of_lt hroom)).arrives_bracket
    (by rwa [h.steps, after_config]) (by rwa [after_program]) (by rwa [h.pc])
    ([] ++ outputOf (m.reports k))
  have htape : (m.after k).tape = s.tape := congrArg Store.tape h.store
  rw [h.store, htape] at hone
  exact h.trans hone

end Arrives

/-! ## One turn of the loop -/

/-- The byte that read number `i` stores: a zero when there is no more to read. -/
def byteRead (m : Machine) (i : Nat) : UInt8 :=
  m.input[i]?.getD 0

/-- Byte `i` is in the cell, and as many bytes as `count` says are written. -/
def holding (m : Machine) (i count : Nat) : Store :=
  ⟨m.tape.set (m.byteRead i), min (i + 1) m.input.size, m.input.toList.take count⟩

/-- A machine that is about to run `,[.,]`. -/
structure EchoStart (m : Machine) : Prop where
  code : Block.echo.instructions = m.program.ops
  course : m.OnCourse
  steps : m.steps = 0
  pc : m.pc = 0
  cursor : m.cursor = 0
  eof : m.config.eof = .zero

section Turn

variable {m : Machine} {i : Nat}

theorem EchoStart.apply_read (h : m.EchoStart) (i : Nat) (value : UInt8) (output : List UInt8) :
    Primitive.read.apply m.feed ⟨m.tape.set value, min i m.input.size, output⟩ =
      ⟨m.tape.set (m.byteRead i), min (i + 1) m.input.size, output⟩ := by
  have hfetch : m.input[min i m.input.size]?.or m.config.eof.fill = some (m.byteRead i) := by
    unfold byteRead
    rw [h.eof]
    rcases Nat.lt_or_ge i m.input.size with hlt | hge
    · rw [Nat.min_eq_left (Nat.le_of_lt hlt)]
      simp [hlt]
    · rw [Nat.min_eq_right hge]
      simp [hge, EofPolicy.fill]
  have hcursor : min (min i m.input.size + 1) m.input.size = min (i + 1) m.input.size := by
    omega
  simp only [Primitive.apply, Store.fetch, feed, hfetch, hcursor, Option.elim_some, Tape.set_set]

theorem apply_write (hbyte : m.byteRead i ≠ 0) :
    Primitive.write.apply m.feed (m.holding i i) = m.holding i (i + 1) := by
  unfold byteRead at hbyte
  have hlt : i < m.input.size := by
    apply Nat.lt_of_not_le
    intro hge
    simp [hge] at hbyte
  simp [Primitive.apply, holding, byteRead, hlt, List.take_add_one]

/-- One turn: from a bracket, with a byte other than zero in the cell, over `.` and `,` to the
closing bracket, as far as the budget goes. -/
theorem EchoStart.turn (h : m.EchoStart) {pc : Nat} (hpc : pc = 1 ∨ pc = 4)
    (hbyte : m.byteRead i ≠ 0) (hbracket : m.Arrives [] (3 * i + 1) pc (m.holding i i)) :
    (3 * i + 2 ≤ m.config.maxSteps → m.Arrives [] (3 * i + 2) 2 (m.holding i i)) ∧
    (3 * i + 3 ≤ m.config.maxSteps → m.Arrives [] (3 * i + 3) 3 (m.holding i (i + 1))) ∧
    (3 * i + 4 ≤ m.config.maxSteps → m.Arrives [] (3 * i + 4) 4 (m.holding (i + 1) (i + 1))) := by
  obtain ⟨-, hpair, ⟨hwrite, hread, -⟩, -⟩ := Block.at_zero h.code
  have hsteps := h.steps
  have hatWrite : 3 * i + 2 ≤ m.config.maxSteps → m.Arrives [] (3 * i + 2) 2 (m.holding i i) := by
    intro hroom
    have hnext := hbracket.bracket h.course (by omega) hpair hpc
    rwa [if_neg (by simpa [holding] using hbyte)] at hnext
  have hatRead : 3 * i + 3 ≤ m.config.maxSteps →
      m.Arrives [] (3 * i + 3) 3 (m.holding i (i + 1)) := by
    intro hroom
    have hnext := (hatWrite (by omega)).primitive h.course (by omega) hwrite fun _ => rfl
    rwa [apply_write hbyte] at hnext
  refine ⟨hatWrite, hatRead, ?_⟩
  intro hroom
  have hnext := (hatRead (by omega)).primitive h.course (by omega) hread fun _ => rfl
  rwa [holding, h.apply_read] at hnext

theorem EchoStart.arrives_bracket (h : m.EchoStart) (hbytes : ∀ j < i, m.byteRead j ≠ 0)
    (hroom : 3 * i + 1 ≤ m.config.maxSteps) :
    ∃ pc, (pc = 1 ∨ pc = 4) ∧ m.Arrives [] (3 * i + 1) pc (m.holding i i) := by
  induction i with
  | zero =>
    have hsteps := h.steps
    obtain ⟨hread, -⟩ := Block.at_zero h.code
    have hblank : m.store [] = ⟨m.tape.set m.tape.get, min 0 m.input.size, []⟩ := by
      simp [store, h.cursor]
    have hstart : m.Arrives [] 0 0 (m.store []) := ⟨rfl, h.pc, rfl⟩
    have hnext := hstart.primitive h.course (by omega) hread fun _ => rfl
    rw [hblank, h.apply_read] at hnext
    exact ⟨1, Or.inl rfl, hnext⟩
  | succ i ih =>
    obtain ⟨pc, hpc, hbracket⟩ := ih (fun j hj => hbytes j (by omega)) (by omega)
    exact ⟨4, Or.inr rfl, (h.turn hpc (hbytes i (by omega)) hbracket).2.2 hroom⟩

end Turn

/-! ## Whole runs -/

section Run

variable {m : Machine}

theorem byteRead_ne_zero {i : Nat} (h : i < (beforeZero m.input.toList).length) :
    m.byteRead i ≠ 0 := by
  have hfront : beforeZero m.input.toList <+: m.input.toList := List.takeWhile_prefix _
  have hne := List.mem_takeWhile_imp (List.getElem_mem h)
  have hlt : i < m.input.size := Nat.lt_of_lt_of_le h hfront.length_le
  rw [hfront.getElem h] at hne
  simpa [byteRead, hlt] using hne

theorem byteRead_length_beforeZero : m.byteRead (beforeZero m.input.toList).length = 0 := by
  have hsplit : beforeZero m.input.toList ++ m.input.toList.dropWhile (· ≠ 0) = m.input.toList :=
    List.takeWhile_append_dropWhile
  have hnext : m.input[(beforeZero m.input.toList).length]? =
      (m.input.toList.dropWhile (· ≠ 0)).head? := by
    rw [← Array.getElem?_toList, List.head?_eq_getElem?]
    conv_lhs => arg 1; rw [← hsplit]
    rw [List.getElem?_append_right (Nat.le_refl _), Nat.sub_self]
  have hzero := List.head?_dropWhile_not (· ≠ (0 : UInt8)) m.input.toList
  unfold byteRead
  rw [hnext]
  cases hhead : (m.input.toList.dropWhile (· ≠ 0)).head? with
  | none => rfl
  | some byte =>
    rw [hhead] at hzero
    simpa using hzero

theorem EchoStart.size_eq (h : m.EchoStart) : m.program.size = 5 := by
  rw [← Program.length_ops, ← h.code]
  rfl

theorem EchoStart.alive (h : m.EchoStart) : m.status.isTerminal = false := by
  apply h.course.inside
  rw [h.pc, h.size_eq]
  decide

theorem EchoStart.exists_inside (h : m.EchoStart) {k : Nat} (hpos : 1 ≤ k)
    (hk : k < 2 + 3 * (beforeZero m.input.toList).length) (hroom : k ≤ m.config.maxSteps) :
    ∃ pc s, pc < m.program.size ∧ m.Arrives [] k pc s ∧
      s.output = (beforeZero m.input.toList).take (k / 3) := by
  have hsize := h.size_eq
  obtain ⟨i, r, hr, rfl⟩ : ∃ i r, r < 3 ∧ k = 3 * i + 1 + r :=
    ⟨(k - 1) / 3, (k - 1) % 3, by omega, by omega⟩
  have hi : i ≤ (beforeZero m.input.toList).length := by omega
  obtain ⟨pc, hpc, hbracket⟩ := h.arrives_bracket (i := i)
    (fun j hj => byteRead_ne_zero (by omega)) (by omega)
  -- At a bracket and at `.` the byte at hand is still to be written; at `,` it has been.
  match r with
  | 0 =>
    refine ⟨pc, _, by omega, hbracket, ?_⟩
    rw [show (3 * i + 1 + 0) / 3 = i by omega]
    exact take_beforeZero hi
  | 1 =>
    have hturn := h.turn hpc (byteRead_ne_zero (by omega)) hbracket
    refine ⟨2, _, by omega, hturn.1 hroom, ?_⟩
    rw [show (3 * i + 1 + 1) / 3 = i by omega]
    exact take_beforeZero hi
  | 2 =>
    have hturn := h.turn hpc (byteRead_ne_zero (by omega)) hbracket
    refine ⟨3, _, by omega, hturn.2.1 hroom, ?_⟩
    rw [show (3 * i + 1 + 2) / 3 = i + 1 by omega]
    exact take_beforeZero (by omega)

theorem diagnosticsOf_runToEnd (halive : m.status.isTerminal = false) :
    diagnosticsOf (m.runToEnd #[]).2.toList =
      if (m.runToEnd #[]).1.status = .stepLimit then [.stepLimitExceeded m.config.maxSteps]
      else [] := by
  rw [runToEnd_eq, ← diagnosticsOf_reports halive]
  simp

theorem EchoStart.endsWith (h : m.EchoStart)
    (hroom : 2 + 3 * (beforeZero m.input.toList).length ≤ m.config.maxSteps) :
    EndsWith (m.runToEnd #[]) (2 + 3 * (beforeZero m.input.toList).length)
      (m.holding (beforeZero m.input.toList).length (beforeZero m.input.toList).length) := by
  have hsteps := h.steps
  obtain ⟨-, hpair, -⟩ := Block.at_zero h.code
  obtain ⟨pc, hpc, hbracket⟩ := h.arrives_bracket (i := (beforeZero m.input.toList).length)
    (fun j hj => byteRead_ne_zero hj) (by omega)
  have hleaves := hbracket.bracket h.course (by omega) hpair hpc
  rw [if_pos (by simp [holding, byteRead_length_beforeZero])] at hleaves
  have hends := hleaves.endsWith h.course h.steps (by omega) (Nat.le_of_eq h.size_eq)
  rwa [show 3 * (beforeZero m.input.toList).length + 1 + 1 =
    2 + 3 * (beforeZero m.input.toList).length by omega] at hends

end Run

end Machine

theorem Machine.EchoStart.copiesWithin {m : Machine} (h : m.EchoStart)
    (hbudget : 1 ≤ m.config.maxSteps) :
    CopiesWithin m.config.maxSteps m.input.toList (m.runToEnd #[]).1 (m.runToEnd #[]).2.toList where
  whole hroom := by
    have hends := h.endsWith hroom
    refine ⟨hends.status, hends.steps, ?_, ?_⟩
    · rw [hends.output]
      exact (take_beforeZero (Nat.le_refl _)).trans List.take_length
    · rw [diagnosticsOf_runToEnd h.alive, hends.status]
      rfl
  cut hless := by
    obtain ⟨pc, s, hpc, harrives, houtput⟩ := h.exists_inside hbudget hless (Nat.le_refl _)
    have hinside : (m.after m.config.maxSteps).pc < m.program.size := by rwa [harrives.pc]
    obtain ⟨hmachine, hlog⟩ :=
      runToEnd_of_inside (m := m) h.steps (Nat.le_refl _) h.course hinside
    have hsame : m.withBudget m.config.maxSteps = m := rfl
    rw [hsame] at hmachine hlog
    have hwritten : outputOf (m.reports m.config.maxSteps) = s.output :=
      congrArg Store.output harrives.store
    refine ⟨by rw [hmachine], ?_, ?_⟩
    · rw [hmachine]
      exact harrives.steps.trans (by rw [h.steps, Nat.zero_add])
    · rw [hlog, outputOf_append, hwritten, houtput]
      exact List.append_nil _

theorem copiesWithin_fresh {program : Program} (hcode : Block.echo.instructions = program.ops)
    (tape : Tape) (input : Array UInt8) (config : Config) (heof : config.eof = .zero)
    (hbudget : 1 ≤ config.maxSteps) :
    let run := (Machine.fresh program tape input config).runToEnd #[]
    CopiesWithin config.maxSteps input.toList run.1 run.2.toList := by
  have hstart : (Machine.fresh program tape input config).EchoStart :=
    ⟨hcode, Machine.onCourse_fresh .., rfl, rfl, rfl, heof⟩
  have hmax : (Machine.fresh program tape input config).config.maxSteps = config.maxSteps :=
    Nat.max_eq_left hbudget
  have hcopies := hstart.copiesWithin (by rwa [hmax])
  rwa [hmax] at hcopies

/-- The sample `echo` copies its input up to the first zero byte, on any tape, whether or not runs
are taken together. With `n` bytes to copy it comes to its normal end after `2 + 3 * n` steps, with
these bytes as its output and no diagnostic, if the budget has as many steps. If not, it stops when
the budget is used up, with as many bytes written as a third of the steps. -/
theorem echo_copies_input :
    (∃ program, Program.load Sample.echo.code = .ok program ∧
      ∀ (tape : Tape) (input : Array UInt8) (budget : Nat) (coalesce : Bool), 1 ≤ budget →
        let run := (Machine.fresh program tape input ⟨budget, .zero, coalesce⟩).runToEnd #[]
        CopiesWithin budget input.toList run.1 run.2.toList) ∧
    ∀ s : Session, s.running = false → s.source = Sample.echo.code → s.config.eof = .zero →
      1 ≤ s.config.maxSteps →
      ∃ m, s.runInstant.session.machine? = some m ∧ s.runInstant.result = .ok m.status ∧
        CopiesWithin s.config.maxSteps s.input.toList m s.runInstant.events := by
  obtain ⟨program, hload, hcode⟩ := exists_echo
  constructor
  · refine ⟨program, hload, ?_⟩
    intro tape input budget coalesce hbudget
    exact copiesWithin_fresh hcode tape input ⟨budget, .zero, coalesce⟩ rfl hbudget
  · intro s hidle hsource heof hbudget
    have hloads : Program.load s.source = .ok program := (congrArg Program.load hsource).trans hload
    obtain ⟨hmachine, hresult, hevents⟩ := Session.runInstant_new hidle hloads
    refine ⟨_, hmachine, hresult, ?_⟩
    have hcopies := copiesWithin_fresh hcode s.tape s.input s.config heof hbudget
    have hlog := hcopies.look
      ((Machine.fresh program s.tape s.input s.config).runToEnd #[]).1.tape
    rw [hevents, Machine.runInstant, Array.toList_push]
    exact hlog

theorem echo_copies_input_one_byte :
    let s := ((Session.new 1 { maxSteps := 5 }).setSource Sample.echo.code).setInput #[7, 0, 9]
    let short := s.setConfig { maxSteps := 4 }
    (∃ m, s.runInstant.session.machine? = some m ∧ m.status = .halted ∧ m.steps = 5 ∧
      outputOf s.runInstant.events = [7]) ∧
    ∃ m, short.runInstant.session.machine? = some m ∧ m.status = .stepLimit ∧ m.steps = 4 ∧
      outputOf short.runInstant.events = [7] := by
  intro s short
  obtain ⟨m, hmachine, -, hwhole⟩ := echo_copies_input.2 s rfl rfl rfl (by decide)
  obtain ⟨m', hmachine', -, hcut⟩ := echo_copies_input.2 short rfl rfl rfl (by decide)
  obtain ⟨hstatus, hsteps, houtput, -⟩ := hwhole.whole (by decide)
  obtain ⟨hstatus', hsteps', houtput'⟩ := hcut.cut (by decide)
  exact ⟨⟨m, hmachine, hstatus, hsteps, houtput.trans (by decide)⟩,
    ⟨m', hmachine', hstatus', hsteps', houtput'.trans (by decide)⟩⟩

end TapeMachine
