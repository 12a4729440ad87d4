import TapeMachine.Proofs.Lockstep

/-!
# Tapes of different size

A run that never goes over an end of its tape does not notice that the tape could be longer. So two
tapes make no difference to a run that keeps to the cells that both of them have.
-/

namespace TapeMachine

namespace Tape

/-! ## Longer tapes -/

/-- `wide` holds what `t` holds, with the pointer at the same cell, and zeros behind it. -/
structure ContinuedBy (t wide : Tape) : Prop where
  capacity : t.capacity ≤ wide.capacity
  pointer : wide.pointer = t.pointer
  cells : ∀ i < t.capacity, wide.cells[i]? = t.cells[i]?
  zeros : ∀ i, t.capacity ≤ i → i < wide.capacity → wide.cells[i]? = some 0

theorem getElem?_pointer (t : Tape) : t.cells[t.pointer]? = some t.get :=
  Array.getElem?_eq_getElem t.pointer_lt

section Continued

variable {t wide : Tape}

theorem ContinuedBy.refl (t : Tape) : t.ContinuedBy t := by
  refine ⟨Nat.le_refl _, rfl, fun _ _ => rfl, ?_⟩
  intro i hle hlt
  omega

theorem continuedBy_cleared (hle : t.capacity ≤ wide.capacity) :
    t.cleared.ContinuedBy wide.cleared := by
  have hcells (t : Tape) {i : Nat} (hi : i < t.capacity) : t.cleared.cells[i]? = some 0 := by
    rw [cleared_eq_blank, blank, Array.getElem?_replicate, if_pos (by omega)]
  refine ⟨by simpa using hle, rfl, ?_, ?_⟩
  · intro i hi
    rw [capacity_cleared] at hi
    rw [hcells t hi, hcells wide (Nat.lt_of_lt_of_le hi hle)]
  · intro i _ hlt
    rw [capacity_cleared] at hlt
    exact hcells wide hlt

theorem ContinuedBy.get (h : t.ContinuedBy wide) : wide.get = t.get := by
  have hcell := h.cells t.pointer t.pointer_lt
  rw [← h.pointer, getElem?_pointer, h.pointer, getElem?_pointer] at hcell
  exact Option.some.inj hcell

theorem ContinuedBy.set (h : t.ContinuedBy wide) (value : UInt8) :
    (t.set value).ContinuedBy (wide.set value) := by
  have hlt : t.pointer < t.capacity := t.pointer_lt
  refine ⟨by simpa using h.capacity, h.pointer, ?_, ?_⟩
  · intro i hi
    rw [capacity_set] at hi
    simp only [Tape.set, Array.getElem?_set, h.pointer]
    split
    · rfl
    · exact h.cells i hi
  · intro i hle hi
    rw [capacity_set] at hle hi
    simp only [Tape.set, Array.getElem?_set, h.pointer]
    rw [if_neg (by omega)]
    exact h.zeros i hle hi

theorem ContinuedBy.moveRight (h : t.ContinuedBy wide) (hroom : t.pointer + 1 < t.capacity) :
    t.moveRight.ContinuedBy wide.moveRight := by
  have hroom' : wide.pointer + 1 < wide.capacity := by
    rw [h.pointer]
    exact Nat.lt_of_lt_of_le hroom h.capacity
  unfold Tape.capacity at hroom hroom'
  unfold Tape.moveRight
  rw [dif_pos hroom, dif_pos hroom']
  exact ⟨h.capacity, congrArg (· + 1) h.pointer, h.cells, h.zeros⟩

theorem ContinuedBy.moveLeft (h : t.ContinuedBy wide) (hroom : t.pointer ≠ 0) :
    t.moveLeft.ContinuedBy wide.moveLeft := by
  have hroom' : wide.pointer ≠ 0 := by rwa [h.pointer]
  unfold Tape.moveLeft
  rw [if_neg hroom, if_neg hroom']
  exact ⟨h.capacity, congrArg (· - 1) h.pointer, h.cells, h.zeros⟩

end Continued

end Tape

/-- A look at a tape shows a longer one, and all else is the same. -/
def Event.ContinuedBy : Event → Event → Prop
  | .tape t, .tape wide => t.ContinuedBy wide
  | e, e' => e = e'

namespace Machine

def onTape (m : Machine) (t : Tape) : Machine :=
  { m with tape := t }

/-- The next step moves the pointer left from the first cell, or right from the last one of
`bound` cells. -/
def Strays (m : Machine) (bound : Nat) : Prop :=
  m.next? = some .left ∧ m.tape.pointer = 0 ∨
    m.next? = some .right ∧ m.tape.pointer + 1 = bound

instance (m : Machine) (bound : Nat) : Decidable (m.Strays bound) :=
  inferInstanceAs (Decidable (_ ∨ _))

/-! ## One step -/

section Step

variable {m : Machine} {wide : Tape} {op : Instruction}

theorem execute_onTape (h : m.tape.ContinuedBy wide) (run : Nat)
    (hleft : op = .left → m.tape.pointer ≠ 0)
    (hright : op = .right → m.tape.pointer + 1 ≠ m.tape.capacity) :
    ∃ wide', (m.onTape wide).execute op run = (m.execute op run).onTape wide' ∧
      (m.execute op run).tape.ContinuedBy wide' := by
  have hget := h.get
  cases op with
  | right =>
    -- The shorter tape would wrap around at its end, and the longer one not yet.
    have hlt := m.tape.pointer_lt_capacity
    have hne := hright rfl
    exact ⟨_, rfl, h.moveRight (by omega)⟩
  | left => exact ⟨_, rfl, h.moveLeft (hleft rfl)⟩
  | increment =>
    refine ⟨wide.add run, rfl, ?_⟩
    simp only [execute, Tape.add, hget]
    exact h.set _
  | decrement =>
    refine ⟨wide.sub run, rfl, ?_⟩
    simp only [execute, Tape.sub, hget]
    exact h.set _
  | write => exact ⟨wide, rfl, h⟩
  | read =>
    refine ⟨_, rfl, ?_⟩
    have hfetch : (m.onTape wide).fetch = m.fetch := rfl
    simp only [execute, hfetch]
    cases m.fetch with
    | none => exact h
    | some byte => exact h.set byte
  | loopOpen =>
    refine ⟨wide, ?_, h⟩
    simp only [execute, onTape, hget]
    rfl
  | loopClose =>
    refine ⟨wide, ?_, h⟩
    simp only [execute, onTape, hget]
    rfl

theorem stepEvent_onTape (h : m.tape.ContinuedBy wide) (index : Nat) (run : Nat) :
    (m.onTape wide).stepEvent index op run = m.stepEvent index op run := by
  simp only [stepEvent, onTape, h.pointer, h.get]

theorem perform_onTape (h : m.tape.ContinuedBy wide) (highlight : Bool)
    (hleft : op = .left → m.tape.pointer ≠ 0)
    (hright : op = .right → m.tape.pointer + 1 ≠ m.tape.capacity) :
    ∃ wide', (m.onTape wide).perform op highlight =
        ((m.perform op highlight).1.onTape wide', (m.perform op highlight).2) ∧
      (m.perform op highlight).1.tape.ContinuedBy wide' := by
  obtain ⟨wide', hexecute, hwide⟩ := execute_onTape h (m.reach op) hleft hright
  have hreach : (m.onTape wide).reach op = m.reach op := rfl
  have htape : (m.perform op highlight).1.tape.ContinuedBy wide' := by
    rw [perform_fst]
    exact hwide
  have hfst : ((m.onTape wide).perform op highlight).1 =
      (m.perform op highlight).1.onTape wide' := by
    rw [perform_fst, perform_fst, hreach, hexecute]
    rfl
  refine ⟨wide', Prod.ext hfst ?_, htape⟩
  have hget : (m.onTape wide).tape.get = m.tape.get := h.get
  rw [perform_snd, hfst, stepEvent_onTape htape, perform_snd m, hreach, hexecute, hget]
  rfl

theorem step_onTape (h : m.tape.ContinuedBy wide) (hstays : ¬m.Strays m.tape.capacity)
    (highlight : Bool) :
    ∃ wide', (m.onTape wide).step highlight =
        ((m.step highlight).1.onTape wide', (m.step highlight).2) ∧
      (m.step highlight).1.tape.ContinuedBy wide' := by
  rcases step_cases m with hend | ⟨hend, hlimit⟩ | ⟨hend, hroom, hop⟩ | ⟨op, hend, hroom, hop⟩
  · rw [step_of_terminal _ hend, step_of_terminal (m := m.onTape wide) _ hend]
    exact ⟨wide, rfl, h⟩
  · rw [step_of_limit _ hend hlimit, step_of_limit (m := m.onTape wide) _ hend hlimit]
    exact ⟨wide, rfl, h⟩
  · rw [step_of_none _ hend hroom hop, step_of_none (m := m.onTape wide) _ hend hroom hop]
    exact ⟨wide, rfl, h⟩
  · rw [step_of_op _ hend hroom hop, step_of_op (m := m.onTape wide) _ hend hroom hop]
    have hnext := next?_eq_some hend hroom hop
    apply perform_onTape h
    · rintro rfl hzero
      exact hstays (Or.inl ⟨hnext, hzero⟩)
    · rintro rfl hlast
      exact hstays (Or.inr ⟨hnext, hlast⟩)

end Step

/-! ## Runs -/

/-- `m'` is `m` on a longer tape, and for the next `n` steps one of the two keeps to the `bound`
cells of the shorter one. -/
structure Roomier (bound n : Nat) (m m' : Machine) : Prop where
  same : m' = m.onTape m'.tape
  tape : m.tape.ContinuedBy m'.tape
  capacity : m.tape.capacity = bound
  stays : (∀ i < n, ¬(m.after i).Strays bound) ∨ ∀ i < n, ¬(m'.after i).Strays bound

section Runs

variable {bound n : Nat} {m m' : Machine}

theorem Roomier.strays_iff (h : Roomier bound n m m') : m'.Strays bound ↔ m.Strays bound := by
  have hnext : m'.next? = m.next? := by rw [h.same]; rfl
  unfold Strays
  rw [hnext, h.tape.pointer]

theorem Roomier.not_strays (h : Roomier bound (n + 1) m m') : ¬m.Strays bound := by
  rcases h.stays with hstays | hstays
  · exact hstays 0 (Nat.succ_pos n)
  · rw [← h.strays_iff]
    exact hstays 0 (Nat.succ_pos n)

theorem after_step (m : Machine) (highlight : Bool) (i : Nat) :
    (m.step highlight).1.after i = m.after (i + 1) := by
  rw [step_fst, ← after_one, ← after_add, Nat.add_comm]

theorem Roomier.step (h : Roomier bound (n + 1) m m') (highlight : Bool) :
    Roomier bound n (m.step highlight).1 (m'.step highlight).1 ∧
      (m'.step highlight).2 = (m.step highlight).2 := by
  have hcapacity := h.capacity
  obtain ⟨wide, hstep, hwide⟩ := step_onTape h.tape (hcapacity ▸ h.not_strays) highlight
  rw [← h.same] at hstep
  refine ⟨⟨?_, ?_, ?_, ?_⟩, ?_⟩
  · rw [hstep]
    rfl
  · rw [hstep]
    exact hwide
  · rw [capacity_step, hcapacity]
  · simp only [after_step]
    rcases h.stays with hstays | hstays
    · exact Or.inl fun i hi => hstays (i + 1) (Nat.succ_lt_succ hi)
    · exact Or.inr fun i hi => hstays (i + 1) (Nat.succ_lt_succ hi)
  · rw [hstep]

theorem lockstep_roomier (bound : Nat) : Lockstep (Roomier bound) Event.ContinuedBy where
  status h := by rw [h.same]; rfl
  remaining h := by rw [h.same]; rfl
  step h := h.step
  look h := h.tape
  same e := by
    cases e with
    | tape t => exact Tape.ContinuedBy.refl t
    | output | diagnostic | step | halted => rfl

theorem not_strays_of_terminal {a : Nat} (hended : (m.after a).status.isTerminal = true)
    (hstays : ∀ i < a, ¬(m.after i).Strays bound) (i : Nat) : ¬(m.after i).Strays bound := by
  rcases Nat.lt_or_ge i a with hlt | hge
  · exact hstays i hlt
  · unfold Strays
    rw [(after_eq_of_terminal hge hended).1, next?_eq_none (Or.inl hended)]
    simp

end Runs

end Machine

/-- A longer tape is not noticed by a run that never goes over an end of the shorter one. Let one of
the two runs, on the shorter tape or on the longer, never move left from the first cell nor right
from the last one that the shorter tape has. Then after every step the two machines are the same
but for the tape, the longer tape goes on with zeros where the shorter ends, and the steps report
the same. However the whole runs are driven, only looks at the tape show its length. -/
theorem wider_tape_invisible (program : Program) (tape wide : Tape) (input : Array UInt8)
    (config : Config) (hle : tape.capacity ≤ wide.capacity) :
    let m := Machine.fresh program tape input config
    let m' := Machine.fresh program wide input config
    (∀ highlights : List Bool,
      ((∀ i < highlights.length, ¬(m.after i).Strays tape.capacity) ∨
        ∀ i < highlights.length, ¬(m'.after i).Strays tape.capacity) →
      let run := m.driveAll (highlights.map .step)
      let run' := m'.driveAll (highlights.map .step)
      run'.1 = run.1.onTape run'.1.tape ∧ run.1.tape.ContinuedBy run'.1.tape ∧
        run.1.tape.capacity = tape.capacity ∧ run'.2 = run.2) ∧
    ((∀ i, ¬(m.after i).Strays tape.capacity) ∨ (∀ i, ¬(m'.after i).Strays tape.capacity) →
      ∀ drives : List Drive,
        let run := m.driveAll drives
        let run' := m'.driveAll drives
        run'.1 = run.1.onTape run'.1.tape ∧ run.1.tape.ContinuedBy run'.1.tape ∧
          run.1.tape.capacity = tape.capacity ∧ List.Forall₂ Event.ContinuedBy run.2 run'.2) := by
  intro m m'
  have hlockstep := Machine.lockstep_roomier tape.capacity
  have hroomier {n : Nat} (hstays : (∀ i < n, ¬(m.after i).Strays tape.capacity) ∨
      ∀ i < n, ¬(m'.after i).Strays tape.capacity) : Machine.Roomier tape.capacity n m m' :=
    ⟨rfl, Tape.continuedBy_cleared hle, tape.capacity_cleared, hstays⟩
  refine ⟨?_, ?_⟩
  · intro highlights hstays
    obtain ⟨hrun, hreports⟩ := hlockstep.steps (hroomier hstays)
    exact ⟨hrun.same, hrun.tape, hrun.capacity, hreports⟩
  · intro hstays drives
    have halways (n : Nat) : Machine.Roomier tape.capacity n m m' :=
      hroomier (hstays.imp (fun h i _ => h i) fun h i _ => h i)
    obtain ⟨hrun, hreports⟩ := hlockstep.driveAll halways drives
    exact ⟨(hrun 0).same, (hrun 0).tape, (hrun 0).capacity, hreports⟩

theorem wider_tape_invisible_two_cells :
    ∃ program, Program.load ">+<" = .ok program ∧
      let m := Machine.fresh program (.blank 2) #[] {}
      let m' := Machine.fresh program (.blank 5) #[] {}
      (∀ i, ¬(m.after i).Strays 2) ∧
      (m'.driveAll [.step true, .step true]).1.pc = 2 ∧
      (m'.driveAll [.step true, .step true]).2 = (m.driveAll [.step true, .step true]).2 ∧
      (m'.driveAll [.runInstant]).1.tape.cells = #[0, 1, 0, 0, 0] ∧
      (m.driveAll [.runInstant]).1.tape.ContinuedBy (m'.driveAll [.runInstant]).1.tape := by
  have hrun : ∃ program, Program.load ">+<" = .ok program ∧
      let m := Machine.fresh program (.blank 2) #[] {}
      let m' := Machine.fresh program (.blank 5) #[] {}
      (∀ i < 3, ¬(m.after i).Strays 2) ∧ (m.after 3).status.isTerminal = true ∧
        (m'.driveAll [.step true, .step true]).1.pc = 2 ∧
        (m'.driveAll [.runInstant]).1.tape.cells = #[0, 1, 0, 0, 0] :=
    ⟨_, rfl, by decide +kernel, by decide +kernel, by decide +kernel, by decide +kernel⟩
  obtain ⟨program, hload, hstays, hended, hpc, hcells⟩ := hrun
  have hnever := Machine.not_strays_of_terminal hended hstays
  obtain ⟨hsteps, hwhole⟩ :=
    wider_tape_invisible program (.blank 2) (.blank 5) #[] {} (by decide)
  exact ⟨program, hload, hnever, hpc, (hsteps [true, true] (Or.inl fun i _ => hnever i)).2.2.2,
    hcells, (hwhole (Or.inl hnever) [.runInstant]).2.1⟩

end TapeMachine
