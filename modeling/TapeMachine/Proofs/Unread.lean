import TapeMachine.Proofs.Lockstep

/-!
# Input that is not read

The input and the rule for its end come into a run through `,` alone, one byte at a time. Two
inputs that begin with the same bytes make no difference before a run has read beyond these.
-/

namespace TapeMachine

namespace Machine

/-- The same machine with another input and another rule for its end. -/
def fedWith (m : Machine) (input : Array UInt8) (eof : EofPolicy) : Machine :=
  { m with input := input, config := { m.config with eof := eof } }

/-! ## Instructions, first one first -/

theorem executed_first (m : Machine) (n : Nat) :
    m.executed (n + 1) = m.next?.toList ++ (m.after 1).executed n := by
  induction n with
  | zero => rw [executed_succ]; simp [executed]
  | succ n ih =>
    rw [executed_succ, ih, executed_succ, ← after_add, Nat.add_comm 1 n, List.append_assoc]

theorem executed_of_terminal {m : Machine} {a b : Nat} (hle : a ≤ b)
    (hended : (m.after a).status.isTerminal = true) : m.executed b = m.executed a := by
  induction hle with
  | refl => rfl
  | step hle ih =>
    rw [executed_succ, ih, (after_eq_of_terminal hle hended).1, next?_eq_none (Or.inl hended)]
    exact List.append_nil _

/-! ## One step -/

section Step

variable {m : Machine} {input : Array UInt8} (eof : EofPolicy)

theorem execute_fedWith {op : Instruction} (run : Nat)
    (hread : op = .read →
      ∃ byte, m.input[m.cursor]? = some byte ∧ input[m.cursor]? = some byte) :
    (m.fedWith input eof).execute op run = (m.execute op run).fedWith input eof := by
  cases op with
  | read =>
    obtain ⟨byte, hbyte, hbyte'⟩ := hread rfl
    have hlt := (Array.getElem?_eq_some_iff.mp hbyte).1
    have hlt' := (Array.getElem?_eq_some_iff.mp hbyte').1
    have hcursor : (m.fedWith input eof).nextCursor = m.nextCursor :=
      (if_pos hlt').trans (if_pos hlt).symm
    unfold execute
    simp only [hcursor]
    simp [fetch, fedWith, hbyte, hbyte']
  | right | left | increment | decrement | write | loopOpen | loopClose => rfl

theorem perform_fedWith {op : Instruction} (highlight : Bool)
    (hread : op = .read →
      ∃ byte, m.input[m.cursor]? = some byte ∧ input[m.cursor]? = some byte) :
    (m.fedWith input eof).perform op highlight =
      ((m.perform op highlight).1.fedWith input eof, (m.perform op highlight).2) := by
  have hexecute := execute_fedWith eof (m.reach op) hread
  have hreach : (m.fedWith input eof).reach op = m.reach op := rfl
  have hfst : ((m.fedWith input eof).perform op highlight).1 =
      (m.perform op highlight).1.fedWith input eof := by
    rw [perform_fst, perform_fst, hreach, hexecute]
    rfl
  refine Prod.ext hfst ?_
  rw [perform_snd, hfst, perform_snd m, hreach, hexecute]
  rfl

theorem step_fedWith (highlight : Bool)
    (hread : m.next? = some .read →
      ∃ byte, m.input[m.cursor]? = some byte ∧ input[m.cursor]? = some byte) :
    (m.fedWith input eof).step highlight =
      ((m.step highlight).1.fedWith input eof, (m.step highlight).2) := by
  rcases step_cases m with h | ⟨h, hlimit⟩ | ⟨h, hroom, hop⟩ | ⟨op, h, hroom, hop⟩
  · rw [step_of_terminal _ h, step_of_terminal (m := m.fedWith input eof) _ h]
  · rw [step_of_limit _ h hlimit, step_of_limit (m := m.fedWith input eof) _ h hlimit]
    rfl
  · rw [step_of_none _ h hroom hop, step_of_none (m := m.fedWith input eof) _ h hroom hop]
    rfl
  · rw [step_of_op _ h hroom hop, step_of_op (m := m.fedWith input eof) _ h hroom hop]
    apply perform_fedWith
    rintro rfl
    exact hread (next?_eq_some h hroom hop)

end Step

/-! ## Runs -/

/-- `m'` is `m` but for the input and its end, and the next `n` steps read nothing beyond the first
`k` bytes, which are the same. -/
structure FedAlike (input : Array UInt8) (eof : EofPolicy) (k n : Nat) (m m' : Machine) : Prop where
  same : m' = m.fedWith input eof
  shared : ∀ i < k, ∃ byte, m.input[i]? = some byte ∧ input[i]? = some byte
  reads : m.cursor + (m.executed n).count .read ≤ k

section Runs

variable {input : Array UInt8} {eof : EofPolicy} {k n : Nat} {m m' : Machine}

theorem FedAlike.byte_here (h : FedAlike input eof k (n + 1) m m')
    (hnext : m.next? = some .read) :
    ∃ byte, m.input[m.cursor]? = some byte ∧ input[m.cursor]? = some byte := by
  apply h.shared
  have hreads := h.reads
  rw [executed_first, hnext] at hreads
  simp only [Option.toList_some, List.singleton_append, List.count_cons_self] at hreads
  omega

theorem FedAlike.step (h : FedAlike input eof k (n + 1) m m') (highlight : Bool) :
    FedAlike input eof k n (m.step highlight).1 (m'.step highlight).1 ∧
      (m'.step highlight).2 = (m.step highlight).2 := by
  have hstep := step_fedWith eof highlight h.byte_here
  rw [h.same, hstep]
  refine ⟨⟨rfl, ?_, ?_⟩, rfl⟩
  · rw [step_input]
    exact h.shared
  · have hreads := h.reads
    rw [executed_first, List.count_append] at hreads
    rw [step_cursor, step_fst, ← after_one]
    cases hnext : m.next? with
    | none => simpa [hnext] using hreads
    | some op =>
      rw [hnext] at hreads
      by_cases hop : op = .read
      · subst hop
        have hle := m.nextCursor_le_succ
        simp only [if_true, Option.toList_some, List.count_singleton_self] at hreads ⊢
        omega
      · simpa [hop] using hreads

theorem lockstep_fedAlike (input : Array UInt8) (eof : EofPolicy) (k : Nat) :
    Lockstep (FedAlike input eof k) Eq where
  status h := by rw [h.same]; rfl
  remaining h := by rw [h.same]; rfl
  step h := h.step
  look h := by rw [h.same]; rfl
  same _ := rfl

end Runs

end Machine

/-- Input that a run has not read is of no account, nor is the rule for its end. Two inputs share
their first `k` bytes. While no more than `k` times `,` has been executed, the two machines stand
alike in all but input and rule after every step, and their reports are the same. If `,` is never
executed more often, this goes for whole runs, however they are driven. -/
theorem unread_input_irrelevant (program : Program) (tape : Tape) (maxSteps : Nat)
    (coalesce : Bool) (input input' : Array UInt8) (eof eof' : EofPolicy) (k : Nat)
    (hlong : k ≤ input.size) (hshared : input.toList.take k = input'.toList.take k) :
    let m := Machine.fresh program tape input ⟨maxSteps, eof, coalesce⟩
    let m' := Machine.fresh program tape input' ⟨maxSteps, eof', coalesce⟩
    (∀ highlights : List Bool, (m.executed highlights.length).count .read ≤ k →
      let run := m.driveAll (highlights.map .step)
      let run' := m'.driveAll (highlights.map .step)
      run'.1 = run.1.fedWith input' eof' ∧ run'.2 = run.2) ∧
    ((∀ n, (m.executed n).count .read ≤ k) → ∀ drives : List Drive,
      let run := m.driveAll drives
      let run' := m'.driveAll drives
      run'.1 = run.1.fedWith input' eof' ∧ run'.2 = run.2) := by
  intro m m'
  have hbytes : ∀ i < k, ∃ byte, m.input[i]? = some byte ∧ input'[i]? = some byte := by
    intro i hi
    have hbyte := congrArg (·[i]?) hshared
    simp only [List.getElem?_take, if_pos hi, Array.getElem?_toList] at hbyte
    have hlt : i < input.size := Nat.lt_of_lt_of_le hi hlong
    exact ⟨input[i], Array.getElem?_eq_getElem hlt, hbyte ▸ Array.getElem?_eq_getElem hlt⟩
  have halike {n : Nat} (hreads : (m.executed n).count .read ≤ k) :
      Machine.FedAlike input' eof' k n m m' :=
    ⟨rfl, hbytes, Nat.le_trans (Nat.le_of_eq (Nat.zero_add _)) hreads⟩
  have hlockstep := Machine.lockstep_fedAlike input' eof' k
  refine ⟨?_, ?_⟩
  · intro highlights hreads
    obtain ⟨hrun, hreports⟩ := hlockstep.steps (halike hreads)
    exact ⟨hrun.same, hreports⟩
  · intro hreads drives
    obtain ⟨hrun, hreports⟩ := hlockstep.driveAll (fun n => halike (hreads n)) drives
    rw [List.forall₂_eq_eq_eq] at hreports
    exact ⟨(hrun 0).same, hreports.symm⟩

theorem unread_input_irrelevant_one_byte :
    ∃ program, Program.load ",." = .ok program ∧
      let m := Machine.fresh program (.blank 1) #[65, 66] ⟨9, .zero, true⟩
      let m' := Machine.fresh program (.blank 1) #[65] ⟨9, .minusOne, true⟩
      (m'.driveAll [.step true, .step true]).2 = (m.driveAll [.step true, .step true]).2 ∧
      (∀ n, (m.executed n).count .read ≤ 1) ∧ outputOf (m.driveAll [.runToEnd]).2 = [65] ∧
      (m'.driveAll [.runToEnd]).2 = (m.driveAll [.runToEnd]).2 := by
  have hrun : ∃ program, Program.load ",." = .ok program ∧
      let m := Machine.fresh program (.blank 1) #[65, 66] ⟨9, .zero, true⟩
      (∀ n ≤ 2, (m.executed n).count .read ≤ 1) ∧ (m.after 2).status.isTerminal = true ∧
        outputOf (m.driveAll [.runToEnd]).2 = [65] :=
    ⟨_, rfl, by decide +kernel, by decide +kernel, by decide +kernel⟩
  obtain ⟨program, hload, hreads, hended, houtput⟩ := hrun
  obtain ⟨hsteps, hwhole⟩ := unread_input_irrelevant program (.blank 1) 9 true #[65, 66] #[65]
    .zero .minusOne 1 (by decide) rfl
  have hall : ∀ n, ((Machine.fresh program (.blank 1) #[65, 66] ⟨9, .zero, true⟩).executed n).count
      .read ≤ 1 := by
    intro n
    rcases Nat.le_total n 2 with hle | hle
    · exact hreads n hle
    · rw [Machine.executed_of_terminal hle hended]
      exact hreads 2 (Nat.le_refl 2)
  exact ⟨program, hload, (hsteps [true, true] (hreads 2 (Nat.le_refl 2))).2, hall, houtput,
    (hwhole hall [.runToEnd]).2⟩

end TapeMachine
