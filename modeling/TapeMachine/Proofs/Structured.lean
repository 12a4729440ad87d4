import Mathlib.Logic.ExistsUnique
import TapeMachine.Proofs.Plain

/-!
# Jumps and loops agree

A machine that takes one instruction a step does what the tree of its program means, with the same
number of steps. A loop is looked at from both of its brackets: from `[` on entering it, from `]`
after its body. The two lead to the same places.
-/

namespace TapeMachine

/-! ## From the tree to the machine -/

namespace Block

/-- Where a machine may stand that is about to do a block: at its first instruction, or, in front
of a loop, at the closing bracket. -/
def Entry (base pc : Nat) : Block → Prop
  | loop body _ => pc = base ∨ pc = base + body.instructions.length + 1
  | _ => pc = base

theorem entry_self (b : Block) (base : Nat) : b.Entry base base := by
  cases b with
  | loop body rest => exact Or.inl rfl
  | done => rfl
  | first p rest => rfl

theorem Runs.arrives {feed : Feed} {b : Block} {s t : Store} {n base : Nat} {m : Machine}
    {written : List UInt8} (h : b.Runs feed s n t) (hfeed : m.feed = feed)
    (hstore : m.store written = s) (hready : m.Prepared n) (hat : b.At m.program base)
    (hentry : b.Entry base m.pc) :
    m.Arrives written n (base + b.instructions.length) t := by
  induction h generalizing m written base with
  | done s =>
    refine ⟨?_, hentry, rfl⟩
    rw [Machine.reports_zero]
    exact (congrArg m.store (List.append_nil _)).trans hstore
  | first later ih =>
    obtain ⟨hop, hrest⟩ := hat
    have hpc : m.pc = base := hentry
    have hone := hready.arrives_primitive (hpc ▸ hop) written
    rw [hfeed, hstore, hpc] at hone
    rw [Nat.add_comm] at hready ⊢
    have hlater := ih (by rw [Machine.feed_after, hfeed]) hone.store hready.after
      (by rwa [Machine.after_program]) (by rw [hone.pc]; exact entry_self ..)
    rw [instructions_first, List.length_cons, Nat.add_comm _ 1, ← Nat.add_assoc]
    exact hone.trans hlater
  | @leave body rest s t n zero later ih =>
    obtain ⟨hpair, -, hrest⟩ := hat
    have hone := hready.arrives_bracket hpair hentry written
    rw [if_pos (by rw [← zero, ← hstore]; rfl), hstore] at hone
    rw [Nat.add_comm] at hready ⊢
    have hlater := ih (by rw [Machine.feed_after, hfeed]) hone.store hready.after
      (by rwa [Machine.after_program]) (by rw [hone.pc]; exact entry_self ..)
    have hend : base + (loop body rest).instructions.length =
        base + body.instructions.length + 1 + 1 + rest.instructions.length := by
      simp only [instructions_loop, List.length_cons, List.length_append]
      omega
    rw [hend]
    exact hone.trans hlater
  | @again body rest s t u i j nonzero once later ihonce ihlater =>
    obtain ⟨hpair, hbody, hrest⟩ := hat
    have hone := hready.arrives_bracket hpair hentry written
    rw [if_neg (by rw [← hstore] at nonzero; exact nonzero), hstore] at hone
    rw [show i + j + 1 = 1 + (i + j) by omega] at hready ⊢
    have hready' := hready.after
    have honce := ihonce (by rw [Machine.feed_after, hfeed]) hone.store
      (hready'.mono (Nat.le_add_right ..)) (by rwa [Machine.after_program])
      (by rw [hone.pc]; exact entry_self ..)
    -- The body has led to the closing bracket, which is an entry of the loop too.
    have hlater := ihlater (by rw [Machine.feed_after, Machine.feed_after, hfeed]) honce.store
      hready'.after (by rw [Machine.after_program, Machine.after_program]; exact ⟨hpair, hbody, hrest⟩)
      (by rw [honce.pc]; right; omega)
    exact hone.trans (honce.trans hlater)

/-! ## From the machine to the tree -/

/-- A machine at a block has done it after `k` steps or is still inside. -/
theorem runs_or_inside (k : Nat) {b : Block} {base : Nat} {m : Machine} (written : List UInt8)
    (hready : m.Prepared k) (hat : b.At m.program base) (hentry : b.Entry base m.pc) :
    (∃ n t, n ≤ k ∧ b.Runs m.feed (m.store written) n t) ∨
      (m.after k).pc < base + b.instructions.length := by
  induction k using Nat.strongRecOn generalizing b base m written with
  | ind k ih =>
    cases b with
    | done => exact Or.inl ⟨0, _, Nat.zero_le k, .done _⟩
    | first p rest =>
      obtain ⟨hop, hrest⟩ := hat
      have hpc : m.pc = base := hentry
      rw [instructions_first, List.length_cons]
      cases k with
      | zero =>
        right
        rw [Machine.after_zero]
        omega
      | succ k =>
        have hone := hready.arrives_primitive (hpc ▸ hop) written
        rw [Nat.add_comm] at hready ⊢
        rw [Machine.after_add]
        -- One step takes the machine to the rest, which has a step less to do.
        rcases ih k (by omega) _ hready.after (by rwa [Machine.after_program])
          (by rw [hone.pc, hpc]; exact entry_self ..) with ⟨n, t, hle, hruns⟩ | hin
        · rw [Machine.feed_after, hone.store] at hruns
          exact Or.inl ⟨n + 1, t, by omega, .first hruns⟩
        · right
          omega
    | loop body rest =>
      obtain ⟨hpair, hbody, hrest⟩ := hat
      simp only [instructions_loop, List.length_cons, List.length_append]
      cases k with
      | zero =>
        right
        rw [Machine.after_zero]
        rcases hentry with hpc | hpc <;> omega
      | succ k =>
        have hone := hready.arrives_bracket hpair hentry written
        rw [Nat.add_comm] at hready ⊢
        rw [Machine.after_add]
        have hready' := hready.after
        by_cases hcell : m.tape.get = 0
        · -- The cell is zero: the look at it leads behind the loop.
          rw [if_pos hcell] at hone
          rcases ih k (by omega) _ hready' (by rwa [Machine.after_program])
            (by rw [hone.pc]; exact entry_self ..) with ⟨n, t, hle, hruns⟩ | hin
          · rw [Machine.feed_after, hone.store] at hruns
            exact Or.inl ⟨n + 1, t, by omega, .leave hcell hruns⟩
          · right
            omega
        · rw [if_neg hcell] at hone
          rcases ih k (by omega) (written ++ outputOf (m.reports 1)) hready'
            (by rw [Machine.after_program]; exact hbody) (by rw [hone.pc]; exact entry_self ..)
            with ⟨i, s, hi, honce⟩ | hin
          · -- The body is done; what is left of the steps goes to the loop from its end.
            have hback := honce.arrives rfl rfl (hready'.mono hi)
              (by rwa [Machine.after_program]) (by rw [hone.pc]; exact entry_self ..)
            rw [Machine.feed_after, hone.store] at honce
            obtain ⟨j, rfl⟩ := Nat.exists_eq_add_of_le hi
            rw [Machine.after_add _ i j]
            have hloop : (loop body rest).At ((m.after 1).after i).program base := by
              rw [Machine.after_program, Machine.after_program]
              exact ⟨hpair, hbody, hrest⟩
            have hend : (loop body rest).Entry base ((m.after 1).after i).pc := by
              rw [hback.pc]
              right
              omega
            rcases ih j (by omega) _ hready'.after hloop hend with ⟨n, t, hle, hlater⟩ | hin
            · rw [Machine.feed_after, Machine.feed_after, hback.store] at hlater
              exact Or.inl ⟨i + n + 1, t, by omega, .again hcell honce hlater⟩
            · right
              simp only [instructions_loop, List.length_cons, List.length_append] at hin
              omega
          · -- The steps are used up in the body.
            right
            omega

theorem Runs.deterministic {feed : Feed} {b : Block} {s t t' : Store} {n n' : Nat}
    (h : b.Runs feed s n t) (h' : b.Runs feed s n' t') : n = n' ∧ t = t' := by
  induction h generalizing n' t' with
  | done s =>
    cases h'
    exact ⟨rfl, rfl⟩
  | first later ih =>
    cases h' with
    | first later' =>
      obtain ⟨rfl, rfl⟩ := ih later'
      exact ⟨rfl, rfl⟩
  | leave zero later ih =>
    cases h' with
    | leave _ later' =>
      obtain ⟨rfl, rfl⟩ := ih later'
      exact ⟨rfl, rfl⟩
    | again nonzero _ _ => exact absurd zero nonzero
  | again nonzero once later ihonce ihlater =>
    cases h' with
    | leave zero _ => exact absurd zero nonzero
    | again _ once' later' =>
      obtain ⟨rfl, rfl⟩ := ihonce once'
      obtain ⟨rfl, rfl⟩ := ihlater later'
      exact ⟨rfl, rfl⟩

end Block

/-! ## Whole runs -/

section WholeRun

variable {program : Program} {b : Block} (capacity : Nat) (input : Array UInt8) (eof : EofPolicy)
  (budget : Nat)

theorem endsWith_of_runs (hb : b.instructions = program.ops) {n : Nat} {t : Store}
    (h : b.Runs ⟨input, eof⟩ ⟨.blank capacity, 0, []⟩ n t) (hn : n ≤ max budget 1) :
    EndsWith ((Machine.fresh program (.blank capacity) input ⟨budget, eof, false⟩).runToEnd #[])
      n t := by
  have hready := (Machine.prepared_fresh program capacity input eof budget).mono hn
  have harrives := h.arrives rfl (Machine.store_fresh ..) hready (Block.at_zero hb) (Block.entry_self b 0)
  have hsize : 0 + b.instructions.length = program.size := by
    rw [hb, Program.length_ops, Nat.zero_add]
  exact harrives.endsWith hready.course rfl hn (Nat.le_of_eq hsize.symm)

theorem runs_or_limit (hb : b.instructions = program.ops) :
    (∃ n t, n ≤ max budget 1 ∧ b.Runs ⟨input, eof⟩ ⟨.blank capacity, 0, []⟩ n t) ∨
    ((Machine.fresh program (.blank capacity) input ⟨budget, eof, false⟩).runToEnd #[]).1.status =
      .stepLimit := by
  have hready := Machine.prepared_fresh program capacity input eof budget
  rcases Block.runs_or_inside _ [] hready (Block.at_zero hb) (Block.entry_self b 0) with hruns | hin
  · left
    rwa [Machine.store_fresh] at hruns
  · right
    rw [hb, Program.length_ops, Nat.zero_add] at hin
    exact Machine.limit_of_inside hready.course (Nat.zero_add _) hin #[]

end WholeRun

/-- The machine is adequate for the tree of its program. The tree is the only one with the
instructions of the program. It does its work in `n` steps, no more than the budget has, exactly if
the machine comes to a normal end after `n` steps with the same tape, output and use of the input.
The run ends at the step limit exactly if the tree needs more steps than that or never ends. -/
theorem runToEnd_adequate : ∀ (source : String) (program : Program),
    Program.load source = .ok program →
    (∃! b : Block, b.instructions = program.ops) ∧
    ∀ b : Block, b.instructions = program.ops →
    ∀ (capacity : Nat) (input : Array UInt8) (eof : EofPolicy) (budget : Nat),
      let run := (Machine.fresh program (.blank capacity) input ⟨budget, eof, false⟩).runToEnd #[]
      let start : Store := ⟨.blank capacity, 0, []⟩
      (∀ n t, n ≤ max budget 1 → (b.Runs ⟨input, eof⟩ start n t ↔ EndsWith run n t)) ∧
      (run.1.status = .stepLimit ↔
        (∃ n t, max budget 1 < n ∧ b.Runs ⟨input, eof⟩ start n t) ∨
        ¬ ∃ n t, b.Runs ⟨input, eof⟩ start n t) := by
  intro source program _
  constructor
  · obtain ⟨b, hb⟩ := program.exists_tree
    refine ⟨b, hb, fun c hc => ?_⟩
    exact Block.instructions_injective (hc.trans hb.symm)
  intro b hb capacity input eof budget
  have hdone := runs_or_limit capacity input eof budget hb
  refine ⟨fun n t hn => ⟨fun h => endsWith_of_runs _ _ _ _ hb h hn, fun h => ?_⟩, ?_, ?_⟩
  · -- The block has ended as well, and the machine ends in one way only.
    rcases hdone with ⟨n', t', hn', hruns⟩ | hlimit
    · obtain ⟨rfl, rfl⟩ := h.unique (endsWith_of_runs _ _ _ _ hb hruns hn')
      exact hruns
    · have hstatus := h.status
      rw [hlimit] at hstatus
      cases hstatus
  · -- A block that ends within the budget would have halted the machine.
    intro hlimit
    by_cases hruns : ∃ n t, b.Runs ⟨input, eof⟩ ⟨.blank capacity, 0, []⟩ n t
    · left
      obtain ⟨n, t, h⟩ := hruns
      refine ⟨n, t, Nat.lt_of_not_le fun hn => ?_, h⟩
      have hstatus := (endsWith_of_runs _ _ _ _ hb h hn).status
      rw [hlimit] at hstatus
      cases hstatus
    · exact Or.inr hruns
  · intro hmore
    rcases hdone with ⟨n, t, hn, hruns⟩ | hlimit
    · rcases hmore with ⟨n', t', hn', hruns'⟩ | hnone
      · obtain ⟨rfl, -⟩ := hruns.deterministic hruns'
        omega
      · exact absurd ⟨n, t, hruns⟩ hnone
    · exact hlimit

theorem runToEnd_adequate_copy :
    ∃ program, Program.load ",[.,]" = .ok program ∧
      EndsWith ((Machine.fresh program (.blank 2) #[65] ⟨5, .zero, false⟩).runToEnd #[])
        5 ⟨.blank 2, 1, [65]⟩ := by
  have hcopy : ∃ program, Program.load ",[.,]" = .ok program ∧
      (Block.first .read (.loop (.first .write (.first .read .done)) .done)).instructions =
        program.ops := ⟨_, rfl, rfl⟩
  obtain ⟨program, hload, hops⟩ := hcopy
  obtain ⟨hends, -⟩ := (runToEnd_adequate _ program hload).2 _ hops 2 #[65] .zero 5
  refine ⟨program, hload, (hends 5 _ (by decide)).mp ?_⟩
  exact .first (.again (by decide) (.first (.first (.done _))) (.leave (by decide) (.done _)))

/-- A budget of no steps counts as one: it is less than the tree of `+` needs, and the run comes to
its normal end all the same. -/
theorem runToEnd_budget_zero :
    ∃ program, Program.load "+" = .ok program ∧
      ∃ (b : Block) (n : Nat) (t : Store), b.instructions = program.ops ∧
        b.Runs ⟨#[], .zero⟩ ⟨.blank 1, 0, []⟩ n t ∧ 0 < n ∧
        ((Machine.fresh program (.blank 1) #[] ⟨0, .zero, false⟩).runToEnd #[]).1.status =
          .halted :=
  ⟨_, rfl, .first .increment .done, 1, _, rfl, .first (.done _), Nat.zero_lt_one, rfl⟩

end TapeMachine
