import TapeMachine.Proofs.Requests

/-!
# Ways to drive a run

A run that is stepped, ticked, paused and resumed in any order comes to the same end as the run in
one go, and passes through the same states. Settings that change meanwhile are for the next run.
-/

namespace TapeMachine

/-! ## Steps that are all highlighted -/

namespace Machine

theorem runStepwise_steps (m : Machine) (cancelsAfter : Nat → Bool) (cancel : Bool)
    (log : Array Event) :
    ∃ k, (m.runStepwise cancelsAfter cancel log).machine = m.after k ∧
      essential (m.runStepwise cancelsAfter cancel log).log.toList =
        essential log.toList ++ essential (m.reports k) := by
  fun_induction runStepwise m cancelsAfter cancel log with
  | case1 m log => exact ⟨0, rfl, (List.append_nil _).symm⟩
  | case2 m cancel log hclear next log' hended =>
    refine ⟨1, step_fst m true, ?_⟩
    rw [reports_one, ← essential_step m true]
    simp [log', next]
  | case3 m cancel log hclear next log' halive ih =>
    obtain ⟨k, hmachine, hlog⟩ := ih
    have hnext : next.1 = m.after 1 := step_fst m true
    refine ⟨1 + k, by rw [hmachine, hnext, after_add], ?_⟩
    rw [hlog, reports_add, essential_append, reports_one, ← essential_step m true, hnext]
    simp [log', next]

theorem runStepwise_ended (m : Machine) {cancelsAfter : Nat → Bool}
    (hnever : ∀ n, cancelsAfter n = false) (log : Array Event) {cancel : Bool}
    (hclear : cancel = false) :
    let run := m.runStepwise cancelsAfter cancel log
    run.machine.status.isTerminal = true ∧ run.outcome = .ended run.machine.status := by
  fun_induction runStepwise m cancelsAfter cancel log with
  | case1 m log => cases hclear
  | case2 m cancel log _ next log' hended => exact ⟨hended, rfl⟩
  | case3 m cancel log _ next log' halive ih => exact ih (hnever _)

end Machine

/-- The run of `m` has been taken further by a number of steps, and these are all that is reported
of it. -/
def Machine.Advances (m : Machine) (upshot : Session × List Event) : Prop :=
  ∃ k, upshot.1.bench = .live (m.after k) ∧ essential upshot.2 = essential (m.reports k)

namespace Session

/-- Whoever asks for a machine gets `m`, or is turned away and leaves `m` on the bench. -/
def Offers (s : Session) (keep : Bool) (m : Machine) : Prop :=
  (∃ notes, s.obtain keep = .ok (m, notes)) ∨ s.bench = .live m ∧ ∃ e, s.obtain keep = .error e

section Offered

variable {s : Session} {m : Machine} {keep : Bool}

theorem offers_busy (hbench : s.bench = .live m) (h : s.running = true) : s.Offers keep m :=
  Or.inr ⟨hbench, .busy, obtain_running h keep⟩

theorem offers_live (hbench : s.bench = .live m) (halive : m.status.isTerminal = false) :
    s.Offers true m := by
  cases h : s.running with
  | true => exact offers_busy hbench h
  | false => exact Or.inl ⟨[], obtain_live h hbench halive⟩

/-! ## One request -/

theorem advances_of_bench (hbench : s.bench = .live m) : m.Advances (s, []) :=
  ⟨0, hbench, rfl⟩

theorem advances_finishInstant (h : s.Offers keep m) (what : String) :
    m.Advances (s.finishInstant keep what).upshot := by
  unfold finishInstant Reply.upshot
  rcases h with ⟨notes, h⟩ | ⟨hbench, e, h⟩
  · rw [h]
    simp only [Machine.runInstant, Machine.runToEnd_eq]
    refine ⟨m.remaining + 1, rfl, ?_⟩
    simp
  · rw [h]
    exact advances_of_bench hbench

theorem advances_beginPaced (h : s.Offers keep m) : m.Advances (s.beginPaced keep).upshot := by
  unfold beginPaced Reply.upshot
  rcases h with ⟨notes, h⟩ | ⟨hbench, e, h⟩
  · rw [h]
    exact ⟨0, rfl, rfl⟩
  · rw [h]
    exact advances_of_bench hbench

theorem advances_step (h : s.Offers true m) : m.Advances s.step.upshot := by
  unfold step Reply.upshot
  rcases h with ⟨notes, h⟩ | ⟨hbench, e, h⟩
  · rw [h]
    refine ⟨1, congrArg Bench.live (m.step_fst true), ?_⟩
    rw [essential_append, essential_tape, List.append_nil, Machine.essential_step,
      ← Machine.reports_one]
  · rw [h]
    exact advances_of_bench hbench

theorem advances_stepToEnd (hbench : s.bench = .live m) (h : s.Offers true m)
    (cancelsAfter : Nat → Bool) : m.Advances (s.stepToEnd cancelsAfter).upshot := by
  unfold stepToEnd Reply.upshot
  split
  · exact advances_of_bench hbench
  · rcases h with ⟨notes, h⟩ | ⟨-, e, h⟩
    · rw [h]
      obtain ⟨k, hmachine, hlog⟩ := m.runStepwise_steps cancelsAfter false #[]
      exact ⟨k, congrArg Bench.live hmachine, hlog⟩
    · rw [h]
      exact advances_of_bench hbench

theorem advances_tick (hbench : s.bench = .live m) (speed : Speed) :
    m.Advances (s.tick speed).upshot := by
  unfold tick Reply.upshot
  split
  · split
    · -- A request to cancel pauses the run before the tick takes a step.
      exact advances_of_bench hbench
    · rw [hbench]
      obtain ⟨k, log, tick, htick, hlog, -⟩ := m.tick_steps speed #[]
      simp only [htick]
      cases tick with
      | goesOn d => exact ⟨k, rfl, hlog⟩
      | finished status => exact ⟨k, rfl, hlog⟩
  · exact advances_of_bench hbench

/-- Requests that start no other run: a new source and a reset drop the live one, and a start is
turned away only while a paced run is going. -/
def Keeps (s : Session) : Request → Prop
  | .setSource _ | .reset => False
  | .runInstant | .runPaced _ | .startPaced => s.running = true
  | _ => True

instance (s : Session) : (r : Request) → Decidable (s.Keeps r)
  | .setSource _ | .reset => inferInstanceAs (Decidable False)
  | .runInstant | .runPaced _ | .startPaced => inferInstanceAs (Decidable (s.running = true))
  | .setInput _ | .setConfig _ | .check | .resumeInstant | .resumePaced | .tick _ | .step
  | .stepToEnd _ | .pause | .requestCancel | .withdrawCancel => inferInstanceAs (Decidable True)

theorem advances_answer {r : Request} (hbench : s.bench = .live m)
    (halive : m.status.isTerminal = false) (hkeeps : s.Keeps r) : m.Advances (s.answer r) := by
  have hlive := offers_live hbench halive
  cases r with
  | setSource | reset => exact hkeeps.elim
  | runInstant => exact advances_finishInstant (offers_busy hbench hkeeps) _
  | resumeInstant => exact advances_finishInstant hlive _
  | runPaced pacer =>
    unfold answer runPaced
    rw [obtain_running hkeeps]
    exact advances_of_bench hbench
  | startPaced => exact advances_beginPaced (offers_busy hbench hkeeps)
  | resumePaced => exact advances_beginPaced hlive
  | tick speed => exact advances_tick hbench speed
  | step => exact advances_step hlive
  | stepToEnd cancelsAfter => exact advances_stepToEnd hbench hlive cancelsAfter
  | setInput | setConfig | check | pause | requestCancel | withdrawCancel =>
    exact advances_of_bench hbench

end Offered

/-! ## Many requests -/

/-- Each request in turn finds a run with steps left, and starts no other. -/
def Follows (s : Session) : List Request → Prop
  | [] => True
  | r :: rest => s.canResume = true ∧ s.Keeps r ∧ (s.answer r).1.Follows rest

instance decidableFollows (s : Session) : (requests : List Request) → Decidable (s.Follows requests)
  | [] => inferInstanceAs (Decidable True)
  | r :: rest =>
    have := decidableFollows (s.answer r).1 rest
    inferInstanceAs (Decidable (s.canResume = true ∧ s.Keeps r ∧ (s.answer r).1.Follows rest))

theorem advances_serve_cons {s : Session} {m : Machine} {r : Request} {rest : List Request}
    (hfirst : m.Advances (s.answer r))
    (hrest : ∀ m', (s.answer r).1.bench = .live m' → m'.Advances ((s.answer r).1.serve rest)) :
    m.Advances (s.serve (r :: rest)) := by
  obtain ⟨a, hbench, hevents⟩ := hfirst
  obtain ⟨b, hlast, hmore⟩ := hrest _ hbench
  rw [serve_cons]
  refine ⟨a + b, by rw [hlast, Machine.after_add], ?_⟩
  rw [essential_append, hevents, hmore, ← essential_append, ← Machine.reports_add]

theorem advances_serve {s : Session} {m : Machine} {requests : List Request}
    (hbench : s.bench = .live m) (hfollows : s.Follows requests) :
    m.Advances (s.serve requests) := by
  induction requests generalizing s m with
  | nil => exact advances_of_bench hbench
  | cons r rest ih =>
    obtain ⟨hresume, hkeeps, hrest⟩ := hfollows
    obtain ⟨m', hbench', halive⟩ := canResume_iff.mp hresume
    obtain rfl : m' = m := Bench.live.inj (hbench'.symm.trans hbench)
    exact advances_serve_cons (advances_answer hbench halive hkeeps) fun _ h => ih h hrest

end Session

/-- Requests that start a run when there is none to resume. -/
def Request.Starts : Request → Prop
  | .step | .startPaced | .resumePaced | .resumeInstant => True
  | _ => False

/-! ## From a new run to its end -/

section New

variable {s : Session} {program : Program}

theorem Session.advances_start {r : Request} (hstarts : r.Starts) (hidle : s.running = false)
    (hnew : s.canResume = false) (hload : Program.load s.source = .ok program) :
    (Machine.fresh program s.tape s.input s.config).Advances (s.answer r) := by
  have hoffers : ∀ keep, s.Offers keep (.fresh program s.tape s.input s.config) :=
    fun keep => Or.inl ⟨_, obtain_new hidle (fun _ => hnew) hload⟩
  cases r with
  | step => exact advances_step (hoffers true)
  | startPaced => exact advances_beginPaced (hoffers false)
  | resumePaced => exact advances_beginPaced (hoffers true)
  | resumeInstant => exact advances_finishInstant (hoffers true) _
  | _ => exact hstarts.elim

theorem Session.runInstant_new (hidle : s.running = false)
    (hload : Program.load s.source = .ok program) :
    let whole := (Machine.fresh program s.tape s.input s.config).runInstant #[]
    s.runInstant.session.machine? = some whole.1 ∧ s.runInstant.result = .ok whole.1.status ∧
      s.runInstant.events = whole.2.toList := by
  unfold runInstant finishInstant
  rw [obtain_new hidle (by intro hkeep; cases hkeep) hload]
  exact ⟨rfl, rfl, rfl⟩

theorem Session.runPaced_new (hidle : s.running = false)
    (hload : Program.load s.source = .ok program) (hclear : s.cancel = false) {pacer : Pacer}
    (hnever : ∀ i, pacer.cancelsIn i = false) :
    let whole := (Machine.fresh program s.tape s.input s.config).runInstant #[]
    (s.runPaced pacer).result = .ok (.ended whole.1.status) ∧
      (s.runPaced pacer).session.machine? = some whole.1 ∧
      essential (s.runPaced pacer).events = essential whole.2.toList := by
  unfold runPaced
  rw [obtain_new hidle (by intro hkeep; cases hkeep) hload, hclear]
  obtain ⟨houtcome, hmachine, hlog⟩ := Machine.runPaced_ended
    (m := .fresh program s.tape s.input s.config) rfl fun i _ _ => hnever i
  exact ⟨congrArg Except.ok houtcome, congrArg some hmachine, hlog⟩

theorem Session.stepToEnd_new (hidle : s.running = false) (hnew : s.canResume = false)
    (hload : Program.load s.source = .ok program) (hclear : s.cancel = false) :
    let whole := (Machine.fresh program s.tape s.input s.config).runInstant #[]
    let stepped := s.stepToEnd fun _ => false
    stepped.result = .ok (.ended whole.1.status) ∧ stepped.session.machine? = some whole.1 ∧
      essential stepped.events = essential whole.2.toList := by
  unfold stepToEnd
  rw [obtain_new hidle (fun _ => hnew) hload, hclear]
  generalize Machine.fresh program s.tape s.input s.config = start
  obtain ⟨k, hmachine, hlog⟩ := start.runStepwise_steps (fun _ => false) false #[]
  obtain ⟨hended, houtcome⟩ := start.runStepwise_ended (fun _ => rfl) #[] rfl
  rw [hmachine] at hended houtcome
  rw [Machine.runInstant_of_terminal #[] hended]
  refine ⟨congrArg Except.ok houtcome, congrArg some hmachine, ?_⟩
  simpa using hlog

end New

/-- A run does not depend on how it is driven. However a new run is begun and whatever is then asked
for, its machine stands where the run in one go stands after as many executed steps, with the same
output up to there; and when it ends, it has ended and reported like the run in one go. -/
theorem run_independent_of_driving (s : Session) (program : Program) (first : Request)
    (rest : List Request) (hidle : s.running = false) (hnew : s.canResume = false)
    (hload : Program.load s.source = .ok program) (hstarts : first.Starts)
    (hfollows : (s.answer first).1.Follows rest) :
    let start := Machine.fresh program s.tape s.input s.config
    let whole := s.runInstant
    let driven := s.serve (first :: rest)
    ∃ calls last now,
      (last = start.after calls ∧ last.status.isTerminal = true ∧
        whole.session.machine? = some last ∧ whole.result = .ok last.status ∧
        whole.events = start.reports calls ++ [.tape last.tape]) ∧
      (driven.1.machine? = some now ∧ now.steps ≤ calls ∧
        (start.after now.steps).steps = now.steps ∧ now.pc = (start.after now.steps).pc ∧
        now.tape = (start.after now.steps).tape ∧ now.cursor = (start.after now.steps).cursor ∧
        outputOf driven.2 = outputOf (start.reports now.steps)) ∧
      (now.status.isTerminal = true → now = last ∧ essential driven.2 = essential whole.events) ∧
      (s.cancel = false → ∀ pacer : Pacer, (∀ i, pacer.cancelsIn i = false) →
        let paced := s.runPaced pacer
        let stepped := s.stepToEnd fun _ => false
        (paced.result = .ok (.ended last.status) ∧ paced.session.machine? = some last ∧
          essential paced.events = essential whole.events) ∧
        stepped.result = .ok (.ended last.status) ∧ stepped.session.machine? = some last ∧
          essential stepped.events = essential whole.events) := by
  intro start whole driven
  have hend : (start.after (start.remaining + 1)).status.isTerminal = true :=
    start.terminal_after_remaining
  have hrun := Machine.runInstant_of_terminal #[] hend
  obtain ⟨hmachine, hresult, hevents⟩ := Session.runInstant_new hidle hload
  -- Both runs are calls of the same new machine; only the calls that execute something are counted.
  obtain ⟨n, hbench, hdriven⟩ := Session.advances_serve_cons
    (Session.advances_start hstarts hidle hnew hload)
    fun _ h => Session.advances_serve h hfollows
  obtain ⟨k, hsteps, hk, hpc, htape, hcursor, houtput⟩ := start.after_counted n
  have hcount : (start.after n).steps = k := hsteps.trans (Nat.zero_add k)
  have hwhole : essential whole.events = essential (start.reports (start.remaining + 1)) := by
    rw [hevents, hrun]
    simp
  refine ⟨start.remaining + 1, start.after (start.remaining + 1), start.after n, ?_, ?_, ?_, ?_⟩
  · -- The run in one go.
    rw [hrun] at hmachine hresult hevents
    refine ⟨rfl, hend, hmachine, hresult, ?_⟩
    simp [whole, hevents, start]
  · -- The driven one, wherever it stands.
    rw [hcount]
    refine ⟨by rw [Session.machine?, hbench], Machine.le_of_counted hk hend,
      hk.trans (Nat.zero_add k), hpc, htape, hcursor, ?_⟩
    rw [← outputOf_essential, hdriven, outputOf_essential, houtput]
  · -- The driven one at its end: a run ends in one way.
    intro hended
    obtain ⟨hafter, hreports⟩ := Machine.after_unique hended hend
    exact ⟨hafter, by rw [hdriven, hwhole, ← hreports]⟩
  · intro hclear pacer hnever
    obtain ⟨hpaced, hlast, hlog⟩ := Session.runPaced_new hidle hload hclear hnever
    obtain ⟨hstepped, hlast', hlog'⟩ := Session.stepToEnd_new hidle hnew hload hclear
    rw [← hevents] at hlog hlog'
    rw [hrun] at hpaced hlast hstepped hlast'
    exact ⟨⟨hpaced, hlast, hlog⟩, hstepped, hlast', hlog'⟩

theorem run_independent_of_driving_echo :
    let s := ((Session.new 2 ⟨50, .zero, false⟩).setSource ",[.,]").setInput #[72, 105]
    let driven := s.serve [.step, .setInput #[1], .resumePaced, .tick (.delay (.ofMillis 50)),
      .runInstant, .pause, .resumeInstant]
    driven.1.status? = some .halted ∧ essential driven.2 = essential s.runInstant.events ∧
      outputOf driven.2 = [72, 105] := by
  intro s driven
  have hload : ∃ program, Program.load ",[.,]" = .ok program := ⟨_, rfl⟩
  obtain ⟨program, hload⟩ := hload
  have hfollows : (s.answer .step).1.Follows [.setInput #[1], .resumePaced,
      .tick (.delay (.ofMillis 50)), .runInstant, .pause, .resumeInstant] :=
    by decide +kernel
  obtain ⟨calls, last, now, -, ⟨hnow, -⟩, hended, -⟩ :=
    run_independent_of_driving s program .step _ rfl rfl hload trivial hfollows
  have hstatus : driven.1.status? = some .halted := by decide +kernel
  refine ⟨hstatus, ?_, by decide +kernel⟩
  rw [Session.status?, hnow] at hstatus
  exact (hended (by rw [Option.some.inj hstatus]; rfl)).2

end TapeMachine
