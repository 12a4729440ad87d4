import TapeMachine.Proofs.Driving
import TapeMachine.Proofs.Looks

/-!
# Coherent sessions

Whatever a session has been asked for, its tape has the size it was made with, a paced run that is
going has a machine with steps left, and a live machine runs the source as it stands. So a request
fails for one of two reasons only, and a failed request changes nothing.
-/

namespace TapeMachine

namespace Machine

/-! ## The tape of a machine -/

@[simp]
theorem capacity_execute (m : Machine) (op : Instruction) (run : Nat) :
    (m.execute op run).tape.capacity = m.tape.capacity := by
  cases op with
  | read =>
    simp only [execute]
    split <;> simp
  | _ => simp [execute]

theorem capacity_step (m : Machine) (highlight : Bool) :
    (m.step highlight).1.tape.capacity = m.tape.capacity := by
  rcases step_cases m with h | ⟨h, hlimit⟩ | ⟨h, hroom, hop⟩ | ⟨op, h, hroom, hop⟩
  · rw [step_of_terminal _ h]
  · rw [step_of_limit _ h hlimit]
  · rw [step_of_none _ h hroom hop]
  · rw [step_of_op _ h hroom hop, perform_fst]
    exact capacity_execute ..

theorem capacity_after (m : Machine) (n : Nat) :
    (m.after n).tape.capacity = m.tape.capacity := by
  induction n with
  | zero => rfl
  | succ n ih => rw [after, capacity_step, ih]

theorem steps_le_after (m : Machine) (n : Nat) : m.steps ≤ (m.after n).steps := by
  induction n with
  | zero => exact Nat.le_refl _
  | succ n ih => exact Nat.le_trans ih (steps_le_step ..)

theorem after_progress (m : Machine) {n : Nat} (hn : 1 ≤ n) :
    m.steps < (m.after n).steps ∨ (m.after n).status.isTerminal = true := by
  rw [← Nat.add_sub_of_le hn, after_add]
  -- The first call decides: it counts, or it has ended the run and the others do nothing.
  cases hended : (m.after 1).status.isTerminal with
  | true =>
    right
    rw [after_of_terminal hended, hended]
  | false =>
    left
    have hfirst : (m.after 1).steps = m.steps + 1 := step_steps_of_alive hended
    have hrest := (m.after 1).steps_le_after (n - 1)
    omega

theorem tick_calls (m : Machine) (speed : Speed) (log : Array Event) :
    ∃ k log' tick, 1 ≤ k ∧ m.tick speed log = (m.after k, log', tick) := by
  cases speed with
  | instant => exact ⟨_, _, _, Nat.le_add_left 1 _, tick_instant m log⟩
  | delay d => exact ⟨_, _, _, d.stepsPerTick_pos, tick_delay m d log⟩

end Machine

namespace Session

/-! ## The invariant -/

structure Coherent (capacity : Nat) (s : Session) : Prop where
  capacity_tape : s.tape.capacity = capacity
  resumable : s.running = true → s.canResume = true
  loaded : ∀ m, s.bench = .live m → Program.load s.source = .ok m.program

theorem coherent_new (tapeSize : Nat) (config : Config) :
    (Session.new tapeSize config).Coherent (max tapeSize 1) where
  capacity_tape := Tape.capacity_blank tapeSize
  resumable h := by cases h
  loaded m h := by cases h

section Steps

variable {capacity : Nat} {s : Session}

theorem Coherent.capacity_live (h : s.Coherent capacity) {m : Machine}
    (hbench : s.bench = .live m) : m.tape.capacity = capacity := by
  have := h.capacity_tape
  rwa [Session.tape, hbench] at this

theorem Coherent.pause (h : s.Coherent capacity) (cancel : Bool) :
    { s with running := false, cancel := cancel }.Coherent capacity where
  capacity_tape := h.capacity_tape
  resumable hrunning := by cases hrunning
  loaded := h.loaded

theorem coherent_idle {tape : Tape} (htape : tape.capacity = capacity) (source : String) :
    { s with source := source, running := false, bench := .idle tape }.Coherent capacity where
  capacity_tape := htape
  resumable h := by cases h
  loaded m h := by cases h

theorem Coherent.obtained (h : s.Coherent capacity) {keep : Bool} {m : Machine} {notes : List Note}
    (hobtain : s.obtain keep = .ok (m, notes)) :
    s.running = false ∧ m.status.isTerminal = false ∧ m.tape.capacity = capacity ∧
      Program.load s.source = .ok m.program := by
  rcases s.obtain_cases keep with ⟨-, heq⟩ | ⟨hidle, -, m', hbench, halive, heq⟩ |
    ⟨hidle, -, program, hload, heq⟩ | ⟨-, -, e, -, heq⟩
  · rw [heq] at hobtain
    cases hobtain
  · rw [heq] at hobtain
    cases hobtain
    exact ⟨hidle, halive, h.capacity_live hbench, h.loaded m hbench⟩
  · rw [heq] at hobtain
    cases hobtain
    refine ⟨hidle, rfl, ?_, hload⟩
    rw [← h.capacity_tape]
    exact Tape.capacity_cleared s.tape
  · rw [heq] at hobtain
    cases hobtain

theorem coherent_live {m : Machine} (hcapacity : m.tape.capacity = capacity)
    (hload : Program.load s.source = .ok m.program) {k : Nat} {running : Bool}
    (hrunning : running = true → (m.after k).status.isTerminal = false) (cancel : Bool) :
    { s with bench := .live (m.after k), running := running, cancel := cancel }.Coherent
      capacity where
  capacity_tape := (m.capacity_after k).trans hcapacity
  resumable h := canResume_iff.mpr ⟨m.after k, rfl, hrunning h⟩
  loaded m' h := by
    cases h
    rw [hload, Machine.after_program]

theorem Coherent.advanced (h : s.Coherent capacity) {keep : Bool} {m : Machine}
    {notes : List Note} (hobtain : s.obtain keep = .ok (m, notes)) (k : Nat) (cancel : Bool) :
    { s with bench := .live (m.after k), cancel := cancel }.Coherent capacity := by
  obtain ⟨hidle, -, hcapacity, hload⟩ := h.obtained hobtain
  apply coherent_live hcapacity hload
  -- Nobody gets a machine while a paced run is going.
  intro hrunning
  rw [hidle] at hrunning
  cases hrunning

/-! ## One request -/

theorem Coherent.finishInstant (h : s.Coherent capacity) (keep : Bool) (what : String) :
    (s.finishInstant keep what).session.Coherent capacity := by
  unfold Session.finishInstant
  cases hobtain : s.obtain keep with
  | error e => exact h
  | ok obtained =>
    obtain ⟨m, notes⟩ := obtained
    simp only [Machine.runInstant_of_terminal #[] m.terminal_after_remaining]
    exact h.advanced hobtain _ s.cancel

theorem Coherent.beginPaced (h : s.Coherent capacity) (keep : Bool) :
    (s.beginPaced keep).session.Coherent capacity := by
  unfold Session.beginPaced
  cases hobtain : s.obtain keep with
  | error e => exact h
  | ok obtained =>
    obtain ⟨m, notes⟩ := obtained
    obtain ⟨-, halive, hcapacity, hload⟩ := h.obtained hobtain
    exact coherent_live (k := 0) hcapacity hload (fun _ => halive) s.cancel

theorem Coherent.step (h : s.Coherent capacity) : s.step.session.Coherent capacity := by
  unfold Session.step
  cases hobtain : s.obtain true with
  | error e => exact h
  | ok obtained =>
    obtain ⟨m, notes⟩ := obtained
    simp only [Machine.step_fst m true]
    exact h.advanced hobtain 1 s.cancel

theorem Coherent.stepToEnd (h : s.Coherent capacity) (cancelsAfter : Nat → Bool) :
    (s.stepToEnd cancelsAfter).session.Coherent capacity := by
  unfold Session.stepToEnd
  split
  · exact ⟨h.capacity_tape, h.resumable, h.loaded⟩
  · cases hobtain : s.obtain true with
    | error e => exact h
    | ok obtained =>
      obtain ⟨m, notes⟩ := obtained
      obtain ⟨n, -, -, hmachine, -⟩ := m.steppedAs_runStepwise cancelsAfter #[] rfl
      simp only [hmachine]
      exact h.advanced hobtain n _

theorem Coherent.runPaced (h : s.Coherent capacity) (pacer : Pacer) (late : Bool) :
    (s.runPaced pacer late).session.Coherent capacity := by
  unfold Session.runPaced
  cases hobtain : s.obtain false with
  | error e => exact h
  | ok obtained =>
    obtain ⟨m, notes⟩ := obtained
    obtain ⟨-, halive, -⟩ := h.obtained hobtain
    have hmachine : ∃ k, (m.runPaced pacer s.cancel #[] #[]).machine = m.after k := by
      rcases (Machine.pacedAs_runPaced halive pacer s.cancel).2 with
        ⟨-, -, hmachine, -⟩ | ⟨-, -, hmachine, -⟩
      · rw [hmachine]
        exact m.exists_after_afterTicks ..
      · rw [hmachine]
        exact m.exists_after_afterTicks ..
    obtain ⟨k, hmachine⟩ := hmachine
    simp only [hmachine]
    exact h.advanced hobtain k _

theorem Coherent.tick (h : s.Coherent capacity) (speed : Speed) :
    (s.tick speed).session.Coherent capacity := by
  unfold Session.tick
  split
  · split
    · exact h.pause false
    · split
      · exact h
      · rename_i m hbench
        obtain ⟨k, log, tick, -, htick⟩ := m.tick_calls speed #[]
        have hcapacity := h.capacity_live hbench
        have hload := h.loaded m hbench
        rw [htick]
        rcases Machine.tick_status htick with ⟨-, rfl⟩ | ⟨halive, d, rfl⟩
        · exact coherent_live hcapacity hload (fun hrunning => by cases hrunning) s.cancel
        · exact coherent_live hcapacity hload (fun _ => halive) s.cancel
  · exact h

theorem Coherent.answer (h : s.Coherent capacity) (r : Request) :
    (s.answer r).1.Coherent capacity := by
  cases r with
  | setSource source => exact coherent_idle h.capacity_tape source
  | runInstant => exact h.finishInstant ..
  | resumeInstant => exact h.finishInstant ..
  | runPaced pacer => exact h.runPaced pacer false
  | startPaced => exact h.beginPaced false
  | resumePaced => exact h.beginPaced true
  | tick speed => exact h.tick speed
  | step => exact h.step
  | stepToEnd cancelsAfter => exact h.stepToEnd cancelsAfter
  | pause => exact h.pause s.cancel
  | reset => exact coherent_idle ((Tape.capacity_cleared s.tape).trans h.capacity_tape) s.source
  | setInput | setConfig | check | requestCancel | withdrawCancel =>
    exact ⟨h.capacity_tape, h.resumable, h.loaded⟩

theorem Coherent.serve (h : s.Coherent capacity) (requests : List Request) :
    (s.serve requests).1.Coherent capacity := by
  induction requests generalizing s with
  | nil => exact h
  | cons r rest ih => exact ih (h.answer r)

end Steps

theorem coherent_history (tapeSize : Nat) (config : Config) (history : List Request) :
    ((Session.new tapeSize config).serve history).1.Coherent (max tapeSize 1) :=
  (coherent_new tapeSize config).serve history

/-! ## What the invariant rules out -/

section Consequences

variable {capacity : Nat} {s : Session}

theorem machine_of_ready {keep : Bool} {s' : Session} {notes : List Note}
    (h : s.ready keep = .ok (s', notes)) : ∃ m, s'.machine? = some m := by
  unfold ready at h
  split at h
  · cases h
  · split at h
    · rename_i hkeep
      cases h
      obtain ⟨m, hbench, -⟩ := canResume_iff.mp (Bool.and_eq_true_iff.mp hkeep).2
      exact ⟨m, machine_eq_some_iff.mpr hbench⟩
    · unfold prepare at h
      cases hload : Program.load s.source with
      | error e =>
        rw [hload] at h
        cases h
      | ok program =>
        rw [hload] at h
        cases h
        exact ⟨_, rfl⟩

theorem Coherent.live_of_running (h : s.Coherent capacity) (hrunning : s.running = true) :
    ∃ m, s.bench = .live m ∧ m.status.isTerminal = false :=
  canResume_iff.mp (h.resumable hrunning)

theorem tick_live {m : Machine} (hrunning : s.running = true) (hclear : s.cancel = false)
    (hbench : s.bench = .live m) (speed : Speed) :
    ∃ k tick, 1 ≤ k ∧ (s.tick speed).result = .ok (some tick) ∧
      (s.tick speed).session.bench = .live (m.after k) ∧
      (s.tick speed).session.cancel = false := by
  obtain ⟨k, log, tick, hk, htick⟩ := m.tick_calls speed #[]
  refine ⟨k, tick, hk, ?_⟩
  unfold Session.tick
  rw [if_pos hrunning, if_neg (by simp [hclear]), hbench]
  simp only [htick]
  cases tick with
  | goesOn d => exact ⟨rfl, rfl, hclear⟩
  | finished status => exact ⟨rfl, rfl, hclear⟩

theorem obtain_busy_iff {keep : Bool} : s.obtain keep = .error .busy ↔ s.running = true := by
  rcases s.obtain_cases keep with ⟨hrunning, heq⟩ | ⟨hidle, -, m, -, -, heq⟩ |
    ⟨hidle, -, program, -, heq⟩ | ⟨hidle, -, e, -, heq⟩
  · simp [heq, hrunning]
  · simp [heq, hidle]
  · simp [heq, hidle]
  · simp [heq, hidle]

theorem Coherent.obtain_load_iff (h : s.Coherent capacity) {keep : Bool} {e : LoadError} :
    s.obtain keep = .error (.load e) ↔
      s.running = false ∧ Program.load s.source = .error e := by
  rcases s.obtain_cases keep with ⟨hrunning, heq⟩ | ⟨hidle, -, m, hbench, -, heq⟩ |
    ⟨hidle, -, program, hload, heq⟩ | ⟨hidle, -, e', hload, heq⟩
  · simp [heq, hrunning]
  · -- The live machine has been loaded from the source, so that cannot have failed.
    simp [heq, h.loaded m hbench]
  · simp [heq, hload]
  · simp [heq, hidle, hload]

end Consequences

end Session

/-! ## Requests that run the source -/

def Request.RunsSource : Request → Prop
  | .runInstant | .resumeInstant | .runPaced _ | .startPaced | .resumePaced | .step => True
  | _ => False

/-- Whether the request goes on with a live run that has steps left. -/
def Request.keeps : Request → Bool
  | .resumeInstant | .resumePaced | .step => true
  | _ => false

namespace Session

section Refusals

variable {s : Session} {r : Request}

theorem reply_refused (hr : r.RunsSource) {e : RunError} (h : s.obtain r.keeps = .error e) :
    s.reply r = s.refuse e := by
  cases r with
  | runInstant | resumeInstant | runPaced | startPaced | resumePaced | step =>
    simp only [Request.keeps] at h
    simp only [reply, runInstant, resumeInstant, finishInstant, runPaced, startPaced, resumePaced,
      beginPaced, Session.step, h]
    rfl
  | _ => exact hr.elim

theorem reply_accepted (hr : r.RunsSource) {obtained : Machine × List Note}
    (h : s.obtain r.keeps = .ok obtained) : ∃ answer, (s.reply r).result = .ok answer := by
  cases r with
  | runInstant | resumeInstant | runPaced | startPaced | resumePaced | step =>
    simp only [Request.keeps] at h
    simp only [reply, runInstant, resumeInstant, finishInstant, runPaced, startPaced, resumePaced,
      beginPaced, Session.step, h]
    exact ⟨_, rfl⟩
  | _ => exact hr.elim

theorem result_reply_iff (hr : r.RunsSource) {e : RunError} :
    (s.reply r).result = .error e ↔ s.obtain r.keeps = .error e := by
  constructor
  · intro hresult
    cases hobtain : s.obtain r.keeps with
    | error e' =>
      rw [reply_refused hr hobtain] at hresult
      cases hresult
      rfl
    | ok obtained =>
      obtain ⟨answer, hanswer⟩ := reply_accepted hr hobtain
      rw [hanswer] at hresult
      cases hresult
  · intro hobtain
    rw [reply_refused hr hobtain]
    rfl

end Refusals

end Session

/-! ## After any history -/

/-- The invariant of a session. After any requests its tape has its capacity, a session that is
running has a machine with steps left, and a live machine runs the program of the source. So a
request that gets as far as to need a machine finds one, and a tick of a running session that nobody
has asked to cancel calls the machine, which brings the run further or to its end. -/
theorem session_invariant (tapeSize : Nat) (config : Config) (history : List Request) :
    let s := ((Session.new tapeSize config).serve history).1
    (s.tape.capacity = max tapeSize 1 ∧ s.tape.pointer < max tapeSize 1) ∧
    (s.running = true → ∃ m, s.machine? = some m ∧ m.status.isTerminal = false) ∧
    (∀ m, s.machine? = some m → Program.load s.source = .ok m.program) ∧
    (∀ keep, (∀ ready notes, s.ready keep = .ok (ready, notes) → ∃ m, ready.machine? = some m) ∧
      (s.obtain keep = .error .busy → s.running = true)) ∧
    (∀ speed, s.running = true → s.cancel = false →
      ∃ m calls tick, s.machine? = some m ∧ 1 ≤ calls ∧
        (s.tick speed).result = .ok (some tick) ∧
        (s.tick speed).session.machine? = some (m.after calls) ∧
        (m.steps < (m.after calls).steps ∨ (m.after calls).status.isTerminal = true)) := by
  intro s
  have hs : s.Coherent (max tapeSize 1) := Session.coherent_history tapeSize config history
  refine ⟨⟨hs.capacity_tape, ?_⟩, ?_, ?_, ?_, ?_⟩
  · rw [← hs.capacity_tape]
    exact s.tape.pointer_lt_capacity
  · intro hrunning
    obtain ⟨m, hbench, halive⟩ := hs.live_of_running hrunning
    exact ⟨m, Session.machine_eq_some_iff.mpr hbench, halive⟩
  · intro m hmachine
    exact hs.loaded m (Session.machine_eq_some_iff.mp hmachine)
  · intro keep
    exact ⟨fun ready notes => Session.machine_of_ready, Session.obtain_busy_iff.mp⟩
  · intro speed hrunning hclear
    obtain ⟨m, hbench, -⟩ := hs.live_of_running hrunning
    obtain ⟨calls, tick, hcalls, hresult, hafter, -⟩ :=
      Session.tick_live hrunning hclear hbench speed
    exact ⟨m, calls, tick, Session.machine_eq_some_iff.mpr hbench, hcalls, hresult,
      Session.machine_eq_some_iff.mpr hafter, m.after_progress hcalls⟩

theorem session_invariant_paced :
    let s := ((Session.new 0 {}).serve
      [.setSource "+[]", .step, .setConfig ⟨5, .zero, false⟩, .runInstant, .startPaced, .pause,
        .resumePaced]).1
    s.running = true ∧ s.cancel = false ∧ s.tape.capacity = 1 ∧
      ∃ tick, (s.tick (.delay (.ofMillis 50))).result = .ok (some tick) := by
  intro s
  obtain ⟨⟨hcapacity, -⟩, -, -, -, htick⟩ := session_invariant 0 {} [.setSource "+[]", .step,
    .setConfig ⟨5, .zero, false⟩, .runInstant, .startPaced, .pause, .resumePaced]
  have hrunning : s.running = true := by decide +kernel
  have hclear : s.cancel = false := by decide +kernel
  obtain ⟨m, calls, tick, -, -, hresult, -⟩ := htick (.delay (.ofMillis 50)) hrunning hclear
  exact ⟨hrunning, hclear, hcapacity, tick, hresult⟩

/-- Refusals are exact and change nothing. A request to run the source is refused as busy exactly
while a paced run is going, and for a source that does not load exactly when none is; and a request
that is refused leaves the whole session as it is, reports nothing and makes no pause. -/
theorem refusal_exact (tapeSize : Nat) (config : Config) (history : List Request) (r : Request)
    (hr : r.RunsSource) :
    let s := ((Session.new tapeSize config).serve history).1
    ((s.reply r).result = .error .busy ↔ s.running = true) ∧
    (∀ e, (s.reply r).result = .error (.load e) ↔
      s.running = false ∧ Program.load s.source = .error e) ∧
    (∀ e, (s.reply r).result = .error e →
      (s.reply r).session = s ∧ (s.reply r).events = [] ∧ (s.reply r).pauses = []) := by
  intro s
  have hs : s.Coherent (max tapeSize 1) := Session.coherent_history tapeSize config history
  refine ⟨?_, ?_, ?_⟩
  · rw [Session.result_reply_iff hr]
    exact Session.obtain_busy_iff
  · intro e
    rw [Session.result_reply_iff hr]
    exact hs.obtain_load_iff
  · intro e hresult
    rw [Session.reply_refused hr ((Session.result_reply_iff hr).mp hresult)]
    exact ⟨rfl, rfl, rfl⟩

theorem refusal_exact_unmatched :
    let s := ((Session.new 4 {}).serve [.setSource "+++", .runInstant, .setSource "no ]"]).1
    (s.reply .step).result = .error (.load (.unmatched .closing 0 3)) ∧
      (s.reply .step).session = s ∧ s.tape.get = 3 := by
  intro s
  obtain ⟨-, hload, hunchanged⟩ := refusal_exact 4 {}
    [.setSource "+++", .runInstant, .setSource "no ]"] .step trivial
  have hresult := (hload (.unmatched .closing 0 3)).mpr ⟨by decide +kernel, rfl⟩
  exact ⟨hresult, (hunchanged _ hresult).1, by decide +kernel⟩

end TapeMachine
