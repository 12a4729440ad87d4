import TapeMachine.Session
import TapeMachine.Proofs.Pacing

/-!
# Requests to a session

What a session is asked for, one request after the other, as data. A request that starts a run or
takes it further does so with the machine that the session obtains for it.
-/

namespace TapeMachine

inductive Request where
  | setSource (source : String)
  | setInput (input : Array UInt8)
  | setConfig (config : Config)
  | check
  | runInstant
  | resumeInstant
  | runPaced (pacer : Pacer)
  | startPaced
  | resumePaced
  | tick (speed : Speed)
  | step
  | stepToEnd (cancelsAfter : Nat → Bool)
  | pause
  | reset
  | requestCancel
  | withdrawCancel

/-- The session after a request, with what was reported meanwhile. -/
def Reply.upshot {α : Type} (r : Reply α) : Session × List Event :=
  (r.session, r.events)

/-- What a request comes back with, unless it is refused. -/
inductive Answer where
  | done
  | checked (program : Except LoadError Program)
  | status (status : Status)
  | outcome (outcome : Outcome)
  | tick (tick : Option Tick)
  | paused (wasRunning : Bool)

def Reply.map {α β : Type} (f : α → β) (r : Reply α) : Reply β where
  session := r.session
  result := r.result.map f
  before := r.before
  events := r.events
  pauses := r.pauses
  after := r.after

namespace Session

def answer (s : Session) : Request → Session × List Event
  | .setSource source => (s.setSource source, [])
  | .setInput input => (s.setInput input, [])
  | .setConfig config => (s.setConfig config, [])
  | .check => (s, [])
  | .runInstant => s.runInstant.upshot
  | .resumeInstant => s.resumeInstant.upshot
  | .runPaced pacer => (s.runPaced pacer).upshot
  | .startPaced => s.startPaced.upshot
  | .resumePaced => s.resumePaced.upshot
  | .tick speed => (s.tick speed).upshot
  | .step => s.step.upshot
  | .stepToEnd cancelsAfter => (s.stepToEnd cancelsAfter).upshot
  | .pause => (s.pause, [])
  | .reset => (s.reset, [])
  | .requestCancel => (s.requestCancel, [])
  | .withdrawCancel => (s.withdrawCancel, [])

/-- One request after the other, with all that was reported. -/
def serve (s : Session) : List Request → Session × List Event
  | [] => (s, [])
  | r :: rest =>
    let (s, events) := s.answer r
    let (s, more) := s.serve rest
    (s, events ++ more)

theorem serve_cons (s : Session) (r : Request) (rest : List Request) :
    s.serve (r :: rest) =
      (((s.answer r).1.serve rest).1, (s.answer r).2 ++ ((s.answer r).1.serve rest).2) := rfl

/-! ## Replies -/

/-- All that comes of a request. -/
def reply (s : Session) : Request → Reply Answer
  | .setSource source =>
    { session := s.setSource source, result := .ok .done, before := s.abandonNotes }
  | .setInput input => { session := s.setInput input, result := .ok .done }
  | .setConfig config => { session := s.setConfig config, result := .ok .done }
  | .check => { session := s, result := .ok (.checked s.check) }
  | .runInstant => s.runInstant.map .status
  | .resumeInstant => s.resumeInstant.map .status
  | .runPaced pacer => (s.runPaced pacer).map .outcome
  | .startPaced => s.startPaced.map fun _ => .done
  | .resumePaced => s.resumePaced.map fun _ => .done
  | .tick speed => (s.tick speed).map .tick
  | .step => s.step.map .status
  | .stepToEnd cancelsAfter => (s.stepToEnd cancelsAfter).map .outcome
  | .pause => { session := s.pause, result := .ok (.paused s.running) }
  | .reset => { session := s.reset, result := .ok .done, before := s.abandonNotes }
  | .requestCancel => { session := s.requestCancel, result := .ok .done }
  | .withdrawCancel => { session := s.withdrawCancel, result := .ok .done }

theorem upshot_reply (s : Session) (r : Request) : (s.reply r).upshot = s.answer r := by
  cases r <;> rfl

/-! ## The machine that a request goes on with -/

theorem machine_eq_some_iff {s : Session} {m : Machine} :
    s.machine? = some m ↔ s.bench = .live m := by
  unfold machine?
  split
  · simp [*]
  · simp [*]

theorem canResume_iff {s : Session} :
    s.canResume = true ↔ ∃ m, s.bench = .live m ∧ m.status.isTerminal = false := by
  unfold canResume
  split
  · simp [*]
  · simp [*]

theorem obtain_running {s : Session} (h : s.running = true) (keep : Bool) :
    s.obtain keep = .error .busy := by
  unfold obtain ready
  rw [if_pos h]

theorem obtain_live {s : Session} {m : Machine} (hidle : s.running = false)
    (hbench : s.bench = .live m) (halive : m.status.isTerminal = false) :
    s.obtain true = .ok (m, []) := by
  have hresume : s.canResume = true := canResume_iff.mpr ⟨m, hbench, halive⟩
  unfold obtain ready
  rw [if_neg (by simp [hidle]), if_pos (by rw [hresume]; rfl)]
  simp only [machine?, hbench]

theorem ready_new {s : Session} {keep : Bool} (hidle : s.running = false)
    (hnew : keep = true → s.canResume = false) : s.ready keep = s.prepare.mapError .load := by
  have hkeep : ¬(keep && s.canResume) = true := by
    intro h
    rw [Bool.and_eq_true] at h
    rw [hnew h.1] at h
    cases h.2
  unfold ready
  rw [if_neg (by simp [hidle]), if_neg hkeep]

theorem obtain_new {s : Session} {program : Program} {keep : Bool} (hidle : s.running = false)
    (hnew : keep = true → s.canResume = false) (hload : Program.load s.source = .ok program) :
    s.obtain keep =
      .ok (.fresh program s.tape s.input s.config, [s.startNote program]) := by
  unfold obtain
  rw [ready_new hidle hnew]
  unfold prepare
  rw [hload]
  rfl

theorem obtain_unloadable {s : Session} {e : LoadError} {keep : Bool} (hidle : s.running = false)
    (hnew : keep = true → s.canResume = false) (hload : Program.load s.source = .error e) :
    s.obtain keep = .error (.load e) := by
  unfold obtain
  rw [ready_new hidle hnew]
  unfold prepare
  rw [hload]
  rfl

/-- Whoever asks for a machine is turned away, goes on with the live one, or gets a new one if the
source loads. -/
theorem obtain_cases (s : Session) (keep : Bool) :
    (s.running = true ∧ s.obtain keep = .error .busy) ∨
    (s.running = false ∧ keep = true ∧ ∃ m, s.bench = .live m ∧ m.status.isTerminal = false ∧
      s.obtain keep = .ok (m, [])) ∨
    (s.running = false ∧ (keep = true → s.canResume = false) ∧
      ∃ program, Program.load s.source = .ok program ∧
        s.obtain keep = .ok (.fresh program s.tape s.input s.config, [s.startNote program])) ∨
    (s.running = false ∧ (keep = true → s.canResume = false) ∧
      ∃ e, Program.load s.source = .error e ∧ s.obtain keep = .error (.load e)) := by
  cases hidle : s.running with
  | true => exact Or.inl ⟨rfl, obtain_running hidle keep⟩
  | false =>
    right
    by_cases hkeep : keep = true ∧ s.canResume = true
    · obtain ⟨rfl, hresume⟩ := hkeep
      obtain ⟨m, hbench, halive⟩ := canResume_iff.mp hresume
      exact Or.inl ⟨rfl, rfl, m, hbench, halive, obtain_live hidle hbench halive⟩
    · right
      have hnew : keep = true → s.canResume = false := by
        intro h
        exact Bool.eq_false_iff.mpr fun hresume => hkeep ⟨h, hresume⟩
      cases hload : Program.load s.source with
      | ok program => exact Or.inl ⟨rfl, hnew, program, rfl, obtain_new hidle hnew hload⟩
      | error e => exact Or.inr ⟨rfl, hnew, e, rfl, obtain_unloadable hidle hnew hload⟩

end Session

end TapeMachine
