import TapeMachine.Proofs.Cancelling

/-!
# No residue

A new run takes from the session its source, its input, its settings and the size of its tape, and
nothing else. So it goes as in a session that has just been made.
-/

namespace TapeMachine

namespace Session

/-! ## Sessions that have just been made -/

/-- A new session with the source, the input and the settings of `s`. -/
def brandNew (s : Session) (tapeSize : Nat) : Session :=
  ((Session.new tapeSize s.config).setSource s.source).setInput s.input

theorem brandNew_withCancel {s : Session} (hidle : s.running = false) (tapeSize : Nat) :
    (s.brandNew tapeSize).withCancel s.cancel = { s with bench := .idle (.blank tapeSize) } := by
  unfold brandNew withCancel setInput setSource abandon
  simp only [hidle]
  rfl

/-- Requests that begin a new run. -/
def Renews (s : Session) : Request → Prop
  | .runInstant | .runPaced _ | .startPaced => True
  | .step | .resumeInstant | .resumePaced => s.canResume = false
  | _ => False

section Renewed

variable {s : Session} {r : Request}

theorem Renews.runsSource (h : s.Renews r) : r.RunsSource := by
  cases r with
  | runInstant | resumeInstant | runPaced | startPaced | resumePaced | step => trivial
  | _ => exact h.elim

theorem Renews.nothing_kept (h : s.Renews r) : r.keeps = true → s.canResume = false := by
  intro hkeeps
  cases r with
  | step | resumeInstant | resumePaced => exact h
  | _ => cases hkeeps

theorem reply_bench {bench : Bench} (hr : r.RunsSource) {obtained : Machine × List Note}
    (h : s.obtain r.keeps = .ok obtained)
    (hbench : { s with bench := bench }.obtain r.keeps = .ok obtained) :
    s.reply r = { s with bench := bench }.reply r := by
  cases r with
  | runInstant | resumeInstant | runPaced | startPaced | resumePaced | step =>
    simp only [Request.keeps] at h hbench
    simp only [reply, runInstant, resumeInstant, finishInstant, runPaced, startPaced, resumePaced,
      beginPaced, Session.step, h, hbench]
  | _ => exact hr.elim

theorem fresh_blank {tapeSize : Nat} (hs : s.Coherent (max tapeSize 1)) (program : Program) :
    Machine.fresh program s.tape s.input s.config =
      Machine.fresh program (.blank tapeSize) s.input s.config := by
  unfold Machine.fresh
  rw [Tape.cleared_eq_blank, hs.capacity_tape, Tape.cleared_eq_blank, Tape.capacity_blank]

theorem Renews.reply_eq (h : s.Renews r) {tapeSize : Nat} (hs : s.Coherent (max tapeSize 1))
    (hidle : s.running = false) {program : Program} (hload : Program.load s.source = .ok program) :
    s.reply r = ((s.brandNew tapeSize).withCancel s.cancel).reply r := by
  rw [brandNew_withCancel hidle]
  have hobtain := obtain_new hidle h.nothing_kept hload
  rw [fresh_blank hs] at hobtain
  exact reply_bench h.runsSource hobtain (obtain_new hidle (fun _ => rfl) hload)

end Renewed

end Session

/-- A new run has no residue. Whatever an idle session has been asked for, its source, if it loads,
runs as in a session that has just been made and given the same source, input and settings: with the
same result and the same report, and with the same session after it. If the source does not load,
either session refuses it for the same reason and stays as it is. -/
theorem new_run_without_residue (tapeSize : Nat) (config : Config) (history : List Request)
    (hidle : ((Session.new tapeSize config).serve history).1.running = false) :
    let s := ((Session.new tapeSize config).serve history).1
    let new := s.brandNew tapeSize
    (∀ program, Program.load s.source = .ok program →
      s.reply .runInstant = (new.reply .runInstant).withCancel s.cancel ∧
      ∀ r, s.Renews r → s.reply r = (new.withCancel s.cancel).reply r) ∧
    (∀ e, Program.load s.source = .error e → ∀ r, s.Renews r →
      s.reply r = s.refuse (.load e) ∧ new.reply r = new.refuse (.load e)) := by
  intro s new
  have hs : s.Coherent (max tapeSize 1) := Session.coherent_history tapeSize config history
  refine ⟨?_, ?_⟩
  · intro program hload
    refine ⟨?_, ?_⟩
    · have hnew := Session.reply_withCancel (s := new) (r := .runInstant) trivial s.cancel
      rw [← hnew]
      exact Session.Renews.reply_eq (r := .runInstant) trivial hs hidle hload
    · intro r hr
      exact hr.reply_eq hs hidle hload
  · intro e hload r hr
    refine ⟨?_, ?_⟩
    · exact Session.reply_refused hr.runsSource (hs.obtain_load_iff.mpr ⟨hidle, hload⟩)
    · exact Session.reply_refused hr.runsSource
        (Session.obtain_unloadable rfl (fun _ => rfl) hload)

theorem new_run_without_residue_shown :
    let s := ((Session.new 3 {}).serve [.setSource "+>++>+++", .runInstant, .setSource ",>,[.]",
      .setInput #[7, 8], .step, .step, .requestCancel, .setSource ",.>.>.", .setInput #[5]]).1
    let new := s.brandNew 3
    s.tape ≠ new.tape ∧ s.cancel = true ∧
      s.reply .runInstant = (new.reply .runInstant).withCancel s.cancel ∧
      s.reply .step = (new.withCancel s.cancel).reply .step ∧
      outputOf s.runInstant.events = [5, 0, 0] := by
  intro s new
  have hload : ∃ program, Program.load ",.>.>." = .ok program := ⟨_, rfl⟩
  obtain ⟨program, hload⟩ := hload
  obtain ⟨hnew, -⟩ := new_run_without_residue 3 {} [.setSource "+>++>+++", .runInstant,
    .setSource ",>,[.]", .setInput #[7, 8], .step, .step, .requestCancel, .setSource ",.>.>.",
    .setInput #[5]] (by decide +kernel)
  obtain ⟨hinstant, hrenews⟩ := hnew program hload
  exact ⟨by decide +kernel, by decide +kernel, hinstant, hrenews .step rfl, by decide +kernel⟩

/-- A source that does not load leaves the tape of the run before it, where a new session has a
blank one. -/
theorem load_error_keeps_tape :
    let s := ((Session.new 1 {}).serve [.setSource "+++", .runInstant, .setSource "+["]).1
    let new := s.brandNew 1
    s.running = false ∧
      (s.reply .runInstant).result = .error (.load (.unmatched .opening 1 1)) ∧
      (new.reply .runInstant).result = .error (.load (.unmatched .opening 1 1)) ∧
      (s.reply .runInstant).session.tape ≠ (new.reply .runInstant).session.tape := by
  intro s new
  have hidle : s.running = false := by decide +kernel
  have hload : Program.load "+[" = .error (.unmatched .opening 1 1) := rfl
  have hs : s.obtain false = .error (.load (.unmatched .opening 1 1)) :=
    Session.obtain_unloadable hidle (fun h => by cases h) hload
  have hnew : new.obtain false = .error (.load (.unmatched .opening 1 1)) :=
    Session.obtain_unloadable rfl (fun h => by cases h) hload
  refine ⟨hidle, ?_, ?_, by decide +kernel⟩
  · exact (Session.result_reply_iff (r := .runInstant) trivial).mpr hs
  · exact (Session.result_reply_iff (r := .runInstant) trivial).mpr hnew

end TapeMachine
