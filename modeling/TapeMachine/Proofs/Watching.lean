import Mathlib.Data.List.Induction
import TapeMachine.Viewer
import TapeMachine.Proofs.Reports

/-!
# Watching a run

What a viewer shows is the live run, from its start up to where it stands, and nothing of a run
before it. The session and the display are cleared by decisions of their own, so an invariant ties
the two to one list: how the live run has been driven since it began.
-/

namespace TapeMachine

/-! ## What a display shows -/

namespace Display

/-- The display without its message. -/
def picture (d : Display) : Display :=
  { d with message := none }

theorem picture_see (d : Display) (e : Event) : (d.see e).picture = (d.picture.see e).picture := by
  cases e with
  | halted status => by_cases h : status = .halted <;> simp [see, picture, h]
  | _ => rfl

theorem picture_seeAll (d : Display) (events : List Event) :
    (d.seeAll events).picture = (d.picture.seeAll events).picture := by
  induction events generalizing d with
  | nil => rfl
  | cons e rest ih =>
    calc ((d.see e).seeAll rest).picture
      _ = ((d.see e).picture.seeAll rest).picture := ih _
      _ = ((d.picture.see e).picture.seeAll rest).picture := by rw [picture_see]
      _ = ((d.picture.see e).seeAll rest).picture := (ih _).symm

/-- The display shows these reports, whatever its message says. -/
def Shows (d : Display) (events : List Event) : Prop :=
  d.picture = (({} : Display).seeAll events).picture

theorem seeAll_cons (d : Display) (e : Event) (rest : List Event) :
    d.seeAll (e :: rest) = (d.see e).seeAll rest := rfl

theorem seeAll_append (d : Display) (before after : List Event) :
    d.seeAll (before ++ after) = (d.seeAll before).seeAll after :=
  List.foldl_append

theorem seeAll_look (d : Display) (events : List Event) (t : Tape) :
    d.seeAll (events ++ [.tape t]) = d.seeAll events :=
  d.seeAll_append events [.tape t]

theorem seeAll_looks (d : Display) (looks : List Tape) : d.seeAll (looks.map .tape) = d := by
  induction looks with
  | nil => rfl
  | cons t rest ih => exact ih

theorem output_seeAll (events : List Event) :
    (({} : Display).seeAll events).output.toList = outputOf events := by
  induction events using List.reverseRecOn with
  | nil => rfl
  | append_singleton events e ih =>
    rw [seeAll_append, outputOf_append, ← ih]
    cases e with
    | halted status => by_cases h : status = .halted <;> simp [seeAll, see, outputOf, h]
    | _ => simp [seeAll, see, outputOf]

theorem highlight_seeAll {events : List Event} (hgoes : .halted ∉ haltsOf events) :
    (({} : Display).seeAll events).highlight =
      (stepsOf events).getLast?.map StepEvent.source := by
  induction events using List.reverseRecOn with
  | nil => rfl
  | append_singleton events e ih =>
    rw [haltsOf_append, List.mem_append, not_or] at hgoes
    have hbefore := ih hgoes.1
    rw [seeAll_append, stepsOf_append]
    cases e with
    | halted status =>
      have hstatus : status ≠ .halted := by
        rintro rfl
        simp [haltsOf] at hgoes
      simpa [seeAll, see, stepsOf, hstatus] using hbefore
    | step e => simp [seeAll, see, stepsOf]
    | _ => simpa [seeAll, see, stepsOf] using hbefore

section Shows

variable {d : Display} {events : List Event}

theorem Shows.seeAll (h : d.Shows events) (more : List Event) :
    (d.seeAll more).Shows (events ++ more) := by
  unfold Shows at h ⊢
  rw [picture_seeAll, h, ← picture_seeAll, seeAll_append]

theorem Shows.output_eq (h : d.Shows events) : d.output.toList = outputOf events := by
  have hsame := congrArg (fun shown : Display => shown.output.toList) h
  exact hsame.trans (output_seeAll events)

theorem Shows.highlight_eq (h : d.Shows events) (hgoes : .halted ∉ haltsOf events) :
    d.highlight = (stepsOf events).getLast?.map StepEvent.source := by
  have hsame := congrArg Display.highlight h
  exact hsame.trans (highlight_seeAll hgoes)

theorem Shows.highlight_ended {before : List Event} {looks : List Tape}
    (h : d.Shows (before ++ .halted .halted :: looks.map .tape)) : d.highlight = none := by
  unfold Shows at h
  rw [seeAll_append, seeAll_cons, seeAll_looks] at h
  exact congrArg Display.highlight h

theorem Shows.highlight_of_told (hd : d.Shows events) {start m : Machine} {highlights : List Bool}
    (h : start.Told highlights m events) (halive : start.status.isTerminal = false) :
    d.highlight =
      if m.status = .halted then none
      else (start.shownSteps highlights).getLast?.map StepEvent.source := by
  by_cases hended : m.status = .halted
  · obtain ⟨before, looks, rfl, -⟩ := h.closing (by rw [hended]; rfl)
    rw [hended] at hd
    rw [if_pos hended, hd.highlight_ended]
  · have hgoes : .halted ∉ haltsOf events := by
      rw [h.haltsOf_eq halive]
      split
      · simp [Ne.symm hended]
      · simp
    rw [if_neg hended, hd.highlight_eq hgoes, h.shown]

end Shows

end Display

namespace Session

/-! ## The invariant -/

theorem machine_eq_none_iff {s : Session} : s.machine? = none ↔ ∃ t, s.bench = .idle t := by
  unfold machine?
  split
  · simp [*]
  · simp [*]

theorem tape_idle {s : Session} {t : Tape} (h : s.bench = .idle t) : s.tape = t := by
  unfold tape
  rw [h]

theorem tape_live {s : Session} {m : Machine} (h : s.bench = .live m) : s.tape = m.tape := by
  unfold tape
  rw [h]

/-- The machine of a new run. -/
def newRun (s : Session) (program : Program) : Machine :=
  .fresh program s.tape s.input s.config

/-- The display shows the live run of `s`, which is the one that `given` asks for, driven by
`drives` since it began; without a live run it shows nothing. -/
structure WatchedOn (s : Session) (d : Display) (given : Session) (drives : List Drive) :
    Prop where
  source : s.source = given.source
  input : s.input = given.input
  config : s.config = given.config
  cancel : s.cancel = false
  idle : ∀ t, s.bench = .idle t → t = given.tape.cleared ∧ d.Shows []
  live : ∀ m, s.bench = .live m → ∃ program, Program.load given.source = .ok program ∧
    m = ((given.newRun program).driveAll drives).1 ∧
    d.Shows ((given.newRun program).driveAll drives).2

section WatchedOn

variable {s given : Session} {d : Display} {drives : List Drive}

/-- Wherever the session stands, a new run finds the tape that the first one found. -/
theorem WatchedOn.tape_cleared (h : s.WatchedOn d given drives) :
    s.tape.cleared = given.tape.cleared := by
  cases hbench : s.bench with
  | idle t =>
    obtain ⟨rfl, -⟩ := h.idle t hbench
    rw [tape_idle hbench]
    exact Tape.cleared_cleared _
  | live m =>
    obtain ⟨program, -, hm, -⟩ := h.live m hbench
    have halive : (given.newRun program).status.isTerminal = false := rfl
    rw [tape_live hbench]
    rw [Tape.cleared_eq_blank, Tape.cleared_eq_blank, hm,
      (Machine.told_driveAll halive drives).machine, Machine.capacity_after]
    exact congrArg Tape.blank (Tape.capacity_cleared given.tape)

theorem WatchedOn.newRun_eq (h : s.WatchedOn d given drives) (program : Program) :
    s.newRun program = given.newRun program := by
  unfold newRun Machine.fresh
  rw [h.tape_cleared, h.input, h.config]

theorem WatchedOn.exists_idle (h : s.WatchedOn d given drives) {e : LoadError}
    (hload : Program.load s.source = .error e) : ∃ t, s.bench = .idle t := by
  cases hbench : s.bench with
  | idle t => exact ⟨t, rfl⟩
  | live m =>
    obtain ⟨program, hprogram, -⟩ := h.live m hbench
    rw [h.source, hprogram] at hload
    cases hload

theorem WatchedOn.say (h : s.WatchedOn d given drives) (message : Option String) :
    s.WatchedOn { d with message := message } given drives :=
  ⟨h.source, h.input, h.config, h.cancel, h.idle, h.live⟩

theorem WatchedOn.pause (h : s.WatchedOn d given drives) (running : Bool) :
    { s with running := running }.WatchedOn d given drives :=
  ⟨h.source, h.input, h.config, h.cancel, h.idle, h.live⟩

theorem WatchedOn.nothingDriven (h : s.WatchedOn d given drives) {t : Tape}
    (hbench : s.bench = .idle t) {d' : Display} (hd : d'.Shows []) (drives' : List Drive) :
    s.WatchedOn d' given drives' where
  source := h.source
  input := h.input
  config := h.config
  cancel := h.cancel
  idle t ht := ⟨(h.idle t ht).1, hd⟩
  live m hm := by
    rw [hbench] at hm
    cases hm

theorem WatchedOn.reset (h : s.WatchedOn d given drives) :
    s.reset.WatchedOn {} given [] where
  source := h.source
  input := h.input
  config := h.config
  cancel := h.cancel
  idle t ht := by
    cases ht
    exact ⟨h.tape_cleared, rfl⟩
  live m hm := by cases hm

section Live

variable (running : Bool)

theorem WatchedOn.onBench (h : s.WatchedOn d given drives) {program : Program}
    (hload : Program.load given.source = .ok program) {m : Machine} {events : List Event}
    {drives' : List Drive} (hrun : (given.newRun program).driveAll drives' = (m, events))
    {d' : Display} (hd : d'.Shows events) :
    { s with bench := .live m, running := running }.WatchedOn d' given drives' where
  source := h.source
  input := h.input
  config := h.config
  cancel := h.cancel
  idle t ht := by cases ht
  live m' hm' := by
    cases hm'
    refine ⟨program, hload, ?_⟩
    rw [hrun]
    exact ⟨rfl, hd⟩

theorem WatchedOn.begun (h : s.WatchedOn d given drives) {program : Program}
    (hload : Program.load s.source = .ok program) :
    { s with bench := .live (s.newRun program), running := running }.WatchedOn {} given [] := by
  rw [h.source] at hload
  have hrun : (given.newRun program).driveAll [] = (given.newRun program, []) := rfl
  rw [h.newRun_eq]
  exact h.onBench running hload hrun rfl

theorem WatchedOn.resumed (h : s.WatchedOn d given drives) {m : Machine}
    (hbench : s.bench = .live m) :
    { s with bench := .live m, running := running }.WatchedOn d given drives := by
  obtain ⟨program, hload, rfl, hd⟩ := h.live m hbench
  exact h.onBench running hload rfl hd

theorem WatchedOn.driven (h : s.WatchedOn d given drives) {m : Machine}
    (hbench : s.bench = .live m) (drive : Drive) :
    { s with bench := .live (m.drive drive).1, running := running }.WatchedOn
      (d.seeAll (m.drive drive).2) given (drives ++ [drive]) := by
  obtain ⟨program, hload, rfl, hd⟩ := h.live m hbench
  exact h.onBench running hload (Machine.driveAll_concat ..) (hd.seeAll _)

end Live

theorem WatchedOn.tick (h : s.WatchedOn d given drives) (speed : Speed) :
    (s.tick speed).session.WatchedOn (d.seeAll (s.tick speed).events) given
      (if s.running then drives ++ [.tick speed] else drives) := by
  unfold Session.tick
  by_cases hrunning : s.running = true
  · rw [if_pos hrunning, if_neg (by simp [h.cancel]), if_pos hrunning]
    cases hbench : s.bench with
    | idle t => exact h.nothingDriven hbench (h.idle t hbench).2 _
    | live m =>
      simp only
      split
      · exact h.driven _ hbench (.tick speed)
      · exact h.driven _ hbench (.tick speed)
  · rw [if_neg hrunning, if_neg hrunning]
    exact h

end WatchedOn

end Session

namespace Viewer

/-! ## What a viewer is told -/

inductive Input where
  | press (p : Press) (now : Time)
  | time (now : Time)

def respond (v : Viewer) : Input → Response
  | .press p now => v.press p now
  | .time now => v.onTime now

def after (v : Viewer) : List Input → Viewer
  | [] => v
  | i :: rest => (v.respond i).viewer.after rest

/-! ## How the live run has been driven -/

def drivenByAction (v : Viewer) (drives : List Drive) : Action → List Drive
  | .toggleRun => if v.session.running || v.session.canResume then drives else []
  | .step =>
    if v.session.running then drives
    else (if v.session.canResume then drives else []) ++ [.step true]
  | .reset => []
  | _ => drives

/-- How the live run has been driven after an input, if it had been driven by `drives` before. When
one begins, or is dropped, nothing is left of them. -/
def drivenBy (v : Viewer) (drives : List Drive) : Input → List Drive
  | .press p _ =>
    if p.control && p.key == .char 'c' then drives
    else if v.help then drives
    else v.drivenByAction drives (.ofKey p.key)
  | .time now =>
    if v.session.running && !v.nextTick.all (now < ·) then drives ++ [.tick v.speed] else drives

def driven (v : Viewer) (drives : List Drive) : List Input → List Drive
  | [] => drives
  | i :: rest => (v.respond i).viewer.driven (v.drivenBy drives i) rest

/-! ## One input -/

abbrev Watches (v : Viewer) (given : Session) (drives : List Drive) : Prop :=
  v.session.WatchedOn v.display given drives

theorem onTime_early {v : Viewer} {now : Time} (h : v.nextTick.all (now < ·) = true) :
    (v.onTime now).viewer = v := by
  unfold onTime
  rw [if_pos h]

theorem onTime_due {v : Viewer} {now : Time} (h : v.nextTick.all (now < ·) = false) :
    (v.onTime now).viewer.session = (v.session.tick v.speed).session ∧
      (v.onTime now).viewer.display = v.display.seeAll (v.session.tick v.speed).events := by
  unfold onTime
  rw [if_neg (by simp [h])]
  simp only
  split <;> exact ⟨rfl, rfl⟩

section Input

variable {v : Viewer} {given : Session} {drives : List Drive} (h : v.Watches given drives)

include h

theorem Watches.toggleRun (now : Time) :
    (v.toggleRun now).viewer.Watches given (v.drivenByAction drives .toggleRun) := by
  unfold Watches Viewer.toggleRun drivenByAction Session.resumePaced Session.beginPaced
  rcases v.session.obtain_cases true with ⟨hrunning, heq⟩ | ⟨hidle, -, m, hbench, halive, heq⟩ |
    ⟨hidle, hnew, program, hload, heq⟩ | ⟨hidle, hnew, e, hload, heq⟩
  · simp only [hrunning, Bool.true_or, if_true]
    exact (h.pause false).say _
  · have hresume := Session.canResume_iff.mpr ⟨m, hbench, halive⟩
    simp only [hidle, heq, hresume]
    exact (h.resumed true hbench).say _
  · simp only [hidle, heq, hnew rfl]
    exact (h.begun true hload).say _
  · -- The display is kept here although a new run was asked for, but it has nothing to show.
    simp only [hidle, heq, hnew rfl]
    obtain ⟨t, hbench⟩ := h.exists_idle hload
    exact (h.nothingDriven hbench (h.idle t hbench).2 []).say _

theorem Watches.stepOnce :
    v.stepOnce.viewer.Watches given (v.drivenByAction drives .step) := by
  unfold Watches Viewer.stepOnce drivenByAction Session.step
  rcases v.session.obtain_cases true with ⟨hrunning, heq⟩ | ⟨hidle, -, m, hbench, halive, heq⟩ |
    ⟨hidle, hnew, program, hload, heq⟩ | ⟨hidle, hnew, e, hload, heq⟩
  · simp only [hrunning, if_true]
    exact h.say _
  · have hresume := Session.canResume_iff.mpr ⟨m, hbench, halive⟩
    simp only [hidle, heq, hresume]
    rw [Display.seeAll_look]
    exact h.driven _ hbench (.step true)
  · simp only [hidle, heq, hnew rfl]
    rw [Display.seeAll_look]
    exact (h.begun false hload).driven _ rfl (.step true)
  · simp only [hidle, heq, hnew rfl]
    obtain ⟨t, hbench⟩ := h.exists_idle hload
    exact (h.nothingDriven hbench rfl _).say _

theorem Watches.perform (now : Time) (action : Action) :
    (v.perform now action).viewer.Watches given (v.drivenByAction drives action) := by
  cases action with
  | toggleRun => exact Watches.toggleRun h now
  | step => exact Watches.stepOnce h
  | reset => exact h.reset
  | _ => exact h

theorem Watches.press (p : Press) (now : Time) :
    (v.press p now).viewer.Watches given (v.drivenBy drives (.press p now)) := by
  unfold Viewer.press drivenBy
  by_cases hquits : (p.control && p.key == .char 'c') = true
  · simp only [if_pos hquits]
    exact h
  · by_cases hhelp : v.help = true
    · simp only [if_neg hquits, if_pos hhelp]
      exact h
    · simp only [if_neg hquits, if_neg hhelp]
      exact Watches.perform h now (.ofKey p.key)

theorem Watches.onTime (now : Time) :
    (v.onTime now).viewer.Watches given (v.drivenBy drives (.time now)) := by
  cases hearly : v.nextTick.all (now < ·) with
  | true =>
    simp only [drivenBy, hearly, Bool.not_true, Bool.and_false]
    rw [onTime_early hearly]
    exact h
  | false =>
    obtain ⟨hsession, hdisplay⟩ := onTime_due hearly
    simp only [drivenBy, hearly, Bool.not_false, Bool.and_true]
    unfold Watches
    rw [hsession, hdisplay]
    exact h.tick v.speed

theorem Watches.respond (i : Input) :
    (v.respond i).viewer.Watches given (v.drivenBy drives i) := by
  cases i with
  | press p now => exact Watches.press h p now
  | time now => exact Watches.onTime h now

end Input

theorem Watches.after {v : Viewer} {given : Session} {drives : List Drive}
    (h : v.Watches given drives) (inputs : List Input) :
    (v.after inputs).Watches given (v.driven drives inputs) := by
  induction inputs generalizing v drives with
  | nil => exact h
  | cons i rest ih => exact ih (Watches.respond h i)

theorem watches_new (settings : Settings) (source : String) (input : Array UInt8)
    (title : String) :
    (new settings source input title).Watches (new settings source input title).session [] where
  source := rfl
  input := rfl
  config := rfl
  cancel := rfl
  idle t ht := by
    cases ht
    exact ⟨(Tape.cleared_blank settings.tapeSize).symm, rfl⟩
  live m hm := by cases hm

end Viewer

/-- A viewer shows the live run and nothing else, whatever keys are pressed and whatever the time
is. With a machine live, the output and the tape shown are those of a new run of the source after as
many steps as the machine has executed. The highlight is that of the last step which the live run
was asked to highlight, and a normal end clears it. With no machine live, all is blank. -/
theorem viewer_shows_live_run (settings : Settings) (source : String) (input : Array UInt8)
    (title : String) (inputs : List Viewer.Input) :
    let first := Viewer.new settings source input title
    let v := first.after inputs
    (v.session.machine? = none →
      v.display.output = #[] ∧ v.session.tape = .blank settings.tapeSize ∧
        v.display.highlight = none) ∧
    ∀ m, v.session.machine? = some m → ∃ program, Program.load source = .ok program ∧
      let start := Machine.fresh program (.blank settings.tapeSize) input settings.config
      let drives := first.driven [] inputs
      m = (start.driveAll drives).1 ∧
      (start.after m.steps).steps = m.steps ∧
      v.display.output.toList = outputOf (start.reports m.steps) ∧
      v.session.tape = (start.after m.steps).tape ∧
      v.display.highlight =
        if m.status = .halted then none
        else (start.shownSteps (start.highlightsAll drives)).getLast?.map StepEvent.source := by
  intro first v
  have h := Viewer.Watches.after (Viewer.watches_new settings source input title) inputs
  constructor
  · intro hnone
    obtain ⟨t, hbench⟩ := Session.machine_eq_none_iff.mp hnone
    obtain ⟨rfl, hshows⟩ := h.idle t hbench
    refine ⟨?_, ?_, ?_⟩
    · exact Array.toList_eq_nil_iff.mp hshows.output_eq
    · exact (Session.tape_idle hbench).trans (Tape.cleared_blank settings.tapeSize)
    · exact hshows.highlight_eq (by simp [haltsOf])
  · intro m hm
    have hbench := Session.machine_eq_some_iff.mp hm
    obtain ⟨program, hload, rfl, hshows⟩ := h.live m hbench
    refine ⟨program, hload, ?_⟩
    intro start drives
    have halive : start.status.isTerminal = false := rfl
    have htold := Machine.told_driveAll halive drives
    -- What was driven is compared with as many plain steps as have counted.
    obtain ⟨hsteps, htape, houtput⟩ := htold.counted rfl
    refine ⟨rfl, hsteps, ?_, ?_, ?_⟩
    · exact hshows.output_eq.trans houtput
    · exact (Session.tape_live hbench).trans htape
    · exact hshows.highlight_of_told htold halive

-- Two steps after the end of a run begin a new one, and what the old one has written is gone.
example :
    let first := Viewer.new { tapeSize := 2, instant := true } "+.." #[] "ones"
    let ended := first.after [.press ⟨.char 'r', false⟩ 0, .time 0]
    let again := ended.after [.press ⟨.char 's', false⟩ 1, .press ⟨.char 's', false⟩ 2]
    ended.display.output.toList = [1, 1] ∧
      again.display.output.toList = [1] ∧ again.display.highlight = some ⟨1, 2⟩ := by
  decide +kernel

end TapeMachine
