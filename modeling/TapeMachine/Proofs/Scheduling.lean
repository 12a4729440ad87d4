import TapeMachine.Proofs.Watching

/-!
# When a viewer ticks

The deadline of the next tick, the flag of the session and the keys that set them are separate
pieces of state. They never get apart: there is a deadline exactly while a paced run is going, a
tick that is due is taken once, and only a key that starts a run brings the next one forward.
-/

namespace TapeMachine

/-! ## Rows and rungs -/

theorem Tape.rowCount_pos (t : Tape) : 0 < t.rowCount := by
  have := t.pointer_lt_capacity
  unfold rowCount rowWidth
  omega

theorem Tape.rowCount_congr {t u : Tape} (h : t.capacity = u.capacity) :
    t.rowCount = u.rowCount := by
  unfold rowCount
  rw [h]

theorem Viewer.nearestRung_lt (ms : Nat) : nearestRung ms < ladder.length := by
  unfold nearestRung
  -- Whatever the fold settles on is where it began or one of the places it looked at.
  apply List.foldlRecOn (motive := fun best : Nat × Nat => best.2 < ladder.length)
  · exact Nat.succ_pos _
  · intro best hbest place hplace
    have hlt := (List.mem_zipIdx' hplace).1
    simp only
    split
    · exact hlt
    · exact hbest

/-! ## The flag of a paced run -/

theorem Machine.speed_of_goesOn {m : Machine} {speed : Speed} {log : Array Event} {d : Delay}
    (h : (m.tick speed log).2.2 = .goesOn d) : speed = .delay d := by
  cases speed with
  | instant => cases h
  | delay d' =>
    simp only [tick] at h
    split at h
    · cases h
    · cases h
      rfl

/-- The pause that a tick asks for, if the run goes on. -/
def Reply.pause? (reply : Reply (Option Tick)) : Option Delay :=
  match reply.result with
  | .ok (some (.goesOn d)) => some d
  | _ => none

namespace Session

variable {s : Session} {capacity : Nat}

theorem session_beginPaced_error {keep : Bool} {e : RunError}
    (h : (s.beginPaced keep).result = .error e) : (s.beginPaced keep).session = s := by
  unfold beginPaced at h ⊢
  cases hobtain : s.obtain keep with
  | error e => rfl
  | ok obtained =>
    rw [hobtain] at h
    cases h

theorem running_beginPaced {keep : Bool} {answer : Unit}
    (h : (s.beginPaced keep).result = .ok answer) :
    (s.beginPaced keep).session.running = true := by
  unfold beginPaced at h ⊢
  cases hobtain : s.obtain keep with
  | error e =>
    rw [hobtain] at h
    cases h
  | ok obtained => rfl

theorem running_step (s : Session) : s.step.session.running = s.running := by
  unfold step
  cases s.obtain true <;> rfl

/-- A tick of a paced run is one tick of the live machine, and the run is over when the machine
is. -/
theorem tick_once {m : Machine} (hrunning : s.running = true) (hclear : s.cancel = false)
    (hbench : s.bench = .live m) (speed : Speed) :
    let ticked := m.tick speed #[]
    (s.tick speed).session =
      { s with bench := .live ticked.1, running := !ticked.1.status.isTerminal } ∧
    (s.tick speed).result = .ok (some ticked.2.2) ∧
    (s.tick speed).events = ticked.2.1.toList := by
  rcases hticked : m.tick speed #[] with ⟨m', log, tick⟩
  unfold Session.tick
  rw [if_pos hrunning, if_neg (by simp [hclear]), hbench]
  simp only [hticked]
  rcases Machine.tick_status hticked with ⟨hended, rfl⟩ | ⟨halive, d, rfl⟩
  · simp [hended]
  · simp [halive, hrunning]

theorem Coherent.running_tick (h : s.Coherent capacity) (speed : Speed) :
    (s.tick speed).session.running = (s.tick speed).pause?.isSome := by
  cases hrunning : s.running with
  | false => simp [Session.tick, Reply.pause?, hrunning]
  | true =>
    cases hcancel : s.cancel with
    | true => simp [Session.tick, Reply.pause?, hrunning, hcancel]
    | false =>
      obtain ⟨m, hbench, -⟩ := h.live_of_running hrunning
      obtain ⟨hsession, hresult, -⟩ := tick_once hrunning hcancel hbench speed
      unfold Reply.pause?
      rw [hsession, hresult]
      rcases hticked : m.tick speed #[] with ⟨m', log, tick⟩
      rcases Machine.tick_status hticked with ⟨hended, rfl⟩ | ⟨halive, d, rfl⟩
      · simp [hended]
      · simp [halive]

end Session

namespace Viewer

/-! ## The invariant -/

structure Scheduled (capacity : Nat) (v : Viewer) : Prop where
  session : v.session.Coherent capacity
  deadline : v.nextTick.isSome = v.session.running
  rung : v.rung < ladder.length
  scroll : ∀ row, v.scroll = some row → row < v.session.tape.rowCount

theorem scheduled_new (settings : Settings) (source : String) (input : Array UInt8)
    (title : String) :
    (new settings source input title).Scheduled (max settings.tapeSize 1) where
  session :=
    { capacity_tape := Tape.capacity_blank settings.tapeSize
      resumable := fun h => by cases h
      loaded := fun m h => by cases h }
  deadline := rfl
  rung := by simp only [new, nearestRung_lt]
  scroll row hrow := by cases hrow

/-! ## Ticks that are due -/

theorem all_lt_eq_false_iff {deadline : Option Time} {now : Time} :
    deadline.all (now < ·) = false ↔ ∃ due, deadline = some due ∧ due ≤ now := by
  cases deadline <;> simp

theorem onTime_ticks {v : Viewer} {now : Time} (h : v.nextTick.all (now < ·) = false) :
    let reply := v.session.tick v.speed
    (v.onTime now).viewer =
      { v with
        session := reply.session
        display := v.display.seeAll reply.events
        nextTick := reply.pause?.map (now + ·.nanos) } := by
  unfold onTime Reply.pause?
  rw [if_neg (by simp [h])]
  simp only
  split <;> simp_all

section Input

variable {v : Viewer} {capacity : Nat}

theorem Scheduled.moved (h : v.Scheduled capacity) {s : Session} (hs : s.Coherent capacity)
    (due : Option Time) (hdue : due.isSome = s.running) (display : Display) :
    { v with session := s, display := display, nextTick := due }.Scheduled capacity where
  session := hs
  deadline := hdue
  rung := h.rung
  scroll row hrow := by
    have hcapacity := hs.capacity_tape.trans h.session.capacity_tape.symm
    rw [Tape.rowCount_congr hcapacity]
    exact h.scroll row hrow

theorem Scheduled.scrollTo (h : v.Scheduled capacity) (row : Nat) :
    (v.scrollTo row).Scheduled capacity where
  session := h.session
  deadline := h.deadline
  rung := h.rung
  scroll shown hshown := by
    have hrows := v.session.tape.rowCount_pos
    cases hshown
    simp only [Viewer.scrollTo]
    omega

theorem Scheduled.toggleRun (h : v.Scheduled capacity) (now : Time) :
    (v.toggleRun now).viewer.Scheduled capacity := by
  unfold Viewer.toggleRun
  split
  · exact h.moved (h.session.pause v.session.cancel) none rfl _
  · have hs := h.session.beginPaced true
    cases hresult : v.session.resumePaced.result with
    | ok answer =>
      simp only [hresult]
      have hrunning : v.session.resumePaced.session.running = true :=
        Session.running_beginPaced hresult
      exact h.moved hs (some now) hrunning.symm _
    | error e =>
      simp only [hresult]
      have hsession : v.session.resumePaced.session = v.session :=
        Session.session_beginPaced_error hresult
      rw [hsession]
      exact h.moved h.session v.nextTick h.deadline _

theorem Scheduled.stepOnce (h : v.Scheduled capacity) : v.stepOnce.viewer.Scheduled capacity := by
  unfold Viewer.stepOnce
  split
  · exact h.moved h.session v.nextTick h.deadline _
  · apply h.moved h.session.step v.nextTick
    rw [Session.running_step]
    exact h.deadline

theorem Scheduled.reset (h : v.Scheduled capacity) : v.reset.viewer.Scheduled capacity where
  session := Session.coherent_idle
    ((Tape.capacity_cleared v.session.tape).trans h.session.capacity_tape) v.session.source
  deadline := rfl
  rung := h.rung
  scroll row hrow := by cases hrow

theorem Scheduled.perform (h : v.Scheduled capacity) (now : Time) (action : Action) :
    (v.perform now action).viewer.Scheduled capacity := by
  cases action with
  | toggleRun => exact h.toggleRun now
  | step => exact h.stepOnce
  | reset => exact h.reset
  | faster => exact ⟨h.session, h.deadline, Nat.lt_of_le_of_lt (Nat.sub_le ..) h.rung, h.scroll⟩
  | slower =>
    refine ⟨h.session, h.deadline, ?_, h.scroll⟩
    exact Nat.lt_of_le_of_lt (Nat.min_le_right ..) (by decide)
  | up | down | pageUp | pageDown => exact h.scrollTo _
  | follow => exact ⟨h.session, h.deadline, h.rung, fun row hrow => by cases hrow⟩
  | quit | toggleInstant | toggleFormat | help | nothing =>
    exact ⟨h.session, h.deadline, h.rung, h.scroll⟩

theorem Scheduled.press (h : v.Scheduled capacity) (p : Press) (now : Time) :
    (v.press p now).viewer.Scheduled capacity := by
  unfold Viewer.press
  split
  · exact h
  · split
    · exact ⟨h.session, h.deadline, h.rung, h.scroll⟩
    · exact h.perform now (.ofKey p.key)

theorem Scheduled.onTime (h : v.Scheduled capacity) (now : Time) :
    (v.onTime now).viewer.Scheduled capacity := by
  cases hearly : v.nextTick.all (now < ·) with
  | true =>
    rw [onTime_early hearly]
    exact h
  | false =>
    rw [onTime_ticks hearly]
    apply h.moved (h.session.tick v.speed)
    rw [Option.isSome_map, h.session.running_tick]

theorem Scheduled.respond (h : v.Scheduled capacity) (i : Input) :
    (v.respond i).viewer.Scheduled capacity := by
  cases i with
  | press p now => exact h.press p now
  | time now => exact h.onTime now

end Input

theorem Scheduled.after {v : Viewer} {capacity : Nat} (h : v.Scheduled capacity)
    (inputs : List Input) : (v.after inputs).Scheduled capacity := by
  induction inputs generalizing v with
  | nil => exact h
  | cons i rest ih => exact ih (h.respond i)

/-! ## No tick before its time -/

/-- The action that an input comes down to. A key that closes the help does nothing else. -/
def actionOn (v : Viewer) : Input → Action
  | .press p _ =>
    if p.control && p.key == .char 'c' then .quit
    else if v.help then .nothing
    else .ofKey p.key
  | .time _ => .nothing

/-- No run is started, paused or resumed by any of the inputs. -/
def Untoggled (v : Viewer) : List Input → Prop
  | [] => True
  | i :: rest => v.actionOn i ≠ .toggleRun ∧ (v.respond i).viewer.Untoggled rest

def NotDueBefore (v : Viewer) (earliest : Time) : Prop :=
  ∀ due, v.nextTick = some due → earliest ≤ due

section Input

variable {v : Viewer} {earliest : Time}

theorem NotDueBefore.perform (h : v.NotDueBefore earliest) (now : Time) {action : Action}
    (haction : action ≠ .toggleRun) :
    (v.perform now action).viewer.NotDueBefore earliest := by
  cases action with
  | toggleRun => exact absurd rfl haction
  | reset =>
    intro due hdue
    cases hdue
  | step =>
    simp only [Viewer.perform, Viewer.stepOnce]
    split <;> exact h
  | _ => exact h

theorem NotDueBefore.onTime (h : v.NotDueBefore earliest) (now : Time) :
    (v.onTime now).viewer.NotDueBefore earliest := by
  cases hearly : v.nextTick.all (now < ·) with
  | true =>
    rw [onTime_early hearly]
    exact h
  | false =>
    -- A tick that is due comes no earlier than its deadline, and the next one comes after it.
    obtain ⟨due, hdue, hnow⟩ := all_lt_eq_false_iff.mp hearly
    intro next hnext
    rw [onTime_ticks hearly] at hnext
    obtain ⟨d, -, rfl⟩ := Option.map_eq_some_iff.mp hnext
    calc earliest
      _ ≤ due := h due hdue
      _ ≤ now := hnow
      _ ≤ now + d.nanos := Nat.le_add_right ..

theorem NotDueBefore.respond (h : v.NotDueBefore earliest) {i : Input}
    (hi : v.actionOn i ≠ .toggleRun) : (v.respond i).viewer.NotDueBefore earliest := by
  cases i with
  | time now => exact h.onTime now
  | press p now =>
    simp only [actionOn] at hi
    simp only [Viewer.respond, press]
    split
    · exact h
    · split
      · exact h
      · rename_i hquits hhelp
        rw [if_neg hquits, if_neg hhelp] at hi
        exact h.perform now hi

theorem NotDueBefore.onTime_eq (h : v.NotDueBefore earliest) {now : Time} (hnow : now < earliest) :
    (v.onTime now).viewer = v := by
  apply onTime_early
  cases hdue : v.nextTick with
  | none => rfl
  | some due => exact decide_eq_true (Nat.lt_of_lt_of_le hnow (h due hdue))

end Input

theorem NotDueBefore.after {v : Viewer} {earliest : Time} (h : v.NotDueBefore earliest)
    {inputs : List Input} (hinputs : v.Untoggled inputs) :
    (v.after inputs).NotDueBefore earliest := by
  induction inputs generalizing v with
  | nil => exact h
  | cons i rest ih => exact ih (h.respond hinputs.1) hinputs.2

theorem speed_of_rung {v : Viewer} {ms : Nat} (h : ladder[v.rung]? = some ms) :
    v.speed = .ofMillis ms v.instant := by
  unfold speed delayMs
  rw [h]
  rfl

end Viewer

/-- The schedule of a viewer, whatever keys are pressed and whatever the time is. There is a
deadline exactly while a paced run is going, and then the machine has steps left. Delay, scroll and
session stay within what the viewer was made with. The time alone changes the session only when a
tick is due, and then by one tick of the machine at the chosen speed; if the run goes on, no moment
before the end of the pause brings another one, unless a run is toggled in between. -/
theorem viewer_keeps_schedule (settings : Settings) (source : String) (input : Array UInt8)
    (title : String) (inputs : List Viewer.Input) :
    let v := (Viewer.new settings source input title).after inputs
    (v.nextTick.isSome = true ↔ v.session.running = true) ∧
    (v.session.running = true →
      ∃ m, v.session.machine? = some m ∧ m.status.isTerminal = false) ∧
    v.rung < Viewer.ladder.length ∧
    (∀ row, v.scroll = some row → row < v.session.tape.rowCount) ∧
    (v.session.source = source ∧ v.session.input = input ∧ v.session.config = settings.config ∧
      v.session.tape.capacity = max settings.tapeSize 1) ∧
    ∀ now,
      ((v.onTime now).viewer.session ≠ v.session →
        v.session.running = true ∧ ∃ due, v.nextTick = some due ∧ due ≤ now) ∧
      ∀ due, v.nextTick = some due → due ≤ now →
        ∃ m ms, v.session.machine? = some m ∧ Viewer.ladder[v.rung]? = some ms ∧
          let speed := Speed.ofMillis ms v.instant
          let ticked := m.tick speed #[]
          let next := (v.onTime now).viewer
          next.session =
            { v.session with bench := .live ticked.1, running := !ticked.1.status.isTerminal } ∧
          next.display = v.display.seeAll ticked.2.1.toList ∧
          ∀ d, ticked.2.2 = .goesOn d →
            speed = .delay d ∧ next.nextTick = some (now + d.nanos) ∧
            ∀ between later, next.Untoggled between → later < now + d.nanos →
              ((next.after between).onTime later).viewer = next.after between := by
  intro v
  have hwatches := Viewer.Watches.after (Viewer.watches_new settings source input title) inputs
  have h : v.Scheduled (max settings.tapeSize 1) :=
    (Viewer.scheduled_new settings source input title).after inputs
  have hlive : v.session.running = true →
      ∃ m, v.session.machine? = some m ∧ m.status.isTerminal = false := by
    intro hrunning
    obtain ⟨m, hbench, halive⟩ := h.session.live_of_running hrunning
    exact ⟨m, Session.machine_eq_some_iff.mpr hbench, halive⟩
  refine ⟨by rw [h.deadline], hlive, h.rung, h.scroll,
    ⟨hwatches.source, hwatches.input, hwatches.config, h.session.capacity_tape⟩, ?_⟩
  intro now
  constructor
  · -- Before the deadline nothing is done, so a session that has changed is past it.
    intro hchanged
    cases hearly : v.nextTick.all (now < ·) with
    | true => exact absurd (by rw [Viewer.onTime_early hearly]) hchanged
    | false =>
      obtain ⟨due, hdue, hnow⟩ := Viewer.all_lt_eq_false_iff.mp hearly
      exact ⟨by rw [← h.deadline, hdue]; rfl, due, hdue, hnow⟩
  · intro due hdue hnow
    have hearly := Viewer.all_lt_eq_false_iff.mpr ⟨due, hdue, hnow⟩
    have hrunning : v.session.running = true := by rw [← h.deadline, hdue]; rfl
    obtain ⟨m, hm, -⟩ := hlive hrunning
    have hms := List.getElem?_eq_getElem h.rung
    refine ⟨m, _, hm, hms, ?_⟩
    intro speed ticked next
    obtain ⟨hsession, hresult, hevents⟩ := Session.tick_once hrunning hwatches.cancel
      (Session.machine_eq_some_iff.mp hm) v.speed
    have hnext := Viewer.onTime_ticks hearly
    rw [Viewer.speed_of_rung hms] at hsession hresult hevents hnext
    refine ⟨?_, ?_, ?_⟩
    · rw [← hsession]
      exact congrArg Viewer.session hnext
    · rw [← hevents]
      exact congrArg Viewer.display hnext
    -- The run goes on: the pause sets the next deadline, and nothing moves it forward.
    intro d hgoes
    have hdeadline : next.nextTick = some (now + d.nanos) := by
      refine (congrArg Viewer.nextTick hnext).trans ?_
      simp only [Reply.pause?, hresult]
      rw [hgoes]
      rfl
    have hdue : next.NotDueBefore (now + d.nanos) := by
      intro due hdue
      rw [hdeadline] at hdue
      cases hdue
      exact Nat.le_refl _
    refine ⟨Machine.speed_of_goesOn hgoes, hdeadline, ?_⟩
    intro between later hbetween hlater
    exact (hdue.after hbetween).onTime_eq hlater

-- A run that is paused and resumed ticks at once; another key leaves the deadline alone.
example :
    let first := Viewer.new { tapeSize := 1, speedMs := 1000 } "+.+." #[] "slow"
    let ticked := first.after [.press ⟨.char 'r', false⟩ 0, .time 0]
    let resumed := [.press ⟨.char 'r', false⟩ 5, .press ⟨.char 'r', false⟩ 6, .time 6]
    (ticked.after resumed).session.machine?.map Machine.steps = some 2 ∧
      (ticked.after [.press ⟨.char '-', false⟩ 5, .time 6]).session.machine?.map Machine.steps =
        some 1 := by
  decide +kernel

end TapeMachine
