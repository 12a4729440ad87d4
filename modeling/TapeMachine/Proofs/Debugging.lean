import TapeMachine.Proofs.Coherence
import TapeMachine.Proofs.Commands

/-!
# Debuggers at rest

A debugger runs its session in one go or step by step, so that between two submissions no run is
going. Nothing that a submission makes it say is therefore about a busy session.
-/

namespace TapeMachine

/-! ## What a request to run leaves alone -/

namespace Session

variable {s : Session} {capacity : Nat}

theorem exists_bench_finishInstant (s : Session) (keep : Bool) (what : String) :
    ∃ bench, (s.finishInstant keep what).session = { s with bench := bench } := by
  unfold finishInstant
  cases s.obtain keep with
  | error e => exact ⟨s.bench, rfl⟩
  | ok obtained => exact ⟨_, rfl⟩

theorem exists_bench_step (s : Session) :
    ∃ bench, s.step.session = { s with bench := bench } := by
  unfold step
  cases s.obtain true with
  | error e => exact ⟨s.bench, rfl⟩
  | ok obtained => exact ⟨_, rfl⟩

theorem obtain_ne_busy (hidle : s.running = false) (keep : Bool) :
    s.obtain keep ≠ .error .busy := by
  rw [ne_eq, obtain_busy_iff, hidle]
  simp

theorem finishInstant_ne_busy (hidle : s.running = false) (keep : Bool) (what : String) :
    (s.finishInstant keep what).result ≠ .error .busy := by
  unfold finishInstant
  cases hobtain : s.obtain keep with
  | error e =>
    intro hbusy
    cases hbusy
    exact obtain_ne_busy hidle keep hobtain
  | ok obtained => simp

theorem step_ne_busy (hidle : s.running = false) : s.step.result ≠ .error .busy := by
  unfold step
  cases hobtain : s.obtain true with
  | error e =>
    intro hbusy
    cases hbusy
    exact obtain_ne_busy hidle true hobtain
  | ok obtained => simp

theorem Coherent.finishInstant_unloadable (h : s.Coherent capacity) (hidle : s.running = false)
    {e : LoadError} (hload : Program.load s.source = .error e) (keep : Bool) (what : String) :
    s.finishInstant keep what = s.refuse (.load e) := by
  unfold Session.finishInstant
  rw [h.obtain_load_iff.mpr ⟨hidle, hload⟩]

theorem Coherent.step_unloadable (h : s.Coherent capacity) (hidle : s.running = false)
    {e : LoadError} (hload : Program.load s.source = .error e) :
    s.step = s.refuse (.load e) := by
  unfold Session.step
  rw [h.obtain_load_iff.mpr ⟨hidle, hload⟩]

end Session

namespace Debugger

theorem Steps.more_keeps {P : Session → Prop} (hstep : ∀ s : Session, P s → P s.step.session)
    (n : Nat) (s : Steps) (h : P s.session) : P (s.more n).session := by
  induction n generalizing s with
  | zero => exact h
  | succ n ih =>
    have hnext := hstep s.session h
    unfold Steps.more
    simp only
    split
    · split
      · exact hnext
      · exact ih _ hnext
    · exact hnext

theorem Steps.more_ne_busy {s : Steps} (hidle : s.session.running = false)
    (hlast : s.last ≠ some (.error .busy)) (n : Nat) :
    (s.more n).last ≠ some (.error .busy) := by
  induction n generalizing s with
  | zero => exact hlast
  | succ n ih =>
    have hnext : some s.session.step.result ≠ some (.error .busy) := by
      rw [ne_eq, Option.some.injEq]
      exact Session.step_ne_busy hidle
    obtain ⟨bench, hsession⟩ := s.session.exists_bench_step
    unfold Steps.more
    simp only
    split
    · split
      · exact hnext
      · apply ih _ hnext
        simp only [hsession, hidle]
    · exact hnext

/-! ## Reachable debuggers -/

structure Sound (capacity : Nat) (d : Debugger) : Prop where
  coherent : d.session.Coherent capacity
  idle : d.session.running = false
  budget : 1 ≤ d.session.config.maxSteps

theorem sound_new (settings : Settings) :
    (Debugger.new settings).Sound (max settings.tapeSize 1) where
  coherent := Session.coherent_new ..
  idle := rfl
  budget := Nat.le_max_right ..

section Sound

variable {d : Debugger} {capacity : Nat}

theorem exists_bench_step (d : Debugger) (count : Nat) :
    ∃ bench, (d.step count).debugger = { d with session.bench := bench } := by
  have hstep (s : Session) (h : ∃ bench, s = { d.session with bench := bench }) :
      ∃ bench, s.step.session = { d.session with bench := bench } := by
    obtain ⟨bench, rfl⟩ := h
    exact Session.exists_bench_step { d.session with bench := bench }
  obtain ⟨bench, hbench⟩ :=
    Steps.more_keeps (P := fun s => ∃ bench, s = { d.session with bench := bench }) hstep count
      { session := d.session } ⟨d.session.bench, rfl⟩
  refine ⟨bench, ?_⟩
  unfold step
  simp only [hbench]

theorem exists_bench_finishRun (d : Debugger) (keep : Bool) (what : String) :
    ∃ bench, (d.finishRun (d.session.finishInstant keep what)).debugger =
      { d with session.bench := bench } := by
  obtain ⟨bench, hbench⟩ := d.session.exists_bench_finishInstant keep what
  refine ⟨bench, ?_⟩
  unfold finishRun
  rw [hbench]

theorem Sound.ofBench (h : d.Sound capacity) {after : Debugger} {bench : Bench}
    (hafter : after = { d with session.bench := bench })
    (hcoherent : after.session.Coherent capacity) : after.Sound capacity := by
  subst hafter
  exact ⟨hcoherent, h.idle, h.budget⟩

theorem Sound.load (h : d.Sound capacity) (code : String) :
    (d.load code).debugger.Sound capacity where
  coherent := Session.coherent_idle h.coherent.capacity_tape code
  idle := rfl
  budget := h.budget

theorem Sound.forNextRun (h : d.Sound capacity) (input : Array UInt8) (config : Config)
    (hbudget : 1 ≤ config.maxSteps) (cancel : Bool) :
    Sound capacity { d with
      session := { d.session with input := input, config := config, cancel := cancel } } where
  coherent := ⟨h.coherent.capacity_tape, h.coherent.resumable, h.coherent.loaded⟩
  idle := h.idle
  budget := hbudget

theorem Sound.obey (h : d.Sound capacity) {name argument : String} {c : Command}
    (hread : c.ReadFrom name argument) : (d.obey c).debugger.Sound capacity := by
  have hc := h.coherent
  cases c with
  | step count =>
    obtain ⟨bench, hbench⟩ := d.exists_bench_step count
    exact h.ofBench hbench (Steps.more_keeps (fun s => Session.Coherent.step) count _ hc)
  | run | resume =>
    obtain ⟨bench, hbench⟩ := d.exists_bench_finishRun _ _
    exact h.ofBench hbench (hc.finishInstant ..)
  | reset =>
    have hcapacity := (Tape.capacity_cleared d.session.tape).trans hc.capacity_tape
    exact ⟨Session.coherent_idle hcapacity d.session.source, rfl, h.budget⟩
  | input => exact h.forNextRun _ _ h.budget _
  | eof policy => exact h.forNextRun _ { d.session.config with eof := policy } h.budget _
  | maxSteps n =>
    obtain ⟨-, word, -, rfl⟩ := hread
    exact h.forNextRun _ _ (Nat.le_max_right ..) _
  | format shown => exact ⟨hc, h.idle, h.budget⟩
  | sample s => exact h.load s.code
  | _ => exact h

theorem Sound.command (h : d.Sound capacity) (line : String) :
    (d.command line).debugger.Sound capacity :=
  h.obey (Command.readFrom_ofParts ..)

theorem Sound.handle (h : d.Sound capacity) (text : String) :
    (d.handle text).debugger.Sound capacity := by
  unfold Debugger.handle
  simp only
  split
  · exact h
  · split
    · exact h.command _
    · exact h.load text

theorem Sound.submitAll (h : d.Sound capacity) (submissions : List Submission) :
    (d.submitAll submissions).debugger.Sound capacity := by
  induction submissions generalizing d with
  | nil => exact h
  | cons s rest ih =>
    have hnext : (d.submit s).debugger.Sound capacity := by
      cases s with
      | code text => exact h.load text
      | command line => exact h.command line
    unfold Debugger.submitAll
    simp only
    split
    · exact hnext
    · exact ih hnext

theorem Sound.runScript (h : d.Sound capacity) (text : String) :
    (d.runScript text).debugger.Sound capacity := by
  have hall := h.submitAll (Script.split text)
  unfold Debugger.runScript
  simp only
  split
  · exact hall
  · exact hall.command ":run"

end Sound

/-- What can be done with a debugger from outside. The token of its session can be had without
changing either. -/
inductive Act where
  | handle (text : String)
  | load (code : String)
  | setInput (input : List UInt8)
  | runScript (text : String)
  | requestCancel
  | withdrawCancel

def act (d : Debugger) : Act → Debugger
  | .handle text => (d.handle text).debugger
  | .load code => (d.load code).debugger
  | .setInput input => d.setInput input
  | .runScript text => (d.runScript text).debugger
  | .requestCancel => { d with session := d.session.requestCancel }
  | .withdrawCancel => { d with session := d.session.withdrawCancel }

def actAll (d : Debugger) (acts : List Act) : Debugger :=
  acts.foldl act d

theorem Sound.act {d : Debugger} {capacity : Nat} (h : d.Sound capacity) (a : Act) :
    (d.act a).Sound capacity := by
  cases a with
  | handle text => exact h.handle text
  | load code => exact h.load code
  | runScript text => exact h.runScript text
  | setInput | requestCancel | withdrawCancel => exact h.forNextRun _ _ h.budget _

theorem Sound.actAll {d : Debugger} {capacity : Nat} (h : d.Sound capacity) (acts : List Act) :
    (d.actAll acts).Sound capacity := by
  induction acts generalizing d with
  | nil => exact h
  | cons a rest ih => exact ih (h.act a)

/-! ## A session is never busy -/

/-- The text starts with another character than the message of a busy session. -/
def OtherMessage (text : String) : Prop :=
  ∃ c, text.toList.head? = some c ∧ c ≠ 'a'

theorem OtherMessage.append {text : String} (h : OtherMessage text) (more : String) :
    OtherMessage (text ++ more) := by
  obtain ⟨c, hc, hne⟩ := h
  refine ⟨c, ?_, hne⟩
  rw [String.toList_append, List.head?_append, hc]
  rfl

theorem OtherMessage.ne_busy {text : String} (h : OtherMessage text) :
    text ≠ RunError.busy.message := by
  rintro rfl
  obtain ⟨c, hc, hne⟩ := h
  rw [show RunError.busy.message.toList.head? = some 'a' by decide, Option.some.injEq] at hc
  exact hne hc.symm

theorem otherMessage_refusal (r : Refusal) : OtherMessage r.message := by
  cases r with
  | stepCount | eofPolicy | format | unknown =>
    exact (OtherMessage.append ⟨_, rfl, by decide⟩ _).append _
  | row | sample => exact (((OtherMessage.append ⟨_, rfl, by decide⟩ _).append _).append _).append _

theorem otherMessage_diagnostic (d : Diagnostic) : OtherMessage d.message := by
  cases d with
  | stepLimitExceeded limit => exact (OtherMessage.append ⟨_, rfl, by decide⟩ _).append _

/-- Nothing is said of a busy session. -/
def Quiet (said : List Saying) : Prop :=
  .aside RunError.busy.message ∉ said

theorem quiet_nil : Quiet [] := List.not_mem_nil

theorem Quiet.append {said more : List Saying} (h : Quiet said) (hmore : Quiet more) :
    Quiet (said ++ more) := by
  unfold Quiet
  rw [List.mem_append, not_or]
  exact ⟨h, hmore⟩

theorem quiet_aside {text : String} (h : OtherMessage text) : Quiet [.aside text] := by
  unfold Quiet
  rw [List.mem_singleton, Saying.aside, Saying.aside, Saying.side.injEq, Line.plain.injEq]
  exact h.ne_busy.symm

theorem quiet_of_not_side {said : List Saying} (h : ∀ line, .side line ∉ said) : Quiet said :=
  h _

theorem quiet_header (text : String) : Quiet [.side (.header text)] := by
  simp [Quiet, Saying.aside]

theorem quiet_notes (notes : List Note) : Quiet (notes.map .note) :=
  quiet_of_not_side (by simp)

theorem quiet_sayDiagnostics (events : List Event) : Quiet (sayDiagnostics events) := by
  unfold Quiet sayDiagnostics
  simp only [List.mem_map, Saying.aside, Saying.side.injEq, Line.plain.injEq]
  rintro ⟨diagnostic, -, heq⟩
  exact (otherMessage_diagnostic diagnostic).ne_busy heq

theorem otherMessage_indented (cs : List Char) : OtherMessage (String.ofList (' ' :: cs)) :=
  ⟨' ', by simp, by decide⟩

theorem quiet_loadError (code : String) (e : LoadError) :
    Quiet ((Report.loadError none code e).map .side) := by
  cases e with
  | empty => exact quiet_header _
  | unmatched side index offset =>
    -- A header, then two lines that start with blanks.
    unfold Report.loadError Report.errorContext
    exact (quiet_header _).append
      ((quiet_aside (otherMessage_indented _)).append (quiet_aside (otherMessage_indented _)))

theorem quiet_load (d : Debugger) (code : String) : Quiet (d.load code).said := by
  unfold load
  simp only
  split
  · exact quiet_aside ((OtherMessage.append ⟨_, rfl, by decide⟩ _).append _)
  · exact quiet_loadError code _

theorem quiet_sayError (d : Debugger) {e : RunError} (h : e ≠ .busy) : Quiet (d.sayError e) := by
  cases e with
  | load e => exact quiet_loadError _ e
  | busy => exact absurd rfl h

theorem quiet_finishRun (d : Debugger) {reply : Reply Status} (h : reply.result ≠ .error .busy) :
    Quiet (d.finishRun reply).said := by
  unfold finishRun
  refine ((quiet_notes _).append (quiet_notes _)).append ?_
  split
  · rename_i status hresult
    unfold sayRun
    refine Quiet.append (.append (quiet_of_not_side (by simp)) (quiet_sayDiagnostics _)) ?_
    split
    · exact quiet_nil
    · exact quiet_of_not_side (by simp)
  · rename_i e hresult
    apply quiet_sayError
    rintro rfl
    exact h hresult

theorem quiet_step (d : Debugger) (hidle : d.session.running = false) (count : Nat) :
    Quiet (d.step count).said := by
  have hlast : (Steps.more count { session := d.session }).last ≠ some (.error .busy) :=
    Steps.more_ne_busy hidle (by simp) count
  unfold step
  refine .append (.append (.append (.append (.append (quiet_notes _) ?_) ?_) ?_)
    (quiet_sayDiagnostics _)) ?_
  · split
    · rename_i e he
      apply quiet_sayError
      rintro rfl
      exact hlast he
    · exact quiet_nil
  · exact quiet_of_not_side (by simp [saySteps])
  · refine quiet_of_not_side fun line => ?_
    unfold sayOutput
    split <;> simp
  · refine quiet_of_not_side fun line => ?_
    unfold sayEnd
    split
    · split <;> simp
    · simp

theorem quiet_sayTape (d : Debugger) (row : String) : Quiet (d.sayTape row) := by
  have hrows (start : Nat) : Quiet (d.sayRows start) :=
    quiet_of_not_side (by simp [sayRows])
  unfold sayTape
  simp only
  split
  · exact hrows _
  · split
    · exact hrows _
    · exact quiet_aside (otherMessage_refusal _)

theorem quiet_sayState (d : Debugger) : Quiet d.sayState := by
  unfold sayState
  refine .append ?_ (quiet_of_not_side (by simp))
  split
  · exact quiet_of_not_side (by simp)
  · exact quiet_of_not_side (by simp [sayRunState])

theorem quiet_saySource (source : String) : Quiet (saySource source) := by
  refine quiet_of_not_side fun line => ?_
  unfold saySource
  split
  · simp
  · split <;> simp

theorem quiet_obey (d : Debugger) (hidle : d.session.running = false) (c : Command) :
    Quiet (d.obey c).said := by
  cases c with
  | exit => exact quiet_nil
  | help => exact quiet_of_not_side (by simp [obey])
  | step count => exact d.quiet_step hidle count
  | run | resume => exact d.quiet_finishRun (Session.finishInstant_ne_busy hidle _ _)
  | reset => exact quiet_aside ⟨_, rfl, by decide⟩
  | input | eof | maxSteps =>
    exact quiet_aside ((OtherMessage.append ⟨_, rfl, by decide⟩ _).append _)
  | format => exact quiet_aside (.append ⟨_, rfl, by decide⟩ _)
  | tape row => exact d.quiet_sayTape row
  | state => exact d.quiet_sayState
  | source => exact quiet_saySource _
  | samples => exact quiet_of_not_side (by simp [obey, saySamples])
  | sample s => exact d.quiet_load s.code
  | refused r => exact quiet_aside (otherMessage_refusal r)

theorem quiet_handle (d : Debugger) (hidle : d.session.running = false) (text : String) :
    Quiet (d.handle text).said := by
  rcases blank_or_code_or_command text with hblank | hcode | ⟨name, argument, hline⟩
  · rw [handle_of_blank hblank]
    exact quiet_nil
  · rw [handle_of_code hcode]
    exact d.quiet_load text
  · obtain ⟨-, note, hsaid⟩ := handle_of_command hline d
    rw [hsaid]
    exact (quiet_notes [note]).append (d.quiet_obey hidle _)

end Debugger

end TapeMachine
