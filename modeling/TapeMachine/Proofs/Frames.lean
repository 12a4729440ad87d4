import TapeMachine.Proofs.Debugging

/-!
# What a submission changes

The commands of a debugger share one session. Each has its own part of it: the source, the input,
one of the settings, the cells' format, or the run with its tape. What a submission can do is said
once, as a relation between the debugger before it and after it, and what it leaves alone follows.
-/

namespace TapeMachine

namespace Debugger

/-! ## What a submission can do -/

inductive Change (d : Debugger) (text : String) : Debugger → Prop
  | nothing : Change d text d
  | load {code : String} (h : Loads text code) :
    Change d text { d with session := d.session.setSource code }
  | input {argument : String} (h : IsCommand text "input" argument) :
    Change d text { d with session.input := (Text.unescape argument.toList).toArray }
  | eof {argument : String} {policy : EofPolicy} (h : IsCommand text "eof" argument)
    (hpolicy : EofPolicy.ofNameAnyCase? argument = some policy) :
    Change d text { d with session.config.eof := policy }
  | maxSteps {argument : String} {n : Nat} (h : IsCommand text "max-steps" argument)
    (hword : Text.readWord argument = some n) :
    Change d text { d with session.config.maxSteps := max n 1 }
  | format {argument : String} {format : CellFormat} (h : IsCommand text "format" argument)
    (hvalid : argument ∈ ["", "hex", "dec"]) : Change d text { d with format := format }
  | reset {argument : String} (h : IsCommand text "reset" argument) :
    Change d text { d with session := d.session.reset }
  | run {name argument : String} {program : Program} {bench : Bench}
    (h : IsCommand text name argument) (hname : name ∈ Command.runNames)
    (hvalid : ¬Command.Invalid name argument)
    (hload : Program.load d.session.source = .ok program) :
    Change d text { d with session.bench := bench }

section Change

variable {d after : Debugger} {text name argument : String} {capacity : Nat}

theorem Sound.step_unloadable (h : d.Sound capacity) {e : LoadError}
    (hload : Program.load d.session.source = .error e) (count : Nat) :
    (d.step count).debugger = d := by
  cases count with
  | zero => rfl
  | succ n =>
    unfold Debugger.step Steps.more
    simp only [h.coherent.step_unloadable h.idle hload]
    rfl

theorem Sound.change_step (h : d.Sound capacity) (hline : IsCommand text name argument)
    (hname : name ∈ Command.runNames) (hvalid : ¬Command.Invalid name argument) (count : Nat) :
    d.Change text (d.step count).debugger := by
  cases hload : Program.load d.session.source with
  | error e =>
    rw [h.step_unloadable hload]
    exact .nothing
  | ok program =>
    obtain ⟨bench, hbench⟩ := d.exists_bench_step count
    rw [hbench]
    exact .run hline hname hvalid hload

theorem Sound.change_finishRun (h : d.Sound capacity) (hline : IsCommand text name argument)
    (hname : name ∈ Command.runNames) (hvalid : ¬Command.Invalid name argument) (keep : Bool)
    (what : String) :
    d.Change text (d.finishRun (d.session.finishInstant keep what)).debugger := by
  cases hload : Program.load d.session.source with
  | error e =>
    rw [h.coherent.finishInstant_unloadable h.idle hload]
    exact .nothing
  | ok program =>
    obtain ⟨bench, hbench⟩ := d.exists_bench_finishRun keep what
    rw [hbench]
    exact .run hline hname hvalid hload

theorem Sound.change_obey (h : d.Sound capacity) (hline : IsCommand text name argument)
    {c : Command} (hread : c.ReadFrom name argument) : d.Change text (d.obey c).debugger := by
  cases c with
  | step count => exact h.change_step hline hread.1 hread.2 count
  | run | resume => exact h.change_finishRun hline hread.1 hread.2 ..
  | reset =>
    cases hread
    exact .reset hline
  | input bytes =>
    obtain ⟨rfl, rfl⟩ := hread
    exact .input hline
  | eof policy =>
    obtain ⟨rfl, hpolicy⟩ := hread
    exact .eof hline hpolicy
  | maxSteps n =>
    obtain ⟨rfl, word, hword, rfl⟩ := hread
    exact .maxSteps hline hword
  | format shown =>
    obtain ⟨rfl, hvalid⟩ := hread
    exact .format hline hvalid
  | sample s =>
    obtain ⟨rfl, hfind⟩ := hread
    exact .load (.sample hline hfind)
  | _ => exact .nothing

theorem Sound.change_handle (h : d.Sound capacity) (text : String) :
    d.Change text (d.handle text).debugger := by
  rcases blank_or_code_or_command text with hblank | hcode | ⟨name, argument, hline⟩
  · rw [handle_of_blank hblank]
    exact .nothing
  · rw [handle_of_code hcode]
    exact .load (.code hcode)
  · rw [(handle_of_command hline d).1]
    exact h.change_obey hline (Command.readFrom_ofParts name argument)

end Change

/-! ## What it leaves alone -/

/-- The submission is blank or a command that is to change nothing. -/
def Inert (text : String) : Prop :=
  Text.trim text.toList = [] ∨
    ∃ name argument, IsCommand text name argument ∧ Command.Inert name argument

/-- What a submission does to each part of a debugger, and when it leaves the part alone. -/
structure Frame (d : Debugger) (text : String) (after : Debugger) : Prop where
  loads : ∀ code, Loads text code → after.session.source = code ∧ after.session.machine? = none ∧
    after.session.tape = d.session.tape
  source : (∀ code, ¬Loads text code) → after.session.source = d.session.source
  setsInput : ∀ argument, IsCommand text "input" argument →
    after = { d with session.input := (Text.unescape argument.toList).toArray }
  input : (∀ argument, ¬IsCommand text "input" argument) → after.session.input = d.session.input
  setsEof : ∀ argument policy, IsCommand text "eof" argument →
    EofPolicy.ofNameAnyCase? argument = some policy →
    after = { d with session.config.eof := policy }
  eof : (∀ argument, IsCommand text "eof" argument → EofPolicy.ofNameAnyCase? argument = none) →
    after.session.config.eof = d.session.config.eof
  setsMaxSteps : ∀ argument n, IsCommand text "max-steps" argument →
    Text.readWord argument = some n → after = { d with session.config.maxSteps := max n 1 }
  maxSteps : (∀ argument, IsCommand text "max-steps" argument → Text.readWord argument = none) →
    after.session.config.maxSteps = d.session.config.maxSteps
  coalesce : after.session.config.coalesce = d.session.config.coalesce
  setsFormat : ∀ argument format, IsCommand text "format" argument →
    (argument, format) ∈ [("", d.format.toggle), ("hex", .hex), ("dec", .dec)] →
    after = { d with format := format }
  format : (∀ argument, IsCommand text "format" argument → argument ∉ ["", "hex", "dec"]) →
    after.format = d.format
  bench : (∀ code, ¬Loads text code) →
    (∀ name argument, IsCommand text name argument → name ∉ "reset" :: Command.runNames) →
    after.session.bench = d.session.bench
  nothing : Inert text → after = d
  unloadable : ∀ name argument e, IsCommand text name argument → name ∈ Command.runNames →
    Program.load d.session.source = .error e → after = d

theorem Loads.handle_eq {text code : String} (h : Loads text code) (d : Debugger) :
    (d.handle text).debugger = { d with session := d.session.setSource code } := by
  cases h with
  | code hcode =>
    rw [handle_of_code hcode]
    rfl
  | @sample name s hline hfind =>
    have hcommand : Command.ofParts "sample" name = .sample s := by
      have hgiven : ¬name.isEmpty = true := by
        rw [String.isEmpty_iff]
        exact Sample.ne_empty_of_find? hfind
      simp only [Command.ofParts, Command.ofSample, if_neg hgiven, hfind]
    rw [(handle_of_command hline d).1, hcommand]
    rfl

section Inert

variable {text name argument code : String}

theorem Inert.of_command (h : Inert text) (hline : IsCommand text name argument) :
    Command.Inert name argument := by
  rcases h with hblank | ⟨name', argument', hline', hinert⟩
  · have hhead := hline.1
    rw [hblank] at hhead
    cases hhead
  · obtain ⟨rfl, rfl⟩ := hline.unique hline'
    exact hinert

theorem Inert.invalid (h : Inert text) (hline : IsCommand text name argument)
    (hname : name ∈ Command.effectNames) : Command.Invalid name argument :=
  Command.invalid_of_inert hname (h.of_command hline)

theorem Inert.not_loads (h : Inert text) : ¬Loads text code := by
  rintro (hcode | ⟨hline, hfind⟩)
  · rcases h with hblank | ⟨name, argument, hline, -⟩
    · obtain ⟨c, hhead, -⟩ := hcode
      rw [hblank] at hhead
      cases hhead
    · exact hcode.not_command hline
  · have hgiven := Sample.ne_empty_of_find? hfind
    rcases h.of_command hline with (hquery | ⟨-, hempty⟩) | hunknown | hinvalid
    · simp [Command.queryNames] at hquery
    · exact hgiven hempty
    · simp [Command.names] at hunknown
    · simp [Command.Invalid, hfind] at hinvalid

end Inert

section Frame

variable {d after : Debugger} {text : String}

theorem Change.eq_of_inert (h : d.Change text after) (hinert : Inert text) : after = d := by
  cases h with
  | nothing => rfl
  | load h => exact absurd h hinert.not_loads
  | input h | reset h =>
    have hinvalid := hinert.invalid h (by decide)
    simp [Command.Invalid] at hinvalid
  | eof h hvalid | maxSteps h hvalid =>
    have hinvalid := hinert.invalid h (by decide)
    simp [Command.Invalid, hvalid] at hinvalid
  | format h hvalid =>
    have hinvalid := hinert.invalid h (by decide)
    exact absurd hvalid (by simpa [Command.Invalid] using hinvalid)
  | run h hname hvalid =>
    exact absurd (hinert.invalid h (List.mem_append_left _ hname)) hvalid

theorem Change.source_eq (h : d.Change text after) (hloads : ∀ code, ¬Loads text code) :
    after.session.source = d.session.source := by
  cases h with
  | load h => exact absurd h (hloads _)
  | _ => rfl

theorem Change.input_eq (h : d.Change text after)
    (hinput : ∀ argument, ¬IsCommand text "input" argument) :
    after.session.input = d.session.input := by
  cases h with
  | input h => exact absurd h (hinput _)
  | _ => rfl

theorem Change.eof_eq (h : d.Change text after)
    (heof : ∀ argument, IsCommand text "eof" argument → EofPolicy.ofNameAnyCase? argument = none) :
    after.session.config.eof = d.session.config.eof := by
  cases h with
  | eof h hpolicy => simp [heof _ h] at hpolicy
  | _ => rfl

theorem Change.maxSteps_eq (h : d.Change text after)
    (hmax : ∀ argument, IsCommand text "max-steps" argument → Text.readWord argument = none) :
    after.session.config.maxSteps = d.session.config.maxSteps := by
  cases h with
  | maxSteps h hword => simp [hmax _ h] at hword
  | _ => rfl

theorem Change.coalesce_eq (h : d.Change text after) :
    after.session.config.coalesce = d.session.config.coalesce := by
  cases h <;> rfl

theorem Change.format_eq (h : d.Change text after)
    (hformat : ∀ argument, IsCommand text "format" argument → argument ∉ ["", "hex", "dec"]) :
    after.format = d.format := by
  cases h with
  | format h hvalid => exact absurd hvalid (hformat _ h)
  | _ => rfl

theorem Change.bench_eq (h : d.Change text after) (hloads : ∀ code, ¬Loads text code)
    (hname : ∀ name argument, IsCommand text name argument → name ∉ "reset" :: Command.runNames) :
    after.session.bench = d.session.bench := by
  cases h with
  | load h => exact absurd h (hloads _)
  | reset h => exact absurd List.mem_cons_self (hname _ _ h)
  | run h hrun => exact absurd (List.mem_cons_of_mem _ hrun) (hname _ _ h)
  | _ => rfl

theorem Change.eq_of_unloadable (h : d.Change text after) {name argument : String}
    (hline : IsCommand text name argument) (hname : name ∈ Command.runNames) {e : LoadError}
    (hload : Program.load d.session.source = .error e) : after = d := by
  cases h with
  | nothing => rfl
  | run h hrun hvalid hok => simp [hload] at hok
  | load h =>
    rcases h with hcode | ⟨h, -⟩
    · exact absurd hline hcode.not_command
    · obtain ⟨rfl, -⟩ := hline.unique h
      simp [Command.runNames] at hname
  | input h | eof h | maxSteps h | format h | reset h =>
    obtain ⟨rfl, -⟩ := hline.unique h
    simp [Command.runNames] at hname

end Frame

theorem Sound.frame {d : Debugger} {capacity : Nat} (h : d.Sound capacity) (text : String) :
    d.Frame text (d.handle text).debugger := by
  have hchange := h.change_handle text
  exact {
    loads := by
      intro code hloads
      rw [hloads.handle_eq]
      exact ⟨rfl, rfl, rfl⟩
    source := hchange.source_eq
    setsInput := by
      intro argument hline
      exact (handle_of_command hline d).1
    input := hchange.input_eq
    setsEof := by
      intro argument policy hline hpolicy
      rw [(handle_of_command hline d).1]
      simp only [Command.ofParts, Command.ofEof, hpolicy]
      rfl
    eof := hchange.eof_eq
    setsMaxSteps := by
      intro argument n hline hword
      rw [(handle_of_command hline d).1]
      simp only [Command.ofParts, Command.ofMaxSteps, hword]
      rfl
    maxSteps := hchange.maxSteps_eq
    coalesce := hchange.coalesce_eq
    setsFormat := by
      intro argument format hline hformat
      rw [(handle_of_command hline d).1]
      simp only [List.mem_cons, List.not_mem_nil, or_false, Prod.mk.injEq] at hformat
      rcases hformat with ⟨rfl, rfl⟩ | ⟨rfl, rfl⟩ | ⟨rfl, rfl⟩ <;> rfl
    format := hchange.format_eq
    bench := hchange.bench_eq
    nothing := hchange.eq_of_inert
    unloadable := by
      intro name argument e hline hname hload
      exact hchange.eq_of_unloadable hline hname hload }

end Debugger

/-- What a submission changes. Whatever has been done with a debugger, its session is idle after a
submission, with a budget of at least one step, and is never said to be busy; and the submission
changes the part of the debugger that is its own and leaves the others alone. -/
theorem submission_framed (settings : Settings) (history : List Debugger.Act) (text : String) :
    let d := (Debugger.new settings).actAll history
    let turn := d.handle text
    turn.debugger.session.running = false ∧ 1 ≤ turn.debugger.session.config.maxSteps ∧
      .aside RunError.busy.message ∉ turn.said ∧ d.Frame text turn.debugger := by
  intro d turn
  have hd : d.Sound (max settings.tapeSize 1) := (Debugger.sound_new settings).actAll history
  have hafter := hd.handle text
  exact ⟨hafter.idle, hafter.budget, d.quiet_handle hd.idle text, hd.frame text⟩

-- A budget of no steps counts as one, and the run that is under way keeps the budget it has.
example :
    let d := (Debugger.new { coalesce := false }).actAll [.handle "+++", .handle ":step 2"]
    let after := (d.handle " :max-steps\t0").debugger
    after.session.config.maxSteps = 1 ∧
      after.session.machine?.map (fun m => (m.steps, m.config.maxSteps)) = some (2, 1000000) := by
  decide +kernel

end TapeMachine
