import TapeMachine.Proofs.Coherence

/-!
# Requests to cancel

A request to cancel stays until a paced run or a run in single steps looks for one. It stops that
run where the run stands, and is withdrawn; what does not look goes as if there were none. So a
request that comes while something is going on that does not look may as well come before it.
-/

namespace TapeMachine

def Session.withCancel (s : Session) (cancel : Bool) : Session :=
  { s with cancel := cancel }

def Reply.withCancel {α : Type} (r : Reply α) (cancel : Bool) : Reply α :=
  { r with session := r.session.withCancel cancel }

namespace Session

/-! ## Requests that do not look -/

/-- Requests that do not look for a request to cancel, and are none. -/
def Overlooks (s : Session) : Request → Prop
  | .runPaced _ | .stepToEnd _ | .requestCancel | .withdrawCancel => False
  | .tick _ => s.running = false
  | _ => True

theorem obtain_withCancel (s : Session) (cancel keep : Bool) :
    (s.withCancel cancel).obtain keep = s.obtain keep := by
  rcases s.obtain_cases keep with ⟨hrunning, heq⟩ | ⟨hidle, rfl, m, hbench, halive, heq⟩ |
    ⟨hidle, hnew, program, hload, heq⟩ | ⟨hidle, hnew, e, hload, heq⟩
  · rw [heq]
    exact obtain_running (s := s.withCancel cancel) hrunning keep
  · rw [heq]
    exact obtain_live hidle hbench halive
  · rw [heq]
    exact obtain_new hidle hnew hload
  · rw [heq]
    exact obtain_unloadable hidle hnew hload

theorem finishInstant_withCancel (s : Session) (cancel keep : Bool) (what : String) :
    (s.withCancel cancel).finishInstant keep what =
      (s.finishInstant keep what).withCancel cancel := by
  unfold finishInstant
  rw [obtain_withCancel]
  cases s.obtain keep with
  | error e => rfl
  | ok obtained => rfl

theorem beginPaced_withCancel (s : Session) (cancel keep : Bool) :
    (s.withCancel cancel).beginPaced keep = (s.beginPaced keep).withCancel cancel := by
  unfold beginPaced
  rw [obtain_withCancel]
  cases s.obtain keep with
  | error e => rfl
  | ok obtained => rfl

theorem step_withCancel (s : Session) (cancel : Bool) :
    (s.withCancel cancel).step = s.step.withCancel cancel := by
  unfold step
  rw [obtain_withCancel]
  cases s.obtain true with
  | error e => rfl
  | ok obtained => rfl

theorem tick_idle {s : Session} (hidle : s.running = false) (speed : Speed) :
    s.tick speed = { session := s, result := .ok none } := by
  unfold tick
  rw [if_neg (by simp [hidle])]

theorem reply_withCancel {s : Session} {r : Request} (h : s.Overlooks r) (cancel : Bool) :
    (s.withCancel cancel).reply r = (s.reply r).withCancel cancel := by
  cases r with
  | runInstant | resumeInstant =>
    exact congrArg (Reply.map Answer.status) (s.finishInstant_withCancel ..)
  | startPaced | resumePaced =>
    exact congrArg (Reply.map fun _ => Answer.done) (s.beginPaced_withCancel ..)
  | step => exact congrArg (Reply.map Answer.status) (s.step_withCancel cancel)
  | tick speed =>
    simp only [reply, tick_idle h]
    rw [tick_idle (s := s.withCancel cancel) h]
    rfl
  | setSource | setInput | setConfig | check | pause | reset => rfl
  | runPaced | stepToEnd | requestCancel | withdrawCancel => exact h.elim

theorem cancel_of_overlooks {s : Session} {r : Request} (h : s.Overlooks r) :
    (s.reply r).session.cancel = s.cancel := by
  have heq := reply_withCancel h s.cancel
  rw [show s.withCancel s.cancel = s from rfl] at heq
  rw [heq]
  rfl

/-! ## Runs that are stopped -/

/-- Whether an answer tells that a run was stopped: there was no tick although a paced run was
going, or the run was cancelled. -/
def tellsStop (running : Bool) : Answer → Bool
  | .tick none => running
  | .outcome .cancelled => true
  | _ => false

def stops (s : Session) (r : Request) : Bool :=
  match (s.reply r).result with
  | .ok answer => tellsStop s.running answer
  | .error _ => false

/-- How many runs are stopped by requests one after the other. -/
def stopsIn (s : Session) : List Request → Nat
  | [] => 0
  | r :: rest => (s.stops r).toNat + (s.answer r).1.stopsIn rest

section Stops

variable {s : Session} {r : Request}

theorem stops_of_error {e : RunError} (h : (s.reply r).result = .error e) : s.stops r = false := by
  unfold stops
  rw [h]

theorem stops_map_eq_false {α : Type} {reply : Reply α} {f : α → Answer}
    (h : s.reply r = reply.map f) (hf : ∀ a, tellsStop s.running (f a) = false) :
    s.stops r = false := by
  unfold stops
  rw [h]
  cases hresult : reply.result with
  | error e => simp [Reply.map, hresult, Except.map]
  | ok a => simp [Reply.map, hresult, Except.map, hf]

theorem stops_map_outcome_iff {reply : Reply Outcome} (h : s.reply r = reply.map .outcome) :
    s.stops r = true ↔ reply.result = .ok .cancelled := by
  unfold stops
  rw [h]
  cases hresult : reply.result with
  | error e => simp [Reply.map, hresult, Except.map]
  | ok outcome => cases outcome <;> simp [Reply.map, hresult, Except.map, tellsStop]

theorem stops_of_ended {reply : Reply Outcome} {status : Status}
    (h : s.reply r = reply.map .outcome) (hended : reply.result = .ok (.ended status)) :
    s.stops r = false := by
  rw [Bool.eq_false_iff, Ne, stops_map_outcome_iff h, hended]
  intro hcancelled
  cases hcancelled

theorem stops_of_overlooks (h : s.Overlooks r) : s.stops r = false := by
  cases r with
  | runInstant | resumeInstant | step => exact stops_map_eq_false rfl fun _ => rfl
  | startPaced | resumePaced => exact stops_map_eq_false rfl fun _ => rfl
  | tick speed =>
    simp only [stops, reply, tick_idle h]
    exact h
  | setSource | setInput | setConfig | check | pause | reset => rfl
  | runPaced | stepToEnd | requestCancel | withdrawCancel => exact h.elim

end Stops

section Looks

variable {capacity : Nat} {s : Session}

theorem tick_pending (hrunning : s.running = true) (hpending : s.cancel = true) (speed : Speed) :
    (s.tick speed).result = .ok none ∧ (s.tick speed).events = [] ∧
      (s.tick speed).session = { s with running := false, cancel := false } := by
  unfold tick
  rw [if_pos hrunning, if_pos hpending]
  exact ⟨rfl, rfl, rfl⟩

theorem stops_tick_iff (hs : s.Coherent capacity) {speed : Speed} :
    s.stops (.tick speed) = true ↔ s.running = true ∧ s.cancel = true := by
  cases hrunning : s.running with
  | false => simp [stops_of_overlooks (s := s) (r := .tick speed) hrunning]
  | true =>
    cases hcancel : s.cancel with
    | true =>
      obtain ⟨hresult, -⟩ := tick_pending hrunning hcancel speed
      simp [stops, reply, Reply.map, hresult, Except.map, tellsStop, hrunning]
    | false =>
      obtain ⟨m, hbench, -⟩ := hs.live_of_running hrunning
      obtain ⟨k, tick, -, hresult, -⟩ := tick_live hrunning hcancel hbench speed
      simp [stops, reply, Reply.map, hresult, Except.map, tellsStop]

theorem runPaced_looks (hs : s.Coherent capacity) {m : Machine} {notes : List Note}
    (hobtain : s.obtain false = .ok (m, notes)) (pacer : Pacer) (late : Bool) :
    let reply := s.runPaced pacer late
    let n := reply.pauses.length
    (∀ i < n, pacer.seen s.cancel i = false) ∧
    ((pacer.seen s.cancel n = true ∧ reply.result = .ok .cancelled ∧
        (m.afterTicks pacer n).status.isTerminal = false ∧
        reply.session =
          { s with bench := .live (m.afterTicks pacer n), running := false, cancel := false }) ∨
      (pacer.seen s.cancel n = false ∧
        reply.result = .ok (.ended (m.afterTicks pacer (n + 1)).status) ∧
        (m.afterTicks pacer (n + 1)).status.isTerminal = true ∧
        reply.session =
          { s with
            bench := .live (m.afterTicks pacer (n + 1)), running := false, cancel := late })) := by
  obtain ⟨hidle, halive, -⟩ := hs.obtained hobtain
  unfold runPaced
  rw [hobtain]
  simp only [Array.length_toList, hidle]
  obtain ⟨hclear, ⟨hseen, houtcome, hmachine, hgoes⟩ | ⟨hseen, houtcome, hmachine, hended⟩⟩ :=
    Machine.pacedAs_runPaced halive pacer s.cancel
  · refine ⟨hclear, Or.inl ⟨hseen, congrArg Except.ok houtcome, ?_, ?_⟩⟩
    · rwa [← hmachine]
    · rw [houtcome, ← hmachine]
      rfl
  · refine ⟨hclear, Or.inr ⟨hseen, ?_, ?_, ?_⟩⟩
    · rw [houtcome, ← hmachine]
    · rwa [← hmachine]
    · rw [houtcome, ← hmachine]
      rfl

theorem runPaced_refused {e : RunError} (hobtain : s.obtain false = .error e) (pacer : Pacer) :
    s.stops (.runPaced pacer) = false ∧ (s.reply (.runPaced pacer)).session = s := by
  have hreply : s.reply (.runPaced pacer) = s.refuse e :=
    reply_refused (r := .runPaced pacer) trivial hobtain
  exact ⟨stops_of_error (congrArg Reply.result hreply), congrArg Reply.session hreply⟩

theorem runPaced_pending (hs : s.Coherent capacity) {m : Machine} {notes : List Note}
    (hobtain : s.obtain false = .ok (m, notes)) (hpending : s.cancel = true) (pacer : Pacer)
    (late : Bool) :
    let reply := s.runPaced pacer late
    reply.result = .ok .cancelled ∧ reply.events = [] ∧ reply.pauses = [] ∧
      reply.session = { s with bench := .live m, running := false, cancel := false } := by
  obtain ⟨hidle, -⟩ := hs.obtained hobtain
  unfold runPaced
  rw [hobtain, hpending]
  simp [Machine.runPaced_cancel, hidle, leftBy]

theorem stepToEnd_pending (hpending : s.cancel = true) (cancelsAfter : Nat → Bool) :
    s.stepToEnd cancelsAfter = { session := s.withdrawCancel, result := .ok .cancelled } := by
  unfold stepToEnd
  rw [if_pos hpending]

theorem stepToEnd_looks (hs : s.Coherent capacity) (hclear : s.cancel = false) {m : Machine}
    {notes : List Note} (hobtain : s.obtain true = .ok (m, notes)) (cancelsAfter : Nat → Bool) :
    let reply := s.stepToEnd cancelsAfter
    ∃ n, 1 ≤ n ∧ (∀ i, 1 ≤ i → i < n → cancelsAfter (m.after i).steps = false) ∧
    (((m.after n).status.isTerminal = false ∧ cancelsAfter (m.after n).steps = true ∧
        reply.result = .ok .cancelled ∧
        reply.session = { s with bench := .live (m.after n), running := false, cancel := false }) ∨
      ((m.after n).status.isTerminal = true ∧ reply.result = .ok (.ended (m.after n).status) ∧
        reply.session =
          { s with
            bench := .live (m.after n), running := false,
            cancel := cancelsAfter (m.after n).steps })) := by
  obtain ⟨hidle, -⟩ := hs.obtained hobtain
  unfold stepToEnd
  rw [if_neg (by simp [hclear]), hobtain]
  simp only [hidle]
  obtain ⟨n, hn, hbefore, hmachine, hcancel, hend⟩ := m.steppedAs_runStepwise cancelsAfter #[] rfl
  rw [hmachine] at hcancel hend
  refine ⟨n, hn, hbefore, ?_⟩
  rcases hend with ⟨hended, houtcome⟩ | ⟨hgoes, hseen, houtcome⟩
  · refine Or.inr ⟨hended, congrArg Except.ok houtcome, ?_⟩
    rw [houtcome, hmachine, hcancel]
    rfl
  · refine Or.inl ⟨hgoes, hcancel.symm.trans hseen, congrArg Except.ok houtcome, ?_⟩
    rw [houtcome, hmachine]
    rfl

end Looks

/-! ## One request to cancel -/

section Once

variable {capacity : Nat} {s : Session} {r : Request}

theorem cancel_of_pending (hs : s.Coherent capacity) (hr : r ≠ .withdrawCancel)
    (hpending : s.cancel = true) : (s.reply r).session.cancel = !s.stops r := by
  -- Only what looks needs a case of its own.
  have hstay : s.Overlooks r → (s.reply r).session.cancel = !s.stops r := by
    intro h
    rw [cancel_of_overlooks h, stops_of_overlooks h, hpending]
    rfl
  cases r with
  | runPaced pacer =>
    cases hobtain : s.obtain false with
    | error e =>
      obtain ⟨hstops, hsession⟩ := runPaced_refused hobtain pacer
      rw [hstops, hsession, hpending]
      rfl
    | ok obtained =>
      obtain ⟨hresult, -, -, hsession⟩ := runPaced_pending hs hobtain hpending pacer false
      rw [(stops_map_outcome_iff rfl).mpr hresult]
      exact congrArg Session.cancel hsession
  | stepToEnd cancelsAfter =>
    have hreply := stepToEnd_pending hpending cancelsAfter
    rw [(stops_map_outcome_iff rfl).mpr (congrArg Reply.result hreply)]
    exact congrArg (fun reply => reply.session.cancel) hreply
  | tick speed =>
    -- On an idle session a tick does not look.
    cases hrunning : s.running with
    | false => exact hstay hrunning
    | true =>
      rw [(stops_tick_iff hs).mpr ⟨hrunning, hpending⟩]
      exact congrArg Session.cancel (tick_pending hrunning hpending speed).2.2
  | requestCancel => rfl
  | withdrawCancel => exact absurd rfl hr
  | _ => exact hstay trivial

end Once

end Session

/-- Requests in which nobody asks to cancel and nobody withdraws it. -/
def Request.Quiet : Request → Prop
  | .requestCancel | .withdrawCancel => False
  | .runPaced pacer => ∀ n, pacer.cancelsIn n = false
  | .stepToEnd cancelsAfter => ∀ n, cancelsAfter n = false
  | _ => True

namespace Session

section Quiet

variable {capacity : Nat} {s : Session}

theorem runPaced_quiet (hs : s.Coherent capacity) {pacer : Pacer}
    (hquiet : (Request.runPaced pacer).Quiet) (hclear : s.cancel = false) :
    s.stops (.runPaced pacer) = false ∧ (s.reply (.runPaced pacer)).session.cancel = false := by
  cases hobtain : s.obtain false with
  | error e =>
    obtain ⟨hstops, hsession⟩ := runPaced_refused hobtain pacer
    exact ⟨hstops, by rw [hsession, hclear]⟩
  | ok obtained =>
    have hseen : ∀ n, pacer.seen s.cancel n = false := by
      intro n
      cases n with
      | zero => exact hclear
      | succ n => exact hquiet (n + 1)
    rcases (runPaced_looks hs hobtain pacer false).2 with ⟨hfound, -⟩ | ⟨-, hended, -, hsession⟩
    · rw [hseen] at hfound
      cases hfound
    · exact ⟨stops_of_ended rfl hended, congrArg Session.cancel hsession⟩

theorem stepToEnd_refused {e : RunError} (hobtain : s.obtain true = .error e)
    (hclear : s.cancel = false) (cancelsAfter : Nat → Bool) :
    s.stepToEnd cancelsAfter = s.refuse e := by
  unfold stepToEnd
  rw [if_neg (by simp [hclear]), hobtain]

theorem stepToEnd_quiet (hs : s.Coherent capacity) {cancelsAfter : Nat → Bool}
    (hquiet : (Request.stepToEnd cancelsAfter).Quiet) (hclear : s.cancel = false) :
    s.stops (.stepToEnd cancelsAfter) = false ∧
      (s.reply (.stepToEnd cancelsAfter)).session.cancel = false := by
  cases hobtain : s.obtain true with
  | error e =>
    simp only [stops, reply, stepToEnd_refused hobtain hclear cancelsAfter]
    exact ⟨rfl, hclear⟩
  | ok obtained =>
    obtain ⟨n, -, -, ⟨-, hfound, -⟩ | ⟨-, hended, hsession⟩⟩ :=
      stepToEnd_looks hs hclear hobtain cancelsAfter
    · rw [hquiet] at hfound
      cases hfound
    · exact ⟨stops_of_ended rfl hended, (congrArg Session.cancel hsession).trans (hquiet _)⟩

theorem tick_quiet (hs : s.Coherent capacity) (hrunning : s.running = true)
    (hclear : s.cancel = false) (speed : Speed) :
    s.stops (.tick speed) = false ∧ (s.reply (.tick speed)).session.cancel = false := by
  obtain ⟨m, hbench, -⟩ := hs.live_of_running hrunning
  obtain ⟨k, tick, -, -, -, hcancel⟩ := tick_live hrunning hclear hbench speed
  refine ⟨Bool.eq_false_iff.mpr ?_, hcancel⟩
  intro hstops
  have hpending := ((stops_tick_iff hs).mp hstops).2
  rw [hclear] at hpending
  cases hpending

theorem stops_of_quiet (hs : s.Coherent capacity) {r : Request} (hquiet : r.Quiet)
    (hclear : s.cancel = false) :
    s.stops r = false ∧ (s.reply r).session.cancel = false := by
  have hstay : s.Overlooks r → s.stops r = false ∧ (s.reply r).session.cancel = false := by
    intro h
    exact ⟨stops_of_overlooks h, (cancel_of_overlooks h).trans hclear⟩
  cases r with
  | runPaced pacer => exact runPaced_quiet hs hquiet hclear
  | stepToEnd cancelsAfter => exact stepToEnd_quiet hs hquiet hclear
  | tick speed =>
    cases hrunning : s.running with
    | false => exact hstay hrunning
    | true => exact tick_quiet hs hrunning hclear speed
  | requestCancel | withdrawCancel => exact hquiet.elim
  | _ => exact hstay trivial

/-- Of requests in which nobody asks, one run at most is stopped, and that for a request to cancel
that was there before; if none is, the request is still there. -/
theorem stopsIn_add_cancel (hs : s.Coherent capacity) {requests : List Request}
    (hquiet : ∀ r ∈ requests, r.Quiet) :
    s.stopsIn requests + (s.serve requests).1.cancel.toNat = s.cancel.toNat := by
  induction requests generalizing s with
  | nil => exact Nat.zero_add _
  | cons r rest ih =>
    have hr := hquiet r List.mem_cons_self
    have hrest := ih (hs.answer r) fun r' hr' => hquiet r' (List.mem_cons_of_mem r hr')
    -- One request moves what is pending into the count, or leaves both alone.
    have hfirst : (s.stops r).toNat + (s.answer r).1.cancel.toNat = s.cancel.toNat := by
      rw [← upshot_reply]
      cases hcancel : s.cancel with
      | false =>
        obtain ⟨hstops, hclear⟩ := stops_of_quiet hs hr hcancel
        rw [hstops, Reply.upshot, hclear]
        rfl
      | true =>
        have hwithdraw : r ≠ .withdrawCancel := by
          rintro rfl
          exact hr
        rw [Reply.upshot, cancel_of_pending hs hwithdraw hcancel]
        cases s.stops r <;> rfl
    simp only [serve_cons, stopsIn]
    omega

theorem cancel_of_stopsIn_eq_zero (hs : s.Coherent capacity) {requests : List Request}
    (hkept : .withdrawCancel ∉ requests) (hpending : s.cancel = true)
    (hnone : s.stopsIn requests = 0) : (s.serve requests).1.cancel = true := by
  induction requests generalizing s with
  | nil => exact hpending
  | cons r rest ih =>
    rw [List.mem_cons, not_or] at hkept
    rw [stopsIn, Nat.add_eq_zero_iff, Bool.toNat_eq_zero] at hnone
    rw [serve_cons]
    apply ih (hs.answer r) hkept.2 _ hnone.2
    rw [← upshot_reply, Reply.upshot, cancel_of_pending hs (Ne.symm hkept.1) hpending, hnone.1]
    rfl

end Quiet

theorem running_stepToEnd (s : Session) (cancelsAfter : Nat → Bool) :
    (s.stepToEnd cancelsAfter).session.running = s.running := by
  unfold stepToEnd
  split
  · rfl
  · cases s.obtain true with
    | error e => rfl
    | ok obtained => rfl

theorem running_of_stops {capacity : Nat} {s : Session} (hs : s.Coherent capacity) {r : Request}
    (hstops : s.stops r = true) :
    (s.reply r).session.running = true ↔
      s.running = true ∧ ∃ cancelsAfter, r = .stepToEnd cancelsAfter := by
  have hlooks : ¬s.Overlooks r := by
    intro h
    rw [stops_of_overlooks h] at hstops
    cases hstops
  cases r with
  | runPaced pacer =>
    cases hobtain : s.obtain false with
    | error e =>
      rw [(runPaced_refused hobtain pacer).1] at hstops
      cases hstops
    | ok obtained =>
      have hidle : (s.reply (.runPaced pacer)).session.running = false := by
        rcases (runPaced_looks hs hobtain pacer false).2 with
          ⟨-, -, -, hsession⟩ | ⟨-, -, -, hsession⟩
        · exact congrArg Session.running hsession
        · exact congrArg Session.running hsession
      simp [hidle]
  | stepToEnd cancelsAfter =>
    -- The look comes before the question whether a paced run is going.
    have hstill : (s.reply (.stepToEnd cancelsAfter)).session.running = s.running :=
      s.running_stepToEnd cancelsAfter
    simp [hstill]
  | tick speed =>
    obtain ⟨hrunning, hpending⟩ := (stops_tick_iff hs).mp hstops
    have hidle : (s.reply (.tick speed)).session.running = false :=
      congrArg Session.running (tick_pending hrunning hpending speed).2.2
    simp [hidle]
  | requestCancel | withdrawCancel => cases hstops
  | _ => exact absurd trivial hlooks

theorem stepToEnd_busy {s : Session} (hclear : s.cancel = false) (hrunning : s.running = true)
    (cancelsAfter : Nat → Bool) : s.stepToEnd cancelsAfter = s.refuse .busy :=
  stepToEnd_refused (obtain_running hrunning true) hclear cancelsAfter

theorem tick_beginPaced_pending {s : Session} {keep : Bool} {m : Machine} {notes : List Note}
    (hobtain : s.obtain keep = .ok (m, notes)) (hpending : s.cancel = true) (speed : Speed) :
    let reply := (s.beginPaced keep).session.tick speed
    reply.result = .ok none ∧ reply.events = [] ∧
      reply.session = { s with bench := .live m, running := false, cancel := false } := by
  unfold beginPaced
  rw [hobtain]
  exact tick_pending (s := { s with bench := .live m, running := true }) rfl hpending speed

/-- How a session deals with requests to cancel. -/
structure CancelsOnce (s : Session) : Prop where
  /-- What does not look for a request leaves it alone, and does the same with it and without. -/
  overlooked : ∀ r, s.Overlooks r → (s.reply r).session.cancel = s.cancel ∧
    ∀ cancel, (s.withCancel cancel).reply r = (s.reply r).withCancel cancel
  /-- But for whoever takes it back, only the run that it has stopped withdraws a request. -/
  withdrawn : ∀ r, r ≠ .withdrawCancel → s.cancel = true →
    ((s.reply r).session.cancel = false ↔ s.stops r = true)
  /-- A stop leaves no paced run going, unless it is single steps that were to be taken while one was
  going: these take the request, and the paced run goes on. -/
  idle : ∀ r, s.stops r = true →
    ((s.reply r).session.running = true ↔
      s.running = true ∧ ∃ cancelsAfter, r = .stepToEnd cancelsAfter)
  /-- A tick is stopped by a request and by nothing else, before it takes a step. -/
  ticked : ∀ speed, (s.stops (.tick speed) = true ↔ s.running = true ∧ s.cancel = true) ∧
    (s.stops (.tick speed) = true → (s.tick speed).events = [] ∧
      (s.tick speed).session = { s with running := false, cancel := false })
  /-- A paced run looks before each tick. The look that finds a request is the last thing it does;
  otherwise it ends, and a request that comes too late for a look stays. -/
  paced : ∀ pacer late m notes, s.obtain false = .ok (m, notes) →
    let reply := s.runPaced pacer late
    let n := reply.pauses.length
    (∀ i < n, pacer.seen s.cancel i = false) ∧
    ((pacer.seen s.cancel n = true ∧ reply.result = .ok .cancelled ∧
        (m.afterTicks pacer n).status.isTerminal = false ∧
        reply.session =
          { s with bench := .live (m.afterTicks pacer n), running := false, cancel := false }) ∨
      (pacer.seen s.cancel n = false ∧
        reply.result = .ok (.ended (m.afterTicks pacer (n + 1)).status) ∧
        (m.afterTicks pacer (n + 1)).status.isTerminal = true ∧
        reply.session =
          { s with bench := .live (m.afterTicks pacer (n + 1)), running := false, cancel := late }))
  /-- A run in single steps looks before its first step and after each. While a paced run is going it
  looks once, and takes no step. -/
  stepped : ∀ cancelsAfter,
    (s.cancel = true →
      s.stepToEnd cancelsAfter = { session := s.withdrawCancel, result := .ok .cancelled }) ∧
    (s.cancel = false → s.running = true → s.stepToEnd cancelsAfter = s.refuse .busy) ∧
    ∀ m notes, s.cancel = false → s.obtain true = .ok (m, notes) →
      let reply := s.stepToEnd cancelsAfter
      ∃ n, 1 ≤ n ∧ (∀ i, 1 ≤ i → i < n → cancelsAfter (m.after i).steps = false) ∧
      (((m.after n).status.isTerminal = false ∧ cancelsAfter (m.after n).steps = true ∧
          reply.result = .ok .cancelled ∧
          reply.session =
            { s with bench := .live (m.after n), running := false, cancel := false }) ∨
        ((m.after n).status.isTerminal = true ∧ reply.result = .ok (.ended (m.after n).status) ∧
          reply.session =
            { s with
              bench := .live (m.after n), running := false,
              cancel := cancelsAfter (m.after n).steps }))
  /-- A request that is there stops the next paced run before its first step, in one go or at its
  first tick. A run that is paused before that has not looked. -/
  next : s.cancel = true → ∀ keep m notes, s.obtain keep = .ok (m, notes) →
    (∀ pacer late, keep = false → (s.runPaced pacer late).result = .ok .cancelled ∧
      (s.runPaced pacer late).events = [] ∧ (s.runPaced pacer late).pauses = [] ∧
      (s.runPaced pacer late).session =
        { s with bench := .live m, running := false, cancel := false }) ∧
    ∀ speed, ((s.beginPaced keep).session.tick speed).result = .ok none ∧
      ((s.beginPaced keep).session.tick speed).events = [] ∧
      ((s.beginPaced keep).session.tick speed).session =
        { s with bench := .live m, running := false, cancel := false }
  /-- A request stays as long as it has stopped nothing. -/
  pending : ∀ requests, .withdrawCancel ∉ requests → s.cancel = true → s.stopsIn requests = 0 →
    (s.serve requests).1.cancel = true
  /-- While nobody asks, a request that is there stops one run or is still there, and without one
  nothing is stopped. -/
  once : ∀ requests, (∀ r ∈ requests, Request.Quiet r) →
    s.stopsIn requests + (s.serve requests).1.cancel.toNat = s.cancel.toNat

end Session

/-- A request to cancel stops one run and loses nothing. After any requests, a session keeps a
request to cancel until a run that looks for one is stopped because of it; that run stands where it
was found to be stopped, and the run after it is not affected. -/
theorem cancel_stops_one_run (tapeSize : Nat) (config : Config) (history : List Request) :
    ((Session.new tapeSize config).serve history).1.CancelsOnce := by
  have hs := Session.coherent_history tapeSize config history
  generalize ((Session.new tapeSize config).serve history).1 = s at hs
  constructor
  case overlooked =>
    intro r hr
    exact ⟨Session.cancel_of_overlooks hr, Session.reply_withCancel hr⟩
  case withdrawn =>
    intro r hr hpending
    rw [Session.cancel_of_pending hs hr hpending]
    cases s.stops r <;> simp
  case idle =>
    intro r hstops
    exact Session.running_of_stops hs hstops
  case ticked =>
    intro speed
    refine ⟨Session.stops_tick_iff hs, ?_⟩
    intro hstops
    obtain ⟨hrunning, hpending⟩ := (Session.stops_tick_iff hs).mp hstops
    exact (Session.tick_pending hrunning hpending speed).2
  case paced =>
    intro pacer late m notes hobtain
    exact Session.runPaced_looks hs hobtain pacer late
  case stepped =>
    intro cancelsAfter
    refine ⟨fun hpending => Session.stepToEnd_pending hpending cancelsAfter,
      fun hclear hrunning => Session.stepToEnd_busy hclear hrunning cancelsAfter, ?_⟩
    intro m notes hclear hobtain
    exact Session.stepToEnd_looks hs hclear hobtain cancelsAfter
  case next =>
    intro hpending keep m notes hobtain
    refine ⟨?_, Session.tick_beginPaced_pending hobtain hpending⟩
    rintro pacer late rfl
    exact Session.runPaced_pending hs hobtain hpending pacer late
  case pending =>
    intro requests hkept hpending hnone
    exact Session.cancel_of_stopsIn_eq_zero hs hkept hpending hnone
  case once =>
    intro requests hquiet
    exact Session.stopsIn_add_cancel hs hquiet

/-- A request passes over a paced run that is paused before its first tick, and stops the run after
it. Single steps that are to be taken while a paced run is going take the request from that run,
which goes on. -/
theorem cancel_passes_over_run :
    let s := ((Session.new 1 ⟨9, .zero, false⟩).serve
      [.setSource "+[]", .requestCancel, .startPaced]).1
    (s.stops .pause = false ∧ (s.serve [.pause, .startPaced]).1.stops (.tick .instant) = true) ∧
    s.stops (.stepToEnd fun _ => false) = true ∧
      (s.reply (.stepToEnd fun _ => false)).session.running = true := by
  decide +kernel

theorem cancel_stops_one_run_idle :
    let s := ((Session.new 1 ⟨9, .zero, false⟩).serve
      [.setSource "+[]", .requestCancel, .runInstant, .step]).1
    let requests : List Request := [.startPaced, .tick .instant, .resumePaced, .tick .instant]
    s.cancel = true ∧ s.stops .startPaced = false ∧ s.stopsIn requests = 1 ∧
      (s.serve requests).1.status? = some .stepLimit := by
  intro s requests
  have hlaw : s.CancelsOnce := cancel_stops_one_run 1 ⟨9, .zero, false⟩
    [.setSource "+[]", .requestCancel, .runInstant, .step]
  have hquiet : ∀ r ∈ requests, r.Quiet := by
    simp [requests, Request.Quiet]
  have honce := hlaw.once requests hquiet
  have hpending : s.cancel = true := by decide +kernel
  have hclear : (s.serve requests).1.cancel = false := by decide +kernel
  rw [hpending, hclear] at honce
  exact ⟨hpending, by decide +kernel, honce, by decide +kernel⟩

end TapeMachine
