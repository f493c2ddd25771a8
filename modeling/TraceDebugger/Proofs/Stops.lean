import TraceDebugger.Program.Creation
import TraceDebugger.Proofs.Conversations
import TraceDebugger.Replay

/-!
# Where a replay stops

A replay stops exactly on the events on which the rules of stepping say so (`ShouldStop`). The rules
speak of the mode in which the program was last let run on and of the breakpoints that were left at
the last stop; both are read off the earlier visits of the replay (`Replay.visits`). The invariant
of the replay is that the debugger is in that mode and stops at those breakpoints
(`Replay.Follows`).
-/

namespace TraceDebugger

/-- The rules of stepping. -/
inductive ShouldStop (mode : StepMode) (points : Breakpoints) (event : Event) (stack : CallStack) :
    Prop where
  /-- The program stops itself. -/
  | breakpoint (h : event = .breakpoint)
  /-- The program panics. -/
  | panic (h : event = .panic)
  /-- A function with a breakpoint is entered. -/
  | entry {top : Frame} {point : Breakpoint} (h : event = .callEnter)
    (innermost : stack.top? = some top) (set : point ∈ points.points)
    (enabled : point.enabled = true) (here : point.function = top.function)
  /-- Each event stops the program. -/
  | into (h : mode = .into)
  /-- A statement is reached, not inside a call made after the last stop. -/
  | over {depth : Nat} (h : mode = .over depth) (statement : event ≠ .stepInstruction)
    (shallow : stack.size ≤ depth)
  /-- A call that was running at the last stop returns. -/
  | out {depth : Nat} (h : mode = .out depth) (returns : event = .callReturn)
    (shallow : stack.size ≤ depth)

/-! ## The rules in the debugger -/

namespace StepMode

theorem stopsOn_iff {mode : StepMode} {event : Event} {depth : Nat} :
    mode.stopsOn event depth = true ↔ mode = .into ∨
      (∃ d, mode = .over d ∧ event ≠ .stepInstruction ∧ depth ≤ d) ∨
      ∃ d, mode = .out d ∧ event = .callReturn ∧ depth ≤ d := by
  cases mode with
  | into => simp [stopsOn]
  | «over» d => simp [stopsOn, Event.isStatementBoundary]
  | out d => simp [stopsOn]
  | run => simp [stopsOn]

end StepMode

namespace Breakpoints

theorem stopsAt_iff {b : Breakpoints} {function : FunctionId} : b.stopsAt function = true ↔
    ∃ point ∈ b.points, point.enabled = true ∧ point.function = function := by
  simp [stopsAt]

/-- Counting an entry does not change where the breakpoints stop. -/
theorem stopsAt_hit (b : Breakpoints) (entered function : FunctionId) :
    (b.hit entered).stopsAt function = b.stopsAt function := by
  unfold hit stopsAt
  rw [List.any_map]
  congr 1
  ext point
  dsimp only [Function.comp]
  split
  · rfl
  · rfl

end Breakpoints

namespace Debugger

theorem atBreakpoint_iff {d : Debugger} {event : Event} {stack : CallStack} :
    d.atBreakpoint event stack = true ↔
      event = .callEnter ∧ ∃ top, stack.top? = some top ∧
        d.breakpoints.stopsAt top.function = true := by
  unfold atBreakpoint
  split
  · rename_i top htop
    simp [htop]
  · rename_i hother
    constructor
    · intro h
      cases h
    · rintro ⟨rfl, top, htop, -⟩
      exact absurd htop (hother top rfl)

theorem stopsOn_iff {d : Debugger} {event : Event} {stack : CallStack} :
    d.stopsOn event stack = true ↔ ShouldStop d.mode d.breakpoints event stack := by
  unfold stopsOn
  rw [Bool.or_eq_true, Bool.or_eq_true, Bool.or_eq_true, atBreakpoint_iff, StepMode.stopsOn_iff]
  constructor
  · rintro (((h | h) | ⟨h, top, htop, hstops⟩) | h | ⟨depth, h, hstatement, hshallow⟩ |
      ⟨depth, h, hreturns, hshallow⟩)
    · exact .breakpoint (of_decide_eq_true h)
    · exact .panic (of_decide_eq_true h)
    · obtain ⟨point, hset, henabled, hhere⟩ := Breakpoints.stopsAt_iff.1 hstops
      exact .entry h htop hset henabled hhere
    · exact .into h
    · exact .over h hstatement hshallow
    · exact .out h hreturns hshallow
  · intro h
    cases h with
    | breakpoint h => exact .inl (.inl (.inl (decide_eq_true h)))
    | panic h => exact .inl (.inl (.inr (decide_eq_true h)))
    | @entry top point h htop hset henabled hhere =>
      exact .inl (.inr ⟨h, top, htop, Breakpoints.stopsAt_iff.2 ⟨point, hset, henabled, hhere⟩⟩)
    | into h => exact .inr (.inl h)
    | «over» h hstatement hshallow => exact .inr (.inr (.inl ⟨_, h, hstatement, hshallow⟩))
    | out h hreturns hshallow => exact .inr (.inr (.inr ⟨_, h, hreturns, hshallow⟩))

theorem countHit_withConsole (d : Debugger) (c : Console) (event : Event) (stack : CallStack) :
    countHit { d with console := c } event stack =
      { d.countHit event stack with console := c } := by
  unfold countHit
  split
  · rfl
  · rfl

end Debugger

/-! ## Visits -/

namespace Progress

/-- How the program runs on after a stop, if it does. -/
def mode? : Progress → Option StepMode
  | .resumed mode => some mode
  | _ => none

/-- The exit code, if the debugger quits. -/
def exitCode? : Progress → Option Int
  | .quit code => some code
  | _ => none

/-- Whether the replay goes on to the next event. -/
def goesOn : Progress → Bool
  | .passed | .resumed _ => true
  | .quit _ | .failed _ => false

/-- What a stop comes to. -/
def ofOutcome : Outcome → Progress
  | .resume mode => .resumed mode
  | .quit code => .quit code

end Progress

/-- An event that was shown to the debugger. -/
structure Visit where
  /-- The event. -/
  step : TraceStep
  /-- The replay before. -/
  before : Replay
  /-- The replay after. -/
  after : Replay
  /-- What came of the event. -/
  progress : Progress

namespace Visit

/-- The program stops on the event and commands are read. -/
def Stops (v : Visit) : Prop := v.progress ≠ .passed

/-- The lines of input that are left lead to what the stop leads to: they are obeyed until one of
them lets the program run on or quits, and to quit with code zero if none does. -/
def Converses (v : Visit) (stack : CallStack) : Prop :=
  let d := v.before.debugger.countHit v.step.event stack
  let talk := d.talk stack v.step.event (v.before.bind stack).engine
  v.progress = .ofOutcome talk.outcome ∧ v.after.debugger.lines = talk.rest ∧
    v.after.debugger.breakpoints = talk.session.breakpoints

/-- The mode in which the program was last let run on, `mode` if it was not. -/
def lastMode (mode : StepMode) (visits : List Visit) : StepMode :=
  visits.foldl (fun mode v => v.progress.mode?.getD mode) mode

/-- The breakpoints that the commands of the last stop left, `points` if there was no stop. -/
def lastPoints (points : Breakpoints) (visits : List Visit) : Breakpoints :=
  visits.foldl
    (fun points v => if v.progress = .passed then points else v.after.debugger.breakpoints) points

end Visit

namespace Replay

/-- The events that are shown to the debugger, the first of which has number `n`. -/
def visits (r : Replay) (n : Nat) : List TraceStep → List Visit
  | [] => []
  | step :: rest =>
    let (r', progress) := r.advance n step
    ⟨step, r, r', progress⟩ :: if progress.goesOn then r'.visits (n + 1) rest else []

theorem visits_cons (r : Replay) (n : Nat) (step : TraceStep) (rest : List TraceStep) :
    r.visits n (step :: rest) = ⟨step, r, (r.advance n step).1, (r.advance n step).2⟩ ::
      if (r.advance n step).2.goesOn then (r.advance n step).1.visits (n + 1) rest else [] := rfl

/-- A replay that is in the mode and stops at the breakpoints that the rules speak of. -/
structure Follows (program : Program) (config : Config) (mode : StepMode) (points : Breakpoints)
    (r : Replay) : Prop where
  /-- The program stays the same. -/
  program_eq : r.debugger.program = program
  /-- The settings stay the same. -/
  config_eq : r.debugger.config = config
  /-- No write fails. -/
  limit : r.debugger.console.limit = none
  /-- Each line of input is a text. -/
  input : r.debugger.input = r.debugger.lines.map .text
  /-- The debugger is in the mode. -/
  mode_eq : r.debugger.mode = mode
  /-- The debugger stops at the breakpoints; it may have counted more entries on them. -/
  points_eq : ∀ function, r.debugger.breakpoints.stopsAt function = points.stopsAt function

variable {program : Program} {config : Config} {mode : StepMode} {points : Breakpoints} {r : Replay}

theorem Follows.stopsOn_iff (h : Follows program config mode points r) (event : Event)
    (stack : CallStack) :
    r.debugger.stopsOn event stack = true ↔ ShouldStop mode points event stack := by
  rw [Debugger.stopsOn_iff, h.mode_eq]
  have hentry : ∀ {b b' : Breakpoints}, (∀ f, b.stopsAt f = b'.stopsAt f) →
      ShouldStop mode b event stack → ShouldStop mode b' event stack := by
    intro b b' hb hstop
    cases hstop with
    | breakpoint h => exact .breakpoint h
    | panic h => exact .panic h
    | @entry top point h htop hset henabled hhere =>
      have hstops : b'.stopsAt top.function = true := by
        rw [← hb]
        exact Breakpoints.stopsAt_iff.2 ⟨point, hset, henabled, hhere⟩
      obtain ⟨point', hset', henabled', hhere'⟩ := Breakpoints.stopsAt_iff.1 hstops
      exact .entry h htop hset' henabled' hhere'
    | into h => exact .into h
    | «over» h hstatement hshallow => exact .over h hstatement hshallow
    | out h hreturns hshallow => exact .out h hreturns hshallow
  exact ⟨hentry h.points_eq, hentry fun f => (h.points_eq f).symm⟩

theorem Follows.bind (h : Follows program config mode points r) (stack : CallStack) :
    Follows program config mode points (r.bind stack) :=
  ⟨h.program_eq, h.config_eq, h.limit, h.input, h.mode_eq, h.points_eq⟩

theorem Follows.echo (h : Follows program config mode points r) (step : TraceStep) :
    ∃ c : Console, c.limit = none ∧
      r.echo? step = some { r with debugger := { r.debugger with console := c } } := by
  unfold echo?
  split
  · obtain ⟨c, hc, hwrite⟩ := Console.write?_unlimited h.limit step.instruction.echo
    refine ⟨c, hc, ?_⟩
    rw [hwrite]
    rfl
  · exact ⟨r.debugger.console, h.limit, rfl⟩

theorem Follows.withConsole (h : Follows program config mode points r) {c : Console}
    (hc : c.limit = none) :
    Follows program config mode points { r with debugger := { r.debugger with console := c } } :=
  ⟨h.program_eq, h.config_eq, hc, h.input, h.mode_eq, h.points_eq⟩

theorem Follows.countHit (h : Follows program config mode points r) (event : Event)
    (stack : CallStack) : Follows program config mode points
      { r with debugger := r.debugger.countHit event stack } := by
  unfold Debugger.countHit
  split
  · refine ⟨h.program_eq, h.config_eq, h.limit, h.input, h.mode_eq, fun f => ?_⟩
    rw [Breakpoints.stopsAt_hit]
    exact h.points_eq f
  · exact h

/-- On a stop the replay goes on as the conversation says. -/
theorem Follows.stop (h : Follows program config mode points r) (n : Nat) (stack : CallStack)
    (step : TraceStep) :
    let talk := r.debugger.talk stack step.event r.engine
    let next := (r.stop n stack step).1
    (r.stop n stack step).2 = .ofOutcome talk.outcome ∧
      next.debugger.breakpoints = talk.session.breakpoints ∧
      next.debugger.lines = talk.rest ∧
      Follows program config (talk.outcome.modeAfter mode) talk.session.breakpoints next := by
  intro talk next
  let noted := r.note [⟨.debug, s!"step {n} suspends on {step.event.text}"⟩]
  have htalk : noted.debugger.talk stack step.event noted.engine
      = { talk with session := talk.session.withConsole noted.debugger.console } :=
    Debugger.talk_withConsole _ _ _ _ _
  obtain ⟨c, prompts, hc, hpause⟩ := Debugger.pause_unlimited (d := noted.debugger) h.limit
    h.input stack step.instruction step.event noted.engine
  rw [htalk] at hpause
  dsimp only at hpause
  dsimp only [next]
  unfold Replay.stop
  dsimp only
  rw [hpause]
  clear_value talk
  rcases talk with ⟨session, rest, mode' | code⟩
  · have hinput := Debugger.filterMap_content? rest
    exact ⟨rfl, rfl, hinput, h.program_eq, h.config_eq, hc, congrArg _ hinput.symm, rfl,
      fun _ => rfl⟩
  · have hinput := Debugger.filterMap_content? rest
    exact ⟨rfl, rfl, hinput, h.program_eq, h.config_eq, hc, congrArg _ hinput.symm, h.mode_eq,
      fun _ => rfl⟩

/-- One event: the program stops if the rules say so, and the replay does not break off. -/
theorem Follows.advance (h : Follows program config mode points r) (n : Nat) {step : TraceStep}
    {stack : CallStack} (hstack : step.callStack program = .ok stack) :
    let v : Visit := ⟨step, r, (r.advance n step).1, (r.advance n step).2⟩
    (v.Stops ↔ ShouldStop mode points step.event stack) ∧ (v.Stops → v.Converses stack) ∧
      (∀ cause, v.progress ≠ .failed cause) ∧
      Follows program config (Visit.lastMode mode [v]) (Visit.lastPoints points [v]) v.after := by
  obtain ⟨c, hc, hecho⟩ := (h.bind stack).echo step
  let counted : Replay :=
    { (r.bind stack) with debugger :=
        { (r.bind stack).debugger with console := c }.countHit step.event stack }
  let talk := (r.debugger.countHit step.event stack).talk stack step.event (r.bind stack).engine
  have hcounted : Follows program config mode points counted :=
    ((h.bind stack).withConsole hc).countHit step.event stack
  have hstops := ((h.bind stack).withConsole hc).stopsOn_iff step.event stack
  have hadvance : r.advance n step =
      if { (r.bind stack).debugger with console := c }.stopsOn step.event stack then
        counted.stop n stack step else (counted, .passed) := by
    unfold Replay.advance
    rw [h.program_eq, hstack]
    dsimp only
    rw [hecho]
  by_cases hstop : ShouldStop mode points step.event stack
  · rw [if_pos (hstops.2 hstop)] at hadvance
    obtain ⟨hprogress, hpoints, hrest, hnext⟩ := hcounted.stop n stack step
    have htalk : counted.debugger.talk stack step.event counted.engine
        = { talk with session := talk.session.withConsole c } := by
      dsimp only [counted]
      rw [Debugger.countHit_withConsole, Debugger.talk_withConsole]
      rfl
    rw [htalk] at hprogress hpoints hrest hnext
    rw [hadvance]
    have hne : (counted.stop n stack step).2 ≠ .passed := by
      rw [hprogress]
      cases talk.outcome with
      | resume mode => exact nofun
      | quit code => exact nofun
    have hmode : (counted.stop n stack step).2.mode?.getD mode = talk.outcome.modeAfter mode := by
      rw [hprogress]
      cases talk.outcome with
      | resume mode => rfl
      | quit code => rfl
    have hfailed : ∀ cause, (counted.stop n stack step).2 ≠ .failed cause := by
      rw [hprogress]
      cases talk.outcome with
      | resume mode => exact fun _ => nofun
      | quit code => exact fun _ => nofun
    refine ⟨⟨fun _ => hstop, fun _ => hne⟩, fun _ => ⟨hprogress, hrest, hpoints⟩, hfailed, ?_⟩
    have hlast : Visit.lastPoints points
        [⟨step, r, (counted.stop n stack step).1, (counted.stop n stack step).2⟩]
        = talk.session.breakpoints := (if_neg hne).trans hpoints
    rw [hlast]
    dsimp only [Visit.lastMode, List.foldl_cons, List.foldl_nil]
    rw [hmode]
    exact hnext
  · rw [if_neg fun hpos => hstop (hstops.1 hpos)] at hadvance
    rw [hadvance]
    exact ⟨⟨fun hpassed => absurd rfl hpassed, fun hpos => absurd hpos hstop⟩,
      fun hpassed => absurd rfl hpassed, fun _ => nofun, hcounted⟩

/-! ## Runs -/

/-- Every event of a recording names functions of the program. -/
def Knows (program : Program) (steps : List TraceStep) : Prop :=
  ∀ step ∈ steps, ∀ frame ∈ step.stack, (program.findFunction? frame.function).isSome

theorem exists_callStack {program : Program} {step : TraceStep}
    (h : ∀ frame ∈ step.stack, (program.findFunction? frame.function).isSome) :
    ∃ stack, step.callStack program = .ok stack := by
  have hframes : ∃ frames, RecordedFrame.frames program step.stack = .ok frames := by
    generalize step.stack = recorded at h ⊢
    induction recorded with
    | nil => exact ⟨[], rfl⟩
    | cons frame rest ih =>
      obtain ⟨frames, hframes⟩ := ih fun f hf => h f (List.mem_cons_of_mem frame hf)
      obtain ⟨id, hid⟩ := Option.isSome_iff_exists.1 (h frame List.mem_cons_self)
      unfold RecordedFrame.frames RecordedFrame.frame?
      rw [hid, hframes]
      exact ⟨_, rfl⟩
  obtain ⟨frames, hframes⟩ := hframes
  unfold TraceStep.callStack
  rw [hframes]
  exact ⟨_, rfl⟩

/-- The replay stops on event `j` of its visits. -/
def StopsAt (visits : List Visit) (j : Nat) : Prop := ∃ v, visits[j]? = some v ∧ v.Stops

/-- The debugger quits on event `j` of its visits. -/
def QuitsAt (visits : List Visit) (j : Nat) : Prop :=
  ∃ v, visits[j]? = some v ∧ v.progress.exitCode?.isSome

theorem Follows.stopsAt_iff {steps : List TraceStep} (h : Follows program config mode points r)
    (n : Nat) {j : Nat} {step : TraceStep} {stack : CallStack}
    (hknown : Knows program steps) (hstep : steps[j]? = some step)
    (hstack : step.callStack program = .ok stack) :
    StopsAt (r.visits n steps) j ↔ (∀ i < j, ¬ QuitsAt (r.visits n steps) i) ∧
      ShouldStop (Visit.lastMode mode ((r.visits n steps).take j))
        (Visit.lastPoints points ((r.visits n steps).take j)) step.event stack := by
  induction steps generalizing r n mode points j with
  | nil => cases hstep
  | cons first rest ih =>
    obtain ⟨stack', hstack'⟩ := exists_callStack (hknown first List.mem_cons_self)
    obtain ⟨hstops, -, hfailed, hnext⟩ := h.advance n hstack'
    rw [visits_cons]
    cases j with
    | zero =>
      rw [List.getElem?_cons_zero, Option.some.injEq] at hstep
      subst hstep
      rw [hstack, Except.ok.injEq] at hstack'
      subst hstack'
      rw [List.take_zero]
      constructor
      · rintro ⟨v, hv, hstop⟩
        rw [List.getElem?_cons_zero, Option.some.injEq] at hv
        subst hv
        exact ⟨fun i hi => absurd hi (Nat.not_lt_zero i), hstops.1 hstop⟩
      · rintro ⟨-, hrule⟩
        exact ⟨_, List.getElem?_cons_zero, hstops.2 hrule⟩
    | succ j =>
      by_cases hgo : (r.advance n first).2.goesOn = true
      · have hquits : (r.advance n first).2.exitCode? = none := by
          cases hprogress : (r.advance n first).2 with
          | quit code =>
            rw [hprogress] at hgo
            cases hgo
          | _ => rfl
        rw [if_pos hgo]
        have hrec := ih hnext (n + 1) (fun s hs => hknown s (List.mem_cons_of_mem first hs)) hstep
        rw [List.take_succ_cons]
        refine hrec.trans (and_congr_left fun _ => ⟨fun hno i hi => ?_, fun hno i hi => ?_⟩)
        · cases i with
          | zero =>
            rintro ⟨v, hv, hquit⟩
            rw [List.getElem?_cons_zero, Option.some.injEq] at hv
            subst hv
            rw [hquits] at hquit
            cases hquit
          | succ i => exact hno i (by omega)
        · exact hno (i + 1) (by omega)
      · rw [if_neg hgo]
        refine ⟨fun ⟨v, hv, _⟩ => (nomatch hv), fun ⟨hno, _⟩ => absurd ?_ (hno 0 (by omega))⟩
        refine ⟨_, List.getElem?_cons_zero, ?_⟩
        cases hprogress : (r.advance n first).2 with
        | quit code => rfl
        | failed cause => exact absurd hprogress (hfailed cause)
        | passed => exact absurd (by rw [hprogress]; rfl) hgo
        | resumed mode => exact absurd (by rw [hprogress]; rfl) hgo

theorem Follows.converses {steps : List TraceStep} (h : Follows program config mode points r)
    (n : Nat) (hknown : Knows program steps) : ∀ v ∈ r.visits n steps, v.Stops →
      ∃ stack, v.step.callStack program = .ok stack ∧ v.Converses stack := by
  induction steps generalizing r n mode points with
  | nil => exact fun v hv => nomatch hv
  | cons first rest ih =>
    obtain ⟨stack, hstack⟩ := exists_callStack (hknown first List.mem_cons_self)
    obtain ⟨-, hconverses, -, hnext⟩ := h.advance n hstack
    intro v hv hstops
    rw [visits_cons] at hv
    rcases List.mem_cons.1 hv with rfl | hv
    · exact ⟨stack, hstack, hconverses hstops⟩
    · split at hv
      · exact ih hnext (n + 1) (fun s hs => hknown s (List.mem_cons_of_mem first hs)) v hv hstops
      · cases hv

theorem Follows.runFrom {steps : List TraceStep} (h : Follows program config mode points r)
    (n : Nat) (hknown : Knows program steps) : (r.runFrom n steps).2
      = .ok ((r.visits n steps).findSome? fun v => v.progress.exitCode?) := by
  induction steps generalizing r n mode points with
  | nil => rfl
  | cons first rest ih =>
    obtain ⟨stack, hstack⟩ := exists_callStack (hknown first List.mem_cons_self)
    obtain ⟨-, -, hfailed, hnext⟩ := h.advance n hstack
    have hrec := ih hnext (n + 1) fun s hs => hknown s (List.mem_cons_of_mem first hs)
    rw [visits_cons, List.findSome?_cons]
    unfold Replay.runFrom
    rcases hadvance : r.advance n first with ⟨r', _ | mode' | code | cause⟩
    · rw [hadvance] at hrec
      exact hrec
    · rw [hadvance] at hrec
      exact hrec
    · rfl
    · exact absurd (congrArg Prod.snd hadvance) (hfailed cause)

/-- A replay stops exactly where the rules of stepping say so, with the mode in which the program
was last let run on and the breakpoints that the last stop left. Every stop goes as the lines of
input say. The answer is the exit code with which the first stop quits that does not let the program
run on, and none if there is no such stop. -/
theorem stops_exactly (program : Program) (config : Config) (input : List Text.Line)
    (console : Console) (trace : Trace) (hlimit : console.limit = none)
    (hinput : ∀ line ∈ input, line ≠ .malformed) (hknown : Knows program trace.steps) :
    let d := Debugger.start program input config console
    let visits := (start d trace.globals).visits 0 trace.steps
    let mode := if config.stopOnEntry then StepMode.into else .run
    (∀ j step, trace.steps[j]? = some step → ∃ stack, step.callStack program = .ok stack ∧
      (StopsAt visits j ↔ (∀ i < j, ¬ QuitsAt visits i) ∧
        ShouldStop (Visit.lastMode mode (visits.take j)) (Visit.lastPoints {} (visits.take j))
          step.event stack)) ∧
    (∀ v ∈ visits, v.Stops →
      ∃ stack, v.step.callStack program = .ok stack ∧ v.Converses stack) ∧
    (run d trace).2 = .ok (visits.findSome? fun v => v.progress.exitCode?) := by
  intro d visits mode
  have hstart : Follows program config mode {} (start d trace.globals) :=
    ⟨rfl, rfl, hlimit, Debugger.input_eq hinput, rfl, fun _ => rfl⟩
  refine ⟨fun j step hstep => ?_, hstart.converses 0 hknown, hstart.runFrom 0 hknown⟩
  obtain ⟨stack, hstack⟩ := exists_callStack (hknown step (List.mem_of_getElem? hstep))
  exact ⟨stack, hstack, hstart.stopsAt_iff 0 hknown hstep hstack⟩

theorem stops_exactly_in_initializer :
    let program := (Program.create {}
      ⟨"demo", "demo", true, none, [], [⟨{}, .empty, []⟩], []⟩).program
    let call : RecordedFrame := ⟨"demo.init", [], [], .empty, 0, 0, none, {}, none⟩
    let steps : List TraceStep := [⟨.callEnter, {}, [call]⟩, ⟨.callReturn, {}, [call]⟩]
    let d := Debugger.start program [.text "break init", .text "finish"] {} {}
    let visits := (start d .empty).visits 0 steps
    Knows program steps ∧
      (run d ⟨.empty, steps⟩).2 = .ok (visits.findSome? fun v => v.progress.exitCode?) := by
  intro program call steps d visits
  have hcall : (program.findFunction? call.function).isSome := by decide
  have hknown : Knows program steps := by
    intro step hstep frame hframe
    simp only [steps, List.mem_cons, List.not_mem_nil, or_false] at hstep
    rcases hstep with rfl | rfl
    · rw [List.mem_singleton.1 hframe]
      exact hcall
    · rw [List.mem_singleton.1 hframe]
      exact hcall
  exact ⟨hknown, (stops_exactly program {} [.text "break init", .text "finish"] {}
    ⟨.empty, steps⟩ rfl (by decide) hknown).2.2⟩

end Replay

end TraceDebugger
