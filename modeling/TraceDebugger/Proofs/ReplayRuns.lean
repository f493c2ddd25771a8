import TraceDebugger.Proofs.Exchanges
import TraceDebugger.Proofs.Stops

/-!
# Runs of a replay

What an event does is a matter of four cases (`Replay.Moves`), in one of which the program stops. A
replay of some events and then others is a replay of the others from where the first ended
(`Replay.runFrom_append`), unless the first end it (`Replay.runFrom_append_of_ends`). An event whose
recorded calls name a function that the program does not have ends the replay and has no effect of
its own (`Replay.run_unknown`).
-/

namespace TraceDebugger

/-- The answer of a replay that ends with an event, or that has no event left. -/
def Progress.answer : Progress → Except ReplayError (Option Int)
  | .passed | .resumed _ => .ok none
  | .quit code => .ok (some code)
  | .failed cause => .error cause

theorem Progress.answer_ne {progress : Progress} (h : progress.goesOn = false) :
    progress.answer ≠ .ok none := by
  cases progress with
  | passed => cases h
  | resumed mode => cases h
  | quit code => exact nofun
  | failed cause => exact nofun

theorem Debugger.countHit_eq (d : Debugger) (event : Event) (stack : CallStack) :
    d.countHit event stack = { d with breakpoints := (d.countHit event stack).breakpoints } := by
  unfold countHit
  split
  · rfl
  · rfl

/-- How the replay goes on after a stop. -/
def Pause.next (pause : Pause) : Replay × Progress :=
  let r : Replay := ⟨pause.debugger, pause.engine⟩
  match pause.result with
  | .ok (.resume mode) => (r.note [⟨.trace, s!"resuming in {mode.noteText}"⟩], .resumed mode)
  | .ok (.quit code) => (r.note [⟨.info, s!"debugger quit with code {code}"⟩], .quit code)
  | .error cause => (r, .failed (.output cause))

theorem Pause.debugger_next (pause : Pause) :
    ∃ records, pause.next.1.debugger =
      { pause.debugger with console := pause.debugger.console.note records } := by
  unfold next
  dsimp only
  split
  · exact ⟨_, rfl⟩
  · exact ⟨_, rfl⟩
  · exact ⟨[], by simp [Console.note]⟩

namespace Replay

/-! ## One event -/

/-- Counts the entry of a function on its breakpoints. -/
def count (r : Replay) (stack : CallStack) (step : TraceStep) : Replay :=
  { r with debugger := r.debugger.countHit step.event stack }

/-- The stop of the program on event number `n`. -/
def halt (r : Replay) (n : Nat) (stack : CallStack) (step : TraceStep) : Stop :=
  let r := r.note [⟨.debug, s!"step {n} suspends on {step.event.text}"⟩]
  ⟨r.debugger, stack, step.instruction, step.event, r.engine⟩

theorem stop_eq_next (r : Replay) (n : Nat) (stack : CallStack) (step : TraceStep) :
    r.stop n stack step = (r.halt n stack step).pause.next := rfl

/-- The stop on event number `n`, if the program stops on it. -/
def stop? (r : Replay) (n : Nat) (step : TraceStep) : Option Stop :=
  match step.callStack r.debugger.program with
  | .error _ => none
  | .ok stack =>
    match (r.bind stack).echo? step with
    | none => none
    | some r =>
      if r.debugger.stopsOn step.event stack then some ((r.count stack step).halt n stack step)
      else none

/-- What an event does: the stop that it leads to, and how the replay goes on. A call is unknown, or
the instruction cannot be shown, or the program passes the event, or it stops. -/
inductive Moves (r : Replay) (n : Nat) (step : TraceStep) : Option Stop → Replay × Progress → Prop
  | unknown {name : String} (calls : step.callStack r.debugger.program = .error name) :
    Moves r n step none (r, .failed (.unknownFunction name))
  | mute {stack : CallStack} (calls : step.callStack r.debugger.program = .ok stack)
    (echo : (r.bind stack).echo? step = none) :
    Moves r n step none ((r.bind stack).echoPartly step, .failed (.output .outputFull))
  | passes {stack : CallStack} {r' : Replay}
    (calls : step.callStack r.debugger.program = .ok stack)
    (echo : (r.bind stack).echo? step = some r')
    (passes : r'.debugger.stopsOn step.event stack = false) :
    Moves r n step none (r'.count stack step, .passed)
  | stops {stack : CallStack} {r' : Replay}
    (calls : step.callStack r.debugger.program = .ok stack)
    (echo : (r.bind stack).echo? step = some r')
    (stops : r'.debugger.stopsOn step.event stack = true) :
    Moves r n step (some ((r'.count stack step).halt n stack step))
      ((r'.count stack step).halt n stack step).pause.next

theorem moves (r : Replay) (n : Nat) (step : TraceStep) :
    Moves r n step (r.stop? n step) (r.advance n step) := by
  unfold stop? advance
  cases hcalls : step.callStack r.debugger.program with
  | error name => exact .unknown hcalls
  | ok stack =>
    dsimp only
    cases hecho : (r.bind stack).echo? step with
    | none => exact .mute hcalls hecho
    | some r' =>
      dsimp only
      cases hstops : r'.debugger.stopsOn step.event stack with
      | true => exact .stops hcalls hecho hstops
      | false => exact .passes hcalls hecho hstops

theorem Moves.eq {r : Replay} {n : Nat} {step : TraceStep} {stop : Option Stop}
    {next : Replay × Progress} (h : Moves r n step stop next) :
    r.stop? n step = stop ∧ r.advance n step = next := by
  unfold stop? advance
  cases h with
  | unknown calls => simp only [calls, and_self]
  | mute calls echo => simp only [calls, echo, and_self]
  | passes calls echo passes => simp [calls, echo, passes, count]
  | stops calls echo stops => simp [calls, echo, stops, count, stop_eq_next]

theorem echo?_of_traced {r : Replay} {step : TraceStep}
    (h : r.engine.tracing ∧ step.event = .stepInstruction) :
    r.echo? step = (r.debugger.console.write? step.instruction.echo).map fun console =>
      { r with debugger := { r.debugger with console } } := if_pos h

theorem echo?_of_untraced {r : Replay} {step : TraceStep}
    (h : ¬ (r.engine.tracing ∧ step.event = .stepInstruction)) : r.echo? step = some r := if_neg h

theorem echo?_eq_some {r r' : Replay} {step : TraceStep} (h : r.echo? step = some r') :
    ∃ c, r' = { r with debugger := { r.debugger with console := c } } ∧
      (c = r.debugger.console ∨ r.debugger.console.write? step.instruction.echo = some c) := by
  by_cases htraced : r.engine.tracing ∧ step.event = .stepInstruction
  · rw [echo?_of_traced htraced] at h
    obtain ⟨c, hwrite, rfl⟩ := Option.map_eq_some_iff.1 h
    exact ⟨c, rfl, .inr hwrite⟩
  · rw [echo?_of_untraced htraced] at h
    cases h
    exact ⟨r.debugger.console, rfl, .inl rfl⟩

/-- An event before the program stops changes the console and the counts of the breakpoints only. -/
theorem debugger_count {r r' : Replay} {stack : CallStack} {step : TraceStep}
    (h : (r.bind stack).echo? step = some r') : ∃ c points,
      (r'.count stack step).debugger = { r.debugger with console := c, breakpoints := points } ∧
      (c = r.debugger.console ∨ r.debugger.console.write? step.instruction.echo = some c) := by
  obtain ⟨c, rfl, hc⟩ := echo?_eq_some h
  exact ⟨c, _, Debugger.countHit_eq _ _ _, hc⟩

theorem Moves.program {r : Replay} {n : Nat} {step : TraceStep} {stop : Option Stop}
    {next : Replay × Progress} (h : Moves r n step stop next) :
    next.1.debugger.program = r.debugger.program := by
  cases h with
  | unknown _ => rfl
  | mute _ _ => rfl
  | passes _ echo _ =>
    obtain ⟨c, points, hcount, -⟩ := debugger_count echo
    rw [hcount]
  | @stops stack r' _ echo _ =>
    obtain ⟨c, points, hcount, -⟩ := debugger_count echo
    obtain ⟨records, hnext⟩ := ((r'.count stack step).halt n stack step).pause.debugger_next
    have hprogram : (r'.count stack step).debugger.program = r.debugger.program := by rw [hcount]
    rw [hnext]
    exact hprogram

/-! ## Composition -/

section composition

variable {r r' : Replay} {n : Nat} {steps : List TraceStep}

theorem runFrom_cons (r : Replay) (n : Nat) (step : TraceStep) (rest : List TraceStep) :
    r.runFrom n (step :: rest) =
      if (r.advance n step).2.goesOn then (r.advance n step).1.runFrom (n + 1) rest
      else ((r.advance n step).1, (r.advance n step).2.answer) := by
  rw [runFrom]
  rcases r.advance n step with ⟨r', _ | mode | code | cause⟩
  · rfl
  · rfl
  · rfl
  · rfl

/-- The replay after events, if it goes on to further ones. -/
def after? (r : Replay) (n : Nat) : List TraceStep → Option Replay
  | [] => some r
  | step :: rest =>
    if (r.advance n step).2.goesOn then (r.advance n step).1.after? (n + 1) rest else none

/-- Further events are shown from where the earlier ones led. -/
theorem runFrom_append (h : r.after? n steps = some r') (more : List TraceStep) :
    r.runFrom n (steps ++ more) = r'.runFrom (n + steps.length) more := by
  induction steps generalizing r n with
  | nil =>
    cases h
    rfl
  | cons step rest ih =>
    unfold after? at h
    split at h
    · rename_i hgo
      rw [List.cons_append, runFrom_cons, if_pos hgo, ih h, List.length_cons]
      congr 1
      omega
    · cases h

/-- Events that end the replay end it with all that follow. -/
theorem runFrom_append_of_ends (h : r.after? n steps = none) :
    (r.runFrom n steps).2 ≠ .ok none ∧
      ∀ more, r.runFrom n (steps ++ more) = r.runFrom n steps := by
  induction steps generalizing r n with
  | nil => cases h
  | cons step rest ih =>
    unfold after? at h
    rw [runFrom_cons]
    split at h
    · rename_i hgo
      obtain ⟨hne, happend⟩ := ih h
      rw [if_pos hgo]
      refine ⟨hne, fun more => ?_⟩
      rw [List.cons_append, runFrom_cons, if_pos hgo]
      exact happend more
    · rename_i hend
      rw [if_neg hend]
      refine ⟨Progress.answer_ne (Bool.eq_false_iff.2 hend), fun more => ?_⟩
      rw [List.cons_append, runFrom_cons, if_neg hend]

end composition

/-! ## Stops of a run -/

/-- The stops on events, the first of which has number `n`. -/
def stops (r : Replay) (n : Nat) : List TraceStep → List Stop
  | [] => []
  | step :: rest =>
    (r.stop? n step).toList ++
      if (r.advance n step).2.goesOn then (r.advance n step).1.stops (n + 1) rest else []

/-- The exchanges of all stops on events, the first of which has number `n`. -/
def exchanges (r : Replay) (n : Nat) (steps : List TraceStep) : List Exchange :=
  (r.stops n steps).flatMap Stop.exchanges

theorem exchanges_cons (r : Replay) (n : Nat) (step : TraceStep) (rest : List TraceStep) :
    r.exchanges n (step :: rest) = (r.stop? n step).toList.flatMap Stop.exchanges ++
      if (r.advance n step).2.goesOn then (r.advance n step).1.exchanges (n + 1) rest else [] := by
  unfold exchanges
  rw [stops, List.flatMap_append]
  split
  · rfl
  · rfl

theorem Moves.input {r : Replay} {n : Nat} {step : TraceStep} {stop : Option Stop}
    {next : Replay × Progress} (h : Moves r n step stop next) :
    next.1.debugger.input =
      r.debugger.input.drop (stop.toList.flatMap Stop.exchanges).length := by
  cases h with
  | unknown _ => rfl
  | mute _ _ => rfl
  | passes _ echo _ =>
    obtain ⟨c, points, hcount, -⟩ := debugger_count echo
    rw [hcount]
    rfl
  | @stops stack r' _ echo _ =>
    obtain ⟨c, points, hcount, -⟩ := debugger_count echo
    let stop := (r'.count stack step).halt n stack step
    obtain ⟨records, hnext⟩ := stop.pause.debugger_next
    have hinput : stop.debugger.input = r.debugger.input := by
      have hinput : (r'.count stack step).debugger.input = r.debugger.input := by rw [hcount]
      exact hinput
    change stop.pause.next.1.debugger.input = _
    rw [hnext, Option.toList_some, List.flatMap_singleton, ← hinput]
    exact stop.input_pause

/-- The lines that were read during a run are gone, and no others. -/
theorem input_runFrom (r : Replay) (n : Nat) (steps : List TraceStep) :
    (r.runFrom n steps).1.debugger.input =
      r.debugger.input.drop (r.exchanges n steps).length := by
  induction steps generalizing r n with
  | nil => rfl
  | cons step rest ih =>
    have hinput := (r.moves n step).input
    rw [runFrom_cons, exchanges_cons, List.length_append, ← List.drop_drop, ← hinput]
    split
    · exact ih _ _
    · rfl

end Replay

/-! ## Unknown functions -/

namespace RecordedFrame

variable {p : Program}

theorem frames_eq_error {known rest : List RecordedFrame} {bad : RecordedFrame}
    (hknown : ∀ r ∈ known, (p.findFunction? r.function).isSome)
    (hbad : p.findFunction? bad.function = none) :
    frames p (known ++ bad :: rest) = .error bad.function := by
  induction known with
  | nil =>
    have hframe : bad.frame? p = none := by
      unfold frame?
      rw [hbad]
      rfl
    rw [List.nil_append, frames, hframe]
  | cons r known ih =>
    obtain ⟨id, hid⟩ := Option.isSome_iff_exists.1 (hknown r List.mem_cons_self)
    obtain ⟨frame, hframe⟩ : ∃ frame, r.frame? p = some frame := by
      unfold frame?
      rw [hid]
      exact ⟨_, rfl⟩
    rw [List.cons_append, frames, hframe, ih fun r' hr => hknown r' (List.mem_cons_of_mem r hr)]
    rfl

/-- The outermost call that names no function. -/
theorem exists_outermost {recorded : List RecordedFrame}
    (h : ∃ r ∈ recorded, p.findFunction? r.function = none) :
    ∃ known bad rest, recorded = known ++ bad :: rest ∧
      (∀ r ∈ known, (p.findFunction? r.function).isSome) ∧
      p.findFunction? bad.function = none := by
  let unknown (r : RecordedFrame) : Bool := (p.findFunction? r.function).isNone
  obtain ⟨r, hr, hnone⟩ := h
  have hfind : (recorded.find? unknown).isSome := by
    rw [List.find?_isSome]
    exact ⟨r, hr, Option.isNone_iff_eq_none.2 hnone⟩
  obtain ⟨bad, hfind⟩ := Option.isSome_iff_exists.1 hfind
  obtain ⟨hbad, known, rest, hsplit, hknown⟩ := List.find?_eq_some_iff_append.1 hfind
  refine ⟨known, bad, rest, hsplit, fun r hr => ?_, Option.isNone_iff_eq_none.1 hbad⟩
  have hnot := hknown r hr
  rw [Bool.not_eq_true', Option.isNone_eq_false_iff] at hnot
  exact hnot

end RecordedFrame

namespace Replay

theorem program_after? {r r' : Replay} {n : Nat} {steps : List TraceStep}
    (h : r.after? n steps = some r') : r'.debugger.program = r.debugger.program := by
  induction steps generalizing r n with
  | nil =>
    cases h
    rfl
  | cons step rest ih =>
    unfold after? at h
    split at h
    · rw [ih h, (r.moves n step).program]
    · cases h

theorem advance_unknown {r : Replay} {step : TraceStep} {known rest : List RecordedFrame}
    {bad : RecordedFrame} (hstack : step.stack = known ++ bad :: rest)
    (hknown : ∀ frame ∈ known, (r.debugger.program.findFunction? frame.function).isSome)
    (hbad : r.debugger.program.findFunction? bad.function = none) (n : Nat) :
    r.advance n step = (r, .failed (.unknownFunction bad.function)) := by
  have hcalls : step.callStack r.debugger.program = .error bad.function := by
    unfold TraceStep.callStack
    rw [hstack, RecordedFrame.frames_eq_error hknown hbad]
    rfl
  exact (Moves.unknown hcalls).eq.2

/-- An event with a call of an unknown function has no effect of its own, and what follows it is not
looked at. If the replay of the earlier events has an answer, the whole replay is the same. Else the
whole replay breaks off with the outermost unknown name and leaves the debugger and the engine as the
replay of the earlier events does, but for the note that the events are exhausted. -/
theorem run_unknown (d : Debugger) (globals : Table String Value) (earlier later : List TraceStep)
    (step : TraceStep)
    (hstep : ∃ frame ∈ step.stack, d.program.findFunction? frame.function = none) :
    let before := run d ⟨globals, earlier⟩
    let whole := run d ⟨globals, earlier ++ step :: later⟩
    whole = run d ⟨globals, earlier ++ [step]⟩ ∧
      (before.2 ≠ .ok none → whole = before) ∧
      (before.2 = .ok none → ∃ known bad rest, step.stack = known ++ bad :: rest ∧
        (∀ frame ∈ known, (d.program.findFunction? frame.function).isSome) ∧
        d.program.findFunction? bad.function = none ∧
        whole.2 = .error (.unknownFunction bad.function) ∧
        before.1 = whole.1.note [⟨.info, s!"trace exhausted after {earlier.length} steps"⟩]) := by
  intro before whole
  cases hafter : (start d globals).after? 0 earlier with
  | none =>
    obtain ⟨hanswer, happend⟩ := runFrom_append_of_ends hafter
    have hwhole : whole = before := happend _
    exact ⟨hwhole.trans (happend [step]).symm, fun _ => hwhole, fun h => absurd h hanswer⟩
  | some r =>
    obtain ⟨known, bad, rest, hstack, hknown, hbad⟩ := RecordedFrame.exists_outermost hstep
    have hprogram : r.debugger.program = d.program := program_after? hafter
    have hadvance := advance_unknown hstack (hprogram ▸ hknown) (hprogram ▸ hbad) earlier.length
    have hwhole : ∀ more, run d ⟨globals, earlier ++ step :: more⟩
        = (r, .error (.unknownFunction bad.function)) := by
      intro more
      change (start d globals).runFrom 0 (earlier ++ step :: more) = _
      rw [runFrom_append hafter, Nat.zero_add, runFrom_cons, hadvance]
      rfl
    have hbefore : before = r.runFrom earlier.length [] := by
      have hrun := runFrom_append hafter []
      rw [List.append_nil, Nat.zero_add] at hrun
      exact hrun
    have hresult : whole.2 = .error (.unknownFunction bad.function) := congrArg Prod.snd (hwhole _)
    have hleft : before.1 =
        whole.1.note [⟨.info, s!"trace exhausted after {earlier.length} steps"⟩] := by
      rw [hbefore, show whole.1 = r from congrArg Prod.fst (hwhole _)]
      rfl
    exact ⟨(hwhole _).trans (hwhole []).symm, fun h => absurd (congrArg Prod.snd hbefore) h,
      fun _ => ⟨known, bad, rest, hstack, hknown, hbad, hresult, hleft⟩⟩

/-- Both calls of the second event are unknown; on the first event the program stops. -/
theorem run_unknown_inInitializer :
    let program := (Program.create {}
      ⟨"demo", "demo", true, none, [], [⟨{}, .empty, []⟩], []⟩).program
    let call (name : String) : RecordedFrame := ⟨name, [], [], .empty, 0, 0, none, {}, none⟩
    let enter : TraceStep := ⟨.callEnter, {}, [call "demo.init"]⟩
    let bad : TraceStep := ⟨.callEnter, {}, [call "demo.ghost", call "demo.shade"]⟩
    let d := Debugger.start program [.text "+", .text "step", .text "where"] {} {}
    let before := run d ⟨.empty, [enter]⟩
    let whole := run d ⟨.empty, [enter] ++ bad :: [enter]⟩
    whole.2 = .error (.unknownFunction "demo.ghost") ∧
      whole.1.debugger.console.shown = before.1.debugger.console.shown ∧
      whole.1.debugger.input = [.text "where"] ∧ whole.1.engine.tracing = true := by
  intro program call enter bad d before whole
  have hghost : program.findFunction? "demo.ghost" = none := by decide
  obtain ⟨-, -, hbreaks⟩ := run_unknown d .empty [enter] [enter] bad
    ⟨call "demo.ghost", List.mem_cons_self, hghost⟩
  have hbefore : before.2.toOption = some none ∧ before.1.debugger.input = [.text "where"] ∧
      before.1.engine.tracing = true := by decide +kernel
  obtain ⟨hanswer, hinput, htracing⟩ := hbefore
  have hok : before.2 = .ok none := by
    cases hresult : before.2 with
    | error cause =>
      rw [hresult] at hanswer
      cases hanswer
    | ok answer =>
      rw [hresult] at hanswer
      exact congrArg Except.ok (Option.some.inj hanswer)
  obtain ⟨known, unknown, rest, hstack, hknown, hunknown, hresult, hleft⟩ := hbreaks hok
  have hname : unknown.function = "demo.ghost" := by
    cases known with
    | nil =>
      obtain ⟨hcall, -⟩ := List.cons.inj hstack
      rw [← hcall]
    | cons first known =>
      obtain ⟨hcall, -⟩ := List.cons.inj hstack
      have hfirst : (program.findFunction? first.function).isSome := hknown first List.mem_cons_self
      rw [← hcall] at hfirst
      have hnone : (program.findFunction? "demo.ghost").isSome := hfirst
      rw [hghost] at hnone
      cases hnone
  rw [hname] at hresult
  have hshown : before.1.debugger.console.shown = whole.1.debugger.console.shown := by
    rw [hleft]
    rfl
  have hinput' : before.1.debugger.input = whole.1.debugger.input := by
    rw [hleft]
    rfl
  have htracing' : before.1.engine.tracing = whole.1.engine.tracing := by
    rw [hleft]
    rfl
  exact ⟨hresult, hshown.symm, hinput'.symm.trans hinput, htracing'.symm.trans htracing⟩

end Replay

end TraceDebugger
