import TraceDebugger.Proofs.InstructionTracing

/-!
# Runs without tracing

Tracing has no part in anything but what is shown. Sessions, and replays, that differ in it, in what
the engine was told and in the console, are alike (`Session.Alike`, `Replay.Alike`). A line makes
like sessions of like ones, and so does a line that turns tracing on or off, with an empty line in
its place (`Session.Alike.obey_withoutSwitch`). So without such lines a run stops on the same events
and goes on in the same modes (`Replay.Alike.visits`), and all that they do is that instructions are
shown (`Replay.echoes_exactly`).
-/

namespace TraceDebugger

/-! ## Lines -/

/-- The line; an empty line in place of one that turns the tracing of instructions on or off. -/
def Text.withoutSwitch (line : String) : String := if (switch? line).isSome then "" else line

/-- The line of input; an empty line in place of one that turns the tracing of instructions on or
off. -/
def Text.Line.withoutSwitch : Text.Line → Text.Line
  | .text content => .text (Text.withoutSwitch content)
  | .malformed => .malformed

theorem Text.filterMap_withoutSwitch (input : List Line) :
    (input.map Line.withoutSwitch).filterMap Line.content? =
      (input.filterMap Line.content?).map Text.withoutSwitch := by
  rw [List.filterMap_map, List.map_filterMap]
  refine List.filterMap_congr fun line _ => ?_
  cases line <;> rfl

/-! ## Sessions -/

namespace Session

/-- The session with other tracing, another record of what the engine was told and another
console. -/
def retraced (s : Session) (tracing : Bool) (told : List Directive) (c : Console) : Session :=
  { s with engine := { s.engine with tracing, directives := told }, console := c }

/-- Sessions that differ in tracing, in what the engine was told and in the console only. -/
def Alike (s s' : Session) : Prop := ∃ tracing told c, s' = s.retraced tracing told c

namespace Alike

variable {s s' : Session}

theorem replyTo (h : s.Alike s') (words : List String) : s'.replyTo words = s.replyTo words := by
  obtain ⟨tracing, told, c, rfl⟩ := h
  rfl

theorem act (h : s.Alike s') (e : Effect) : (s.act e).Alike (s'.act e) := by
  obtain ⟨tracing, told, c, rfl⟩ := h
  cases e with
  | direct d => exact ⟨_, _, c, rfl⟩
  | _ => exact ⟨tracing, told, c, rfl⟩

theorem foldl_act (h : s.Alike s') (effects : List Effect) :
    (effects.foldl Session.act s).Alike (effects.foldl Session.act s') := by
  induction effects generalizing s s' with
  | nil => exact h
  | cons e rest ih => exact ih (h.act e)

theorem obey (h : s.Alike s') (line : String) :
    (s.obey line).1.Alike (s'.obey line).1 ∧ (s'.obey line).2 = (s.obey line).2 := by
  unfold Session.obey
  rw [h.replyTo]
  exact ⟨h.foldl_act _, rfl⟩

/-- A line does the same to like sessions, and an empty line does what a switch does but for
tracing. -/
theorem obey_withoutSwitch (h : s.Alike s') (line : String) :
    (s.obey line).1.Alike (s'.obey (Text.withoutSwitch line)).1 ∧
      (s'.obey (Text.withoutSwitch line)).2 = (s.obey line).2 := by
  unfold Text.withoutSwitch
  split
  · rename_i hswitch
    obtain ⟨on, hon⟩ := Option.isSome_iff_exists.1 hswitch
    have hempty : s'.obey "" = (s', .prompt) := rfl
    have hobey : s.obey line = (s.act (.direct (.trace on)), .prompt) := by
      unfold Session.obey
      rw [replyTo_of_switch hon]
      rfl
    rw [hempty, hobey]
    obtain ⟨tracing, told, c, rfl⟩ := h
    exact ⟨⟨tracing, told, c, rfl⟩, rfl⟩
  · exact h.obey line

theorem converse (h : s.Alike s') (lines : List String) :
    let talk := s.converse lines
    let talk' := s'.converse (lines.map Text.withoutSwitch)
    talk'.outcome = talk.outcome ∧ talk'.rest = talk.rest.map Text.withoutSwitch ∧
      talk.session.Alike talk'.session := by
  induction lines generalizing s s' with
  | nil => exact ⟨rfl, rfl, h⟩
  | cons line rest ih =>
    obtain ⟨halike, hflow⟩ := h.obey_withoutSwitch line
    simp only [List.map_cons, Session.converse]
    rcases hobey : s.obey line with ⟨s₁, flow⟩
    rcases hobey' : s'.obey (Text.withoutSwitch line) with ⟨s₁', flow'⟩
    rw [hobey, hobey'] at halike hflow
    dsimp only at halike hflow
    subst hflow
    cases flow' with
    | prompt => exact ih halike
    | resume mode => exact ⟨rfl, rfl, halike⟩
    | quit code => exact ⟨rfl, rfl, halike⟩

end Alike

end Session

/-! ## Replays -/

namespace Replay

/-- Replays that differ in tracing and in the lines that switch it, in what the engine was told, in
the console and in the number of prompts only. -/
structure Alike (r r' : Replay) : Prop where
  debugger : ∃ prompts c, r'.debugger =
    { r.debugger with
      input := r.debugger.input.map Text.Line.withoutSwitch, prompts, console := c }
  engine : ∃ tracing told, r'.engine = { r.engine with tracing, directives := told }

/-- A replay in which nothing fails: no write does, and each line of input is a text. -/
structure Smooth (r : Replay) : Prop where
  limit : r.debugger.console.limit = none
  input : r.debugger.input = r.debugger.lines.map .text

theorem Smooth.note {r : Replay} (h : r.Smooth) (records : List Record) : (r.note records).Smooth :=
  ⟨h.limit, h.input⟩

theorem Follows.smooth {program : Program} {config : Config} {mode : StepMode}
    {points : Breakpoints} {r : Replay} (h : Follows program config mode points r) : r.Smooth :=
  ⟨h.limit, h.input⟩

/-- Up to the decision whether the program stops nothing fails. -/
theorem Follows.exists_echo {program : Program} {config : Config} {mode : StepMode}
    {points : Breakpoints} {r : Replay} (h : Follows program config mode points r)
    (stack : CallStack) (step : TraceStep) :
    ∃ e, (r.bind stack).echo? step = some e ∧ (e.count stack step).Smooth := by
  obtain ⟨c, hc, hecho⟩ := (h.bind stack).echo step
  exact ⟨_, hecho, (((h.bind stack).withConsole hc).countHit step.event stack).smooth⟩

namespace Alike

variable {r r' : Replay}

theorem note (h : r.Alike r') (records records' : List Record) :
    (r.note records).Alike (r'.note records') := by
  obtain ⟨⟨prompts, c, hdebugger⟩, hengine⟩ := h
  refine ⟨⟨prompts, c.note records', ?_⟩, hengine⟩
  unfold Replay.note
  rw [hdebugger]

theorem bind (h : r.Alike r') (stack : CallStack) : (r.bind stack).Alike (r'.bind stack) := by
  obtain ⟨⟨prompts, c, hdebugger⟩, tracing, told, hengine⟩ := h
  refine ⟨⟨prompts, c, hdebugger⟩, tracing, told, ?_⟩
  unfold Replay.bind
  rw [hdebugger, hengine]

theorem echo {step : TraceStep} {e e' : Replay} (h : r.Alike r') (he : r.echo? step = some e)
    (he' : r'.echo? step = some e') : e.Alike e' := by
  obtain ⟨c, rfl, -⟩ := echo?_eq_some he
  obtain ⟨c', rfl, -⟩ := echo?_eq_some he'
  obtain ⟨⟨prompts, c₀, hdebugger⟩, hengine⟩ := h
  exact ⟨⟨prompts, c', congrArg (fun d => { d with console := c' }) hdebugger⟩, hengine⟩

theorem count (h : r.Alike r') (stack : CallStack) (step : TraceStep) :
    (r.count stack step).Alike (r'.count stack step) := by
  obtain ⟨⟨prompts, c, hdebugger⟩, hengine⟩ := h
  refine ⟨⟨prompts, c, ?_⟩, hengine⟩
  unfold Replay.count Debugger.countHit
  rw [hdebugger]
  split
  · rfl
  · rfl

theorem stopsOn (h : r.Alike r') (event : Event) (stack : CallStack) :
    r'.debugger.stopsOn event stack = r.debugger.stopsOn event stack := by
  obtain ⟨⟨prompts, c, hdebugger⟩, -⟩ := h
  rw [hdebugger]
  rfl

/-- The conversations of a stop. -/
theorem talk (h : r.Alike r') (stack : CallStack) (event : Event) :
    let talk := r.debugger.talk stack event r.engine
    let talk' := r'.debugger.talk stack event r'.engine
    talk'.outcome = talk.outcome ∧ talk'.rest = talk.rest.map Text.withoutSwitch ∧
      talk.session.Alike talk'.session := by
  obtain ⟨⟨prompts, c, hdebugger⟩, tracing, told, hengine⟩ := h
  have hsession : (Session.start r.debugger.program stack r.debugger.config event r.engine
      r.debugger.breakpoints r.debugger.console).Alike
      (.start r'.debugger.program stack r'.debugger.config event r'.engine
        r'.debugger.breakpoints r'.debugger.console) := by
    rw [hdebugger, hengine]
    exact ⟨tracing, told, c, rfl⟩
  have hlines : r'.debugger.lines = r.debugger.lines.map Text.withoutSwitch := by
    unfold Debugger.lines
    rw [hdebugger]
    exact Text.filterMap_withoutSwitch r.debugger.input
  unfold Debugger.talk
  rw [hlines]
  exact hsession.converse r.debugger.lines

theorem pause (h : r.Alike r') (hr : r.Smooth) (hr' : r'.Smooth) (stack : CallStack)
    (instruction : Instruction) (event : Event) :
    let pause := r.debugger.pause stack instruction event r.engine
    let pause' := r'.debugger.pause stack instruction event r'.engine
    Replay.Alike ⟨pause.debugger, pause.engine⟩ ⟨pause'.debugger, pause'.engine⟩ ∧
      pause'.result = pause.result := by
  intro pause pause'
  obtain ⟨c, prompts, -, hpause⟩ := Debugger.pause_unlimited hr.limit hr.input stack instruction
    event r.engine
  obtain ⟨c', prompts', -, hpause'⟩ := Debugger.pause_unlimited hr'.limit hr'.input stack
    instruction event r'.engine
  obtain ⟨houtcome, hrest, tracing, told, c'', hsession⟩ := h.talk stack event
  obtain ⟨⟨_, _, hdebugger⟩, _⟩ := h
  dsimp only [pause, pause']
  rw [hpause, hpause', houtcome, hrest, hsession, hdebugger]
  refine ⟨⟨⟨prompts', c', ?_⟩, tracing, told, rfl⟩, rfl⟩
  dsimp only
  rw [List.map_map, List.map_map]
  rfl

theorem next {pause pause' : Pause}
    (h : Replay.Alike ⟨pause.debugger, pause.engine⟩ ⟨pause'.debugger, pause'.engine⟩)
    (hresult : pause'.result = pause.result) :
    pause.next.1.Alike pause'.next.1 ∧ pause'.next.2 = pause.next.2 := by
  unfold Pause.next
  rw [hresult]
  dsimp only
  split
  · exact ⟨h.note _ _, rfl⟩
  · exact ⟨h.note _ _, rfl⟩
  · exact ⟨h, rfl⟩

section follows

variable {program : Program} {config : Config} {mode mode' : StepMode} {points points' : Breakpoints}

/-- One event: both programs stop or neither does, and they go on in the same way. -/
theorem advance (h : r.Alike r') (hr : Follows program config mode points r)
    (hr' : Follows program config mode' points' r') (n : Nat) {step : TraceStep}
    {stack : CallStack} (hstack : step.callStack program = .ok stack) :
    (r.advance n step).1.Alike (r'.advance n step).1 ∧
      (r'.advance n step).2 = (r.advance n step).2 := by
  have hcalls : step.callStack r.debugger.program = .ok stack := by rw [hr.program_eq, hstack]
  have hcalls' : step.callStack r'.debugger.program = .ok stack := by rw [hr'.program_eq, hstack]
  obtain ⟨e, hecho, hsmooth⟩ := hr.exists_echo stack step
  obtain ⟨e', hecho', hsmooth'⟩ := hr'.exists_echo stack step
  have hechoed := (h.bind stack).echo hecho hecho'
  have hstops := hechoed.stopsOn step.event stack
  have hcounted := hechoed.count stack step
  cases hstop : e.debugger.stopsOn step.event stack with
  | false =>
    rw [(Moves.passes (n := n) hcalls hecho hstop).eq.2,
      (Moves.passes (n := n) hcalls' hecho' (hstops.trans hstop)).eq.2]
    exact ⟨hcounted, rfl⟩
  | true =>
    rw [(Moves.stops (n := n) hcalls hecho hstop).eq.2,
      (Moves.stops (n := n) hcalls' hecho' (hstops.trans hstop)).eq.2]
    let records := [(⟨.debug, s!"step {n} suspends on {step.event.text}"⟩ : Record)]
    obtain ⟨hpaused, hresult⟩ := (hcounted.note records records).pause (hsmooth.note records)
      (hsmooth'.note records) stack step.instruction step.event
    exact next hpaused hresult

/-- The runs stop on the same events and go on in the same modes. -/
theorem visits (h : r.Alike r') (hr : Follows program config mode points r)
    (hr' : Follows program config mode' points' r') (n : Nat) {steps : List TraceStep}
    (hknown : Knows program steps) :
    (r'.visits n steps).map (fun v => (v.progress, v.after.debugger.mode)) =
      (r.visits n steps).map fun v => (v.progress, v.after.debugger.mode) := by
  induction steps generalizing r r' n mode mode' points points' with
  | nil => rfl
  | cons step rest ih =>
    obtain ⟨stack, hstack⟩ := exists_callStack (hknown step List.mem_cons_self)
    obtain ⟨hnext, hprogress⟩ := h.advance hr hr' n hstack
    obtain ⟨-, -, -, hfollows⟩ := hr.advance n hstack
    obtain ⟨-, -, -, hfollows'⟩ := hr'.advance n hstack
    have hmode : (r'.advance n step).1.debugger.mode = (r.advance n step).1.debugger.mode := by
      obtain ⟨prompts, c, hdebugger⟩ := hnext.debugger
      rw [hdebugger]
    rw [visits_cons, visits_cons, List.map_cons, List.map_cons, hprogress, hmode]
    split
    · rw [ih hnext hfollows hfollows' (n + 1) fun s hs => hknown s (List.mem_cons_of_mem step hs)]
    · rfl

end follows

end Alike

/-! ## Instructions are shown where they are traced -/

/-- An event shows its instruction if and only if it is processed, is a bare instruction, and the
last line before that switches tracing turned it on; the instruction is shown before anything else
of the event, and whether or not the program stops. All that is shown are such instructions and the
texts of the stops. With empty lines in place of those that switch tracing, the program stops on the
same events, is then in the same modes, and the run has the same answer. -/
theorem echoes_exactly (program : Program) (config : Config) (input : List Text.Line)
    (console : Console) (trace : Trace) (hlimit : console.limit = none)
    (hinput : ∀ line ∈ input, line ≠ .malformed) (hknown : Knows program trace.steps) :
    let d := Debugger.start program input config console
    let d' := Debugger.start program (input.map Text.Line.withoutSwitch) config console
    let visits := (start d trace.globals).visits 0 trace.steps
    let visits' := (start d' trace.globals).visits 0 trace.steps
    let switches (j : Nat) :=
      ((start d trace.globals).exchanges 0 (trace.steps.take j)).filterMap Exchange.switch?
    let texts (j : Nat) (v : Visit) : List String :=
      (if v.step.event = .stepInstruction ∧ (switches j).getLast? = some true
        then [v.step.instruction.echo] else []) ++
      (v.before.stop? j v.step).toList.flatMap Stop.texts
    (∀ j step, trace.steps[j]? = some step →
      ((∃ v, visits[j]? = some v ∧ v.step = step) ↔ ∀ i < j, ¬ QuitsAt visits i)) ∧
    (∀ j v, visits[j]? = some v →
      v.after.console.shown = v.before.console.shown ++ String.join (texts j v)) ∧
    (run d trace).1.console.shown =
      console.shown ++ String.join (visits.zipIdx.flatMap fun e => texts e.2 e.1) ∧
    visits'.map (fun v => (v.progress, v.after.debugger.mode)) =
      visits.map (fun v => (v.progress, v.after.debugger.mode)) ∧
    (run d' trace).2 = (run d trace).2 := by
  intro d d' visits visits' switches texts
  have hstart : Follows program config d.mode {} (start d trace.globals) :=
    ⟨rfl, rfl, hlimit, Debugger.input_eq hinput, rfl, fun _ => rfl⟩
  have hinput' : ∀ line ∈ input.map Text.Line.withoutSwitch, line ≠ .malformed := by
    intro line hline
    obtain ⟨line, hmem, rfl⟩ := List.mem_map.1 hline
    cases line with
    | text content => exact nofun
    | malformed => exact absurd rfl (hinput .malformed hmem)
  have hstart' : Follows program config d'.mode {} (start d' trace.globals) :=
    ⟨rfl, rfl, hlimit, Debugger.input_eq hinput', rfl, fun _ => rfl⟩
  have halike : (start d trace.globals).Alike (start d' trace.globals) :=
    ⟨⟨0, console, rfl⟩, false, [], rfl⟩
  have hok := hstart.not_failed 0 hknown
  have htexts : ∀ {j : Nat} {v : Visit}, visits[j]? = some v →
      texts j v = v.before.texts j v.step := by
    intro j v hv
    have htracing : v.before.engine.tracing = true ↔ (switches j).getLast? = some true := by
      rw [tracing_visits hok hv, Exchange.tracingAfter_eq]
      change (switches j).getLast?.getD false = true ↔ _
      cases (switches j).getLast? with
      | none => simp
      | some on => simp
    have htraced : v.step.event = .stepInstruction ∧ (switches j).getLast? = some true ↔
        v.before.engine.tracing = true ∧ v.step.event = .stepInstruction := by
      rw [htracing, and_comm]
    exact congrArg (· ++ _) (if_congr htraced rfl rfl)
  have hvisits := halike.visits hstart hstart' 0 hknown
  have hprogress : visits'.map (·.progress) = visits.map (·.progress) := by
    have hfirst := congrArg (List.map Prod.fst) hvisits
    rw [List.map_map, List.map_map] at hfirst
    exact hfirst
  refine ⟨fun j step hstep => exists_visit_iff hok hstep, fun j v hv => ?_, ?_, hvisits, ?_⟩
  · have hadvance := advance_of_visits hv
    rw [Nat.zero_add] at hadvance
    have hadvanced : ∀ cause, (v.before.advance j v.step).2 ≠ .failed cause :=
      hadvance ▸ hok v (List.mem_of_getElem? hv)
    have hshown := shown_advance hadvanced
    rw [hadvance] at hshown
    rw [htexts hv]
    exact hshown
  · have hshown := shown_runFrom hok
    refine hshown.trans (congrArg (fun texts => console.shown ++ String.join texts) ?_)
    refine List.flatMap_congr fun e he => (htexts ?_).symm
    exact List.mem_zipIdx_iff_getElem?.1 he
  · have hrun := hstart.runFrom 0 hknown
    have hrun' := hstart'.runFrom 0 hknown
    refine hrun'.trans (Eq.trans ?_ hrun.symm)
    have hcodes := congrArg (List.findSome? Progress.exitCode?) hprogress
    rw [List.findSome?_map, List.findSome?_map] at hcodes
    exact congrArg Except.ok hcodes

/-- An instruction that is passed is shown, since tracing was turned on at the stop before. -/
theorem echoes_exactly_in_initializer :
    let program := (Program.create {}
      ⟨"demo", "demo", true, none, [], [⟨{}, .empty, []⟩], []⟩).program
    let call : RecordedFrame := ⟨"demo.init", [], [], .empty, 0, 0, none, {}, none⟩
    let steps : List TraceStep :=
      [⟨.callEnter, {}, [call]⟩, ⟨.stepInstruction, { index := 1, text := "return" }, [call]⟩]
    let input : List Text.Line := [.text "+", .text "finish"]
    let d := Debugger.start program input {} {}
    let d' := Debugger.start program (input.map Text.Line.withoutSwitch) {} {}
    let visits := (start d .empty).visits 0 steps
    Knows program steps ∧
      (∃ v, visits[1]? = some v ∧ v.progress = .passed ∧
        v.after.console.shown = v.before.console.shown ++ "0.1: return\n") ∧
      (run d' ⟨.empty, steps⟩).2 = (run d ⟨.empty, steps⟩).2 := by
  intro program call steps input d d' visits
  have hcall : (program.findFunction? call.function).isSome := by decide
  have hknown : Knows program steps := by
    intro step hstep frame hframe
    simp only [steps, List.mem_cons, List.not_mem_nil, or_false] at hstep
    rcases hstep with rfl | rfl
    · rw [List.mem_singleton.1 hframe]
      exact hcall
    · rw [List.mem_singleton.1 hframe]
      exact hcall
  obtain ⟨-, hshown, -, -, hanswer⟩ :=
    echoes_exactly program {} input {} ⟨.empty, steps⟩ rfl (by decide) hknown
  have hswitch : (((start d .empty).exchanges 0 (steps.take 1)).filterMap
      Exchange.switch?).getLast? = some true := by decide +kernel
  have hsecond : visits[1]?.map (fun v => (v.progress, v.step.event, v.step.instruction.echo,
      (v.before.stop? 1 v.step).toList.flatMap Stop.texts)) =
      some (.passed, .stepInstruction, "0.1: return\n", []) := by decide +kernel
  obtain ⟨v, hv, hvisit⟩ := Option.map_eq_some_iff.1 hsecond
  obtain ⟨hprogress, hvisit⟩ := Prod.mk.inj hvisit
  obtain ⟨hevent, hvisit⟩ := Prod.mk.inj hvisit
  obtain ⟨hecho, hstop⟩ := Prod.mk.inj hvisit
  have htexts := hshown 1 v hv
  dsimp only at htexts
  rw [if_pos ⟨hevent, hswitch⟩, hecho, hstop] at htexts
  exact ⟨hknown, ⟨v, hv, hprogress, htexts⟩, hanswer⟩

end Replay

end TraceDebugger
