import TraceDebugger.Proofs.PartialWrites
import TraceDebugger.Proofs.Replies

/-!
# What the engine is told during a stop

A stop leads to exactly one outcome. The engine is told how far to run once if the program runs on,
and not at all if the debugger quits or the console fails. The commands that let the program run on
write before they tell the engine, and only a write can fail, so no failure comes between the two.
-/

namespace TraceDebugger

/-! ## The console -/

namespace Console

/-- A console with room for some number of bytes takes the texts, which are that long together. -/
theorem exists_size_foldlM_write? (texts : List String) : ∃ size, ∀ {c : Console} {limit : Nat},
    c.limit = some limit → c.shown.utf8ByteSize + size ≤ limit → ∃ c',
      texts.foldlM write? c = some c' ∧ c'.limit = some limit ∧
        c'.shown.utf8ByteSize = c.shown.utf8ByteSize + size := by
  induction texts with
  | nil => exact ⟨0, fun {c limit} hlimit _ => ⟨c, rfl, hlimit, rfl⟩⟩
  | cons t rest ih =>
    obtain ⟨size, hsize⟩ := ih
    refine ⟨t.utf8ByteSize + size, fun {c limit} hlimit h => ?_⟩
    have hwrite : c.write? t = some (c.showing t) := by
      refine write?_of_admits (admits_iff.2 fun limit' hlimit' => ?_)
      rw [hlimit, Option.some.injEq] at hlimit'
      omega
    have hlength : (c.showing t).shown.utf8ByteSize = c.shown.utf8ByteSize + t.utf8ByteSize :=
      String.utf8ByteSize_append
    obtain ⟨c', hc', hlimit', hshown⟩ := hsize (c := c.showing t) hlimit (by omega)
    refine ⟨c', ?_, hlimit', by omega⟩
    rw [List.foldlM_cons, hwrite]
    exact hc'

/-- Any write of some bytes can be the first that fails: some limit lets just the writes before it
through. -/
theorem exists_limit_failing_at (c : Console) (before : List String) {text : String}
    (h : 0 < text.utf8ByteSize) : ∃ limit c',
      before.foldlM write? { c with limit := some limit } = some c' ∧ c'.write? text = none := by
  obtain ⟨size, hsize⟩ := exists_size_foldlM_write? before
  obtain ⟨c', hc', hlimit, hshown⟩ := hsize
    (c := { c with limit := some (c.shown.utf8ByteSize + size) }) rfl (Nat.le_refl _)
  refine ⟨_, c', hc', ?_⟩
  have hfull : ¬ c'.shown.utf8ByteSize + text.utf8ByteSize ≤ c.shown.utf8ByteSize + size := by
    simp only at hshown
    omega
  rw [write?_eq_none_iff, ← Bool.not_eq_true, admits_iff]
  intro hadmits
  have := hadmits _ hlimit
  omega

end Console

/-! ## Effects -/

/-- What an effect tells the engine about how far to run. -/
def Effect.steps : Effect → List Directive
  | .direct d => [d].filter Directive.isStep
  | _ => []

namespace Session

/-- Between two moments of a stop the engine is told how far to run by just these directives. -/
structure Issues (s s' : Session) (steps : List Directive) : Prop where
  /-- The running calls stay the same. -/
  stack : s'.stack = s.stack
  /-- What the engine is told is added to what it was told. -/
  told : ∃ told, s'.engine.directives = s.engine.directives ++ told ∧
    told.filter Directive.isStep = steps

theorem Issues.refl (s : Session) : s.Issues s [] := ⟨rfl, [], by simp, rfl⟩

theorem Issues.trans {s s' s'' : Session} {a b : List Directive} (h : s.Issues s' a)
    (h' : s'.Issues s'' b) : s.Issues s'' (a ++ b) := by
  obtain ⟨told, htold, ha⟩ := h.told
  obtain ⟨told', htold', hb⟩ := h'.told
  refine ⟨h'.stack.trans h.stack, told ++ told', ?_, ?_⟩
  · rw [htold', htold, List.append_assoc]
  · rw [List.filter_append, ha, hb]

theorem Issues.write {s s' : Session} {text : String} (h : s.write? text = some s') :
    s.Issues s' [] := by
  unfold write? at h
  obtain ⟨c, -, rfl⟩ := Option.map_eq_some_iff.1 h
  exact ⟨rfl, [], by simp, rfl⟩

theorem Issues.enact {s s' : Session} {e : Effect} (h : s.enact? e = some s') :
    s.Issues s' e.steps := by
  cases e with
  | write text => exact .write h
  | direct d =>
    cases h
    exact ⟨rfl, [d], rfl, rfl⟩
  | select depth =>
    cases h
    exact ⟨rfl, [], by simp [select], rfl⟩
  | addBreakpoint function location =>
    cases h
    exact ⟨rfl, [], by simp [note], rfl⟩
  | removeBreakpoint id =>
    cases h
    exact ⟨rfl, [], by simp [note], rfl⟩

theorem issues_writePartly (s : Session) (text : String) : s.Issues (s.writePartly text) [] := by
  obtain ⟨part, -, -, hwrite⟩ := s.exists_part text
  exact .write hwrite

/-- Of a list of effects the first few are carried out. -/
theorem perform_issues (s : Session) (effects : List Effect) : ∃ done rest,
    effects = done ++ rest ∧ s.Issues (s.perform effects).1 (done.flatMap Effect.steps) := by
  induction effects generalizing s with
  | nil => exact ⟨[], [], rfl, .refl s⟩
  | cons e es ih =>
    cases h : s.enact? e with
    | none =>
      obtain ⟨part, hwrite⟩ := s.exists_part_of_effect e
      refine ⟨[], e :: es, rfl, ?_⟩
      simp only [perform, h]
      exact .write hwrite
    | some s' =>
      obtain ⟨done, rest, rfl, hissues⟩ := ih s'
      refine ⟨e :: done, rest, rfl, ?_⟩
      simp only [perform, h, List.flatMap_cons]
      exact (Issues.enact h).trans hissues

end Session

/-! ## Replies -/

/-- A reply that says nothing of how far to run. -/
structure Reply.Calm (r : Reply) : Prop where
  /-- The engine is not told how far to run. -/
  effects : ∀ e ∈ r.effects, e.steps = []
  /-- The program does not run on. -/
  result : ∀ mode, r.result ≠ .ok (.resume mode)

namespace Reply

theorem calm_writes (texts : List String) (result : Except CommandError Flow)
    (h : ∀ mode, result ≠ .ok (.resume mode)) : Calm ⟨texts.map .write, result⟩ := by
  refine ⟨fun e he => ?_, h⟩
  obtain ⟨text, -, rfl⟩ := List.mem_map.1 he
  rfl

theorem calm_lines (ls : List String) : (lines ls).Calm := by
  have h := calm_writes (ls.map (· ++ "\n")) (.ok .prompt) fun _ h => nomatch h
  rw [List.map_map] at h
  exact h

theorem Calm.perform_issues {r : Reply} (h : r.Calm) (s : Session) :
    s.Issues (s.perform r.effects).1 [] := by
  obtain ⟨done, rest, heq, hissues⟩ := s.perform_issues r.effects
  have hdone : done.flatMap Effect.steps = [] := by
    rw [List.flatMap_eq_nil_iff]
    intro e he
    refine h.effects e ?_
    rw [heq]
    exact List.mem_append_left rest he
  rw [hdone] at hissues
  exact hissues

end Reply

namespace Session

/-- A reply that lets the program run on: the engine is told so after a write. -/
def LetsRun (s : Session) (r : Reply) : Prop :=
  ∃ text mode, r = runOn text mode.directive mode ∧ mode.CountsFrom s.stack.size

/-- Any words let the program run on, or say nothing of how far to run. -/
theorem replyTo_cases (s : Session) (words : List String) :
    (s.replyTo words).Calm ∨ s.LetsRun (s.replyTo words) := by
  have hway := s.replyTo_way words
  generalize Command.verbOf? words = verb at hway
  generalize s.replyTo words = r at hway
  have hcalm : ∀ {effects : List Effect} {flow : Flow}, (∀ e ∈ effects, e.steps = []) →
      (∀ mode, flow ≠ .resume mode) → Reply.Calm ⟨effects, .ok flow⟩ :=
    fun he hflow => ⟨he, fun mode h => hflow mode (Except.ok.inj h)⟩
  cases hway with
  | shows texts prompts =>
    exact .inl (Reply.calm_writes texts _ fun mode h => nomatch prompts _ h)
  | runs counts plain => exact .inr ⟨_, _, rfl, counts⟩
  | traces on => exact .inl (hcalm (by simp [Effect.steps, Directive.isStep]) fun _ => nofun)
  | moves depth verbs plain => exact .inl (hcalm (by simp [Effect.steps]) fun _ => nofun)
  | sets function location plain => exact .inl (hcalm (by simp [Effect.steps]) fun _ => nofun)
  | deletes id plain => exact .inl (hcalm (by simp [Effect.steps]) fun _ => nofun)
  | quits code => exact .inl (hcalm (by simp [Effect.steps]) fun _ => nofun)

end Session

/-! ## Turns and dialogues -/

/-- How the program runs on after a command, if it does. -/
def Flow.mode? : Flow → Option StepMode
  | .resume mode => some mode
  | _ => none

/-- How the program runs on after a stop, if it does. -/
def Outcome.mode? : Outcome → Option StepMode
  | .resume mode => some mode
  | .quit _ => none

namespace Session

/-- Between two moments of a stop the engine is told just once how far to run, as the mode says in
which the program runs on; it is not told when the program does not run on. -/
def Ends (s s' : Session) : Option StepMode → Prop
  | some mode => s.Issues s' [mode.directive] ∧ mode.CountsFrom s.stack.size
  | none => s.Issues s' []

theorem Issues.ends {s s' s'' : Session} {mode : Option StepMode} (h : s.Issues s' [])
    (h' : s'.Ends s'' mode) : s.Ends s'' mode := by
  cases mode with
  | none => exact h.trans h'
  | some mode =>
    obtain ⟨hissues, hcounts⟩ := h'
    rw [h.stack] at hcounts
    exact ⟨h.trans hissues, hcounts⟩

theorem carryOut_calm (s : Session) {r : Reply} (h : r.Calm) :
    s.Ends (s.carryOut r).session ((s.carryOut r).result.toOption.bind Flow.mode?) := by
  have hissues := h.perform_issues s
  unfold carryOut
  split
  · rename_i s' hperform
    rw [hperform] at hissues
    exact hissues
  · rename_i s' hperform
    rw [hperform] at hissues
    split
    · rename_i flow hflow
      cases flow with
      | prompt => exact hissues
      | quit code => exact hissues
      | resume mode => exact absurd hflow (h.result mode)
    · split
      · rename_i s'' hwrite
        exact hissues.trans (.write hwrite)
      · exact hissues.trans (s'.issues_writePartly _)

/-- A reply that lets the program run on tells the engine only after its write went through. -/
theorem carryOut_letsRun (s : Session) {r : Reply} (h : s.LetsRun r) :
    s.Ends (s.carryOut r).session ((s.carryOut r).result.toOption.bind Flow.mode?) := by
  obtain ⟨text, mode, rfl, hcounts⟩ := h
  cases h : s.write? (text ++ "\n") with
  | none =>
    have hperform : s.perform (runOn text mode.directive mode).effects =
        (s.writePartly (text ++ "\n"), false) := by
      simp only [runOn, perform, enact?, h]
      rfl
    simp only [carryOut, hperform]
    exact s.issues_writePartly _
  | some s' =>
    have hperform : s.perform (runOn text mode.directive mode).effects
        = ({ s' with engine := s'.engine.direct mode.directive }.note mode.directive.records,
          true) := by
      simp only [runOn, perform, enact?, h]
    have hsteps : [mode.directive].filter Directive.isStep = [mode.directive] := by
      cases mode <;> rfl
    simp only [carryOut, hperform]
    exact ⟨(Issues.write h).trans (b := [mode.directive]) ⟨rfl, _, rfl, hsteps⟩, hcounts⟩

theorem execute_ends (s : Session) (line : String) :
    s.Ends (s.execute line).session ((s.execute line).result.toOption.bind Flow.mode?) := by
  rcases s.replyTo_cases (Text.commandWords line) with h | h
  · exact s.carryOut_calm h
  · exact s.carryOut_letsRun h

theorem endOfInput_issues (s : Session) (prompts : Nat) :
    s.Issues (s.endOfInput prompts).session [] ∧
      (s.endOfInput prompts).result.toOption.bind Outcome.mode? = none := by
  have hnote : s.Issues (s.note [⟨.debug, "end of command input"⟩]) [] :=
    ⟨rfl, [], by simp [note], rfl⟩
  unfold endOfInput
  dsimp only
  split
  · rename_i s' hwrite
    exact ⟨hnote.trans (.write hwrite), rfl⟩
  · exact ⟨hnote.trans (issues_writePartly _ _), rfl⟩

/-- However many lines are read, the engine is told how far to run by the last of them only. -/
theorem dialogue_ends (s : Session) (prompts : Nat) (lines : List Text.Line) :
    s.Ends (s.dialogue prompts lines).session
      ((s.dialogue prompts lines).result.toOption.bind Outcome.mode?) := by
  induction lines generalizing s prompts with
  | nil =>
    simp only [dialogue]
    split
    · rename_i s' hprompt
      obtain ⟨hissues, hmode⟩ := s'.endOfInput_issues (prompts + 1)
      rw [hmode]
      exact (Issues.write hprompt).trans hissues
    · exact s.issues_writePartly _
  | cons line rest ih =>
    simp only [dialogue]
    split
    · exact s.issues_writePartly _
    · rename_i s' hprompt
      refine (Issues.write hprompt).ends ?_
      cases line with
      | malformed => exact .refl s'
      | text content =>
        have hturn := s'.execute_ends content
        dsimp only
        split
        · rename_i e hresult
          rw [hresult] at hturn
          exact hturn
        · rename_i hresult
          rw [hresult] at hturn
          exact hturn.ends (ih _ _)
        · rename_i mode hresult
          rw [hresult] at hturn
          exact hturn
        · rename_i code hresult
          rw [hresult] at hturn
          exact hturn

theorem showLines_issues (s : Session) (ls : List String) : s.Issues (s.showLines ls).1 [] :=
  (Reply.calm_lines ls).perform_issues s

end Session

/-! ## Stops -/

namespace Debugger

/-- The dialogue of a stop, after the place has been shown. -/
def dialogueAt (d : Debugger) (stack : CallStack) (instruction : Instruction) (event : Event)
    (engine : Engine) : Dialogue :=
  let s := Session.start d.program stack d.config event engine d.breakpoints
    (d.console.note [⟨.trace, s!"suspended on {event.text} at depth {stack.size}"⟩])
  match s.showLines (s.location instruction) with
  | (s, true) => s.dialogue d.prompts d.input
  | (s, false) => ⟨s, d.input, d.prompts, .error .outputFull⟩

/-- What a dialogue makes of the debugger. -/
def leave (d : Debugger) (event : Event) (dialogue : Dialogue) : Pause where
  debugger := { d with
    input := dialogue.input
    prompts := dialogue.prompts
    breakpoints := dialogue.session.breakpoints
    console := dialogue.session.console
    lastEvent := some event
    mode := match dialogue.result with
      | .ok (.resume mode) => mode
      | _ => d.mode
    phase := match dialogue.result with
      | .ok (.resume mode) => .stepping mode
      | .ok (.quit _) => .terminated
      | .error _ => .paused }
  engine := dialogue.session.engine
  result := dialogue.result

theorem pause_eq (d : Debugger) (stack : CallStack) (instruction : Instruction) (event : Event)
    (engine : Engine) : d.pause stack instruction event engine =
      d.leave event (d.dialogueAt stack instruction event engine) := rfl

theorem dialogueAt_ends (d : Debugger) (stack : CallStack) (instruction : Instruction)
    (event : Event) (engine : Engine) :
    (Session.start d.program stack d.config event engine d.breakpoints
      (d.console.note [⟨.trace, s!"suspended on {event.text} at depth {stack.size}"⟩])).Ends
      (d.dialogueAt stack instruction event engine).session
      ((d.dialogueAt stack instruction event engine).result.toOption.bind Outcome.mode?) := by
  unfold dialogueAt
  generalize Session.start d.program stack d.config event engine d.breakpoints _ = s
  have hshown := s.showLines_issues (s.location instruction)
  dsimp only
  split
  · rename_i s' heq
    rw [heq] at hshown
    exact hshown.ends (s'.dialogue_ends d.prompts d.input)
  · rename_i s' heq
    rw [heq] at hshown
    exact hshown

/-- The three ways in which a stop of the debugger `d` can end, with what the engine was told of
how far to run. If the program runs on, the engine was told just once, as the mode says, and a mode
that counts calls counts from all running calls; the debugger is in that mode. If the debugger quits
or the console fails, the engine was not told to run on and the mode is as before. -/
def Settles (d : Debugger) (stack : CallStack) (steps : List Directive) (stop : Pause) : Prop :=
  match stop.result with
  | .ok (.resume mode) => steps = [mode.directive] ∧ mode.CountsFrom stack.size ∧
    stop.debugger.mode = mode ∧ stop.debugger.phase = .stepping mode
  | .ok (.quit _) => steps = [] ∧ stop.debugger.mode = d.mode ∧ stop.debugger.phase = .terminated
  | .error _ => steps = [] ∧ stop.debugger.mode = d.mode ∧ stop.debugger.phase = .paused

/-- A stop ends in exactly one of three ways, whatever is read and whatever write fails. -/
theorem pause_outcome (d : Debugger) (stack : CallStack) (instruction : Instruction) (event : Event)
    (engine : Engine) :
    let stop := d.pause stack instruction event engine
    stop.debugger.lastEvent = some event ∧ ∃ told,
      stop.engine.directives = engine.directives ++ told ∧
        d.Settles stack (told.filter Directive.isStep) stop := by
  intro stop
  have hends := d.dialogueAt_ends stack instruction event engine
  refine ⟨rfl, ?_⟩
  dsimp only [stop]
  rw [pause_eq]
  generalize d.dialogueAt stack instruction event engine = dialogue at hends
  unfold Settles leave
  rcases hcase : dialogue.result with e | (mode | code)
  · rw [hcase] at hends
    obtain ⟨told, htold, hsteps⟩ := hends.told
    exact ⟨told, htold, hsteps, rfl, rfl⟩
  · rw [hcase] at hends
    obtain ⟨hissues, hcounts⟩ := hends
    obtain ⟨told, htold, hsteps⟩ := hissues.told
    exact ⟨told, htold, hsteps, hcounts, rfl, rfl⟩
  · rw [hcase] at hends
    obtain ⟨told, htold, hsteps⟩ := hends.told
    exact ⟨told, htold, hsteps, rfl, rfl⟩

end Debugger

end TraceDebugger
