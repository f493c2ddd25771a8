import TraceDebugger.Proofs.PartialWrites

/-!
# Conversations

What the lines of input come to when no write fails. `Session.converse` tells this without a
console: lines are obeyed until one of them lets the program run on or quits, and the end of input
quits with code zero. With a console that has no limit, the reading of commands during a stop does
just that (`Session.dialogue_unlimited`, `Debugger.pause_unlimited`).
-/

namespace TraceDebugger

theorem Console.write?_unlimited {c : Console} (h : c.limit = none) (text : String) :
    ∃ c' : Console, c'.limit = none ∧ c.write? text = some c' := by
  have hadmits : c.admits text = true := by
    unfold admits
    rw [h]
    rfl
  exact ⟨c.showing text, h, write?_of_admits hadmits⟩

/-- What a conversation comes to. -/
structure Conversation where
  /-- The session afterwards. -/
  session : Session
  /-- The lines that have not been read. -/
  rest : List String
  /-- How the program goes on. -/
  outcome : Outcome

namespace Session

/-- What an effect does besides showing and noting something. -/
def act (s : Session) : Effect → Session
  | .write _ => s
  | .select depth => s.select depth
  | .addBreakpoint function location =>
    { s with breakpoints := s.breakpoints.add function location }
  | .removeBreakpoint id => { s with breakpoints := s.breakpoints.remove id }
  | .direct d => { s with engine := s.engine.direct d }

/-- What a line does besides showing and noting something, and what follows it. -/
def obey (s : Session) (line : String) : Session × Flow :=
  let r := s.replyTo (Text.commandWords line)
  (r.effects.foldl act s, match r.result with
    | .ok flow => flow
    | .error _ => .prompt)

/-- Obeys lines until one lets the program run on or quits. The end of input quits. -/
def converse (s : Session) : List String → Conversation
  | [] => ⟨s, [], .quit 0⟩
  | line :: rest =>
    match s.obey line with
    | (s, .prompt) => s.converse rest
    | (s, .resume mode) => ⟨s, rest, .resume mode⟩
    | (s, .quit code) => ⟨s, rest, .quit code⟩

/-- The session with another console. -/
def withConsole (s : Session) (c : Console) : Session := { s with console := c }

section console

variable (s : Session) (c : Console)

theorem act_withConsole (e : Effect) : (s.withConsole c).act e = (s.act e).withConsole c := by
  cases e <;> rfl

theorem foldl_act_withConsole (effects : List Effect) :
    effects.foldl act (s.withConsole c) = (effects.foldl act s).withConsole c := by
  induction effects generalizing s with
  | nil => rfl
  | cons e es ih =>
    rw [List.foldl_cons, List.foldl_cons, act_withConsole]
    exact ih (s.act e)

theorem replyTo_withConsole (words : List String) :
    (s.withConsole c).replyTo words = s.replyTo words := rfl

theorem obey_withConsole (line : String) :
    (s.withConsole c).obey line = ((s.obey line).1.withConsole c, (s.obey line).2) := by
  unfold obey
  rw [replyTo_withConsole]
  dsimp only
  rw [foldl_act_withConsole]

theorem converse_withConsole (lines : List String) : (s.withConsole c).converse lines =
    { s.converse lines with session := (s.converse lines).session.withConsole c } := by
  induction lines generalizing s with
  | nil => rfl
  | cons line rest ih =>
    simp only [converse, obey_withConsole]
    rcases s.obey line with ⟨s', _ | mode | code⟩
    · exact ih s'
    · rfl
    · rfl

end console

/-! ## Without a limit -/

theorem write?_unlimited {s : Session} (h : s.console.limit = none) (text : String) :
    ∃ c : Console, c.limit = none ∧ s.write? text = some (s.withConsole c) := by
  obtain ⟨c, hc, hwrite⟩ := Console.write?_unlimited h text
  refine ⟨c, hc, ?_⟩
  unfold write?
  rw [hwrite]
  rfl

theorem enact?_unlimited {s : Session} (h : s.console.limit = none) (e : Effect) :
    ∃ c : Console, c.limit = none ∧ s.enact? e = some ((s.act e).withConsole c) := by
  cases e with
  | write text => exact write?_unlimited h text
  | select depth => exact ⟨s.console, h, rfl⟩
  | addBreakpoint function location => exact ⟨s.console.note _, h, rfl⟩
  | removeBreakpoint id => exact ⟨s.console.note _, h, rfl⟩
  | direct d => exact ⟨s.console.note _, h, rfl⟩

theorem perform_unlimited {s : Session} (h : s.console.limit = none) (effects : List Effect) :
    ∃ c : Console, c.limit = none ∧
      s.perform effects = ((effects.foldl act s).withConsole c, true) := by
  induction effects generalizing s with
  | nil => exact ⟨s.console, h, rfl⟩
  | cons e es ih =>
    obtain ⟨c, hc, henact⟩ := enact?_unlimited h e
    obtain ⟨c', hc', hperform⟩ := ih (s := (s.act e).withConsole c) hc
    refine ⟨c', hc', ?_⟩
    rw [foldl_act_withConsole] at hperform
    simp only [perform, henact, List.foldl_cons]
    exact hperform

theorem execute_unlimited {s : Session} (h : s.console.limit = none) (line : String) :
    ∃ c : Console, c.limit = none ∧
      s.execute line = ⟨(s.obey line).1.withConsole c, .ok (s.obey line).2⟩ := by
  obtain ⟨c, hc, hperform⟩ := perform_unlimited h (s.replyTo (Text.commandWords line)).effects
  simp only [execute, carryOut, obey, hperform]
  cases hresult : (s.replyTo (Text.commandWords line)).result with
  | ok flow => exact ⟨c, hc, rfl⟩
  | error e =>
    obtain ⟨c', hc', hwrite⟩ := write?_unlimited (s := Session.withConsole _ c) hc (reportText e)
    refine ⟨c', hc', ?_⟩
    dsimp only
    rw [hwrite]
    rfl

theorem endOfInput_unlimited {s : Session} (h : s.console.limit = none) (prompts : Nat) :
    ∃ c : Console, c.limit = none ∧
      s.endOfInput prompts = ⟨s.withConsole c, [], prompts, .ok (.quit 0)⟩ := by
  obtain ⟨c, hc, hwrite⟩ := write?_unlimited
    (s := s.note [⟨.debug, "end of command input"⟩]) h "\n"
  refine ⟨c, hc, ?_⟩
  unfold endOfInput
  dsimp only
  rw [hwrite]
  rfl

/-- Without a limit, the reading of commands is a conversation. -/
theorem dialogue_unlimited {s : Session} (h : s.console.limit = none) (prompts : Nat)
    (lines : List String) : ∃ (c : Console) (n : Nat), c.limit = none ∧
      s.dialogue prompts (lines.map .text) =
        ⟨(s.converse lines).session.withConsole c, (s.converse lines).rest.map .text, n,
          .ok (s.converse lines).outcome⟩ := by
  induction lines generalizing s prompts with
  | nil =>
    obtain ⟨c, hc, hprompt⟩ := write?_unlimited h (s.promptText (prompts + 1))
    obtain ⟨c', hc', hend⟩ := endOfInput_unlimited (s := s.withConsole c) hc (prompts + 1)
    refine ⟨c', prompts + 1, hc', ?_⟩
    simp only [List.map_nil, dialogue, hprompt]
    exact hend
  | cons line rest ih =>
    obtain ⟨c, hc, hprompt⟩ := write?_unlimited h (s.promptText (prompts + 1))
    obtain ⟨c', hc', hturn⟩ := execute_unlimited (s := s.withConsole c) hc line
    rw [obey_withConsole] at hturn
    simp only [List.map_cons, dialogue, hprompt, hturn, converse]
    rcases s.obey line with ⟨s', _ | mode | code⟩
    · obtain ⟨c'', n, hc'', hrest⟩ := ih (s := s'.withConsole c') hc' (prompts + 1)
      rw [converse_withConsole] at hrest
      exact ⟨c'', n, hc'', hrest⟩
    · exact ⟨c', prompts + 1, hc', rfl⟩
    · exact ⟨c', prompts + 1, hc', rfl⟩

theorem foldl_act_writes (s : Session) (texts : List String) :
    (texts.map Effect.write).foldl act s = s := by
  induction texts with
  | nil => rfl
  | cons text rest ih => exact ih

theorem showLines_unlimited {s : Session} (h : s.console.limit = none) (ls : List String) :
    ∃ c : Console, c.limit = none ∧ s.showLines ls = (s.withConsole c, true) := by
  obtain ⟨c, hc, hperform⟩ := perform_unlimited h ((ls.map (· ++ "\n")).map .write)
  rw [foldl_act_writes, List.map_map] at hperform
  exact ⟨c, hc, hperform⟩

end Session

/-! ## Stops -/

/-- How the program runs on after a stop, if it does, and else as before. -/
def Outcome.modeAfter (before : StepMode) : Outcome → StepMode
  | .resume mode => mode
  | .quit _ => before

/-- What a debugger does after a stop. -/
def Outcome.phaseAfter : Outcome → Phase
  | .resume mode => .stepping mode
  | .quit _ => .terminated

/-- The text of a line, if it is a text. -/
def Text.Line.content? : Text.Line → Option String
  | .text content => some content
  | .malformed => none

namespace Debugger

/-- The lines of input that have not been read and are texts. -/
def lines (d : Debugger) : List String := d.input.filterMap Text.Line.content?

theorem filterMap_content? (lines : List String) :
    (lines.map Text.Line.text).filterMap Text.Line.content? = lines := by
  rw [List.filterMap_map]
  exact List.filterMap_some

theorem input_eq {d : Debugger} (h : ∀ line ∈ d.input, line ≠ .malformed) :
    d.input = d.lines.map .text := by
  unfold lines
  generalize d.input = input at h ⊢
  induction input with
  | nil => rfl
  | cons line rest ih =>
    have hrest := ih fun l hl => h l (List.mem_cons_of_mem line hl)
    cases line with
    | text content => exact congrArg (Text.Line.text content :: ·) hrest
    | malformed => exact absurd rfl (h .malformed List.mem_cons_self)

/-- The conversation of a stop. -/
def talk (d : Debugger) (stack : CallStack) (event : Event) (engine : Engine) : Conversation :=
  (Session.start d.program stack d.config event engine d.breakpoints d.console).converse d.lines

theorem talk_withConsole (d : Debugger) (c : Console) (stack : CallStack) (event : Event)
    (engine : Engine) : talk { d with console := c } stack event engine =
      { d.talk stack event engine with
        session := (d.talk stack event engine).session.withConsole c } :=
  Session.converse_withConsole
    (.start d.program stack d.config event engine d.breakpoints d.console) c d.lines

/-- Without a limit, a stop comes to what its conversation comes to. -/
theorem pause_unlimited {d : Debugger} (hlimit : d.console.limit = none)
    (hinput : d.input = d.lines.map .text) (stack : CallStack) (instruction : Instruction)
    (event : Event) (engine : Engine) :
    let talk := d.talk stack event engine
    ∃ (c : Console) (prompts : Nat), c.limit = none ∧
      d.pause stack instruction event engine =
        ⟨{ d with
            input := talk.rest.map .text
            breakpoints := talk.session.breakpoints
            mode := talk.outcome.modeAfter d.mode
            phase := talk.outcome.phaseAfter
            lastEvent := some event
            console := c, prompts },
          talk.session.engine, .ok talk.outcome⟩ := by
  intro talk
  let s := Session.start d.program stack d.config event engine d.breakpoints d.console
  let noted := d.console.note [⟨.trace, s!"suspended on {event.text} at depth {stack.size}"⟩]
  obtain ⟨c, hc, hshown⟩ := Session.showLines_unlimited (s := s.withConsole noted) hlimit
    ((s.withConsole noted).location instruction)
  obtain ⟨c', n, hc', hdialogue⟩ := Session.dialogue_unlimited
    (s := (s.withConsole noted).withConsole c) hc d.prompts d.lines
  rw [Session.converse_withConsole, Session.converse_withConsole] at hdialogue
  refine ⟨c', n, hc', ?_⟩
  have hstart : Session.start d.program stack d.config event engine d.breakpoints noted
      = s.withConsole noted := rfl
  unfold pause
  dsimp only
  rw [hstart, hshown, hinput]
  dsimp only
  rw [hdialogue]
  have htalk : s.converse d.lines = talk := rfl
  rw [htalk]
  rcases talk with ⟨session, rest, mode | code⟩
  · rfl
  · rfl

end Debugger

end TraceDebugger
