import TraceDebugger.Proofs.Directives
import TraceDebugger.Replay

/-!
# Prompts and lines of input

During a stop the debugger shows a prompt, reads a line of input, carries it out and begins again,
until a line lets the program run on or quits, or something fails. The exchanges of a stop are the
prompts that were shown with what was read after them (`Stop.exchanges`), and the reading of
commands is put together from them (`Session.Talk`).
-/

namespace TraceDebugger

/-- A prompt that was shown, and what was read after it. -/
structure Exchange where
  number : Nat
  /-- The line that was read; none at the end of input. -/
  line : Option Text.Line
  session : Session

/-- What follows a command after which the program goes on in some way. -/
def Outcome.flow : Outcome → Flow
  | .resume mode => .resume mode
  | .quit code => .quit code

/-- What a turn leads to, unless the next command is read. -/
def Turn.outcome? (turn : Turn) : Option (Except ConsoleFailure Outcome) :=
  match turn.result with
  | .error cause => some (.error cause)
  | .ok .prompt => none
  | .ok (.resume mode) => some (.ok (.resume mode))
  | .ok (.quit code) => some (.ok (.quit code))

namespace Exchange

/-- What is done after reading: the line is carried out; at the end of input the debugger quits. -/
def turn (e : Exchange) : Turn :=
  match e.line with
  | none =>
    let dialogue := e.session.endOfInput e.number
    ⟨dialogue.session, dialogue.result.map Outcome.flow⟩
  | some .malformed => ⟨e.session, .error .malformedInput⟩
  | some (.text content) => e.session.execute content

theorem outcome?_endOfInput {e : Exchange} (h : e.line = none) :
    e.turn.outcome? = some (e.session.endOfInput e.number).result := by
  unfold turn
  rw [h]
  dsimp only
  rcases (e.session.endOfInput e.number).result with cause | mode | code
  · rfl
  · rfl
  · rfl

end Exchange

namespace Session

/-- Shows the prompt after `prompts` others, after which `line` is read. -/
def ask? (s : Session) (prompts : Nat) (line : Option Text.Line) : Option Exchange :=
  (s.write? (s.promptText (prompts + 1))).map fun s => ⟨prompts + 1, line, s⟩

theorem ask?_eq_none_iff {s : Session} {prompts : Nat} {line : Option Text.Line} :
    s.ask? prompts line = none ↔ s.write? (s.promptText (prompts + 1)) = none :=
  Option.map_eq_none_iff

theorem ask?_eq_some_iff {s : Session} {prompts : Nat} {line : Option Text.Line} {e : Exchange} :
    s.ask? prompts line = some e ↔
      ∃ s', s.write? (s.promptText (prompts + 1)) = some s' ∧ ⟨prompts + 1, line, s'⟩ = e :=
  Option.map_eq_some_iff

/-- The exchanges of a dialogue that begins after `prompts` prompts. -/
def exchanges (s : Session) (prompts : Nat) : List Text.Line → List Exchange
  | [] => (s.ask? prompts none).toList
  | line :: rest =>
    match s.ask? prompts (some line) with
    | none => []
    | some e => e :: if e.turn.outcome?.isSome then [] else e.turn.session.exchanges (prompts + 1) rest

/-- A dialogue is put together from its exchanges: each begins in the session in which the one
before ended, with the next prompt and the next line, and all but the last lead to the next. -/
inductive Talk : Session → Nat → List Text.Line → List Exchange → Dialogue → Prop
  /-- The prompt cannot be shown. -/
  | mute {s : Session} {prompts : Nat} {lines : List Text.Line}
    (asked : s.ask? prompts lines.head? = none) :
    Talk s prompts lines []
      ⟨s.writePartly (s.promptText (prompts + 1)), lines, prompts + 1, .error .outputFull⟩
  /-- The line ends the dialogue. -/
  | last {s : Session} {prompts : Nat} {lines : List Text.Line} {e : Exchange}
    {result : Except ConsoleFailure Outcome} (asked : s.ask? prompts lines.head? = some e)
    (ends : e.turn.outcome? = some result) :
    Talk s prompts lines [e] ⟨e.turn.session, lines.tail, prompts + 1, result⟩
  /-- The next command is read after the line. -/
  | more {s : Session} {prompts : Nat} {lines : List Text.Line} {e : Exchange}
    {es : List Exchange} {d : Dialogue} (asked : s.ask? prompts lines.head? = some e)
    (goes : e.turn.outcome? = none) (rest : Talk e.turn.session (prompts + 1) lines.tail es d) :
    Talk s prompts lines (e :: es) d

theorem talk_nil (s : Session) (prompts : Nat) :
    Talk s prompts [] (s.exchanges prompts []) (s.dialogue prompts []) := by
  unfold exchanges dialogue
  cases hask : s.ask? prompts none with
  | none =>
    rw [ask?_eq_none_iff.1 hask]
    exact .mute hask
  | some e =>
    obtain ⟨s', hprompt, rfl⟩ := ask?_eq_some_iff.1 hask
    rw [hprompt]
    have hdialogue : s'.endOfInput (prompts + 1) = ⟨(s'.endOfInput (prompts + 1)).session, [],
        prompts + 1, (s'.endOfInput (prompts + 1)).result⟩ := by
      unfold endOfInput
      dsimp only
      split
      · rfl
      · rfl
    dsimp only
    rw [hdialogue]
    exact .last hask (Exchange.outcome?_endOfInput rfl)

section line

variable {s : Session} {prompts : Nat} {line : Text.Line} {e : Exchange}

/-- A line that ends the dialogue. -/
theorem dialogue_of_ends {result : Except ConsoleFailure Outcome}
    (asked : s.ask? prompts (some line) = some e) (ends : e.turn.outcome? = some result)
    (rest : List Text.Line) :
    s.dialogue prompts (line :: rest) = ⟨e.turn.session, rest, prompts + 1, result⟩ := by
  obtain ⟨s', hprompt, rfl⟩ := ask?_eq_some_iff.1 asked
  unfold dialogue
  rw [hprompt]
  cases line with
  | malformed =>
    cases ends
    rfl
  | text content =>
    change (s'.execute content).outcome? = _ at ends
    unfold Turn.outcome? at ends
    split at ends
    · rename_i cause hresult
      cases ends
      dsimp only
      rw [hresult]
      rfl
    · cases ends
    · rename_i mode hresult
      cases ends
      dsimp only
      rw [hresult]
      rfl
    · rename_i code hresult
      cases ends
      dsimp only
      rw [hresult]
      rfl

/-- A line after which the next command is read. -/
theorem dialogue_of_goes (asked : s.ask? prompts (some line) = some e)
    (goes : e.turn.outcome? = none) (rest : List Text.Line) :
    s.dialogue prompts (line :: rest) = e.turn.session.dialogue (prompts + 1) rest := by
  obtain ⟨s', hprompt, rfl⟩ := ask?_eq_some_iff.1 asked
  cases line with
  | malformed => cases goes
  | text content =>
    change (s'.execute content).outcome? = _ at goes
    unfold Turn.outcome? at goes
    split at goes
    · cases goes
    · rename_i hresult
      simp only [dialogue, hprompt, hresult]
      rfl
    · cases goes
    · cases goes

end line

theorem talk_dialogue (s : Session) (prompts : Nat) (lines : List Text.Line) :
    Talk s prompts lines (s.exchanges prompts lines) (s.dialogue prompts lines) := by
  induction lines generalizing s prompts with
  | nil => exact s.talk_nil prompts
  | cons line rest ih =>
    cases hask : s.ask? prompts (some line) with
    | none =>
      unfold exchanges dialogue
      rw [hask, ask?_eq_none_iff.1 hask]
      exact .mute hask
    | some e =>
      cases hturn : e.turn.outcome? with
      | some result =>
        rw [dialogue_of_ends hask hturn]
        simp only [exchanges, hask, hturn]
        exact .last hask hturn
      | none =>
        rw [dialogue_of_goes hask hturn]
        simp only [exchanges, hask, hturn]
        exact .more hask hturn (ih _ _)

/-- There is one way only to put a dialogue together. -/
theorem Talk.unique {s : Session} {prompts : Nat} {lines : List Text.Line}
    {es es' : List Exchange} {d d' : Dialogue} (h : Talk s prompts lines es d)
    (h' : Talk s prompts lines es' d') : es = es' ∧ d = d' := by
  induction h generalizing es' d' with
  | mute asked =>
    cases h' with
    | mute _ => exact ⟨rfl, rfl⟩
    | last asked' _ =>
      rw [asked] at asked'
      cases asked'
    | more asked' _ _ =>
      rw [asked] at asked'
      cases asked'
  | last asked ends =>
    cases h' with
    | mute asked' =>
      rw [asked] at asked'
      cases asked'
    | last asked' ends' =>
      rw [asked] at asked'
      cases asked'
      rw [ends] at ends'
      cases ends'
      exact ⟨rfl, rfl⟩
    | more asked' goes' _ =>
      rw [asked] at asked'
      cases asked'
      rw [ends] at goes'
      cases goes'
  | more asked goes _ ih =>
    cases h' with
    | mute asked' =>
      rw [asked] at asked'
      cases asked'
    | last asked' ends' =>
      rw [asked] at asked'
      cases asked'
      rw [goes] at ends'
      cases ends'
    | more asked' _ rest' =>
      rw [asked] at asked'
      cases asked'
      obtain ⟨rfl, rfl⟩ := ih rest'
      exact ⟨rfl, rfl⟩

theorem Talk.eq {s : Session} {prompts : Nat} {lines : List Text.Line} {es : List Exchange}
    {d : Dialogue} (h : Talk s prompts lines es d) :
    s.exchanges prompts lines = es ∧ s.dialogue prompts lines = d :=
  (s.talk_dialogue prompts lines).unique h

/-- The lines that were read are gone. -/
theorem Talk.input {s : Session} {prompts : Nat} {lines : List Text.Line} {es : List Exchange}
    {d : Dialogue} (h : Talk s prompts lines es d) : d.input = lines.drop es.length := by
  induction h with
  | mute _ => rfl
  | last _ _ => exact List.drop_one.symm
  | more _ _ _ ih => rw [ih, List.length_cons, ← List.drop_one, List.drop_drop, Nat.add_comm]

end Session

/-! ## Stops -/

/-- A stop of the program: the debugger at that moment, and what it is shown. -/
structure Stop where
  debugger : Debugger
  stack : CallStack
  instruction : Instruction
  event : Event
  engine : Engine

namespace Stop

/-- The session before anything is shown. -/
def session (stop : Stop) : Session :=
  let d := stop.debugger
  Session.start d.program stop.stack d.config stop.event stop.engine d.breakpoints
    (d.console.note [⟨.trace, s!"suspended on {stop.event.text} at depth {stop.stack.size}"⟩])

/-- The session after the place has been shown, and whether it has been. -/
def opened (stop : Stop) : Session × Bool :=
  stop.session.showLines (stop.session.location stop.instruction)

/-- The exchanges of the stop. There are none if the place cannot be shown. -/
def exchanges (stop : Stop) : List Exchange :=
  if stop.opened.2 then stop.opened.1.exchanges stop.debugger.prompts stop.debugger.input else []

/-- The reading of commands during the stop. -/
def dialogue (stop : Stop) : Dialogue :=
  if stop.opened.2 then stop.opened.1.dialogue stop.debugger.prompts stop.debugger.input
  else ⟨stop.opened.1, stop.debugger.input, stop.debugger.prompts, .error .outputFull⟩

/-- What comes of the stop. -/
def pause (stop : Stop) : Pause :=
  stop.debugger.pause stop.stack stop.instruction stop.event stop.engine

theorem pause_eq_leave (stop : Stop) :
    stop.pause = stop.debugger.leave stop.event stop.dialogue := by
  have hdialogue : stop.debugger.dialogueAt stop.stack stop.instruction stop.event stop.engine
      = stop.dialogue := by
    unfold dialogue opened Debugger.dialogueAt session
    dsimp only
    split
    · rename_i hopened
      rw [hopened]
      rfl
    · rename_i hopened
      rw [hopened]
      rfl
  rw [← hdialogue]
  exact stop.debugger.pause_eq _ _ _ _

theorem talk {stop : Stop} (h : stop.opened.2 = true) : stop.opened.1.Talk stop.debugger.prompts
    stop.debugger.input stop.exchanges stop.dialogue := by
  unfold exchanges dialogue
  rw [if_pos h, if_pos h]
  exact stop.opened.1.talk_dialogue _ _

theorem eq_of_talk (stop : Stop) {s : Session} {es : List Exchange} {d : Dialogue}
    (hopened : stop.opened = (s, true))
    (h : s.Talk stop.debugger.prompts stop.debugger.input es d) :
    stop.exchanges = es ∧ stop.dialogue = d := by
  unfold exchanges dialogue
  rw [hopened, if_pos rfl, if_pos rfl]
  exact h.eq

/-- The lines that were read during a stop are gone. -/
theorem input_pause (stop : Stop) :
    stop.pause.debugger.input = stop.debugger.input.drop stop.exchanges.length := by
  rw [pause_eq_leave]
  change stop.dialogue.input = _
  unfold dialogue exchanges
  split
  · exact (stop.opened.1.talk_dialogue _ _).input
  · rfl

end Stop

end TraceDebugger
