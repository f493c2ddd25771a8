import TraceDebugger.Debugger.Basic

/-!
# What a command can do

Besides showing something, a command does at most one thing: it lets the program run on, turns the
tracing of instructions on or off, selects a call, sets a breakpoint or takes one away, or quits
(`Reply.Way`). Which of these it can be is known from the verb alone (`Session.replyTo_way`), and a
command that reports an error has done nothing but show texts.
-/

namespace TraceDebugger

/-! ## Verbs -/

/-- What the engine is told when the program runs on in a mode. -/
def StepMode.directive : StepMode → Directive
  | .into => .stepInto
  | .over depth => .stepOver depth
  | .out depth => .stepOut depth
  | .run => .run

/-- The verb that lets the program run on in a mode. -/
def StepMode.verb : StepMode → Verb
  | .into => .step
  | .over _ => .next
  | .out _ => .finish
  | .run => .run

/-- A mode that counts calls counts from `n` of them. -/
def StepMode.CountsFrom (mode : StepMode) (n : Nat) : Prop :=
  ∀ depth, mode = .over depth ∨ mode = .out depth → depth = n

/-- The verb that turns the tracing of instructions on or off. -/
def Verb.tracing (on : Bool) : Verb := if on then .traceOn else .traceOff

/-- The verb of a request. -/
def Request.verb : Request → Verb
  | .step => .step
  | .next => .next
  | .finish => .finish
  | .run => .run
  | .trace on => .tracing on
  | .locals _ => .locals
  | .globals _ => .globals
  | .parameters _ => .parameters
  | .whatis _ => .whatis
  | .env => .env
  | .backtrace _ => .backtrace
  | .frame _ => .frame
  | .up _ => .up
  | .down _ => .down
  | .setBreak _ => .setBreak
  | .deleteBreak _ => .deleteBreak
  | .info _ => .info
  | .help _ => .help
  | .quit _ => .quit

theorem Verb.verb_of_request? {v : Verb} {args : List String} {request : Request}
    (h : v.request? args = some request) : request.verb = v := by
  cases v with
  | whatis | frame | setBreak | deleteBreak | info =>
    obtain ⟨arg, -, rfl⟩ := Option.map_eq_some_iff.1 h
    rfl
  | _ =>
    cases h
    rfl

/-- The verb of the command that the first word of a list selects, if it selects one. -/
def Command.verbOf? (words : List String) : Option Verb :=
  words.head?.bind fun word => (Command.lookup word).toOption.map (·.verb)

theorem Request.verbOf?_of_ofWords {word : String} {args : List String} {request : Request}
    (h : Request.ofWords word args = .ok request) :
    Command.verbOf? (word :: args) = some request.verb := by
  unfold ofWords at h
  cases hlookup : Command.lookup word with
  | error cause =>
    rw [hlookup] at h
    cases h
  | ok command =>
    rw [hlookup] at h
    dsimp only at h
    split at h
    · cases h
    · split at h
      · rename_i request' hrequest
        cases h
        rw [Verb.verb_of_request? hrequest]
        simp [Command.verbOf?, hlookup, Except.toOption]
      · cases h

/-! ## Ways to reply -/

/-- A text that does not begin as a report of an error does. -/
def Session.Plain (text : String) : Prop := text.toList.head? ≠ some '*'

theorem Session.not_plain_reportText (e : CommandError) : ¬ Plain (reportText e) := by
  have hhead : (reportText e).toList.head? = some '*' := by
    change ("** " ++ e.message ++ "\n").toList.head? = some '*'
    rw [String.toList_append, String.toList_append]
    rfl
  exact fun hplain => hplain hhead

/-- The ways to reply to the command of a verb, if the words select one. -/
inductive Reply.Way (s : Session) : Option Verb → Reply → Prop
  /-- Texts are shown, and an error may be reported. -/
  | shows {verb : Option Verb} (texts : List String) {result : Except CommandError Flow}
    (prompts : ∀ flow, result = .ok flow → flow = .prompt) :
    Way s verb ⟨texts.map .write, result⟩
  /-- The program runs on. -/
  | runs {mode : StepMode} {text : String} (counts : mode.CountsFrom s.stack.size)
    (plain : Session.Plain (text ++ "\n")) :
    Way s (some mode.verb) (Session.runOn text mode.directive mode)
  /-- The tracing of instructions is turned on or off. -/
  | traces (on : Bool) : Way s (some (.tracing on)) (Session.setTracing on)
  /-- A call is selected. -/
  | moves {verb : Verb} (depth : Nat) {texts : List String}
    (verbs : verb = .frame ∨ verb = .up ∨ verb = .down)
    (plain : ∀ text ∈ texts, Session.Plain text) :
    Way s (some verb) ⟨.select depth :: texts.map .write, .ok .prompt⟩
  /-- A breakpoint is set. -/
  | sets (function : FunctionId) (location : String) {text : String}
    (plain : Session.Plain text) :
    Way s (some .setBreak) ⟨[.addBreakpoint function location, .write text], .ok .prompt⟩
  /-- A breakpoint is taken away. -/
  | deletes (id : Nat) {text : String} (plain : Session.Plain text) :
    Way s (some .deleteBreak) ⟨[.removeBreakpoint id, .write text], .ok .prompt⟩
  /-- The debugger quits. -/
  | quits (code : Int) : Way s (some .quit) (Session.quit.leave code)

namespace Session

variable {s : Session} {verb : Option Verb}

theorem way_fail (e : CommandError) : Reply.Way s verb (.fail e) :=
  .shows [] fun _ h => nomatch h

theorem way_lines (ls : List String) : Reply.Way s verb (.lines ls) := by
  have h : Reply.Way s verb ⟨(ls.map (· ++ "\n")).map .write, .ok .prompt⟩ :=
    .shows _ fun flow h => (Except.ok.inj h).symm
  rw [List.map_map] at h
  exact h

theorem plain_frameLine (s : Session) (selected depth : Nat) (frame : Frame) :
    Plain (s.frameLine selected depth frame ++ "\n") := by
  unfold Plain frameLine
  rw [String.toList_append, String.toList_append]
  split
  · exact nofun
  · exact nofun

theorem way_moveTo {verb : Verb} (h : verb = .frame ∨ verb = .up ∨ verb = .down) (n : Int)
    (absolute : Bool) : Reply.Way s (some verb) (s.moveTo n absolute) := by
  unfold moveTo
  split
  · exact way_fail _
  · dsimp only
    generalize (if absolute then n else FrameNumber.clamp (s.cursor + n)) = target
    split
    · let line := fun f => s.frameLine target.toNat target.toNat f ++ "\n"
      have hmoves : Reply.Way s (some verb) ⟨.select target.toNat ::
          (((s.stack.frame? target.toNat).toList.map line).map .write), .ok .prompt⟩ := by
        refine .moves _ h fun text htext => ?_
        obtain ⟨f, -, rfl⟩ := List.mem_map.1 htext
        exact s.plain_frameLine _ _ f
      rw [List.map_map] at hmoves
      exact hmoves
    · exact way_fail _

theorem way_frame (number : String) : Reply.Way s (some .frame) (s.frame number) := by
  unfold frame
  split
  · exact way_moveTo (.inl rfl) _ true
  · exact way_fail _

theorem way_up (count : Option String) : Reply.Way s (some .up) (s.up count) := by
  unfold up
  split
  · exact way_moveTo (.inr (.inl rfl)) _ false
  · exact way_fail _

theorem way_down (count : Option String) : Reply.Way s (some .down) (s.down count) := by
  unfold down
  split
  · exact way_moveTo (.inr (.inr rfl)) _ false
  · exact way_fail _

theorem way_backtrace (count : Option String) : Reply.Way s verb (s.backtrace count) := by
  unfold backtrace
  split
  · exact way_lines _
  · split
    · exact way_lines _
    · exact way_fail _

theorem way_whatis (name : String) : Reply.Way s verb (s.whatis name) := by
  unfold whatis
  split
  · exact way_fail _
  · split
    · exact way_fail _
    · exact .shows _ fun flow h => (Except.ok.inj h).symm

theorem way_locals (name : Option String) : Reply.Way s verb (s.locals name) := by
  unfold locals
  split
  · exact way_fail _
  · split
    · exact way_lines _
    · split
      · exact way_fail _
      · split
        · exact way_fail _
        · exact way_lines _

theorem way_parameters (name : Option String) : Reply.Way s verb (s.parameters name) := by
  unfold parameters
  split
  · exact way_fail _
  · split
    · exact way_lines _
    · split
      · exact way_fail _
      · exact way_lines _

/-- The known names are shown, and the first unknown one is reported. -/
theorem way_globals (names : List String) : Reply.Way s verb (s.globals names) := by
  have hshows : Reply.Way s verb ⟨(names.filterMap fun name =>
      (s.globalValue? name).map fun v => globalLine name v ++ "\n").map .write,
      (s.globals names).result⟩ := by
    refine .shows _ fun flow h => ?_
    simp only [globals] at h
    split at h
    · cases h
    · exact (Except.ok.inj h).symm
  rw [List.map_filterMap] at hshows
  simp only [Option.map_map] at hshows
  exact hshows

theorem way_setBreak (name : String) : Reply.Way s (some .setBreak) (s.setBreak name) := by
  unfold setBreak
  split
  · exact way_fail _
  · split
    · exact way_fail _
    · refine .sets _ _ ?_
      unfold Plain
      change ("Breakpoint " ++ toString s.breakpoints.next ++ " set in function " ++ _
        ++ "\n").toList.head? ≠ _
      simp only [String.toList_append]
      exact nofun

theorem way_deleteBreak (number : String) :
    Reply.Way s (some .deleteBreak) (s.deleteBreak number) := by
  unfold deleteBreak
  split
  · exact way_fail _
  · split
    · rename_i id _ _
      refine .deletes _ ?_
      unfold Plain
      change ("Deleted breakpoint " ++ toString id ++ "\n").toList.head? ≠ _
      simp only [String.toList_append]
      exact nofun
    · exact way_fail _

theorem way_info (topic : String) : Reply.Way s verb (s.info topic) := by
  unfold info
  split
  · exact way_fail _
  · split
    · exact way_lines _
    · exact way_lines _

theorem way_help (word : Option String) : Reply.Way s verb (help word) := by
  unfold help
  split
  · exact way_lines _
  · split
    · exact way_fail _
    · exact way_lines _

theorem way_quit (code : Option String) : Reply.Way s (some .quit) (quit code) := by
  unfold quit
  split
  · exact .quits 0
  · split
    · exact .quits _
    · exact way_fail _

theorem way_runOn (mode : StepMode) {text : String} (counts : mode.CountsFrom s.stack.size)
    (plain : text.toList.head? = some 'S' ∨ text.toList.head? = some 'C') :
    Reply.Way s (some mode.verb) (runOn text mode.directive mode) := by
  refine .runs counts ?_
  unfold Plain
  rw [String.toList_append, List.head?_append]
  rcases plain with h | h
  · rw [h]
    exact nofun
  · rw [h]
    exact nofun

theorem reply_way (s : Session) (request : Request) :
    Reply.Way s (some request.verb) (s.reply request) := by
  cases request with
  | step => exact way_runOn .into (fun _ h => h.elim nofun nofun) (.inl rfl)
  | next =>
    exact way_runOn (.over s.stack.size) (fun _ h => by cases h <;> simp_all) (.inl rfl)
  | finish =>
    exact way_runOn (.out s.stack.size) (fun _ h => by cases h <;> simp_all) (.inr rfl)
  | run => exact way_runOn .run (fun _ h => h.elim nofun nofun) (.inr rfl)
  | trace on => exact .traces on
  | locals name => exact way_locals name
  | globals names =>
    cases names with
    | nil => exact way_lines _
    | cons name names => exact way_globals (name :: names)
  | parameters name => exact way_parameters name
  | whatis name => exact way_whatis name
  | env => exact way_lines _
  | backtrace count => exact way_backtrace count
  | frame number => exact way_frame number
  | up count => exact way_up count
  | down count => exact way_down count
  | setBreak name => exact way_setBreak name
  | deleteBreak number => exact way_deleteBreak number
  | info topic => exact way_info topic
  | help word => exact way_help word
  | quit code => exact way_quit code

/-- Words are replied to in a way that the verb they select has. -/
theorem replyTo_way (s : Session) (words : List String) :
    Reply.Way s (Command.verbOf? words) (s.replyTo words) := by
  cases words with
  | nil => exact way_lines _
  | cons word args =>
    unfold replyTo
    dsimp only
    split
    · rename_i request hrequest
      rw [Request.verbOf?_of_ofWords hrequest]
      exact s.reply_way request
    · exact way_fail _

end Session

end TraceDebugger
