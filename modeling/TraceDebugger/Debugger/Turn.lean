import TraceDebugger.Debugger.Inspection
import TraceDebugger.Debugger.Navigation
import TraceDebugger.Debugger.Request

/-!
# Turns

A turn carries out one command line (`Session.execute`). A report of the command is shown to the
user and ends the turn, not the session; only a failure to write does that.
-/

namespace TraceDebugger

/-- What a command line leads to. -/
structure Turn where
  /-- The session afterwards. -/
  session : Session
  /-- What follows, or why the line was cut short. -/
  result : Except ConsoleFailure Flow

namespace Session

/-- Lets the program run on. -/
def runOn (text : String) (directive : Directive) (mode : StepMode) : Reply :=
  { effects := [.write (text ++ "\n"), .direct directive], result := .ok (.resume mode) }

/-- Turns the tracing of instructions on or off. -/
def setTracing (on : Bool) : Reply :=
  { effects := [.write (if on then "Setting Instruction Trace\n" else "Clearing Instruction Trace\n"),
      .direct (.trace on)]
    result := .ok .prompt }

/-- The qualified name of the function on which a breakpoint is to be set. -/
def breakName? (s : Session) (name : String) : Option String :=
  if '.' ∈ name.toList then some name
  else s.package?.map fun p => s!"{p.name}.{name}"

/-- Sets a breakpoint on a function. -/
def setBreak (s : Session) (name : String) : Reply :=
  match s.breakName? name with
  | none => .fail .noFrame
  | some qualified =>
    match s.program.functionNamed? qualified with
    | none => .fail (.notAFunction name)
    | some function =>
      { effects := [.addBreakpoint function qualified,
          .write s!"Breakpoint {s.breakpoints.next} set in function {qualified}\n"]
        result := .ok .prompt }

/-- Takes a breakpoint away. -/
def deleteBreak (s : Session) (number : String) : Reply :=
  match Text.readBounded? 18446744073709551615 number with
  | none => .fail (.notAnInteger "breakpoint number" number)
  | some id =>
    if (s.breakpoints.find? id).isSome then
      { effects := [.removeBreakpoint id, .write s!"Deleted breakpoint {id}\n"]
        result := .ok .prompt }
    else .fail (.noBreakpoint id)

/-- A breakpoint in the list of breakpoints. -/
def breakpointLine (b : Breakpoint) : String :=
  let cells := [(3, toString b.id), (13, "breakpoint"), (4, "keep"),
    (3, if b.enabled then "y" else "n")]
  Text.joinWith " " (cells.map fun (width, cell) => Text.padRight width cell)
    ++ s!" {b.location} (hit {b.hits} times)"

/-- Lists the breakpoints. -/
def info (s : Session) (topic : String) : Reply :=
  if topic = "" ∨ ¬ Text.startsWith topic "breakpoints" then .fail (.unknownSubcommand topic)
  else if s.breakpoints.isEmpty then .lines ["No breakpoints set"]
  else .lines ("Num Type          Disp Enb Where" :: s.breakpoints.points.map breakpointLine)

/-- The commands of a group under its heading. -/
def categoryLines (category : Category) : List String :=
  s!"{category.title} --" ::
    (Command.all.filter fun c => c.category = category).map (fun c =>
      s!"  {c.shortest}: {c.summary}") ++ [""]

/-- Lists the commands, or explains one. -/
def help : Option String → Reply
  | none => .lines ("List of commands:" :: Category.all.flatMap categoryLines)
  | some word =>
    match Command.lookup word with
    | .error cause => .fail (.lookup cause)
    | .ok c => .lines (c.help ::
        if c.aliases.isEmpty then [] else ["Aliases: " ++ Text.joinWith ", " c.aliases])

/-- Ends with an exit code. -/
def quit : Option String → Reply
  | none => leave 0
  | some s =>
    match Text.readInt? (-2147483648) 2147483647 s with
    | some code => leave code
    | none => .fail (.notAnInteger "return code" s)
where
  /-- Says good-bye. -/
  leave (code : Int) : Reply :=
    { effects := [.write "That's all folks...\n"], result := .ok (.quit code) }

/-- What a request does. -/
def reply (s : Session) : Request → Reply
  | .step => runOn "Stepping..." .stepInto .into
  | .next => runOn "Step over..." (.stepOver s.stack.size) (.over s.stack.size)
  | .finish => runOn "Continuing until return..." (.stepOut s.stack.size) (.out s.stack.size)
  | .run => runOn "Continuing..." .run .run
  | .trace on => setTracing on
  | .locals name => s.locals name
  | .globals [] => s.allGlobals
  | .globals names => s.globals names
  | .parameters name => s.parameters name
  | .whatis name => s.whatis name
  | .env => s.env
  | .backtrace count => s.backtrace count
  | .frame number => s.frame number
  | .up count => s.up count
  | .down count => s.down count
  | .setBreak name => s.setBreak name
  | .deleteBreak number => s.deleteBreak number
  | .info topic => s.info topic
  | .help word => help word
  | .quit code => quit code

/-- What the words of a line do. -/
def replyTo (s : Session) : List String → Reply
  | [] => .lines ["Empty line skipped"]
  | word :: args =>
    match Request.ofWords word args with
    | .ok request => s.reply request
    | .error e => .fail e

/-- The line that reports an error. -/
def reportText (e : CommandError) : String := s!"** {e.message}\n"

/-- Carries out a reply and shows what it reports. -/
def carryOut (s : Session) (r : Reply) : Turn :=
  match s.perform r.effects with
  | (s, false) => ⟨s, .error .outputFull⟩
  | (s, true) =>
    match r.result with
    | .ok flow => ⟨s, .ok flow⟩
    | .error e =>
      match s.write? (reportText e) with
      | some s => ⟨s, .ok .prompt⟩
      | none => ⟨s.writePartly (reportText e), .error .outputFull⟩

/-- Carries out a command line. -/
def execute (s : Session) (line : String) : Turn :=
  s.carryOut (s.replyTo (Text.commandWords line))

end Session

end TraceDebugger
