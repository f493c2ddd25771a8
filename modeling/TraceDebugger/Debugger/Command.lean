import TraceDebugger.Text.Layout

/-!
# Commands

The commands of the debugger, and how a word selects one: by its name, by another name for it, or by
the beginning of one name only (`Command.lookup`).
-/

namespace TraceDebugger

/-- The groups in which commands are listed. -/
inductive Category where
  | running | data | stack | breakpoints | support
  deriving DecidableEq

namespace Category

/-- All groups in the order of the list. -/
def all : List Category := [.running, .data, .stack, .breakpoints, .support]

/-- The heading of a group. -/
def title : Category → String
  | .running => "Execution running"
  | .data => "Variables"
  | .stack => "Stack"
  | .breakpoints => "Breakpoints"
  | .support => "Other"

end Category

/-- What a command does. -/
inductive Verb where
  | step | next | finish | run | traceOn | traceOff
  | locals | globals | parameters | whatis | env
  | backtrace | frame | up | down
  | setBreak | deleteBreak | info
  | help | quit
  deriving DecidableEq

/-- A command as users see it. -/
structure Command where
  /-- What it does. -/
  verb : Verb
  /-- Its name. -/
  name : String
  /-- Other names for it. -/
  aliases : List String
  /-- The group in which it is listed. -/
  category : Category
  /-- The fewest arguments. -/
  minArgs : Nat
  /-- The most arguments, if there is a bound. -/
  maxArgs : Option Nat
  /-- What it does, in a few words. -/
  summary : String
  /-- What it does, at length. -/
  help : String

namespace Command

/-- All commands in the order of the list. -/
def all : List Command := [
  { verb := .step, name := "step", aliases := ["s"], category := .running
    minArgs := 0, maxArgs := some 0, summary := "step in"
    help := "step\n\nRun until the next instruction, entering calls." },
  { verb := .next, name := "next", aliases := ["n"], category := .running
    minArgs := 0, maxArgs := some 0, summary := "next or step over"
    help := "next\n\nRun to the next statement in this function or a caller, "
      ++ "stepping over calls." },
  { verb := .finish, name := "finish", aliases := ["fin"], category := .running
    minArgs := 0, maxArgs := some 0, summary := "finish or step out"
    help := "finish\n\nRun until the innermost function returns." },
  { verb := .run, name := "continue", aliases := ["c"], category := .running
    minArgs := 0, maxArgs := some 0, summary := "continue"
    help := "continue\n\nRun until a breakpoint or panic." },
  { verb := .traceOn, name := "+", aliases := [], category := .running
    minArgs := 0, maxArgs := some 0, summary := "add instruction tracing"
    help := "+\n\nTrace each instruction as it executes." },
  { verb := .traceOff, name := "-", aliases := [], category := .running
    minArgs := 0, maxArgs := some 0, summary := "remove instruction tracing"
    help := "-\n\nStop tracing instructions." },
  { verb := .locals, name := "locals", aliases := ["local", "lo", "loc"], category := .data
    minArgs := 0, maxArgs := some 1, summary := "show local variable info"
    help := "locals [*name*]\n\nShow all locals of the selected frame, or the one named *name* "
      ++ "visible from the current scope." },
  { verb := .globals, name := "globals", aliases := ["global", "gl"], category := .data
    minArgs := 0, maxArgs := none, summary := "show global variable info"
    help := "globals [*name*...]\n\nShow all package-level variables, or the named ones. "
      ++ "Names may be qualified as pkg.name." },
  { verb := .parameters, name := "parameters", aliases := ["param", "params", "parameter"]
    category := .data, minArgs := 0, maxArgs := some 1, summary := "show function parameter info"
    help := "parameters [*name*]\n\nShow the selected frame's parameters, or the one named "
      ++ "*name*." },
  { verb := .whatis, name := "whatis", aliases := ["v"], category := .data
    minArgs := 1, maxArgs := some 1, summary := "describe a name"
    help := "whatis *name*\n\nDescribe what *name* refers to from the selected frame: a local, "
      ++ "parameter, package member, or package. Use pkg.name for another package's member." },
  { verb := .env, name := "env", aliases := [], category := .data
    minArgs := 0, maxArgs := some 0, summary := "show the innermost frame's environment"
    help := "env\n\nList the values bound in the innermost frame's environment." },
  { verb := .backtrace, name := "backtrace", aliases := ["bt", "T", "where"], category := .stack
    minArgs := 0, maxArgs := some 1, summary := "print a backtrace"
    help := "backtrace [*count*]\n\nPrint the call stack, innermost first. The selected frame is "
      ++ "marked with =>." },
  { verb := .frame, name := "frame", aliases := [], category := .stack
    minArgs := 1, maxArgs := some 1, summary := "switch stack frame"
    help := "frame *num*\n\nSelect frame *num*; 0 is the innermost." },
  { verb := .up, name := "up", aliases := [], category := .stack
    minArgs := 0, maxArgs := some 1, summary := "switch to an older frame"
    help := "up [*num*]\n\nMove *num* frames (default 1) toward the outermost caller." },
  { verb := .down, name := "down", aliases := [], category := .stack
    minArgs := 0, maxArgs := some 1, summary := "switch to a newer frame"
    help := "down [*num*]\n\nMove *num* frames (default 1) toward the innermost frame." },
  { verb := .setBreak, name := "break", aliases := ["b"], category := .breakpoints
    minArgs := 1, maxArgs := some 1, summary := "set a breakpoint on function entry"
    help := "break *function*\n\nStop when *function* (or pkg.function) is entered." },
  { verb := .deleteBreak, name := "delete", aliases := ["d"], category := .breakpoints
    minArgs := 1, maxArgs := some 1, summary := "delete a breakpoint"
    help := "delete *num*\n\nDelete breakpoint number *num*." },
  { verb := .info, name := "info", aliases := [], category := .breakpoints
    minArgs := 1, maxArgs := some 1, summary := "info breakpoints"
    help := "info breakpoints\n\nShow status of user-settable breakpoints." },
  { verb := .help, name := "help", aliases := ["h", "?"], category := .support
    minArgs := 0, maxArgs := some 1, summary := "this help"
    help := "help [*command*]\n\nList commands, or show help for one." },
  { verb := .quit, name := "quit", aliases := ["q", "exit"], category := .support
    minArgs := 0, maxArgs := some 1, summary := "quit"
    help := "quit [*exit-code*]\n\nTerminate the program. The exit code defaults to 0." }]

/-- The shortest other name, the first of several as short; the name if there is no other. -/
def shortest (c : Command) : String :=
  (c.aliases.foldl (fun best a =>
    match best with
    | none => some a
    | some b => if a.utf8ByteSize < b.utf8ByteSize then some a else some b) none).getD c.name

end Command

/-- Why a word selects no command. -/
inductive LookupError where
  /-- No command has that name. -/
  | unknown (word : String)
  /-- Several names begin with the word. -/
  | ambiguous (word : String) (candidates : List String)
  deriving DecidableEq

/-- The command that a word selects. -/
def Command.lookup (word : String) : Except LookupError Command :=
  match Command.all.find? fun c => c.name = word ∨ word ∈ c.aliases with
  | some c => .ok c
  | none =>
    match Command.all.filter fun c => Text.startsWith word c.name with
    | [] => .error (.unknown word)
    | [c] => .ok c
    | many => .error (.ambiguous word (many.map (·.name)))

end TraceDebugger
