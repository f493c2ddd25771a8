import TraceDebugger.Source.Position

/-!
# Events

The occasions on which a running program can be stopped, and the instruction that it has come to.
-/

namespace TraceDebugger

/-- An occasion to stop. -/
inductive Event where
  | other | assignStmt | blockEnd | breakStmt | breakpoint | callEnter | callReturn | deferEnter
  | expr | ifInit | ifCond | stepInstruction | forInit | forCond | forIter | main | panic
  | rangeStmt | selectType | switchCond | stmtInList
  deriving DecidableEq

namespace Event

/-- All events, in the order of their numbers. -/
def all : List Event :=
  [.other, .assignStmt, .blockEnd, .breakStmt, .breakpoint, .callEnter, .callReturn, .deferEnter,
    .expr, .ifInit, .ifCond, .stepInstruction, .forInit, .forCond, .forIter, .main, .panic,
    .rangeStmt, .selectType, .switchCond, .stmtInList]

/-- The name in documents. -/
def tag : Event → String
  | .other => "OTHER"
  | .assignStmt => "ASSIGN_STMT"
  | .blockEnd => "BLOCK_END"
  | .breakStmt => "BREAK_STMT"
  | .breakpoint => "BREAKPOINT"
  | .callEnter => "CALL_ENTER"
  | .callReturn => "CALL_RETURN"
  | .deferEnter => "DEFER_ENTER"
  | .expr => "EXPR"
  | .ifInit => "IF_INIT"
  | .ifCond => "IF_COND"
  | .stepInstruction => "STEP_INSTRUCTION"
  | .forInit => "FOR_INIT"
  | .forCond => "FOR_COND"
  | .forIter => "FOR_ITER"
  | .main => "MAIN"
  | .panic => "PANIC"
  | .rangeStmt => "RANGE_STMT"
  | .selectType => "SELECT_TYPE"
  | .switchCond => "SWITCH_COND"
  | .stmtInList => "STMT_IN_LIST"

/-- The name in notes. -/
def text : Event → String
  | .other => "Other"
  | .assignStmt => "AssignStmt"
  | .blockEnd => "BlockEnd"
  | .breakStmt => "BreakStmt"
  | .breakpoint => "Breakpoint"
  | .callEnter => "CallEnter"
  | .callReturn => "CallReturn"
  | .deferEnter => "DeferEnter"
  | .expr => "Expr"
  | .ifInit => "IfInit"
  | .ifCond => "IfCond"
  | .stepInstruction => "StepInstruction"
  | .forInit => "ForInit"
  | .forCond => "ForCond"
  | .forIter => "ForIter"
  | .main => "Main"
  | .panic => "Panic"
  | .rangeStmt => "RangeStmt"
  | .selectType => "SelectType"
  | .switchCond => "SwitchCond"
  | .stmtInList => "StmtInList"

/-- Three characters that show the event where execution stops. -/
def icon : Event → String
  | .other => "???"
  | .assignStmt => ":= "
  | .blockEnd => "\x7d  "
  | .breakStmt => "<-X"
  | .breakpoint => "xxx"
  | .callEnter => "-> "
  | .callReturn => "<- "
  | .deferEnter => "d->"
  | .expr => "(.)"
  | .ifInit => "if:"
  | .ifCond => "if?"
  | .stepInstruction => "..."
  | .forInit => "lo:"
  | .forCond => "lo?"
  | .forIter => "lo+"
  | .main => "m()"
  | .panic => "oX "
  | .rangeStmt => "..."
  | .selectType => "sel"
  | .switchCond => "sw?"
  | .stmtInList => "---"

/-- Whether a statement begins or ends here: on every event but a bare instruction. -/
def isStatementBoundary (e : Event) : Bool := e ≠ .stepInstruction

/-- Reads an event. -/
def decode? (j : Json) : Option Event :=
  (j.choice? .direct (all.map tag)).bind fun s => all.find? fun e => e.tag = s

/-- Writes an event. -/
def encode (e : Event) : Json := .str e.tag

theorem mem_all (e : Event) : e ∈ all := by cases e <;> decide

end Event

/-- The instruction that execution has come to. -/
structure Instruction where
  /-- The number of its block. -/
  block : UInt64 := 0
  /-- Its place in the block. -/
  index : UInt64 := 0
  /-- The instruction as text. -/
  text : String := ""
  /-- Where it comes from in the source. -/
  span : Span := {}

namespace Instruction

/-- Reads an instruction. -/
def decode? (j : Json) : Option Instruction := do
  let fields ← j.record? ["block", "index", "text", "span"]
  some {
    block := ← fields.withDefault "block" 0 Json.uint64?
    index := ← fields.withDefault "index" 0 Json.uint64?
    text := ← fields.withDefault "text" "" Json.string?
    span := ← fields.withDefault "span" {} Span.decode? }

/-- Writes an instruction. -/
def encode (i : Instruction) : Json :=
  .obj [("block", .int i.block.toNat), ("index", .int i.index.toNat), ("text", .str i.text),
    ("span", i.span.encode)]

end Instruction

end TraceDebugger
