import TraceDebugger.Program.Basic

/-!
# Consistency of a package

The check of a finished package: every function's parameters have different names, its table of
slots is the inverse of its list of local variables, its scopes and the function around it exist,
and its blocks are numbered in order. The check lists what it finds wrong (`Program.problems`).
-/

namespace TraceDebugger

/-- Something wrong with a function, which is named first. -/
inductive Problem where
  /-- Two parameters have the same name. -/
  | duplicateParam (function param : String)
  /-- A local variable has a slot that is not its place. -/
  | wrongSlot (function var : String) (slot place : Nat)
  /-- The table does not lead to a local variable. -/
  | missingSlot (function var : String)
  /-- The scope of a local variable does not exist. -/
  | unknownLocalScope (function var : String) (scope : ScopeId)
  /-- The table has more or fewer entries than there are local variables. -/
  | tableSize (function : String)
  /-- The scope of the function does not exist. -/
  | unknownScope (function : String) (scope : ScopeId)
  /-- The function around it does not exist. -/
  | unknownEnclosing (function : String)
  /-- A block has a number that is not its place. -/
  | wrongBlock (function : String) (place index : Nat)

/-- The problem in words. -/
def Problem.message : Problem → String
  | .duplicateParam f param => s!"{f}: duplicate parameter {param}"
  | .wrongSlot f var slot place => s!"{f}: local {var} has slot {slot}, expected {place}"
  | .missingSlot f var => s!"{f}: local {var} is missing from the name table"
  | .unknownLocalScope f var scope => s!"{f}: local {var} refers to unknown scope {scope.index}"
  | .tableSize f => s!"{f}: name table and locals differ in size"
  | .unknownScope f scope => s!"{f}: unknown scope {scope.index}"
  | .unknownEnclosing f => s!"{f}: enclosing function does not exist"
  | .wrongBlock f place index => s!"{f}: block {place} has index {index}"

/-- The names that stand in a list for a second time or more. -/
def repeatedNames (seen : List String) : List String → List String
  | [] => []
  | name :: rest =>
    if name ∈ seen then name :: repeatedNames seen rest
    else repeatedNames (name :: seen) rest

namespace Function

/-- The names of the parameters that have one. -/
def paramNames (f : Function) : List String :=
  (f.params.map (·.name)).filter fun name => name ≠ "" ∧ name ≠ "_"

/-- What is wrong with a local variable at its place. -/
def localProblems (package : Package) (name : String) (f : Function) (l : Local) (place : Nat) :
    List Problem :=
  (if l.slot = place then [] else [.wrongSlot name l.name l.slot place])
    ++ (if f.slot? l.name l.scope = some place then [] else [.missingSlot name l.name])
    ++ (if (package.scope? l.scope).isSome then [] else [.unknownLocalScope name l.name l.scope])

end Function

namespace Program

/-- What is wrong with a function of a package. -/
def functionProblems (p : Program) (package : Package) (f : Function) : List Problem :=
  let name := p.qualifiedName f
  (repeatedNames [] f.paramNames).map (.duplicateParam name)
    ++ f.locals.zipIdx.flatMap (fun e => f.localProblems package name e.1 e.2)
    ++ (if f.slots.size = f.locals.length then [] else [.tableSize name])
    ++ (match f.scope with
      | some scope => if (package.scope? scope).isSome then [] else [.unknownScope name scope]
      | none => [])
    ++ (match f.enclosing with
      | some id =>
        if (p.function? id).isSome || (package.function? id).isSome then []
        else [.unknownEnclosing name]
      | none => [])
    ++ (f.blocks.getD []).zipIdx.filterMap fun e =>
      if e.1.index = e.2 then none else some (.wrongBlock name e.2 e.1.index)

/-- What is wrong with the functions of a package. -/
def problems (p : Program) (package : Package) : List Problem :=
  package.functions.flatMap (p.functionProblems package)

end Program

end TraceDebugger
