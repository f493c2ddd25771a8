import TraceDebugger.Debugger.Session
import TraceDebugger.Text.Columns
import TraceDebugger.Text.Folder

/-!
# Looking at names

The descriptions of local variables, parameters and the members of packages, and the commands that
show them.
-/

namespace TraceDebugger

/-- The value behind a name, where it has one. -/
def Referent.value? (r : Referent) (frame : Frame) (engine : Engine) : Option Value :=
  match r with
  | .local slot _ => frame.locals[slot]?
  | .param index _ => frame.params[index]?
  | .global p g => (engine.global? p.path g.name).map Value.deref
  | .const _ c => some (.ofConstant c.value.value)
  | .function _ | .type .. | .package _ => none

namespace Describe

/-- A local variable with its value. A temporary that has a source name is shown under that name
too. -/
def localLine (frame : Frame) (slot : Nat) (l : Local) : String :=
  let value := (frame.locals[slot]?).getD .nil
  let type := l.type.deref.text
  let known := if Text.startsWith "t" l.name then frame.aliases.find? l.name else none
  let shown := match known with
    | some source => s!"{source} {l.name} ({type})"
    | none => s!"{l.name} {type}"
  s!"{Text.padLeft 3 (toString slot)}:\t{shown} = {value.text} scope {l.scope.index} {l.span.text}"

/-- The local variable of a slot, if there is one. -/
def localLines (frame : Frame) (f : Function) (slot : Nat) : List String :=
  (f.locals[slot]?).toList.map (localLine frame slot)

/-- The parameter at a place, with its value. -/
def paramLines (frame : Frame) (f : Function) (index : Nat) : List String :=
  (f.params[index]?).toList.map fun p =>
    p.text ++ " " ++ (frame.params[index]?).elim "nil" Value.text

/-- A function: where it stands, what it takes and returns, and what it has inside. -/
def functionLines (p : Program) (f : Function) : List String :=
  [s!"{p.qualifiedName f} is a function at:",
    if f.span.isKnown then s!"\t{f.span.text}" else "\tsynthetic function (no position)"]
    ++ f.syntheticReason?.toList.map (s!"\t# Synthetic: {·}")
    ++ f.params.map (s!"\t{·.text}")
    ++ f.signature.namedResults.map (s!"\t{·.text}")
    ++ (f.enclosing.bind p.function?).toList.map (s!"Parent: {·.name}")
    ++ (if f.freeVars.isEmpty then [] else "Free variables:" ::
      f.freeVars.zipIdx.map fun (v, i) =>
        s!"{Text.padLeft 3 (toString i)}:\t{v.name} {v.type.text}")
    ++ (if f.locals.isEmpty then [] else "Locals:" ::
      f.locals.zipIdx.map fun (l, i) =>
        s!" {Text.padLeft 3 (toString i)}:\t{l.name} {l.type.deref.text}")
    ++ if f.blocks.isNone then ["\t(external)"] else []

/-- A constant. -/
def constLines (c : ConstMember) : List String :=
  [s!"Constant {c.name} is a constant at:", s!"\t{c.value.span.text}", s!"\t{c.value.text}"]

/-- A package-level variable, with its value if that is known. -/
def globalLines (package : Package) (g : Global) (value : Option Value) : List String :=
  [s!"{g.name} is a variable in {package.text} at:", s!"  {g.span.text}", s!"  {g.type.text}"]
    ++ value.toList.map (s!"  {·.text}")

/-- A type with its methods. -/
def typeLines (p : Program) (package : Package) (t : TypeMember) : List String :=
  [s!"Type {t.type.text} at:", "  " ++ t.pos.elim "-" Position.text, s!"  {t.underlying.text}"]
    ++ (p.methodsOf package.path t.name).map fun m =>
      s!"    method {m.name} func{m.signature.text}"

/-- The file in which a member is declared. -/
def memberFile? (package : Package) : Member → Option String
  | .type t => t.pos.map (·.file)
  | .const c => c.value.span.file?
  | .global g => g.span.file?
  | .function _ id => (package.function? id).bind (·.span.file?)

/-- The file of all members, or the folder of the first when there are several files. -/
def packagePlace? (package : Package) : Option String :=
  match package.members.values.filterMap (memberFile? package) with
  | [] => none
  | first :: rest =>
    some (if rest.all (· = first) then first else (Text.folder? first).getD first)

/-- A package: where it stands. -/
def packageLine (name : String) (package : Package) : String :=
  s!"{name} is a package" ++ (packagePlace? package).elim "" (s!": at {·}")

/-- A package with the names of its members in columns. -/
def packageTexts (width : Nat) (name : String) (package : Package) : List String :=
  (packageLine name package ++ "\n") ::
    if package.members.keys.isEmpty then []
    else ["Members\n", Text.columnize package.members.keys width]

end Describe

namespace Session

/-- The texts that describe what a name refers to. -/
def describe (s : Session) (frame : Frame) (f : Function) (name : String) : Referent → List String
  | .local slot _ => (Describe.localLines frame f slot).map (· ++ "\n")
  | .param index _ => (Describe.paramLines frame f index).map (· ++ "\n")
  | .function g => (Describe.functionLines s.program g).map (· ++ "\n")
  | .global package g =>
    (Describe.globalLines package g ((Referent.global package g).value? frame s.engine)).map
      (· ++ "\n")
  | .const _ c => (Describe.constLines c).map (· ++ "\n")
  | .type package t => (Describe.typeLines s.program package t).map (· ++ "\n")
  | .package package => Describe.packageTexts s.config.width.toNat name package

/-- Describes what a name refers to from the selected call. -/
def whatis (s : Session) (name : String) : Reply :=
  match s.frameAndFunction? with
  | none => .fail .noFrame
  | some (frame, f) =>
    match s.program.resolve f s.scope name with
    | .error e => .fail (.resolve e)
    | .ok referent =>
      { effects := (s.describe frame f name referent).map .write, result := .ok .prompt }

/-- Shows the local variables of the selected call and the source names of its temporaries, or the
one variable of a name. -/
def locals (s : Session) (name : Option String) : Reply :=
  match s.frameAndFunction? with
  | none => .fail .noFrame
  | some (frame, f) =>
    match name with
    | none => .lines ((List.range f.locals.length).flatMap (Describe.localLines frame f)
        ++ frame.aliases.entries.map fun (reg, var) => s!"reg {reg}, var {var}")
    | some name =>
      match s.program.package? f.package with
      | none => .fail .noFrame
      | some package =>
        match package.lookupLocal? f s.scope name with
        | none => .fail (.noSuchLocal name)
        | some slot => .lines (Describe.localLines frame f slot)

/-- Shows the parameters of the selected call, or the one of a name. -/
def parameters (s : Session) (name : Option String) : Reply :=
  match s.frameAndFunction? with
  | none => .fail .noFrame
  | some (frame, f) =>
    match name with
    | none => .lines ((List.range f.params.length).flatMap (Describe.paramLines frame f))
    | some name =>
      match f.findParam? name with
      | none => .fail (.noSuchParam name)
      | some (index, _) => .lines (Describe.paramLines frame f index)

/-- The path and variable that a name of a package-level variable means: before a dot stands the
short name of a package, and without a dot the package of the selected call is meant. -/
def globalKey? (s : Session) (name : String) : Option (String × String) :=
  match Text.splitAt? '.' name with
  | some (qualifier, var) => (s.program.named? qualifier).map fun p => (p.path, var)
  | none => s.package?.map fun p => (p.path, name)

/-- The value of the package-level variable of a name. -/
def globalValue? (s : Session) (name : String) : Option Value :=
  (s.globalKey? name).bind fun key => s.engine.global? key.1 key.2

/-- The line of a package-level variable. -/
def globalLine (name : String) (v : Value) : String := s!"{name}: {v.deref.text}"

/-- Shows all package-level variables. -/
def allGlobals (s : Session) : Reply :=
  .lines (s.engine.globals.entries.map fun (name, v) => globalLine name v)

/-- Shows the package-level variables of some names, and reports the first that is unknown. -/
def globals (s : Session) (names : List String) : Reply :=
  { effects := names.filterMap fun name =>
      (s.globalValue? name).map fun v => .write (globalLine name v ++ "\n")
    result := match names.find? fun name => (s.globalValue? name).isNone with
      | some name => .error (.noSuchGlobal name)
      | none => .ok .prompt }

/-- Shows the names bound in the innermost call. -/
def env (s : Session) : Reply :=
  .lines (s.engine.env.zipIdx.map fun ((name, v), i) => s!"{i} {name} = {v.text}")

end Session

end TraceDebugger
