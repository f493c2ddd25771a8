import TraceDebugger.Source.BasicKind
import TraceDebugger.Text.Layout

/-!
# Types

Types as the type checker reports them, with variables and signatures, and the text of each as the
source language writes it.
-/

namespace TraceDebugger

mutual

/-- A type. -/
inductive Ty where
  /-- A predeclared type. -/
  | basic (kind : BasicKind)
  /-- A declared type, by the path of its package and its name. -/
  | named (package name : String)
  /-- The pointers to a type. -/
  | pointer (elem : Ty)
  /-- The slices of a type. -/
  | slice (elem : Ty)
  /-- The maps from one type to another. -/
  | map (key value : Ty)
  /-- The functions of a signature. -/
  | func (signature : Signature)
  /-- Several values at once. -/
  | tuple (vars : List Var)
  /-- Records. -/
  | struct (fields : List Var)
  /-- The values that have some methods. -/
  | interface (methods : List String)

/-- A parameter, result, field or part of a tuple; the name is empty when there is none. -/
structure Var where
  /-- The name. -/
  name : String
  /-- The type. -/
  type : Ty

/-- The parameters and results of a function. -/
structure Signature where
  /-- The receiver of a method. -/
  recv : Option Var
  /-- The parameters, without the receiver. -/
  params : List Var
  /-- The results. -/
  results : List Var
  /-- Whether the last parameter takes any number of arguments. -/
  variadic : Bool

end

instance : Inhabited Signature := ⟨⟨none, [], [], false⟩⟩

mutual

/-- The type as source text. -/
def Ty.text : Ty → String
  | .basic kind => kind.text
  | .named package name => if package = "" then name else package ++ "." ++ name
  | .pointer elem => "*" ++ elem.text
  | .slice elem => "[]" ++ elem.text
  | .map key value => "map[" ++ key.text ++ "]" ++ value.text
  | .func signature => "func" ++ signature.text
  | .tuple vars => "(" ++ Text.joinWith ", " (Var.texts vars) ++ ")"
  | .struct fields => "struct\x7b" ++ Text.joinWith "; " (Var.texts fields) ++ "\x7d"
  | .interface methods =>
    "interface\x7b" ++ Text.joinWith "; " (methods.map (· ++ "()")) ++ "\x7d"

/-- The variable as source text: the name, if it has one, and the type. -/
def Var.text : Var → String
  | ⟨name, type⟩ => if name = "" then type.text else name ++ " " ++ type.text

/-- The texts of variables. -/
def Var.texts : List Var → List String
  | [] => []
  | v :: vs => v.text :: Var.texts vs

/-- The text of a parameter that takes any number of arguments: of a slice the element type, after
dots. -/
def Var.variadicText : Var → String
  | ⟨name, .slice elem⟩ =>
    if name = "" then "..." ++ elem.text else name ++ " ..." ++ elem.text
  | ⟨name, type⟩ => if name = "" then type.text else name ++ " " ++ type.text

/-- The texts of parameters of which the last takes any number of arguments. -/
def Var.variadicTexts : List Var → List String
  | [] => []
  | [v] => [v.variadicText]
  | v :: vs => v.text :: Var.variadicTexts vs

/-- The signature as source text, without receiver. A single result without a name stands bare. -/
def Signature.text : Signature → String
  | ⟨_, params, results, variadic⟩ =>
    "(" ++ Text.joinWith ", " (if variadic then Var.variadicTexts params else Var.texts params)
      ++ ")" ++ Var.resultsText results

/-- The results of a signature, with a blank before them. -/
def Var.resultsText : List Var → String
  | [] => ""
  | [⟨name, type⟩] =>
    if name = "" then " " ++ type.text else " (" ++ (name ++ " " ++ type.text) ++ ")"
  | v :: vs => " (" ++ Text.joinWith ", " (v.text :: Var.texts vs) ++ ")"

end

namespace Ty

/-- The element type of a pointer; any other type itself. -/
def deref : Ty → Ty
  | .pointer elem => elem
  | t => t

/-- The package path and name of a declared type, or of one behind a single pointer. -/
def namedBase? (t : Ty) : Option (String × String) :=
  match t.deref with
  | .named package name => some (package, name)
  | _ => none

/-- The signature of a function type. -/
def signature? : Ty → Option Signature
  | .func signature => some signature
  | _ => none

end Ty

namespace Signature

/-- Whether there are results. -/
def hasResults (s : Signature) : Bool := !s.results.isEmpty

/-- The results that have a name. -/
def namedResults (s : Signature) : List Var := s.results.filter fun r => r.name ≠ ""

/-- The results as one type. -/
def resultsTuple (s : Signature) : Ty := .tuple s.results

/-- The receiver, if any, and the parameters. -/
def allParams (s : Signature) : List Var := s.recv.toList ++ s.params

end Signature

end TraceDebugger
