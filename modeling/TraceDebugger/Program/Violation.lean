import TraceDebugger.Source.Declaration
import TraceDebugger.Text.Layout

/-!
# Refused units

Why a unit is refused. The type checker has passed a unit before a package is made of it, so most of
these causes are mistakes of whoever made the unit. One of them is never told to anyone
(`Violation.isTold`): where the scopes of a unit have no end, nor has the work on it.
-/

namespace TraceDebugger

/-- A cause for refusing a unit. -/
inductive Violation where
  /-- The type checker found an error. -/
  | typeErrors (package error : String)
  /-- An identifier names no object of the unit. -/
  | unresolved (name : String)
  /-- An object can be no member of a package. -/
  | unexpectedObject (name kind : String)
  /-- A part of a declaration does not fit its keyword. -/
  | unexpectedSpec (decl found : String)
  /-- The receiver of a method is of no type that the package declares. -/
  | badReceiver (method receiver : String)
  /-- The finished package is not consistent. -/
  | inconsistent (package problems : String)
  /-- A scope is inside itself. Its numbering goes on for ever, and there is no answer. -/
  | endless (package : String)
  deriving DecidableEq

/-- The cause in words. -/
def Violation.message : Violation → String
  | .typeErrors package error => s!"package {package} has errors: {error}"
  | .unresolved name => s!"identifier {name} was not resolved to an object"
  | .unexpectedObject name kind => s!"unexpected object {name} ({kind}) in member construction"
  | .unexpectedSpec decl found => s!"unexpected {found} specification in a {decl} declaration"
  | .badReceiver method receiver =>
    s!"receiver of method {method} is not a declared named type: {receiver}"
  | .inconsistent package problems => s!"sanity check failed for package {package}:\n{problems}"
  | .endless package => s!"the scopes of package {package} have no end"

/-- Why a batch of units is not all made into packages. -/
inductive BatchFailure where
  /-- The type checker found errors in the units of these paths. -/
  | typeErrors (paths : List String)
  /-- A unit was refused. -/
  | violation (cause : Violation)
  deriving DecidableEq

/-- The failure in words. -/
def BatchFailure.message : BatchFailure → String
  | .typeErrors paths =>
    "couldn't create these packages due to type errors: " ++ Text.joinWith ", " paths
  | .violation cause => cause.message

end TraceDebugger
