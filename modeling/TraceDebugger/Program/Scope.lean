import TraceDebugger.Source.Unit

/-!
# Scopes of a package

The scopes of a package are the scopes of its unit that can be reached from the package scope. They
are numbered depth-first: a scope comes before the scopes inside it, and those in the order in which
the unit lists them (`SourceUnit.numbering`).

The walk below a scope follows the unit's lists of inner scopes. It comes to an end if no scope on
the way is inside itself, as in a tree; then no path is longer than the number of scopes, so that
number bounds the walk. Where it has no end (`SourceUnit.scopesEnd`), the scopes have no numbers and
there is no package.
-/

namespace TraceDebugger

/-- The number of a scope in its package. -/
structure ScopeId where
  /-- The number. -/
  index : Nat
  deriving DecidableEq

namespace ScopeId

/-- The scope of the whole package. -/
def package : ScopeId := ⟨0⟩

end ScopeId

/-- What opened a scope. -/
inductive ScopeNode where
  /-- The package. -/
  | package
  /-- The declaration of a function. -/
  | function (object : ObjectId)
  /-- Anything inside a function. -/
  | block
  deriving DecidableEq

/-- A scope of a package. -/
structure Scope where
  /-- Its number. -/
  id : ScopeId
  /-- The scope around it. -/
  parent : Option ScopeId
  /-- What opened it. -/
  node : ScopeNode
  /-- The text that it covers. -/
  span : Span

namespace SourceUnit

/-- Whether the walk below and including `id` comes to an end within `fuel` levels. -/
def endsWithin (u : SourceUnit) : Nat → SourceScopeId → Bool
  | 0, id => (u.scope? id).isNone
  | fuel + 1, id => (u.scope? id).all fun scope => scope.children.all (u.endsWithin fuel)

/-- Whether the walk below the package scope comes to an end. -/
def scopesEnd (u : SourceUnit) : Bool := u.endsWithin u.scopes.length .package

/-- Numbers the scopes below and including `id`, from `next` on, walking at most `fuel` levels. -/
def numberFrom (u : SourceUnit) :
    Nat → Option ScopeId → Nat → SourceScopeId → List (SourceScopeId × Scope)
  | 0, _, _, _ => []
  | fuel + 1, parent, next, id =>
    match u.scope? id with
    | none => []
    | some scope =>
      let node := if parent.isNone then .package else .block
      scope.children.foldl
        (fun done child => done ++ u.numberFrom fuel (some ⟨next⟩) (next + done.length) child)
        [(id, ⟨⟨next⟩, parent, node, scope.span⟩)]

/-- The scopes of the package in the order of their numbers, each with its number in the unit, if the
walk ends. A unit without scopes still has a package scope. -/
def numbering (u : SourceUnit) : List (SourceScopeId × Scope) :=
  if u.scopes.isEmpty then [(.package, ⟨.package, none, .package, {}⟩)]
  else u.numberFrom u.scopes.length none 0 .package

/-- The scopes below and including `id` that have a number in the package, depth-first, walking at
most `fuel` levels. -/
def subtreeFrom (u : SourceUnit) (numbers : Table SourceScopeId ScopeId) :
    Nat → SourceScopeId → List (SourceScopeId × ScopeId × SourceScope)
  | 0, _ => []
  | fuel + 1, id =>
    match u.scope? id, numbers.find? id with
    | some scope, some number =>
      (id, number, scope) :: scope.children.flatMap (u.subtreeFrom numbers fuel)
    | _, _ => []

/-- The scopes below and including `root` that have a number in the package, depth-first. -/
def subtree (u : SourceUnit) (numbers : Table SourceScopeId ScopeId) (root : SourceScopeId) :
    List (SourceScopeId × ScopeId × SourceScope) :=
  u.subtreeFrom numbers u.scopes.length root

end SourceUnit

end TraceDebugger
