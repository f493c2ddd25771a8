import Mathlib.Logic.Relation
import TraceDebugger.Program.Creation
import TraceDebugger.Program.Synthesis

/-!
# Operations on programs

The operations that change a program, and the programs that they lead to from an empty one
(`Program.Reachable`). Whatever an operation does is a chain of single changes (`Program.Change`),
so what every change keeps holds of every reachable program (`Program.Reachable.induction`).
-/

namespace TraceDebugger

open Relation

/-- An operation on a program. -/
inductive Operation where
  /-- Makes a package of a unit. -/
  | create (u : SourceUnit)
  /-- Makes packages of several units. -/
  | createAll (units : List SourceUnit)
  /-- Asks for the function that closes over the receiver of a method. -/
  | boundWrapper (key : ObjectKey)
  /-- Asks for the function that takes the receiver of a method as its first parameter. -/
  | interfaceWrapper (key : ObjectKey)
  /-- Adds a function without a name inside another. -/
  | addAnonymous (package : PackageId) (enclosing : FunctionId) (signature : Signature)
    (freeVars : List Var)
  /-- Gives a function its basic blocks. -/
  | setBlocks (id : FunctionId) (blocks : List Block)

namespace Program

/-- The program after an operation. An operation that is refused leaves the program as it was, but
for the packages that were made before it was refused. -/
def apply (p : Program) : Operation → Program
  | .create u => (p.create u).program
  | .createAll units => (p.createAll units).program
  | .boundWrapper key => (p.boundWrapper? key).elim p (·.1)
  | .interfaceWrapper key => (p.interfaceWrapper? key).elim p (·.1)
  | .addAnonymous package enclosing signature freeVars =>
    (p.addAnonymous? package enclosing signature freeVars).elim p (·.1)
  | .setBlocks id blocks => (p.setBlocks? id blocks).getD p

/-- The program after operations in order. -/
def run (p : Program) (operations : List Operation) : Program := operations.foldl apply p

/-- The program that operations make from an empty one. -/
def built (diagnostics : Diagnostics) (operations : List Operation) : Program :=
  run { diagnostics } operations

/-- A program that some operations make from an empty one. -/
def Reachable (p : Program) : Prop := ∃ diagnostics operations, p = built diagnostics operations

/-! ## Single changes -/

/-- The function that `addAnonymous?` adds to a package. -/
def anonymousIn (pkg : Package) (enclosing : FunctionId) (parent : Function)
    (signature : Signature) (freeVars : List Var) : Function :=
  { name := s!"{parent.name}${parent.anonymous.length + 1}"
    signature
    origin := .synthetic "anonymous function"
    package := pkg.id
    scope := parent.scope
    freeVars
    enclosing := some enclosing }

/-- The package with a function without a name inside `enclosing`. -/
def withAnonymous (pkg : Package) (enclosing : FunctionId) (parent : Function)
    (signature : Signature) (freeVars : List Var) : Package :=
  (pkg.addFunction (anonymousIn pkg enclosing parent signature freeVars)).modifyFunction enclosing
    fun f => { f with anonymous := f.anonymous ++ [pkg.nextFunction] }

/-- A single change of a program. -/
inductive Change (p : Program) : Program → Prop where
  /-- A finished package is added. -/
  | package {u : SourceUnit} {draft : Draft} (accepted : u.error = none)
      (new : p.byIdentity.find? u.path = none)
      (built : Draft.build { package := .start p.nextPackage u } u.items = (draft, none)) :
      Change p (p.addPackage draft.finish draft.methods)
  /-- A function that closes over the receiver of a method is added. -/
  | boundWrapper {key : ObjectKey} {name : String} {signature : Signature} {recv : Var}
      {pkg : Package} (new : p.boundWrappers.find? key = none)
      (method : p.method? key = some (name, signature, recv))
      (home : p.package? key.package = some pkg) :
      Change p { p.addFunction key.package (boundWrapperOf key name signature recv) with
        boundWrappers := p.boundWrappers.insert key pkg.nextFunction }
  /-- A function that takes the receiver of a method as its first parameter is added. -/
  | interfaceWrapper {key : ObjectKey} {name : String} {signature : Signature} {recv : Var}
      {pkg : Package} (new : p.interfaceWrappers.find? key = none)
      (method : p.method? key = some (name, signature, recv))
      (home : p.package? key.package = some pkg) :
      Change p { p.addFunction key.package (interfaceWrapperOf key name signature recv) with
        interfaceWrappers := p.interfaceWrappers.insert key pkg.nextFunction }
  /-- A function without a name is added inside another. -/
  | anonymous {package : PackageId} {enclosing : FunctionId} {pkg : Package} {parent : Function}
      {signature : Signature} {freeVars : List Var} (home : p.package? package = some pkg)
      (inside : pkg.function? enclosing = some parent) :
      Change p (p.modifyPackage package fun pkg =>
        withAnonymous pkg enclosing parent signature freeVars)
  /-- A function gets basic blocks. -/
  | blocks {id : FunctionId} {f : Function} {blocks : List Block}
      (found : p.function? id = some f) :
      Change p (p.modifyPackage id.package
        (·.modifyFunction id fun f => { f with blocks := some blocks }))

/-- Making a package changes the program at most by adding that package. -/
theorem create_changes (p : Program) (u : SourceUnit) :
    ReflGen Change p (p.create u).program := by
  unfold create
  cases herr : u.error with
  | some error => exact .refl
  | none =>
    cases hid : p.byIdentity.find? u.path with
    | some id => exact .refl
    | none =>
      dsimp only
      split
      · exact .refl
      rcases hb : Draft.build { package := .start p.nextPackage u } u.items with ⟨draft, _ | cause⟩
      · dsimp only
        have hchange : Change p (p.addPackage draft.finish draft.methods) :=
          .package herr hid hb
        split
        · exact .single hchange
        · exact .single hchange
      · exact .refl

/-- Making packages of a list of units is a chain of changes. -/
theorem createFrom_changes (units : List SourceUnit) : ∀ (p : Program) (ids : List PackageId)
    (failed : List String) (log : List Record),
    ReflTransGen Change p (p.createFrom ids failed log units).program := by
  induction units with
  | nil => intro p ids failed log; exact .refl
  | cons u rest ih =>
    intro p ids failed log
    unfold createFrom
    split
    · exact ih p ids _ log
    · have hfirst : ReflTransGen Change p (p.create u).program :=
        (p.create_changes u).to_reflTransGen
      dsimp only
      split
      · exact hfirst.trans (ih _ _ _ _)
      · exact hfirst

/-- A request for the function that closes over a receiver finds it or adds it. -/
theorem boundWrapper?_eq_some {p q : Program} {key : ObjectKey} {id : FunctionId}
    (h : p.boundWrapper? key = some (q, id)) :
    (q = p ∧ p.boundWrappers.find? key = some id) ∨
      (p.boundWrappers.find? key = none ∧ ∃ name signature recv pkg,
        p.method? key = some (name, signature, recv) ∧ p.package? key.package = some pkg ∧
        id = pkg.nextFunction ∧
        q = { p.addFunction key.package (boundWrapperOf key name signature recv) with
          boundWrappers := p.boundWrappers.insert key pkg.nextFunction }) := by
  unfold boundWrapper? at h
  cases hnew : p.boundWrappers.find? key with
  | some id' =>
    rw [hnew] at h
    cases h
    exact .inl ⟨rfl, rfl⟩
  | none =>
    rw [hnew] at h
    obtain ⟨⟨name, signature, recv⟩, hm, h⟩ := Option.bind_eq_some_iff.1 h
    obtain ⟨pkg, hpkg, h⟩ := Option.bind_eq_some_iff.1 h
    cases h
    exact .inr ⟨rfl, name, signature, recv, pkg, hm, hpkg, rfl, rfl⟩

/-- A request for the function that takes the receiver as a parameter finds it or adds it. -/
theorem interfaceWrapper?_eq_some {p q : Program} {key : ObjectKey} {id : FunctionId}
    (h : p.interfaceWrapper? key = some (q, id)) :
    (q = p ∧ p.interfaceWrappers.find? key = some id) ∨
      (p.interfaceWrappers.find? key = none ∧ ∃ name signature recv pkg,
        p.method? key = some (name, signature, recv) ∧ p.package? key.package = some pkg ∧
        id = pkg.nextFunction ∧
        q = { p.addFunction key.package (interfaceWrapperOf key name signature recv) with
          interfaceWrappers := p.interfaceWrappers.insert key pkg.nextFunction }) := by
  unfold interfaceWrapper? at h
  cases hnew : p.interfaceWrappers.find? key with
  | some id' =>
    rw [hnew] at h
    cases h
    exact .inl ⟨rfl, rfl⟩
  | none =>
    rw [hnew] at h
    obtain ⟨⟨name, signature, recv⟩, hm, h⟩ := Option.bind_eq_some_iff.1 h
    obtain ⟨pkg, hpkg, h⟩ := Option.bind_eq_some_iff.1 h
    cases h
    exact .inr ⟨rfl, name, signature, recv, pkg, hm, hpkg, rfl, rfl⟩

/-- Changes of the package of a number are the same if they agree on that package. -/
theorem modifyPackage_congr {p : Program} {id : PackageId} {pkg : Package}
    {change change' : Package → Package} (h : p.package? id = some pkg)
    (heq : change pkg = change' pkg) : p.modifyPackage id change = p.modifyPackage id change' := by
  unfold package? at h
  unfold modifyPackage
  congr 1
  refine List.ext_getElem? fun i => ?_
  rw [List.getElem?_modify, List.getElem?_modify]
  by_cases hi : id.index = i
  · subst hi
    rw [h]
    simp [heq]
  · simp [hi]

/-- A function without a name is added only inside a function of the package. -/
theorem addAnonymous?_eq_some {p q : Program} {package : PackageId} {enclosing id : FunctionId}
    {signature : Signature} {freeVars : List Var}
    (h : p.addAnonymous? package enclosing signature freeVars = some (q, id)) :
    ∃ pkg parent, p.package? package = some pkg ∧ pkg.function? enclosing = some parent ∧
      id = pkg.nextFunction ∧
      q = p.modifyPackage package fun pkg =>
        withAnonymous pkg enclosing parent signature freeVars := by
  unfold addAnonymous? at h
  obtain ⟨pkg, hpkg, h⟩ := Option.bind_eq_some_iff.1 h
  obtain ⟨parent, hparent, h⟩ := Option.bind_eq_some_iff.1 h
  cases h
  exact ⟨pkg, parent, hpkg, hparent, rfl, modifyPackage_congr hpkg rfl⟩

/-- Only a function that is there gets basic blocks. -/
theorem setBlocks?_eq_some {p q : Program} {id : FunctionId} {blocks : List Block}
    (h : p.setBlocks? id blocks = some q) :
    ∃ f, p.function? id = some f ∧ q = p.modifyPackage id.package
      (·.modifyFunction id fun f => { f with blocks := some blocks }) := by
  unfold setBlocks? at h
  obtain ⟨f, hf, h⟩ := Option.bind_eq_some_iff.1 h
  cases h
  exact ⟨f, hf, rfl⟩

/-- An operation is a chain of single changes. -/
theorem apply_changes (p : Program) (operation : Operation) :
    ReflTransGen Change p (p.apply operation) := by
  cases operation with
  | create u => exact (p.create_changes u).to_reflTransGen
  | createAll units => exact createFrom_changes units p [] [] []
  | boundWrapper key =>
    simp only [apply]
    cases h : p.boundWrapper? key with
    | none => exact .refl
    | some answer =>
      obtain ⟨q, id⟩ := answer
      obtain ⟨rfl, -⟩ | ⟨hnew, name, signature, recv, pkg, hm, hpkg, -, rfl⟩ :=
        boundWrapper?_eq_some h
      · exact .refl
      · exact .single (.boundWrapper hnew hm hpkg)
  | interfaceWrapper key =>
    simp only [apply]
    cases h : p.interfaceWrapper? key with
    | none => exact .refl
    | some answer =>
      obtain ⟨q, id⟩ := answer
      obtain ⟨rfl, -⟩ | ⟨hnew, name, signature, recv, pkg, hm, hpkg, -, rfl⟩ :=
        interfaceWrapper?_eq_some h
      · exact .refl
      · exact .single (.interfaceWrapper hnew hm hpkg)
  | addAnonymous package enclosing signature freeVars =>
    simp only [apply]
    cases h : p.addAnonymous? package enclosing signature freeVars with
    | none => exact .refl
    | some answer =>
      obtain ⟨q, id⟩ := answer
      obtain ⟨pkg, parent, hpkg, hparent, -, rfl⟩ := addAnonymous?_eq_some h
      exact .single (.anonymous hpkg hparent)
  | setBlocks id blocks =>
    simp only [apply]
    cases h : p.setBlocks? id blocks with
    | none => exact .refl
    | some q =>
      obtain ⟨f, hf, rfl⟩ := setBlocks?_eq_some h
      exact .single (.blocks hf)

/-- A run is a chain of single changes. -/
theorem run_changes (operations : List Operation) (p : Program) :
    ReflTransGen Change p (p.run operations) := by
  induction operations generalizing p with
  | nil => exact .refl
  | cons operation rest ih => exact (p.apply_changes operation).trans (ih (p.apply operation))

/-- What holds of the empty program and is kept by every change holds of every reachable program. -/
theorem Reachable.induction {P : Program → Prop} {p : Program} (h : p.Reachable)
    (start : ∀ diagnostics, P { diagnostics }) (change : ∀ p q, P p → Change p q → P q) : P p := by
  obtain ⟨diagnostics, operations, rfl⟩ := h
  have hrun : ReflTransGen Change { diagnostics } (built diagnostics operations) :=
    run_changes operations { diagnostics }
  generalize built diagnostics operations = q at hrun
  induction hrun with
  | refl => exact start diagnostics
  | tail _ hstep ih => exact change _ _ ih hstep

end Program

end TraceDebugger
