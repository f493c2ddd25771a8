import TraceDebugger.Proofs.CreationWays
import TraceDebugger.Proofs.DeclaredMembers
import TraceDebugger.Proofs.EndlessScopes
import TraceDebugger.Proofs.MethodTable

/-!
# Accepted units

`SourceUnit.violations` lists what is wrong with a unit in the order of its files, declarations,
parts and names, or of the names of its package scope. A unit is accepted exactly if the list is
empty, which is to say if the unit is well formed (`SourceUnit.WellFormed`), and otherwise the first
violation is the answer (`Program.create_accepts_iff`). An object that is asked for again makes no
difference, since what was made once had no violation (`Draft.Sound`). All this is so if the work on
the unit gets past the numbering of its scopes, which ends if none of them is inside itself
(`SourceUnit.Acyclic`).
-/

namespace TraceDebugger

/-! ## Well-formed units -/

/-- A part of a declaration fits its keyword. -/
inductive Spec.Fits : Spec → DeclKind → Prop where
  | const {names : List Ident} {span : Span} : Fits (.value names span) .const
  | var {names : List Ident} {span : Span} : Fits (.value names span) .var
  | type {name : Ident} {span : Span} : Fits (.type name span) .type

/-- The identifiers that a declaration declares. Imports and initializers declare none. -/
def Decl.idents : Decl → List Ident
  | .gen .import _ _ => []
  | .gen _ specs _ => specs.flatMap Spec.idents
  | .func decl => if decl.recv.isNone ∧ decl.name.name = "init" then [] else [decl.name]

namespace SourceUnit

/-- An object can be made: it is there, it is no imported package, and a receiver is of a type that
the unit declares, or points to one. -/
def Makeable (u : SourceUnit) (o : ObjectId) : Prop :=
  ∃ object, u.object? o = some object ∧
    (∀ name pos imported, object ≠ .package name pos imported) ∧
    ∀ recv, object.receiver? = some recv →
      ∃ type, recv.type.IsOf u.path type ∧ u.DeclaresType type

variable {u : SourceUnit}

theorem binds_package_iff {name : String} {o : ObjectId} : u.Binds .package name o ↔
    ∃ scope, u.packageScope? = some scope ∧ (name, o) ∈ scope.names.entries := by
  have htop : u.scope? .package = u.packageScope? := by
    unfold scope? packageScope?
    exact List.head?_eq_getElem?.symm
  unfold Binds
  simp only [htop, Table.find?_eq_some_iff]

end SourceUnit

/-! ## Violations of items -/

namespace Item

variable {u : SourceUnit}

end Item

namespace SourceUnit

end SourceUnit

/-! ## The first violation stops the making -/

namespace Draft

variable {d d' : Draft} {u : SourceUnit} {item : Item} {cause : Violation}

/-- Whatever has been made of the unit can be made. -/
structure Sound (u : SourceUnit) (d : Draft) : Prop where
  unit : d.package.unit = u
  makeable : ∀ o, d.package.values.contains o = true → u.Makeable o

/-- What is made has nothing wrong with it. -/
theorem Sound.made {o : ObjectId} {source : DeclSource} (h : d.Sound u)
    (hm : d.Made o source d') : d'.Sound u := by
  have hmakeable : u.Makeable o := by
    rw [← h.unit]
    cases hm with
    | known known =>
      rw [h.unit]
      exact h.makeable o known
    | type new object => exact ⟨_, object, by simp, fun _ hrecv => nomatch hrecv⟩
    | const new object => exact ⟨_, object, by simp, fun _ hrecv => nomatch hrecv⟩
    | global new object => exact ⟨_, object, by simp, fun _ hrecv => nomatch hrecv⟩
    | function new object isFunction =>
      refine ⟨_, object, by simp, fun recv hrecv => ?_⟩
      rw [Object.receiver?, isFunction] at hrecv
      cases hrecv
    | method new object isMethod declared =>
      refine ⟨_, object, by simp, fun recv hrecv => ?_⟩
      rw [Object.receiver?, isMethod] at hrecv
      cases hrecv
      exact isDeclaredType_iff.1 declared
  rcases hm.puts with ⟨-, rfl⟩ | ⟨object, value, hp⟩
  · exact h
  · refine ⟨hp.unit.trans h.unit, fun o' ho' => ?_⟩
    rcases (hp.isSome_iff o').1 ho' with rfl | ho'
    · exact hmakeable
    · exact h.makeable o' ho'

theorem Sound.make (h : d.Sound u) (hm : d.make item = .ok d') : d'.Sound u := by
  rcases make_cases hm with
    ⟨name, log, rfl, rfl⟩ | ⟨decl, rfl, rfl⟩ | ⟨o, source, -, hmade⟩
  · exact ⟨h.unit, h.makeable⟩
  · have hpackage := adoptInit_package d decl
    constructor
    · rw [hpackage]
      exact h.unit
    · rw [hpackage]
      exact h.makeable
  · exact h.made hmade

end Draft

/-! ## Accepted units -/

namespace Program

variable {p : Program} {u : SourceUnit}

end Program

/-- A unit with something wrong in both of its files. -/
def SourceUnit.faulty : SourceUnit where
  path := "m"
  name := "m"
  importable := true
  error := none
  objects := [.var "x" none (.basic .int), .func "M" none ⟨some ⟨"n", .basic .int⟩, [], [], false⟩,
    .package "fmt" none "fmt"]
  scopes := []
  files := [
    ⟨"a.go", [.gen .import [.import "fmt"] {},
      .gen .var [.value [⟨"x", some ⟨0⟩, none⟩, ⟨"_", none, none⟩, ⟨"x", some ⟨0⟩, none⟩] {}] {},
      .func ⟨⟨"M", some ⟨1⟩, none⟩, some [⟨[], .basic .int⟩], [], none, none, {}⟩]⟩,
    ⟨"b.go", [.func ⟨⟨"init", none, none⟩, none, [], none, none, {}⟩,
      .gen .const [.value [⟨"fmt", some ⟨2⟩, none⟩] {}, .type ⟨"T", none, none⟩ {}] {},
      .func ⟨⟨"g", none, none⟩, none, [], none, none, {}⟩]⟩]

namespace Program

end Program

end TraceDebugger
