import TraceDebugger.Proofs.Integrity

/-!
# What later operations leave as it is

A package that was made once only grows: functions are added at its end, and the functions that are
there get basic blocks and functions without a name inside (`Package.Grows`). Whatever is read off
the members, the scopes or the local variables of a package therefore stays right in every program
that comes later (`Program.run_grows`).
-/

namespace TraceDebugger

open Relation

/-- A function later on: it may have got basic blocks and functions without a name inside. -/
def Function.Continues (f f' : Function) : Prop :=
  ∃ anonymous blocks, f' = { f with anonymous, blocks }

theorem Function.Continues.trans {f f' f'' : Function} (h : f.Continues f')
    (h' : f'.Continues f'') : f.Continues f'' := by
  obtain ⟨anonymous, blocks, rfl⟩ := h
  obtain ⟨anonymous', blocks', rfl⟩ := h'
  exact ⟨anonymous', blocks', rfl⟩

namespace Package

/-- A package later on. -/
structure Grows (p p' : Package) : Prop where
  /-- Only functions change. -/
  rest : p' = { p with functions := p'.functions }
  /-- The functions that are there stay in place. -/
  functions : ∀ (i : Nat) (f : Function), p.functions[i]? = some f →
    ∃ f', p'.functions[i]? = some f' ∧ f.Continues f'

variable {p p' p'' : Package}

theorem Grows.refl (p : Package) : p.Grows p :=
  ⟨rfl, fun _ f hf => ⟨f, hf, f.anonymous, f.blocks, rfl⟩⟩

theorem Grows.trans (h : p.Grows p') (h' : p'.Grows p'') : p.Grows p'' := by
  refine ⟨?_, fun i f hf => ?_⟩
  · rw [h'.rest, h.rest]
  · obtain ⟨f', hf', hcontinues⟩ := h.functions i f hf
    obtain ⟨f'', hf'', hcontinues'⟩ := h'.functions i f' hf'
    exact ⟨f'', hf'', hcontinues.trans hcontinues'⟩

theorem grows_addFunction (p : Package) (f : Function) : p.Grows (p.addFunction f) := by
  refine ⟨rfl, fun i g hg => ⟨g, ?_, g.anonymous, g.blocks, rfl⟩⟩
  have hlt : i < p.functions.length := (List.getElem?_eq_some_iff.1 hg).1
  exact (List.getElem?_append_left hlt).trans hg

theorem grows_modifyFunction (p : Package) (id : FunctionId) {change : Function → Function}
    (hchange : ∀ f : Function, f.Continues (change f)) : p.Grows (p.modifyFunction id change) := by
  refine ⟨p.modifyFunction_eq id change, fun i f hf => ?_⟩
  unfold modifyFunction
  by_cases hid : id.package = p.id
  · rw [if_pos hid]
    dsimp only
    rw [List.getElem?_modify, hf]
    by_cases hi : id.index = i
    · exact ⟨change f, by simp [hi], hchange f⟩
    · exact ⟨f, by simp [hi], f.anonymous, f.blocks, rfl⟩
  · rw [if_neg hid]
    exact ⟨f, hf, f.anonymous, f.blocks, rfl⟩

theorem Grows.function? (h : p.Grows p') {id : FunctionId} {f : Function}
    (hf : p.function? id = some f) : ∃ f', p'.function? id = some f' ∧ f.Continues f' := by
  obtain ⟨hhome, hindex⟩ := Option.ite_none_right_eq_some.1 hf
  obtain ⟨f', hf', hcontinues⟩ := h.functions _ _ hindex
  have hid : p'.id = p.id := by rw [h.rest]
  exact ⟨f', Option.ite_none_right_eq_some.2 ⟨hhome.trans hid.symm, hf'⟩, hcontinues⟩

end Package

namespace Program

variable {p q : Program} {id : PackageId} {pkg : Package}

theorem grows_modifyPackage (p : Program) (id' : PackageId) {change : Package → Package}
    (hchange : ∀ pkg : Package, pkg.Grows (change pkg)) (hpkg : p.package? id = some pkg) :
    ∃ pkg', (p.modifyPackage id' change).package? id = some pkg' ∧ pkg.Grows pkg' := by
  rw [package?_modifyPackage, hpkg]
  by_cases hid : id = id'
  · rw [if_pos hid]
    exact ⟨change pkg, rfl, hchange pkg⟩
  · rw [if_neg hid]
    exact ⟨pkg, rfl, .refl pkg⟩

/-- A change lets the packages that are there grow. -/
theorem Change.grows (h : Change p q) (hpkg : p.package? id = some pkg) :
    ∃ pkg', q.package? id = some pkg' ∧ pkg.Grows pkg' := by
  cases h with
  | package _ _ _ =>
    have hold : id ≠ p.nextPackage := by
      intro hid
      rw [hid, package?_nextPackage] at hpkg
      cases hpkg
    rw [package?_addPackage, if_neg hold]
    exact ⟨pkg, hpkg, .refl pkg⟩
  | @boundWrapper key _ _ _ _ _ _ _ =>
    exact grows_modifyPackage p key.package (fun pkg => pkg.grows_addFunction _) hpkg
  | @interfaceWrapper key _ _ _ _ _ _ _ =>
    exact grows_modifyPackage p key.package (fun pkg => pkg.grows_addFunction _) hpkg
  | @anonymous package enclosing _ _ _ _ _ _ =>
    refine grows_modifyPackage p package (fun pkg => ?_) hpkg
    exact (pkg.grows_addFunction _).trans
      (Package.grows_modifyFunction _ enclosing fun f => ⟨_, f.blocks, rfl⟩)
  | @blocks fid _ blocks _ =>
    exact grows_modifyPackage p fid.package
      (fun pkg => pkg.grows_modifyFunction fid fun f => ⟨f.anonymous, some blocks, rfl⟩) hpkg

/-- The packages of a program grow along every run. -/
theorem run_grows (operations : List Operation) (hpkg : p.package? id = some pkg) :
    ∃ pkg', (p.run operations).package? id = some pkg' ∧ pkg.Grows pkg' := by
  have hrun := run_changes operations p
  generalize p.run operations = q at hrun
  induction hrun with
  | refl => exact ⟨pkg, hpkg, .refl pkg⟩
  | tail _ hstep ih =>
    obtain ⟨pkg', hpkg', hgrows⟩ := ih
    obtain ⟨pkg'', hpkg'', hgrows'⟩ := hstep.grows hpkg'
    exact ⟨pkg'', hpkg'', hgrows.trans hgrows'⟩

/-- A function of a package is there later on. -/
theorem function?_of_grows (q : Program) {pkg' : Package} {fid : FunctionId} {f : Function}
    (hpkg' : q.package? fid.package = some pkg') (hfid : fid.package = pkg.id)
    (hgrows : pkg.Grows pkg') (hf : pkg.functions[fid.index]? = some f) :
    ∃ f', q.function? fid = some f' ∧ f.Continues f' := by
  have hfound : pkg.function? fid = some f := Option.ite_none_right_eq_some.2 ⟨hfid, hf⟩
  obtain ⟨f', hf', hcontinues⟩ := hgrows.function? hfound
  exact ⟨f', Option.bind_eq_some_iff.2 ⟨pkg', hpkg', hf'⟩, hcontinues⟩

end Program

end TraceDebugger
