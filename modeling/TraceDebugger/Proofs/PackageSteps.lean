import TraceDebugger.Proofs.Growth

/-!
# What a change does to one package

A change of a program adds a finished package, or lets each package that is there take a step
(`Program.Change.adds_or_steps`). A step adds a function at the end of the package or changes one of
its functions a little (`Package.Step`). What holds of every finished package and is kept by every
step therefore holds of the packages of every reachable program
(`Program.Reachable.package_induction`).
-/

namespace TraceDebugger

namespace Package

/-- What a change of a program does to a package that is there. -/
inductive Step (pkg : Package) : Package → Prop where
  /-- The change is elsewhere. -/
  | stays : Step pkg pkg
  /-- A function that wraps a method of the unit is added. -/
  | wrapper {key : ObjectKey} {name : String} {pos : Option Position} {signature : Signature}
      {recv : Var} {f : Function}
      (method : pkg.unit.object? key.object = some (.func name pos signature))
      (receiver : signature.recv = some recv)
      (wraps : f = Program.boundWrapperOf key name signature recv ∨
        f = Program.interfaceWrapperOf key name signature recv) :
      Step pkg (pkg.addFunction f)
  /-- A function without a name is added inside another. -/
  | anonymous {enclosing : FunctionId} {parent : Function} {signature : Signature}
      {freeVars : List Var} (inside : pkg.function? enclosing = some parent) :
      Step pkg (Program.withAnonymous pkg enclosing parent signature freeVars)
  /-- A function gets basic blocks. -/
  | blocks (id : FunctionId) (blocks : List Block) :
      Step pkg (pkg.modifyFunction id fun f => { f with blocks := some blocks })

/-- A package that was made of a unit. -/
def Finished (pkg : Package) : Prop :=
  ∃ (id : PackageId) (u : SourceUnit) (draft : Draft),
    Draft.build { package := .start id u } u.items = (draft, none) ∧ pkg = draft.finish

variable {pkg pkg' : Package}

theorem mem_of_function? {id : FunctionId} {f : Function} (h : pkg.function? id = some f) :
    f ∈ pkg.functions :=
  List.mem_of_getElem? (Option.ite_none_right_eq_some.1 h).2

/-- What holds of a bare initializer and of the functions that are made of objects, and is kept when
a declaration is taken over, holds of the functions of a finished package. -/
theorem Finished.forall_functions {P : Function → Prop} (h : pkg.Finished)
    (initial : ∀ id, P (initializer id))
    (adopt : ∀ (f : Function) source vars, P f → P ((f.adopt source).addLocals vars))
    (made : ∀ (p : Package) object source name pos signature,
      P (Draft.builtFunction p object source name pos signature)) :
    ∀ f ∈ pkg.functions, P f := by
  obtain ⟨id, u, draft, hbuild, rfl⟩ := h
  refine Draft.build_invariant (P := fun d => ∀ f ∈ d.package.functions, P f)
    (fun _ _ hd => hd) (fun d decl hd f hf => ?_) (fun d _ _ d' hd hm f hf => ?_) hbuild ?_
  · have hfunctions : (d.adoptInit decl).package.functions =
        (d.package.modifyFunction d.package.initId fun f =>
          (f.adopt decl.source).addLocals (Draft.initLocals d.package decl)).functions := by
      rw [Draft.adoptInit_package, modifyFunction_initId]
    rw [hfunctions] at hf
    rcases mem_modifyFunction hf with hf | ⟨g, hg, rfl⟩
    · exact hd f hf
    · exact adopt g decl.source _ (hd g hg)
  · rcases hm.functions_cases with hkept | ⟨name, pos, signature, -, hadded⟩
    · rw [hkept] at hf
      exact hd f hf
    · rw [hadded] at hf
      rcases List.mem_append.1 hf with hf | hf
      · exact hd f hf
      · rw [List.mem_singleton.1 hf]
        exact made _ _ _ _ _ _
  · intro f hf
    rw [List.mem_singleton.1 hf]
    exact initial id

theorem Step.grows (h : pkg.Step pkg') : pkg.Grows pkg' := by
  cases h with
  | stays => exact .refl pkg
  | wrapper => exact pkg.grows_addFunction _
  | @anonymous enclosing parent signature freeVars inside =>
    exact (pkg.grows_addFunction _).trans
      (Package.grows_modifyFunction _ enclosing fun f => ⟨_, f.blocks, rfl⟩)
  | blocks id blocks =>
    exact pkg.grows_modifyFunction id fun f => ⟨f.anonymous, some blocks, rfl⟩

end Package

namespace Program

variable {p q : Program} {id : PackageId} {pkg pkg' : Package}

/-- A key leads to a method if its object is a function with a receiver. -/
theorem method?_eq_some {key : ObjectKey} {name : String} {signature : Signature} {recv : Var} :
    p.method? key = some (name, signature, recv) ↔ ∃ pkg pos, p.package? key.package = some pkg ∧
      pkg.unit.object? key.object = some (.func name pos signature) ∧
      signature.recv = some recv := by
  constructor
  · intro h
    obtain ⟨pkg, hpkg, h⟩ := Option.bind_eq_some_iff.1 h
    obtain ⟨object, hobject, h⟩ := Option.bind_eq_some_iff.1 h
    cases object with
    | func name' pos signature' =>
      obtain ⟨recv', hrecv, h⟩ := Option.bind_eq_some_iff.1 h
      cases h
      exact ⟨pkg, pos, hpkg, hobject, hrecv⟩
    | _ => cases h
  · rintro ⟨pkg, pos, hpkg, hobject, hrecv⟩
    refine Option.bind_eq_some_iff.2 ⟨pkg, hpkg, Option.bind_eq_some_iff.2 ⟨_, hobject, ?_⟩⟩
    exact Option.bind_eq_some_iff.2 ⟨recv, hrecv, rfl⟩

/-- Where the package of a number takes a step, every package takes one or stays. -/
theorem step_modifyPackage (p : Program) (id' : PackageId) {change : Package → Package}
    (hstep : ∀ pkg, p.package? id' = some pkg → pkg.Step (change pkg))
    (h : (p.modifyPackage id' change).package? id = some pkg') :
    ∃ pkg, p.package? id = some pkg ∧ pkg.Step pkg' := by
  rw [package?_modifyPackage] at h
  by_cases hid : id = id'
  · rw [if_pos hid] at h
    obtain ⟨pkg, hpkg, rfl⟩ := Option.map_eq_some_iff.1 h
    exact ⟨pkg, hpkg, hstep pkg (hid ▸ hpkg)⟩
  · rw [if_neg hid] at h
    exact ⟨pkg', h, .stays⟩

/-- Adding a function that wraps a method is a step of the package of the method. -/
theorem step_addWrapper {key : ObjectKey} {name : String} {signature : Signature} {recv : Var}
    {f : Function} (hmethod : p.method? key = some (name, signature, recv))
    (wraps : f = boundWrapperOf key name signature recv ∨
      f = interfaceWrapperOf key name signature recv)
    (h : (p.addFunction key.package f).package? id = some pkg') :
    ∃ pkg, p.package? id = some pkg ∧ pkg.Step pkg' := by
  obtain ⟨home, pos, hhome, hobject, hrecv⟩ := method?_eq_some.1 hmethod
  refine step_modifyPackage p key.package (fun pkg hpkg => ?_) h
  rw [hhome] at hpkg
  cases hpkg
  exact .wrapper hobject hrecv wraps

/-- A change adds a finished package with its methods, or it lets the packages take a step and
leaves the table of methods alone. -/
theorem Change.adds_or_steps (h : Change p q) :
    (∃ (u : SourceUnit) (draft : Draft), p.byIdentity.find? u.path = none ∧
      Draft.build { package := .start p.nextPackage u } u.items = (draft, none) ∧
      q = p.addPackage draft.finish draft.methods) ∨
    (q.concreteMethods = p.concreteMethods ∧ ∀ id pkg', q.package? id = some pkg' →
      ∃ pkg, p.package? id = some pkg ∧ pkg.Step pkg') := by
  cases h with
  | @package u draft _ new built => exact .inl ⟨u, draft, new, built, rfl⟩
  | boundWrapper _ method _ =>
    exact .inr ⟨rfl, fun id pkg' hpkg' => step_addWrapper method (.inl rfl) hpkg'⟩
  | interfaceWrapper _ method _ =>
    exact .inr ⟨rfl, fun id pkg' hpkg' => step_addWrapper method (.inr rfl) hpkg'⟩
  | anonymous hhome inside =>
    refine .inr ⟨rfl, fun id pkg' hpkg' => step_modifyPackage _ _ (fun pkg hpkg => ?_) hpkg'⟩
    rw [hhome] at hpkg
    cases hpkg
    exact .anonymous inside
  | @blocks fid _ blocks _ =>
    refine .inr ⟨rfl, fun id pkg' hpkg' => step_modifyPackage _ _ (fun pkg _ => ?_) hpkg'⟩
    exact .blocks fid blocks

/-- A package of the changed program is new and finished, or comes from one step. -/
theorem Change.package_cases (h : Change p q) (hpkg : q.package? id = some pkg') :
    pkg'.Finished ∨ ∃ pkg, p.package? id = some pkg ∧ pkg.Step pkg' := by
  rcases h.adds_or_steps with ⟨u, draft, -, hbuild, rfl⟩ | ⟨-, hstep⟩
  · rw [package?_addPackage] at hpkg
    split at hpkg
    · cases hpkg
      exact .inl ⟨p.nextPackage, u, draft, hbuild, rfl⟩
    · exact .inr ⟨pkg', hpkg, .stays⟩
  · exact .inr (hstep id pkg' hpkg)

/-- What holds of every finished package and is kept by every step holds of the packages of every
reachable program. -/
theorem Reachable.package_induction {P : Package → Prop} (h : p.Reachable)
    (finished : ∀ pkg : Package, pkg.Finished → P pkg)
    (step : ∀ pkg pkg' : Package, P pkg → pkg.Step pkg' → P pkg') : ∀ pkg ∈ p.packages, P pkg := by
  refine h.induction (P := fun p => ∀ pkg ∈ p.packages, P pkg) (fun _ _ hmem => nomatch hmem) ?_
  intro p q hp hchange pkg' hmem
  obtain ⟨id, hpkg'⟩ := exists_package? hmem
  rcases hchange.package_cases hpkg' with hfinished | ⟨pkg, hpkg, hstep⟩
  · exact finished pkg' hfinished
  · exact step pkg pkg' (hp pkg (package?_mem hpkg)) hstep

end Program

end TraceDebugger
