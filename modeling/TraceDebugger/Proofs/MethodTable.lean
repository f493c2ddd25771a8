import TraceDebugger.Proofs.Coherence

/-!
# The table of methods

A method is a function that an object of the unit has become and that has a receiver. The draft of a
package lists its methods (`Draft.ListsMethods`), and the program notes them when the package is
added. Nothing that happens afterwards adds or removes one, so the table of methods is exact
(`Program.Reachable.concreteMethods_iff`), and so is the list of the methods of a type
(`Program.Reachable.mem_methodsOf`).
-/

namespace TraceDebugger

/-- A type is the declared type of this path and name, or points to it. -/
def Ty.IsOf (t : Ty) (path name : String) : Prop :=
  t = .named path name ∨ t = .pointer (.named path name)

theorem Ty.namedBase?_eq_some {t : Ty} {path name : String} :
    t.namedBase? = some (path, name) ↔ t.IsOf path name := by
  have hderef : t.namedBase? = some (path, name) ↔ t.deref = .named path name := by
    unfold namedBase?
    cases t.deref <;> simp
  rw [hderef]
  unfold IsOf deref
  cases t <;> simp

theorem Ty.IsOf.unique {t : Ty} {path name path' name' : String} (h : t.IsOf path name)
    (h' : t.IsOf path' name') : path = path' ∧ name = name' := by
  rw [← namedBase?_eq_some] at h h'
  rw [h] at h'
  cases h'
  exact ⟨rfl, rfl⟩

/-- The package scope of a unit binds a name to a type. -/
def SourceUnit.DeclaresType (u : SourceUnit) (name : String) : Prop :=
  ∃ scope o object, u.packageScope? = some scope ∧ scope.names.find? name = some o ∧
    u.object? o = some object ∧ object.isTypeName = true

theorem Draft.isDeclaredType_iff {u : SourceUnit} {t : Ty} :
    isDeclaredType u t = true ↔ ∃ name, t.IsOf u.path name ∧ u.DeclaresType name := by
  simp only [← Ty.namedBase?_eq_some]
  unfold isDeclaredType SourceUnit.DeclaresType
  cases hbase : t.namedBase? with
  | none => simp
  | some base =>
    obtain ⟨path, name⟩ := base
    simp only [Bool.and_eq_true, decide_eq_true_eq, Option.any_eq_true, Option.bind_eq_some_iff]
    constructor
    · rintro ⟨rfl, object, ⟨o, ⟨scope, hscope, hname⟩, hobject⟩, htype⟩
      exact ⟨name, rfl, scope, o, object, hscope, hname, hobject, htype⟩
    · rintro ⟨name', heq, scope, o, object, hscope, hname, hobject, htype⟩
      cases heq
      exact ⟨rfl, object, ⟨o, ⟨scope, hscope, hname⟩, hobject⟩, htype⟩

/-- The receiver, if the object is a method. -/
def Object.receiver? : Object → Option Var
  | .func _ _ signature => signature.recv
  | _ => none

namespace Package

variable {p q : Package} {o : ObjectId} {id : FunctionId} {recv : Var}

/-- An object has become a function, and it has a receiver. -/
def HasMethod (p : Package) (o : ObjectId) (id : FunctionId) (recv : Var) : Prop :=
  p.values.find? o = some (.function id) ∧ (p.unit.object? o).bind Object.receiver? = some recv

theorem hasMethod_congr (hunit : q.unit = p.unit) (hvalues : q.values = p.values) :
    q.HasMethod o id recv ↔ p.HasMethod o id recv := by
  unfold HasMethod
  rw [hunit, hvalues]

/-- Noting a new object adds a method if the object becomes a function and has a receiver. -/
theorem hasMethod_insert {o' : ObjectId} {object : Object} {value : Built}
    (hnew : p.values.find? o' = none) (hobject : p.unit.object? o' = some object)
    (hunit : q.unit = p.unit) (hvalues : q.values = p.values.insert o' value) :
    q.HasMethod o id recv ↔ p.HasMethod o id recv ∨
      (o = o' ∧ value = .function id ∧ object.receiver? = some recv) := by
  unfold HasMethod
  rw [hunit, hvalues, Table.find?_insert_eq]
  by_cases ho : o = o'
  · rw [if_pos ho, ho, hnew, hobject]
    simp
  · rw [if_neg ho]
    simp [ho]

/-- In a coherent package the methods are the functions with object and receiver. -/
theorem Coherent.hasMethod_iff (h : p.Coherent) : p.HasMethod o id recv ↔
    p.values.find? o = some (.function id) ∧
      ∃ f, p.function? id = some f ∧ f.object = some o ∧ f.receiver? = some recv := by
  unfold HasMethod
  refine and_congr_right fun hvalue => ?_
  obtain ⟨object, hobject, hrecords⟩ := h.values o _ hvalue
  cases hrecords with
  | @function name pos signature id f found object named typed =>
    rw [hobject, found]
    unfold Function.receiver? Object.receiver?
    simp [object, typed]

/-- The function of a member has no receiver. -/
theorem Coherent.plain_of_member (h : p.Coherent) {key : String} {m : Member}
    (hmember : p.member? key = some m) (hid : m.function? = some id) :
    ∃ f, p.function? id = some f ∧ f.receiver? = none := by
  cases (h.members key m hmember).2 with
  | type | const | guard | global => cases hid
  | init found named plain | function found named plain =>
    cases hid
    exact ⟨_, found, plain⟩

/-- The receivers of methods are of types that the unit declares. -/
def Receives (p : Package) : Prop :=
  ∀ o id recv, p.HasMethod o id recv → Draft.isDeclaredType p.unit recv.type = true

end Package

/-! ## Listing the methods -/

namespace Draft

variable {d d' : Draft}

/-- A draft lists the methods of its package, whose receivers are of declared types. -/
structure ListsMethods (d : Draft) : Prop where
  listed : ∀ o id, (o, id) ∈ d.methods ↔ ∃ recv, d.package.HasMethod o id recv
  receives : d.package.Receives

theorem ListsMethods.of_same (h : d.ListsMethods) (hmethods : d'.methods = d.methods)
    (hunit : d'.package.unit = d.package.unit)
    (hsame : ∀ o id recv, d'.package.HasMethod o id recv ↔ d.package.HasMethod o id recv) :
    d'.ListsMethods := by
  refine ⟨fun o id => ?_, fun o id recv hm => ?_⟩
  · simp only [hmethods, hsame]
    exact h.listed o id
  · rw [hunit]
    exact h.receives o id recv ((hsame o id recv).1 hm)

theorem ListsMethods.made {o : ObjectId} {source : DeclSource} (h : d.ListsMethods)
    (hm : d.Made o source d') : d'.ListsMethods := by
  have hunmade : d.package.values.contains o = false → d.package.values.find? o = none :=
    Table.contains_eq_false_iff.1
  -- an object that is no function with a receiver adds no method
  have hother : ∀ {object : Object} {value : Built}, d.package.values.contains o = false →
      d.package.unit.object? o = some object → object.receiver? = none →
      d'.methods = d.methods → d'.package.unit = d.package.unit →
      d'.package.values = d.package.values.insert o value → d'.ListsMethods := by
    intro object value hnew hobject hplain hmethods hunit hvalues
    refine h.of_same hmethods hunit fun o' id recv => ?_
    rw [Package.hasMethod_insert (hunmade hnew) hobject hunit hvalues, hplain]
    simp
  cases hm with
  | known known => exact h
  | type new object => exact hother new object rfl rfl rfl rfl
  | const new object => exact hother new object rfl rfl rfl rfl
  | global new object => exact hother new object rfl rfl rfl rfl
  | @function name pos signature new object plain =>
    have hunit := addFunction_unit d.package o source name pos signature
    have hvalues := addFunction_values d.package o source name pos signature
    exact hother new object plain rfl hunit hvalues
  | @method name pos signature recv new object isMethod declared =>
    have hunit := addFunction_unit d.package o source name pos signature
    have hvalues := addFunction_values d.package o source name pos signature
    have hmethod : ∀ o' id recv', Package.HasMethod (addFunction d.package o source name pos
        signature) o' id recv' ↔ d.package.HasMethod o' id recv' ∨
          (o' = o ∧ id = d.package.nextFunction ∧ recv' = recv) := by
      intro o' id recv'
      rw [Package.hasMethod_insert (hunmade new) object hunit hvalues, Object.receiver?, isMethod]
      simp [eq_comm]
    refine ⟨fun o' id => ?_, fun o' id recv' hm' => ?_⟩
    · rw [List.mem_append, h.listed]
      simp only [hmethod, exists_or, List.mem_singleton, Prod.mk.injEq]
      simp
    · change isDeclaredType (addFunction d.package o source name pos signature).unit _ = true
      rw [hunit]
      rcases (hmethod o' id recv').1 hm' with hold | ⟨-, -, rfl⟩
      · exact h.receives o' id recv' hold
      · exact declared

theorem listsMethods_of_build {id : PackageId} {u : SourceUnit} {items : List Item}
    (hb : build { package := .start id u } items = (d, none)) : d.ListsMethods := by
  refine build_invariant (P := ListsMethods) (fun d log h => ?_) (fun d decl h => ?_)
    (fun d o source d' h hm => h.made hm) hb ?_
  · exact h.of_same rfl rfl fun _ _ _ => Iff.rfl
  · have hunit : (d.adoptInit decl).package.unit = d.package.unit := by rw [adoptInit_package]
    have hvalues : (d.adoptInit decl).package.values = d.package.values := by
      rw [adoptInit_package]
    exact h.of_same rfl hunit fun _ _ _ => Package.hasMethod_congr hunit hvalues
  · have hnone : ∀ o id' recv, ¬ (Package.start id u).HasMethod o id' recv :=
      fun o id' recv hm => nomatch hm.1
    exact ⟨fun o id' => by simp [hnone], fun o id' recv hm => absurd hm (hnone o id' recv)⟩

end Draft

namespace Package

variable {p q : Package}

theorem Finished.receives (h : p.Finished) : p.Receives := by
  obtain ⟨id, u, draft, hbuild, rfl⟩ := h
  exact (Draft.listsMethods_of_build hbuild).receives

theorem Grows.hasMethod_iff (h : p.Grows q) {o : ObjectId} {id : FunctionId} {recv : Var} :
    q.HasMethod o id recv ↔ p.HasMethod o id recv := by
  rw [h.rest]
  exact hasMethod_congr rfl rfl

theorem Receives.step (h : p.Receives) (hs : p.Step q) : q.Receives := by
  intro o id recv hm
  have hunit : q.unit = p.unit := by rw [hs.grows.rest]
  rw [hunit]
  exact h o id recv (hs.grows.hasMethod_iff.1 hm)

end Package

/-! ## The table of a program -/

namespace Program

variable {p q : Program}

/-- The table of methods leads from the methods of packages to their functions. -/
def ListsMethods (p : Program) : Prop :=
  ∀ key id, p.concreteMethods.find? key = some id ↔
    ∃ pkg recv, p.package? key.package = some pkg ∧ pkg.HasMethod key.object id recv

theorem ListsMethods.addPackage (h : p.ListsMethods) {draft : Draft}
    (hid : draft.finish.id = p.nextPackage) (hdraft : draft.ListsMethods) :
    (p.addPackage draft.finish draft.methods).ListsMethods := by
  intro key id
  -- an object has become one function, so entries of the same key agree
  have hagree : ∀ m ∈ draft.methods, ∀ m' ∈ draft.methods,
      (⟨draft.finish.id, m.1⟩ : ObjectKey) = ⟨draft.finish.id, m'.1⟩ → m.2 = m'.2 := by
    rintro ⟨o, id⟩ hm ⟨o', id'⟩ hm' hkey
    cases hkey
    obtain ⟨recv, hvalue, -⟩ := (hdraft.listed o id).1 hm
    obtain ⟨recv', hvalue', -⟩ := (hdraft.listed o id').1 hm'
    rw [hvalue] at hvalue'
    cases hvalue'
    rfl
  change (draft.methods.foldl (fun t m => t.insert ⟨draft.finish.id, m.1⟩ m.2)
    p.concreteMethods).find? key = some id ↔ _
  rw [Table.find?_foldl_insert_of_agree hagree, h key id, package?_addPackage, hid]
  by_cases hkey : key.package = p.nextPackage
  · rw [if_pos hkey, hkey, package?_nextPackage]
    have hmethod : (∃ m ∈ draft.methods, (⟨p.nextPackage, m.1⟩ : ObjectKey) = key ∧ m.2 = id) ↔
        (key.object, id) ∈ draft.methods := by
      constructor
      · rintro ⟨⟨o, id⟩, hm, rfl, rfl⟩
        exact hm
      · intro hm
        exact ⟨_, hm, by rw [← hkey], rfl⟩
    rw [hmethod, hdraft.listed, ← hkey]
    constructor
    · rintro (⟨recv, hm⟩ | ⟨-, pkg, recv, hpkg, -⟩)
      · exact ⟨draft.finish, recv, rfl, hm⟩
      · cases hpkg
    · rintro ⟨pkg, recv, hpkg, hm⟩
      cases hpkg
      exact .inl ⟨recv, hm⟩
  · rw [if_neg hkey]
    have hother : ∀ m ∈ draft.methods, (⟨p.nextPackage, m.1⟩ : ObjectKey) ≠ key := by
      rintro m - rfl
      exact hkey rfl
    constructor
    · rintro (⟨m, hm, heq, -⟩ | ⟨-, hold⟩)
      · exact absurd heq (hother m hm)
      · exact hold
    · intro hold
      exact .inr ⟨hother, hold⟩

theorem ListsMethods.change (h : p.ListsMethods) (hc : Change p q) : q.ListsMethods := by
  rcases hc.adds_or_steps with ⟨u, draft, -, hbuild, rfl⟩ | ⟨htable, hsteps⟩
  · exact h.addPackage (Draft.id_unit_of_build hbuild).1 (Draft.listsMethods_of_build hbuild)
  · intro key id
    rw [htable, h key id]
    constructor
    · rintro ⟨pkg, recv, hpkg, hm⟩
      obtain ⟨pkg', hpkg', hgrows⟩ := hc.grows hpkg
      exact ⟨pkg', recv, hpkg', hgrows.hasMethod_iff.2 hm⟩
    · rintro ⟨pkg', recv, hpkg', hm⟩
      obtain ⟨pkg, hpkg, hstep⟩ := hsteps _ _ hpkg'
      exact ⟨pkg, recv, hpkg, hstep.grows.hasMethod_iff.1 hm⟩

theorem Reachable.listsMethods (h : p.Reachable) : p.ListsMethods := by
  refine h.induction (P := ListsMethods) (fun d key id => ?_) fun p q hp hc => hp.change hc
  constructor
  · intro hfind
    cases hfind
  · rintro ⟨pkg, recv, hpkg, -⟩
    cases hpkg

theorem Reachable.receives (h : p.Reachable) {pkg : Package} (hmem : pkg ∈ p.packages) :
    pkg.Receives :=
  h.package_induction (fun _ hf => hf.receives) (fun _ _ hp hs => hp.step hs) pkg hmem

/-- A key leads to the method `f` of the package `pkg`: its object has become that function, whose
receiver is of a type that the unit declares. -/
structure MethodAt (p : Program) (key : ObjectKey) (id : FunctionId) (pkg : Package) (f : Function)
    (recv : Var) : Prop where
  home : p.package? key.package = some pkg
  number : pkg.id = key.package
  value : pkg.values.find? key.object = some (.function id)
  found : pkg.function? id = some f
  object : f.object = some key.object
  receiver : f.receiver? = some recv
  declared : Draft.isDeclaredType pkg.unit recv.type = true

variable {key : ObjectKey} {id : FunctionId} {pkg : Package} {f : Function} {recv : Var}

theorem Intact.function?_of_package? (h : p.Intact) {pid : PackageId}
    (hpkg : p.package? pid = some pkg) (hf : pkg.function? id = some f) :
    p.function? id = some f := by
  have hhome : id.package = pkg.id := (Option.ite_none_right_eq_some.1 hf).1
  unfold Program.function?
  rw [hhome, h.number _ _ hpkg, hpkg]
  exact hf

/-- A function that an object has become and that has a receiver is a method. -/
theorem Reachable.methodAt (h : p.Reachable) (hpkg : p.package? key.package = some pkg)
    (hvalue : pkg.values.find? key.object = some (.function id)) (hf : p.function? id = some f)
    (hrecv : f.receiver? = some recv) : p.MethodAt key id pkg f recv := by
  have hmem := package?_mem hpkg
  obtain ⟨object, -, hrecords⟩ := (h.coherent hmem).values _ _ hvalue
  cases hrecords with
  | @function name pos signature id f' found object named typed =>
    rw [h.intact.function?_of_package? hpkg found] at hf
    cases hf
    have hm : pkg.HasMethod key.object id recv :=
      (h.coherent hmem).hasMethod_iff.2 ⟨hvalue, f, found, object, hrecv⟩
    exact ⟨hpkg, h.intact.number _ _ hpkg, hvalue, found, object, hrecv,
      h.receives hmem _ _ _ hm⟩

theorem MethodAt.hasMethod (h : p.Reachable) (hat : p.MethodAt key id pkg f recv) :
    pkg.HasMethod key.object id recv :=
  (h.coherent (package?_mem hat.home)).hasMethod_iff.2
    ⟨hat.value, f, hat.found, hat.object, hat.receiver⟩

theorem Reachable.concreteMethods_iff (h : p.Reachable) :
    p.concreteMethods.find? key = some id ↔ ∃ pkg f recv, p.MethodAt key id pkg f recv := by
  rw [h.listsMethods key id]
  constructor
  · rintro ⟨pkg, recv, hpkg, hm⟩
    obtain ⟨hvalue, f, hf, -, hrecv⟩ := (h.coherent (package?_mem hpkg)).hasMethod_iff.1 hm
    exact ⟨pkg, f, recv,
      h.methodAt hpkg hvalue (h.intact.function?_of_package? hpkg hf) hrecv⟩
  · rintro ⟨pkg, f, recv, hat⟩
    exact ⟨pkg, recv, hat.home, hat.hasMethod h⟩

theorem Reachable.methodAt_of_mem (h : p.Reachable)
    (hentry : (key, id) ∈ p.concreteMethods.entries) :
    ∃ pkg f recv, p.MethodAt key id pkg f recv := by
  rw [← p.concreteMethods.find?_eq_some_iff] at hentry
  exact h.concreteMethods_iff.1 hentry

theorem MethodAt.function? (h : p.Reachable) (hat : p.MethodAt key id pkg f recv) :
    p.function? id = some f :=
  h.intact.function?_of_package? hat.home hat.found

/-! ## The methods of a type -/

/-- A function is listed with the methods of the base type of its receiver. -/
theorem Reachable.mem_methodsOf (h : p.Reachable) {path name : String} :
    f ∈ p.methodsOf path name ↔ ∃ key id pkg recv, p.MethodAt key id pkg f recv ∧
      recv.type.IsOf path name := by
  unfold methodsOf
  rw [List.mem_mergeSort, List.mem_filter, List.mem_filterMap]
  simp only [decide_eq_true_eq]
  constructor
  · rintro ⟨⟨id, hid, hf⟩, hbase⟩
    obtain ⟨⟨key, id'⟩, hentry, rfl⟩ := List.mem_map.1 hid
    obtain ⟨pkg, f', recv, hat⟩ := h.methodAt_of_mem hentry
    rw [hat.function? h] at hf
    cases hf
    rw [hat.receiver] at hbase
    exact ⟨key, id', pkg, recv, hat, Ty.namedBase?_eq_some.1 hbase⟩
  · rintro ⟨key, id, pkg, recv, hat, hbase⟩
    have hentry := h.concreteMethods_iff.2 ⟨pkg, f, recv, hat⟩
    rw [p.concreteMethods.find?_eq_some_iff] at hentry
    refine ⟨⟨id, List.mem_map.2 ⟨_, hentry, rfl⟩, hat.function? h⟩, ?_⟩
    rw [hat.receiver]
    exact Ty.namedBase?_eq_some.2 hbase

theorem Reachable.nodup_methodsOf (h : p.Reachable) (path name : String) :
    (p.methodsOf path name).Nodup := by
  -- a function says under which key it is noted, so no two entries lead to the same function
  have hkey : ∀ e ∈ p.concreteMethods.entries, ∀ f, p.function? e.2 = some f →
      f.object = some e.1.object ∧ f.package = e.1.package := by
    rintro ⟨key, id⟩ hentry f hf
    obtain ⟨pkg, f', recv, hat⟩ := h.methodAt_of_mem hentry
    rw [hat.function? h] at hf
    cases hf
    have hmem := Package.mem_of_function? hat.found
    exact ⟨hat.object,
      ((h.intact.closed pkg (package?_mem hat.home)).home f hmem).trans hat.number⟩
  have hdistinct : (p.concreteMethods.values.filterMap p.function?).Nodup := by
    unfold Table.values List.Nodup
    rw [List.pairwise_filterMap, List.pairwise_map]
    refine p.concreteMethods.sorted.imp_of_mem ?_
    intro e e' he he' hlt f hf f' hf' heq
    obtain ⟨hobject, hpackage⟩ := hkey e he f hf
    obtain ⟨hobject', hpackage'⟩ := hkey e' he' f' hf'
    have hsame : e.1 = e'.1 := by
      rw [heq, hobject'] at hobject
      rw [heq, hpackage'] at hpackage
      obtain ⟨⟨package, object⟩, id⟩ := e
      cases hpackage
      cases hobject
      rfl
    rw [hsame] at hlt
    have hirrefl : compare e'.1 e'.1 ≠ .lt := by simp
    exact hirrefl hlt
  unfold methodsOf
  exact (List.mergeSort_perm _ _).nodup_iff.2 (hdistinct.filter _)

theorem MethodAt.exists_base (hat : p.MethodAt key id pkg f recv) :
    ∃ name, recv.type.IsOf pkg.path name ∧ pkg.unit.DeclaresType name :=
  Draft.isDeclaredType_iff.1 hat.declared

/-- No package has a member that is a method. -/
theorem MethodAt.function?_ne (h : p.Reachable) (hat : p.MethodAt key id pkg f recv)
    {pkg' : Package} (hmem : pkg' ∈ p.packages) {name : String} {m : Member}
    (hmember : pkg'.member? name = some m) : m.function? ≠ some id := by
  intro hid
  obtain ⟨pid, hpkg'⟩ := exists_package? hmem
  obtain ⟨f', hf', hplain⟩ := (h.coherent hmem).plain_of_member hmember hid
  have hsame := h.intact.function?_of_package? hpkg' hf'
  rw [hat.function? h] at hsame
  cases hsame
  rw [hat.receiver] at hplain
  cases hplain

/-- A method is listed with one type only. -/
theorem MethodAt.existsUnique_base (h : p.Reachable) (hat : p.MethodAt key id pkg f recv) :
    ∃! base : String × String, f ∈ p.methodsOf base.1 base.2 := by
  obtain ⟨name, hbase, -⟩ := hat.exists_base
  refine ⟨(pkg.path, name), h.mem_methodsOf.2 ⟨key, id, pkg, recv, hat, hbase⟩, ?_⟩
  rintro ⟨path, name'⟩ hlisted
  obtain ⟨key', id', pkg', recv', hat', hbase'⟩ := h.mem_methodsOf.1 hlisted
  have hrecv := hat'.receiver
  rw [hat.receiver] at hrecv
  cases hrecv
  obtain ⟨rfl, rfl⟩ := hbase'.unique hbase
  rfl

/-- The methods of a type are the functions with a receiver of it that objects have become, in
whatever package. -/
theorem Reachable.mem_methodsOf_iff (h : p.Reachable) {path name : String} :
    f ∈ p.methodsOf path name ↔ ∃ pkg ∈ p.packages, ∃ o id recv,
      pkg.values.find? o = some (.function id) ∧ pkg.function? id = some f ∧
      f.receiver? = some recv ∧ recv.type.IsOf path name := by
  rw [h.mem_methodsOf]
  constructor
  · rintro ⟨key, id, pkg, recv, hat, hbase⟩
    exact ⟨pkg, package?_mem hat.home, key.object, id, recv, hat.value, hat.found, hat.receiver,
      hbase⟩
  · rintro ⟨pkg, hmem, o, id, recv, hvalue, hf, hrecv, hbase⟩
    obtain ⟨pid, hpkg⟩ := exists_package? hmem
    have hf' := h.intact.function?_of_package? hpkg hf
    exact ⟨⟨pid, o⟩, id, pkg, recv, h.methodAt hpkg hvalue hf' hrecv, hbase⟩

theorem pairwise_methodsOf (p : Program) (path name : String) :
    (p.methodsOf path name).Pairwise fun f g => f.name ≤ g.name := by
  refine (List.pairwise_mergeSort (fun f g k hfg hgk => ?_) (fun f g => ?_) _).imp of_decide_eq_true
  · exact decide_eq_true (String.le_trans (of_decide_eq_true hfg) (of_decide_eq_true hgk))
  · simpa using String.le_total f.name g.name

/-- In every program that operations make, the table of methods leads to the functions with a
receiver that objects have become, each is listed with one declared type of its package, and no
other function is. Functions that stand for no object are not methods, whatever their receiver. -/
theorem concreteMethods_exact (diagnostics : Diagnostics) (operations : List Operation) :
    let p := built diagnostics operations
    (∀ key id, p.concreteMethods.find? key = some id ↔
      ∃ pkg f, p.package? key.package = some pkg ∧
        pkg.values.find? key.object = some (.function id) ∧ p.function? id = some f ∧
        f.receiver?.isSome) ∧
    (∀ key id, p.concreteMethods.find? key = some id →
      (∃ pkg f recv name, p.package? key.package = some pkg ∧ p.function? id = some f ∧
        f.receiver? = some recv ∧ recv.type.IsOf pkg.path name ∧ pkg.unit.DeclaresType name) ∧
      ∀ pkg ∈ p.packages, ∀ name m, pkg.member? name = some m → m.function? ≠ some id) ∧
    (∀ path name,
      ((p.methodsOf path name).Pairwise fun f g => f.name ≤ g.name) ∧
      (p.methodsOf path name).Nodup ∧
      (∀ f, f ∈ p.methodsOf path name ↔ ∃ pkg ∈ p.packages, ∃ o id recv,
        pkg.values.find? o = some (.function id) ∧ pkg.function? id = some f ∧
        f.receiver? = some recv ∧ recv.type.IsOf path name) ∧
      ∀ f ∈ p.methodsOf path name, ∃ pkg ∈ p.packages, pkg.path = path ∧ f ∈ pkg.functions) ∧
    ∀ key id, p.concreteMethods.find? key = some id → ∃ f, p.function? id = some f ∧
      ∃! base : String × String, f ∈ p.methodsOf base.1 base.2 := by
  intro p
  have h : p.Reachable := ⟨diagnostics, operations, rfl⟩
  refine ⟨fun key id => ?_, fun key id hfind => ?_, fun path name => ?_, fun key id hfind => ?_⟩
  · rw [h.concreteMethods_iff]
    constructor
    · rintro ⟨pkg, f, recv, hat⟩
      refine ⟨pkg, f, hat.home, hat.value, hat.function? h, ?_⟩
      rw [hat.receiver]
      rfl
    · rintro ⟨pkg, f, hpkg, hvalue, hf, hsome⟩
      obtain ⟨recv, hrecv⟩ := Option.isSome_iff_exists.1 hsome
      exact ⟨pkg, f, recv, h.methodAt hpkg hvalue hf hrecv⟩
  · obtain ⟨pkg, f, recv, hat⟩ := h.concreteMethods_iff.1 hfind
    obtain ⟨name, hbase, hdeclares⟩ := hat.exists_base
    exact ⟨⟨pkg, f, recv, name, hat.home, hat.function? h, hat.receiver, hbase, hdeclares⟩,
      fun pkg' hmem name m hmember => hat.function?_ne h hmem hmember⟩
  · refine ⟨pairwise_methodsOf p path name, h.nodup_methodsOf path name,
      fun f => h.mem_methodsOf_iff, fun f hf => ?_⟩
    obtain ⟨key, id, pkg, recv, hat, hbase⟩ := h.mem_methodsOf.1 hf
    obtain ⟨name', hbase', -⟩ := hat.exists_base
    exact ⟨pkg, package?_mem hat.home, (hbase'.unique hbase).1,
      Package.mem_of_function? hat.found⟩
  · obtain ⟨pkg, f, recv, hat⟩ := h.concreteMethods_iff.1 hfind
    exact ⟨f, hat.function? h, hat.existsUnique_base h⟩

/-- A unit with a type and a method that has a parameter `recv`. -/
def receiving : SourceUnit where
  path := "m"
  name := "m"
  importable := true
  error := none
  objects := [.typeName "T" none (.named "m" "T") (.basic .int) [],
    .func "f" none ⟨some ⟨"t", .named "m" "T"⟩, [⟨"recv", .basic .int⟩], [], false⟩]
  scopes := [⟨{}, .ofList [("T", ⟨0⟩)], []⟩]
  files := [⟨"m.go", [
    .gen .type [.type ⟨"T", some ⟨0⟩, none⟩ {}] {},
    .func ⟨⟨"f", some ⟨1⟩, none⟩, some [], [], none, none, {}⟩]⟩]

/-- A function inside another may be given a receiver, and is listed with no type. -/
theorem receiver_without_object :
    let p := built {} [.create receiving, .addAnonymous ⟨0⟩ ⟨⟨0⟩, 1⟩
      ⟨some ⟨"t", .named "m" "T"⟩, [], [], false⟩ []]
    ¬ ∀ f, f ∈ p.methodsOf "m" "T" ↔ ∃ pkg ∈ p.packages, pkg.path = "m" ∧ f ∈ pkg.functions ∧
      ∃ recv, f.receiver? = some recv ∧ recv.type.IsOf "m" "T" := by
  intro p hall
  have h : p.Reachable := ⟨_, _, rfl⟩
  have hinner : ∃ pkg f, p.package? ⟨0⟩ = some pkg ∧ pkg.path = "m" ∧
      pkg.functions[2]? = some f ∧ f.object = none ∧
      f.receiver? = some ⟨"t", .named "m" "T"⟩ := ⟨_, _, rfl, rfl, rfl, rfl, rfl⟩
  obtain ⟨pkg, f, hpkg, hpath, hf, hobject, hrecv⟩ := hinner
  have hlisted := (hall f).2 ⟨pkg, package?_mem hpkg, hpath, List.mem_of_getElem? hf, _, hrecv,
    .inl rfl⟩
  obtain ⟨key, id, pkg', recv, hat, -⟩ := h.mem_methodsOf.1 hlisted
  have hsome := hat.object
  rw [hobject] at hsome
  cases hsome

end Program

end TraceDebugger
