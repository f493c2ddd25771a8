import TraceDebugger.Proofs.ClosedPackages
import TraceDebugger.Proofs.Operations

/-!
# Referential integrity of programs

A program finds its packages by number, by path and by short name, and refers to its functions by
ids. `Program.Intact` says that the numbers and tables of packages are right and that no id dangles.
Every change keeps a program intact (`Program.Intact.change`), so every reachable program is
(`Program.Reachable.intact`).
-/

namespace TraceDebugger

namespace Program

/-- The ids of functions that a program holds. -/
inductive Holds (p : Program) : FunctionId → Prop where
  /-- An id held by one of its packages. -/
  | package {pkg : Package} {id : FunctionId} (mem : pkg ∈ p.packages) (holds : pkg.Holds id) :
      Holds p id
  /-- A method of a declared type. -/
  | concreteMethod {key : ObjectKey} {id : FunctionId}
      (found : p.concreteMethods.find? key = some id) : Holds p id
  /-- A function that closes over the receiver of a method. -/
  | boundWrapper {key : ObjectKey} {id : FunctionId}
      (found : p.boundWrappers.find? key = some id) : Holds p id
  /-- A function that takes the receiver of a method as its first parameter. -/
  | interfaceWrapper {key : ObjectKey} {id : FunctionId}
      (found : p.interfaceWrappers.find? key = some id) : Holds p id

/-- A program has a function of this id, in the package of the key under which the id is noted. -/
def Answers (p : Program) (key : ObjectKey) (id : FunctionId) : Prop :=
  key.package = id.package ∧ ∃ f, p.function? id = some f

/-- The numbers and tables of packages are right, and no id of a function dangles. -/
structure Intact (p : Program) : Prop where
  /-- A package carries its number. -/
  number : ∀ id pkg, p.package? id = some pkg → pkg.id = id
  /-- Packages refer to their own functions only. -/
  closed : ∀ pkg ∈ p.packages, pkg.Closed
  /-- No two packages have the same path. -/
  paths : (p.packages.map Package.path).Nodup
  /-- A path leads to the package that has it. -/
  byIdentity : ∀ path id, p.byIdentity.find? path = some id ↔
    ∃ pkg, p.package? id = some pkg ∧ pkg.path = path
  /-- An import path leads to the importable package that has it. -/
  byPath : ∀ path id, p.byPath.find? path = some id ↔
    ∃ pkg, p.package? id = some pkg ∧ pkg.path = path ∧ pkg.importable = true
  /-- A short name leads to the last package that has it. -/
  byName : ∀ name id, p.byName.find? name = some id ↔
    (∃ pkg, p.package? id = some pkg ∧ pkg.name = name) ∧
      ∀ id', (∃ pkg, p.package? id' = some pkg ∧ pkg.name = name) → id'.index ≤ id.index
  /-- Methods lead to functions. -/
  concreteMethods : ∀ key id, p.concreteMethods.find? key = some id → p.Answers key id
  /-- Methods lead to the functions that close over their receivers. -/
  boundWrappers : ∀ key id, p.boundWrappers.find? key = some id → p.Answers key id
  /-- Methods lead to the functions that take their receivers as parameters. -/
  interfaceWrappers : ∀ key id, p.interfaceWrappers.find? key = some id → p.Answers key id

/-! ## Looking up packages -/

theorem package?_mem {p : Program} {id : PackageId} {pkg : Package} (h : p.package? id = some pkg) :
    pkg ∈ p.packages :=
  List.mem_of_getElem? h

theorem exists_package? {p : Program} {pkg : Package} (h : pkg ∈ p.packages) :
    ∃ id, p.package? id = some pkg := by
  obtain ⟨i, hi⟩ := List.mem_iff_getElem?.1 h
  exact ⟨⟨i⟩, hi⟩

theorem package?_modifyPackage (p : Program) (id id' : PackageId) (change : Package → Package) :
    (p.modifyPackage id change).package? id' =
      if id' = id then (p.package? id').map change else p.package? id' := by
  unfold package? modifyPackage
  rw [List.getElem?_modify]
  by_cases h : id' = id
  · subst h
    simp
  · have hne : ¬ id.index = id'.index := fun hi => h (by cases id; cases id'; simp_all)
    simp [h, hne]

/-- What is read off a package and not changed by a change of packages is read off as before. -/
theorem package?_modifyPackage_map {γ : Type} {p : Program} {id : PackageId} {pkg : Package}
    {change : Package → Package} {read : Package → γ} (h : p.package? id = some pkg)
    (hread : read (change pkg) = read pkg) (id' : PackageId) :
    ((p.modifyPackage id change).package? id').map read = (p.package? id').map read := by
  rw [package?_modifyPackage]
  by_cases hid : id' = id
  · rw [if_pos hid, hid, h]
    exact congrArg some hread
  · rw [if_neg hid]

theorem function?_of_owns {p : Program} {pkg : Package} {id : FunctionId}
    (h : p.package? id.package = some pkg) (howns : pkg.Owns id) :
    ∃ f, p.function? id = some f := by
  obtain ⟨f, hf⟩ := Package.owns_iff.1 howns
  exact ⟨f, by unfold function?; rw [h]; exact hf⟩

theorem owns_of_function? {p : Program} {id : FunctionId} {f : Function}
    (h : p.function? id = some f) : ∃ pkg, p.package? id.package = some pkg ∧ pkg.Owns id := by
  obtain ⟨pkg, hpkg, hf⟩ := Option.bind_eq_some_iff.1 h
  exact ⟨pkg, hpkg, Package.owns_iff.2 ⟨f, hf⟩⟩

/-! ## Changing a package in place -/

/-- A change of a package that keeps its number and unit and loses no functions. -/
structure Extends (pkg pkg' : Package) : Prop where
  /-- The number stays. -/
  id : pkg'.id = pkg.id
  /-- The unit stays. -/
  unit : pkg'.unit = pkg.unit
  /-- No function is lost. -/
  functions : pkg.functions.length ≤ pkg'.functions.length

theorem Answers.modifyPackage {p : Program} {id : PackageId} {pkg : Package}
    {change : Package → Package} (hpkg : p.package? id = some pkg)
    (hext : Extends pkg (change pkg)) {key : ObjectKey} {fid : FunctionId} (h : p.Answers key fid) :
    (p.modifyPackage id change).Answers key fid := by
  obtain ⟨hkey, f, hf⟩ := h
  obtain ⟨pkg', hpkg', howns⟩ := owns_of_function? hf
  refine ⟨hkey, ?_⟩
  by_cases hid : fid.package = id
  · rw [hid, hpkg] at hpkg'
    cases hpkg'
    refine function?_of_owns ?_ (howns.mono hext.id hext.functions)
    rw [package?_modifyPackage, if_pos hid, hid, hpkg]
    rfl
  · refine function?_of_owns ?_ howns
    rw [package?_modifyPackage, if_neg hid]
    exact hpkg'

/-- Changing a package in place keeps a program intact. -/
theorem Intact.modifyPackage {p : Program} (h : p.Intact) {id : PackageId} {pkg : Package}
    {change : Package → Package} (hpkg : p.package? id = some pkg)
    (hext : Extends pkg (change pkg)) (hclosed : (change pkg).Closed) :
    (p.modifyPackage id change).Intact := by
  have hpath : (change pkg).path = pkg.path := congrArg SourceUnit.path hext.unit
  have hname : (change pkg).name = pkg.name := congrArg SourceUnit.name hext.unit
  have himp : (change pkg).importable = pkg.importable := congrArg SourceUnit.importable hext.unit
  have hread : ∀ {γ : Type} (read : Package → γ), read (change pkg) = read pkg → ∀ id' value,
      (∃ pkg, (p.modifyPackage id change).package? id' = some pkg ∧ read pkg = value) ↔
        ∃ pkg, p.package? id' = some pkg ∧ read pkg = value := by
    intro γ read hr id' value
    rw [← Option.map_eq_some_iff, ← Option.map_eq_some_iff, package?_modifyPackage_map hpkg hr]
  refine ⟨?_, ?_, ?_, ?_, ?_, ?_, ?_, ?_, ?_⟩
  · intro id' pkg' h'
    rw [package?_modifyPackage] at h'
    split at h'
    · next hid =>
      rw [hid, hpkg] at h'
      cases h'
      exact hext.id.trans ((h.number id pkg hpkg).trans hid.symm)
    · exact h.number id' pkg' h'
  · intro pkg' hmem
    obtain ⟨id', h'⟩ := exists_package? hmem
    rw [package?_modifyPackage] at h'
    split at h'
    · next hid =>
      rw [hid, hpkg] at h'
      cases h'
      exact hclosed
    · exact h.closed pkg' (package?_mem h')
  · have hmap : (p.modifyPackage id change).packages.map Package.path =
        p.packages.map Package.path := by
      refine List.ext_getElem? fun i => ?_
      rw [List.getElem?_map, List.getElem?_map]
      exact package?_modifyPackage_map hpkg hpath ⟨i⟩
    rw [hmap]
    exact h.paths
  · intro path id'
    rw [hread Package.path hpath]
    exact h.byIdentity path id'
  · intro path id'
    have hr := hread (fun pkg => (pkg.path, pkg.importable)) (by rw [hpath, himp]) id' (path, true)
    simp only [Prod.mk.injEq] at hr
    rw [hr]
    exact h.byPath path id'
  · intro name id'
    simp only [hread Package.name hname]
    exact h.byName name id'
  · intro key fid hfind
    exact (h.concreteMethods key fid hfind).modifyPackage hpkg hext
  · intro key fid hfind
    exact (h.boundWrappers key fid hfind).modifyPackage hpkg hext
  · intro key fid hfind
    exact (h.interfaceWrappers key fid hfind).modifyPackage hpkg hext

/-! ## Adding a package -/

theorem package?_addPackage (p : Program) (pkg : Package) (methods : List (ObjectId × FunctionId))
    (id : PackageId) : (p.addPackage pkg methods).package? id =
      if id = p.nextPackage then some pkg else p.package? id := by
  change (p.packages ++ [pkg])[id.index]? = _
  by_cases h : id = p.nextPackage
  · subst h
    simp [nextPackage]
  · have hne : id.index ≠ p.packages.length := fun hi => h (by cases id; exact congrArg _ hi)
    rw [if_neg h]
    unfold package?
    rcases Nat.lt_or_gt_of_ne hne with hlt | hgt
    · exact List.getElem?_append_left hlt
    · rw [List.getElem?_eq_none (by simp; omega), List.getElem?_eq_none (by omega)]

theorem package?_nextPackage (p : Program) : p.package? p.nextPackage = none :=
  List.getElem?_eq_none (Nat.le_refl _)

theorem index_lt_of_package? {p : Program} {id : PackageId} {pkg : Package}
    (h : p.package? id = some pkg) : id.index < p.packages.length :=
  (List.getElem?_eq_some_iff.1 h).1

/-- What holds of a package of the longer program holds of the added one or of an earlier one. -/
theorem exists_package?_addPackage {p : Program} {pkg : Package}
    {methods : List (ObjectId × FunctionId)} {id : PackageId} {P : Package → Prop} :
    (∃ pkg', (p.addPackage pkg methods).package? id = some pkg' ∧ P pkg') ↔
      (id = p.nextPackage ∧ P pkg) ∨ ∃ pkg', p.package? id = some pkg' ∧ P pkg' := by
  rw [package?_addPackage]
  by_cases h : id = p.nextPackage
  · subst h
    simp [package?_nextPackage]
  · simp [h]

theorem Answers.addPackage {p : Program} {key : ObjectKey} {id : FunctionId} (h : p.Answers key id)
    (pkg : Package) (methods : List (ObjectId × FunctionId)) :
    (p.addPackage pkg methods).Answers key id := by
  obtain ⟨hkey, f, hf⟩ := h
  obtain ⟨pkg', hpkg', howns⟩ := owns_of_function? hf
  refine ⟨hkey, function?_of_owns ?_ howns⟩
  rw [package?_addPackage, if_neg, hpkg']
  intro heq
  rw [heq, package?_nextPackage] at hpkg'
  cases hpkg'

/-- A table that gets a new key for a new package still leads where it should. -/
theorem find?_insert_nextPackage {p : Program} {t : Table String PackageId} {pkg : Package}
    {methods : List (ObjectId × FunctionId)} {key : String} {P : Package → String → Prop}
    (ht : ∀ k id, t.find? k = some id ↔ ∃ pkg, p.package? id = some pkg ∧ P pkg k)
    (hkey : ∀ k, P pkg k ↔ k = key) (hnew : t.find? key = none) (k : String) (id : PackageId) :
    (t.insert key p.nextPackage).find? k = some id ↔
      ∃ pkg', (p.addPackage pkg methods).package? id = some pkg' ∧ P pkg' k := by
  rw [exists_package?_addPackage, ← ht, Table.find?_insert_eq, hkey]
  by_cases hk : k = key
  · rw [if_pos hk, hk, hnew]
    simp [eq_comm]
  · simp [hk]

/-- Adding a closed package with a new path keeps a program intact. -/
theorem Intact.addPackage {p : Program} (h : p.Intact) {pkg : Package}
    {methods : List (ObjectId × FunctionId)} (hid : pkg.id = p.nextPackage)
    (hpath : p.byIdentity.find? pkg.path = none) (hclosed : pkg.Closed)
    (hmethods : ∀ m ∈ methods, pkg.Owns m.2) : (p.addPackage pkg methods).Intact := by
  have hfresh : ∀ id pkg', p.package? id = some pkg' → pkg'.path ≠ pkg.path := by
    intro id pkg' hpkg' heq
    rw [(h.byIdentity pkg.path id).2 ⟨pkg', hpkg', heq⟩] at hpath
    cases hpath
  have hnew : (p.addPackage pkg methods).package? p.nextPackage = some pkg := by
    rw [package?_addPackage, if_pos rfl]
  refine ⟨?_, ?_, ?_, ?_, ?_, ?_, ?_, ?_, ?_⟩
  · intro id pkg' h'
    rw [package?_addPackage] at h'
    split at h'
    · next heq =>
      cases h'
      exact hid.trans heq.symm
    · exact h.number id pkg' h'
  · intro pkg' hmem
    rcases List.mem_append.1 hmem with hmem | hmem
    · exact h.closed pkg' hmem
    · rw [List.mem_singleton.1 hmem]
      exact hclosed
  · change ((p.packages ++ [pkg]).map Package.path).Nodup
    rw [List.map_append, List.nodup_append]
    refine ⟨h.paths, List.nodup_singleton _, ?_⟩
    rintro path hmem path' hmem' rfl
    obtain ⟨pkg', hmem, hpath'⟩ := List.mem_map.1 hmem
    obtain ⟨id, hpkg'⟩ := exists_package? hmem
    exact hfresh id pkg' hpkg' (hpath'.trans (List.mem_singleton.1 hmem'))
  · intro path id
    change (p.byIdentity.insert pkg.path pkg.id).find? path = _ ↔ _
    rw [hid]
    exact find?_insert_nextPackage h.byIdentity (fun k => eq_comm) hpath path id
  · intro path id
    have hnone : p.byPath.find? pkg.path = none := by
      cases hfind : p.byPath.find? pkg.path with
      | none => rfl
      | some id' =>
        obtain ⟨pkg', hpkg', heq, -⟩ := (h.byPath _ _).1 hfind
        exact absurd heq (hfresh id' pkg' hpkg')
    change (if pkg.importable then p.byPath.insert pkg.path pkg.id else p.byPath).find? path = _ ↔ _
    by_cases himp : pkg.importable = true
    · rw [if_pos himp, hid]
      refine find?_insert_nextPackage h.byPath (fun k => ?_) hnone path id
      simp [himp, eq_comm]
    · rw [if_neg himp, exists_package?_addPackage, h.byPath]
      simp [himp]
  · intro name id
    change (p.byName.insert pkg.name pkg.id).find? name = _ ↔ _
    rw [hid, Table.find?_insert_eq]
    simp only [exists_package?_addPackage]
    by_cases hname : name = pkg.name
    · rw [if_pos hname, Option.some.injEq]
      constructor
      · rintro rfl
        refine ⟨.inl ⟨rfl, hname.symm⟩, ?_⟩
        rintro id' (⟨rfl, -⟩ | ⟨pkg', hpkg', -⟩)
        · exact Nat.le_refl _
        · exact Nat.le_of_lt (index_lt_of_package? hpkg')
      · rintro ⟨⟨rfl, -⟩ | ⟨pkg', hpkg', -⟩, hlast⟩
        · rfl
        · have hle := hlast p.nextPackage (.inl ⟨rfl, hname.symm⟩)
          exact absurd (index_lt_of_package? hpkg') (Nat.not_lt.2 hle)
    · rw [if_neg hname]
      simp only [Ne.symm hname, and_false, false_or]
      exact h.byName name id
  · intro key fid hfind
    rcases Table.find?_foldl_insert_cases hfind with ⟨m, hm, hkey, hval⟩ | hfind
    · have howns := hmethods m hm
      rw [hval] at howns
      refine ⟨?_, function?_of_owns ?_ howns⟩
      · rw [← hkey, howns.1]
      · rw [howns.1, hid]
        exact hnew
    · exact (h.concreteMethods key fid hfind).addPackage pkg methods
  · intro key fid hfind
    exact (h.boundWrappers key fid hfind).addPackage pkg methods
  · intro key fid hfind
    exact (h.interfaceWrappers key fid hfind).addPackage pkg methods

/-! ## Noting a wrapper -/

theorem Intact.withBoundWrapper {p : Program} (h : p.Intact) {key : ObjectKey} {id : FunctionId}
    (hid : p.Answers key id) :
    Intact { p with boundWrappers := p.boundWrappers.insert key id } where
  __ := h
  boundWrappers key' id' hfind := by
    rw [Table.find?_insert_eq] at hfind
    split at hfind
    · next hkey =>
      cases hfind
      rw [hkey]
      exact hid
    · exact h.boundWrappers key' id' hfind

theorem Intact.withInterfaceWrapper {p : Program} (h : p.Intact) {key : ObjectKey} {id : FunctionId}
    (hid : p.Answers key id) :
    Intact { p with interfaceWrappers := p.interfaceWrappers.insert key id } where
  __ := h
  interfaceWrappers key' id' hfind := by
    rw [Table.find?_insert_eq] at hfind
    split at hfind
    · next hkey =>
      cases hfind
      rw [hkey]
      exact hid
    · exact h.interfaceWrappers key' id' hfind

/-- A function that mentions no other can be added to a package, under the next id. -/
theorem Intact.addFunction {p : Program} (h : p.Intact) {id : PackageId} {pkg : Package}
    {f : Function} (hpkg : p.package? id = some pkg) (hhome : f.package = id)
    (hf : ∀ id, ¬ f.Mentions id) {key : ObjectKey} (hkey : key.package = id) :
    (p.addFunction id f).Intact ∧ (p.addFunction id f).Answers key pkg.nextFunction := by
  have hid : pkg.id = id := h.number id pkg hpkg
  have hext : Extends pkg (pkg.addFunction f) := ⟨rfl, rfl, by simp [Package.addFunction]⟩
  have hclosed : (pkg.addFunction f).Closed :=
    (h.closed pkg (package?_mem hpkg)).addFunction (hhome.trans hid.symm)
      fun id hm => absurd hm (hf id)
  refine ⟨h.modifyPackage hpkg hext hclosed, hkey.trans hid.symm, ?_⟩
  have hnew : (p.modifyPackage id (·.addFunction f)).package? pkg.nextFunction.package =
      some (pkg.addFunction f) := by
    have hnext : pkg.nextFunction.package = id := hid
    rw [hnext, package?_modifyPackage, if_pos rfl, hpkg]
    rfl
  refine function?_of_owns hnew ⟨rfl, ?_⟩
  simp [Package.addFunction, Package.nextFunction]

/-! ## Every change -/

theorem intact_empty (diagnostics : Diagnostics) : Intact { diagnostics } where
  number _ _ h := nomatch h
  closed _ h := nomatch h
  paths := List.nodup_nil
  byIdentity _ _ := ⟨fun h => (nomatch h), fun ⟨_, h, _⟩ => (nomatch h)⟩
  byPath _ _ := ⟨fun h => (nomatch h), fun ⟨_, h, _⟩ => (nomatch h)⟩
  byName _ _ := ⟨fun h => (nomatch h), fun ⟨⟨_, h, _⟩, _⟩ => (nomatch h)⟩
  concreteMethods _ _ h := nomatch h
  boundWrappers _ _ h := nomatch h
  interfaceWrappers _ _ h := nomatch h

/-- Every change keeps a program intact. -/
theorem Intact.change {p q : Program} (h : p.Intact) (hc : Change p q) : q.Intact := by
  cases hc with
  | @package u draft accepted new built =>
    obtain ⟨hid, hunit⟩ := Draft.id_unit_of_build built
    have hclosed := Draft.closed_of_build built
    refine h.addPackage hid ?_ hclosed.finish fun m hm => ?_
    · change p.byIdentity.find? draft.package.unit.path = none
      rw [hunit]
      exact new
    · exact (hclosed.methods m hm).mono rfl (Nat.le_refl _)
  | @boundWrapper key name signature recv pkg new method home =>
    obtain ⟨hadd, hans⟩ := h.addFunction (f := boundWrapperOf key name signature recv) home rfl
      (fun id hm => hm.elim nofun nofun) rfl
    exact hadd.withBoundWrapper hans
  | @interfaceWrapper key name signature recv pkg new method home =>
    obtain ⟨hadd, hans⟩ := h.addFunction (f := interfaceWrapperOf key name signature recv) home rfl
      (fun id hm => hm.elim nofun nofun) rfl
    exact hadd.withInterfaceWrapper hans
  | @anonymous package enclosing pkg parent signature freeVars home inside =>
    have howns : pkg.Owns enclosing := Package.owns_iff.2 ⟨parent, inside⟩
    have hclosed := h.closed pkg (package?_mem home)
    have hlen : pkg.functions.length ≤ (pkg.addFunction
        (anonymousIn pkg enclosing parent signature freeVars)).functions.length := by
      simp [Package.addFunction]
    have hadd := hclosed.addFunction
      (f := anonymousIn pkg enclosing parent signature freeVars) rfl fun id hm => by
        rcases hm with hm | hm
        · cases hm
          exact howns.mono rfl hlen
        · cases hm
    have hnext : (pkg.addFunction (anonymousIn pkg enclosing parent signature freeVars)).Owns
        pkg.nextFunction := ⟨rfl, by simp [Package.addFunction, Package.nextFunction]⟩
    refine h.modifyPackage home ⟨?_, ?_, ?_⟩ ?_
    · unfold withAnonymous
      rw [Package.modifyFunction_eq]
      rfl
    · unfold withAnonymous
      rw [Package.modifyFunction_eq]
      rfl
    · unfold withAnonymous
      rw [Package.length_modifyFunction]
      exact hlen
    · refine hadd.modifyFunction enclosing (fun f => rfl) fun f _ id hm => ?_
      rcases hm with hm | hm
      · exact .inl (.inl hm)
      · rcases List.mem_append.1 hm with hm | hm
        · exact .inl (.inr hm)
        · rw [List.mem_singleton.1 hm]
          exact .inr hnext
  | @blocks id f blocks found =>
    obtain ⟨pkg, home, -⟩ := owns_of_function? found
    refine h.modifyPackage home ⟨?_, ?_, ?_⟩ ?_
    · rw [Package.modifyFunction_eq]
    · rw [Package.modifyFunction_eq]
    · exact Nat.le_of_eq (pkg.length_modifyFunction id _).symm
    · exact (h.closed pkg (package?_mem home)).modifyFunction id (fun f => rfl)
        fun f _ id hm => .inl hm

/-- Every reachable program is intact. -/
theorem Reachable.intact {p : Program} (h : p.Reachable) : p.Intact :=
  h.induction intact_empty fun _ _ hp hc => hp.change hc

/-- An intact program has a function for every id that it holds. -/
theorem Intact.function_of_holds {p : Program} (h : p.Intact) {id : FunctionId} (hh : p.Holds id) :
    ∃ f, p.function? id = some f := by
  cases hh with
  | @package pkg id mem holds =>
    obtain ⟨pid, hpkg⟩ := exists_package? mem
    have howns := (h.closed pkg mem).owns id holds
    rw [← h.number pid pkg hpkg, ← howns.1] at hpkg
    exact function?_of_owns hpkg howns
  | concreteMethod found => exact (h.concreteMethods _ _ found).2
  | boundWrapper found => exact (h.boundWrappers _ _ found).2
  | interfaceWrapper found => exact (h.interfaceWrappers _ _ found).2

/-- Whatever operations make a program, its packages are numbered by their places and their
functions carry that number; paths are unique and the three tables of packages are exact; and every
id of a function that is held anywhere denotes a function, which lies in the same package when a
package holds the id. -/
theorem referential_integrity (diagnostics : Diagnostics) (operations : List Operation) :
    let p := built diagnostics operations
    (∀ (i : Nat) (pkg : Package), p.packages[i]? = some pkg →
      pkg.id = ⟨i⟩ ∧ ∀ f ∈ pkg.functions, f.package = ⟨i⟩) ∧
    ((p.packages.map Package.path).Nodup ∧
      (∀ path id, p.byIdentity.find? path = some id ↔
        ∃ pkg, p.package? id = some pkg ∧ pkg.path = path) ∧
      (∀ path id, p.byPath.find? path = some id ↔
        p.byIdentity.find? path = some id ∧
          ∃ pkg, p.package? id = some pkg ∧ pkg.importable = true) ∧
      (∀ name id, p.byName.find? name = some id ↔
        (∃ pkg, p.package? id = some pkg ∧ pkg.name = name) ∧
          ∀ id', (∃ pkg, p.package? id' = some pkg ∧ pkg.name = name) → id'.index ≤ id.index)) ∧
    (∀ id, p.Holds id → ∃ f, p.function? id = some f) ∧
    (∀ pkg ∈ p.packages, ∀ id, pkg.Holds id → id.package = pkg.id ∧
      ∃ f, pkg.function? id = some f) := by
  intro p
  have h : p.Intact := Reachable.intact ⟨diagnostics, operations, rfl⟩
  refine ⟨fun i pkg hpkg => ?_, ⟨h.paths, h.byIdentity, fun path id => ?_, h.byName⟩,
    fun id hh => h.function_of_holds hh, fun pkg hmem id hh => ?_⟩
  · have hid : pkg.id = ⟨i⟩ := h.number ⟨i⟩ pkg hpkg
    refine ⟨hid, fun f hf => ?_⟩
    rw [← hid]
    exact (h.closed pkg (package?_mem hpkg)).home f hf
  · rw [h.byPath, h.byIdentity]
    constructor
    · rintro ⟨pkg, hpkg, hpath, himp⟩
      exact ⟨⟨pkg, hpkg, hpath⟩, pkg, hpkg, himp⟩
    · rintro ⟨⟨pkg, hpkg, hpath⟩, pkg', hpkg', himp⟩
      rw [hpkg] at hpkg'
      cases hpkg'
      exact ⟨pkg, hpkg, hpath, himp⟩
  · have howns := (h.closed pkg hmem).owns id hh
    exact ⟨howns.1, Package.owns_iff.1 howns⟩

end Program

end TraceDebugger
