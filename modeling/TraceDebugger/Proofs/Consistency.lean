import TraceDebugger.Proofs.MethodTable

/-!
# Consistency of packages later on

The check of a package finds nothing wrong exactly if each function is consistent
(`Program.problems_eq_nil_iff`). Functions that are made on demand keep a package consistent, with
one exception: the function that takes the receiver of a method as a parameter calls it `recv`, and
the method may have a parameter of that name (`Program.synthesis_keeps_consistent`).
-/

namespace TraceDebugger

/-- No name is repeated and none has been seen exactly if nothing is reported. -/
theorem repeatedNames_eq_nil_iff {seen names : List String} :
    repeatedNames seen names = [] ↔ names.Nodup ∧ ∀ name ∈ names, name ∉ seen := by
  induction names generalizing seen with
  | nil => simp [repeatedNames]
  | cons name rest ih =>
    unfold repeatedNames
    by_cases hseen : name ∈ seen
    · simp [hseen]
    · rw [if_neg hseen, ih, List.nodup_cons]
      constructor
      · rintro ⟨hnodup, hrest⟩
        have hname : name ∉ rest := fun hmem => hrest name hmem List.mem_cons_self
        refine ⟨⟨hname, hnodup⟩, fun other hother => ?_⟩
        rcases List.mem_cons.1 hother with rfl | hother
        · exact hseen
        · exact fun hmem => hrest other hother (List.mem_cons_of_mem _ hmem)
      · rintro ⟨⟨hname, hnodup⟩, hall⟩
        refine ⟨hnodup, fun other hother hmem => ?_⟩
        rcases List.mem_cons.1 hmem with rfl | hmem
        · exact hname hother
        · exact hall other (List.mem_cons_of_mem _ hother) hmem

/-- A finding is left out exactly if its condition holds. -/
theorem ite_nil_eq_nil_iff {α : Type} {c : Prop} [Decidable c] {x : α} :
    (if c then [] else [x]) = [] ↔ c := by
  by_cases h : c
  · simp [h]
  · simp [h]

/-- The check finds nothing wrong with a function of a package: named parameters differ, the table
of slots is the inverse of the list of local variables, what the function refers to exists, and
blocks are numbered by their places. -/
structure Function.Consistent (f : Function) (p : Program) (pkg : Package) : Prop where
  params : f.paramNames.Nodup
  /-- A local variable has its place as slot and is found there, and its scope exists. -/
  locals : ∀ i l, f.locals[i]? = some l →
    l.slot = i ∧ f.slot? l.name l.scope = some i ∧ (pkg.scope? l.scope).isSome
  size : f.slots.size = f.locals.length
  scope : ∀ scope, f.scope = some scope → (pkg.scope? scope).isSome
  enclosing : ∀ id, f.enclosing = some id → (p.function? id).isSome ∨ (pkg.function? id).isSome
  blocks : ∀ (i : Nat) (block : Block), (f.blocks.getD [])[i]? = some block → block.index = i

/-- The names of the receiver and the parameters that have one. -/
def Signature.paramNames (s : Signature) : List String :=
  (s.allParams.map (·.name)).filter fun name => name ≠ "" ∧ name ≠ "_"

namespace Program

variable {p q : Program} {pkg pkg' : Package} {f : Function}

theorem localProblems_eq_nil_iff {name : String} {l : Local} {i : Nat} :
    f.localProblems pkg name l i = [] ↔
      l.slot = i ∧ f.slot? l.name l.scope = some i ∧ (pkg.scope? l.scope).isSome := by
  unfold Function.localProblems
  rw [List.append_eq_nil_iff, List.append_eq_nil_iff, and_assoc, ite_nil_eq_nil_iff,
    ite_nil_eq_nil_iff, ite_nil_eq_nil_iff]

theorem functionProblems_eq_nil_iff : p.functionProblems pkg f = [] ↔ f.Consistent p pkg := by
  have hlocals : f.locals.zipIdx.flatMap (fun e =>
      f.localProblems pkg (p.qualifiedName f) e.1 e.2) = [] ↔ ∀ i l, f.locals[i]? = some l →
        l.slot = i ∧ f.slot? l.name l.scope = some i ∧ (pkg.scope? l.scope).isSome := by
    simp only [List.flatMap_eq_nil_iff, Prod.forall, List.mem_zipIdx_iff_getElem?,
      localProblems_eq_nil_iff]
    exact forall_comm
  have hblocks : ((f.blocks.getD []).zipIdx.filterMap fun e : Block × Nat =>
      if e.1.index = e.2 then none
      else some (Problem.wrongBlock (p.qualifiedName f) e.2 e.1.index)) = [] ↔
        ∀ (i : Nat) (block : Block), (f.blocks.getD [])[i]? = some block → block.index = i := by
    simp only [List.filterMap_eq_nil_iff, Prod.forall, List.mem_zipIdx_iff_getElem?,
      ite_eq_left_iff, reduceCtorEq, imp_false, not_not]
    exact forall_comm
  unfold functionProblems
  rw [List.append_eq_nil_iff, List.append_eq_nil_iff, List.append_eq_nil_iff,
    List.append_eq_nil_iff, List.append_eq_nil_iff, List.map_eq_nil_iff, repeatedNames_eq_nil_iff,
    hlocals, hblocks]
  constructor
  · rintro ⟨⟨⟨⟨⟨⟨hparams, -⟩, hlocals⟩, hsize⟩, hscope⟩, henclosing⟩, hblocks⟩
    refine ⟨hparams, hlocals, ite_nil_eq_nil_iff.1 hsize, fun scope hs => ?_, fun id hid => ?_,
      hblocks⟩
    · rw [hs] at hscope
      exact ite_nil_eq_nil_iff.1 hscope
    · rw [hid] at henclosing
      exact Bool.or_eq_true_iff.1 (ite_nil_eq_nil_iff.1 henclosing)
  · intro h
    refine ⟨⟨⟨⟨⟨⟨h.params, fun _ _ => List.not_mem_nil⟩, h.locals⟩, ?_⟩, ?_⟩, ?_⟩, h.blocks⟩
    · exact if_pos h.size
    · cases hs : f.scope with
      | none => rfl
      | some scope => exact if_pos (h.scope scope hs)
    · cases hid : f.enclosing with
      | none => rfl
      | some id => exact if_pos (Bool.or_eq_true_iff.2 (h.enclosing id hid))

/-- The check finds nothing wrong with a package exactly if its functions are consistent. -/
theorem problems_eq_nil_iff : p.problems pkg = [] ↔ ∀ f ∈ pkg.functions, f.Consistent p pkg := by
  unfold problems
  rw [List.flatMap_eq_nil_iff]
  exact forall₂_congr fun f _ => functionProblems_eq_nil_iff

/-! ## Adding a function -/

theorem isSome_function?_of_grows (h : pkg.Grows pkg') {id : FunctionId}
    (hid : (pkg.function? id).isSome) : (pkg'.function? id).isSome := by
  obtain ⟨f, hf⟩ := Option.isSome_iff_exists.1 hid
  obtain ⟨hhome, hf⟩ := Option.ite_none_right_eq_some.1 hf
  obtain ⟨f', hf', -⟩ := h.functions _ _ hf
  have hsame : pkg'.id = pkg.id := by rw [h.rest]
  unfold Package.function?
  rw [if_pos (hhome.trans hsame.symm), hf']
  rfl

/-- A function stays consistent when a program changes. -/
theorem consistent_later (h : f.Consistent p pkg) (hc : Change p q) (hgrows : pkg.Grows pkg') :
    f.Consistent q pkg' := by
  have hscope : ∀ scope, (pkg.scope? scope).isSome → (pkg'.scope? scope).isSome := by
    intro scope hscope
    rw [hgrows.rest]
    exact hscope
  refine ⟨h.params, fun i l hl => ?_, h.size, fun scope hs => hscope scope (h.scope scope hs),
    fun id hid => ?_, h.blocks⟩
  · obtain ⟨hslot, hfound, hexists⟩ := h.locals i l hl
    exact ⟨hslot, hfound, hscope l.scope hexists⟩
  · rcases h.enclosing id hid with hsome | hsome
    · obtain ⟨parent, hparent⟩ := Option.isSome_iff_exists.1 hsome
      obtain ⟨parent', hparent', -⟩ := hc.function? hparent
      exact .inl (Option.isSome_iff_exists.2 ⟨parent', hparent'⟩)
    · exact .inr (isSome_function?_of_grows hgrows hsome)

theorem consistent_withAnonymous (h : f.Consistent p pkg) (anonymous : List FunctionId) :
    Function.Consistent { f with anonymous } p pkg :=
  ⟨h.params, h.locals, h.size, h.scope, h.enclosing, h.blocks⟩

/-- A function without local variables and blocks is consistent if its parameters have different
names and what it refers to exists. -/
theorem consistent_of_bare (hlocals : f.locals = []) (hslots : f.slots = .empty)
    (hblocks : f.blocks = none) (params : f.signature.paramNames.Nodup)
    (scope : ∀ scope, f.scope = some scope → (pkg.scope? scope).isSome)
    (enclosing : ∀ id, f.enclosing = some id → (pkg.function? id).isSome) :
    f.Consistent p pkg := by
  refine ⟨params, fun i l hl => ?_, ?_, scope, fun id hid => .inr (enclosing id hid),
    fun i block hb => ?_⟩
  · rw [hlocals] at hl
    cases hl
  · rw [hlocals, hslots]
    rfl
  · rw [hblocks] at hb
    cases hb

/-- A package that gets one more function stays consistent if that function is consistent. -/
theorem problems_addFunction (hold : p.problems pkg = []) (hc : Change p q) :
    q.problems (pkg.addFunction f) = [] ↔ f.Consistent q (pkg.addFunction f) := by
  rw [problems_eq_nil_iff] at hold ⊢
  constructor
  · intro h
    exact h f (List.mem_append_right _ (List.mem_singleton_self f))
  · intro h g hg
    rcases List.mem_append.1 hg with hg | hg
    · exact consistent_later (hold g hg) hc (pkg.grows_addFunction f)
    · rw [List.mem_singleton.1 hg]
      exact h

/-- A function that refers to nothing may be added if its parameters have different names. -/
theorem problems_addFunction_bare (hold : p.problems pkg = []) (hc : Change p q)
    (hlocals : f.locals = []) (hslots : f.slots = .empty) (hblocks : f.blocks = none)
    (hscope : f.scope = none) (henclosing : f.enclosing = none) :
    q.problems (pkg.addFunction f) = [] ↔ f.signature.paramNames.Nodup := by
  rw [problems_addFunction hold hc]
  constructor
  · intro h
    exact h.params
  · intro h
    refine consistent_of_bare hlocals hslots hblocks h (fun scope hs => ?_) fun id hid => ?_
    · rw [hscope] at hs
      cases hs
    · rw [henclosing] at hid
      cases hid

/-- A package stays consistent with a function without a name inside one of its functions, if the
parameters have different names. -/
theorem problems_withAnonymous (hold : p.problems pkg = []) (hc : Change p q)
    {enclosing : FunctionId} {parent : Function} {signature : Signature} {freeVars : List Var}
    (inside : pkg.function? enclosing = some parent) (hparams : signature.paramNames.Nodup) :
    q.problems (withAnonymous pkg enclosing parent signature freeVars) = [] := by
  have hstep : pkg.Step (withAnonymous pkg enclosing parent signature freeVars) := .anonymous inside
  have hgrows := hstep.grows
  rw [problems_eq_nil_iff] at hold ⊢
  have hparent := Package.mem_of_function? inside
  -- the scope of the new function is that of the function around it
  have hnew : (anonymousIn pkg enclosing parent signature freeVars).Consistent q
      (withAnonymous pkg enclosing parent signature freeVars) := by
    refine consistent_of_bare rfl rfl rfl hparams (fun scope hs => ?_) fun id hid => ?_
    · exact (consistent_later (hold parent hparent) hc hgrows).scope scope hs
    · cases hid
      exact isSome_function?_of_grows hgrows (Option.isSome_iff_exists.2 ⟨parent, inside⟩)
  have hadded : ∀ g ∈ (pkg.addFunction (anonymousIn pkg enclosing parent signature
      freeVars)).functions,
        g.Consistent q (withAnonymous pkg enclosing parent signature freeVars) := by
    intro g hg
    rcases List.mem_append.1 hg with hg | hg
    · exact consistent_later (hold g hg) hc hgrows
    · rw [List.mem_singleton.1 hg]
      exact hnew
  intro g hg
  rcases Package.mem_modifyFunction hg with hg | ⟨g', hg', rfl⟩
  · exact hadded g hg
  · exact consistent_withAnonymous (hadded g' hg') _

/-! ## Functions made on demand -/

variable {key : ObjectKey} {id : FunctionId} {recv : Var}

theorem MethodAt.method? (h : p.Reachable) (hat : p.MethodAt key id pkg f recv) :
    p.method? key = some (f.name, f.signature, recv) := by
  obtain ⟨object, hobject, hrecords⟩ := (h.coherent (package?_mem hat.home)).values _ _ hat.value
  cases hrecords with
  | @function name pos signature id f' found object named typed =>
    rw [hat.found] at found
    cases found
    subst named typed
    exact method?_eq_some.2 ⟨pkg, pos, hat.home, hobject, hat.receiver⟩

theorem nodup_paramNames_bound {signature : Signature} (h : signature.paramNames.Nodup) :
    (Signature.paramNames { signature with recv := none }).Nodup :=
  h.sublist (((List.sublist_append_right signature.recv.toList signature.params).map _).filter _)

/-- With a parameter `recv` in front, parameters have different names if no other has that name. -/
theorem nodup_paramNames_interface {signature : Signature} (h : signature.paramNames.Nodup)
    (type : Ty) : (Signature.paramNames { signature with
      recv := none, params := ⟨"recv", type⟩ :: signature.params }).Nodup ↔
        ∀ v ∈ signature.params, v.name ≠ "recv" := by
  have hrest := nodup_paramNames_bound h
  have hcons : Signature.paramNames { signature with
      recv := none, params := ⟨"recv", type⟩ :: signature.params } =
        "recv" :: Signature.paramNames { signature with recv := none } :=
    List.filter_cons_of_pos (by simp)
  have hmem : "recv" ∈ Signature.paramNames { signature with recv := none } ↔
      ∃ v ∈ signature.params, v.name = "recv" := by
    simp [Signature.paramNames, Signature.allParams]
  rw [hcons, List.nodup_cons, hmem, and_iff_left hrest]
  simp

theorem MethodAt.nodup_paramNames (hat : p.MethodAt key id pkg f recv)
    (hold : p.problems pkg = []) : f.signature.paramNames.Nodup := by
  have hmem := Package.mem_of_function? hat.found
  exact (problems_eq_nil_iff.1 hold f hmem).params

theorem boundWrapper?_problems (h : p.Reachable) (hold : p.problems pkg = [])
    (hat : p.MethodAt key id pkg f recv) :
    ∃ q wid pkg', p.boundWrapper? key = some (q, wid) ∧ q.package? key.package = some pkg' ∧
      q.problems pkg' = [] := by
  have hparams := hat.nodup_paramNames hold
  obtain ⟨q, wid, hq⟩ := exists_boundWrapper? (hat.method? h)
  obtain ⟨rfl, -⟩ | ⟨hnew, name, signature, recv', home, hmethod, hhome, -, rfl⟩ :=
    boundWrapper?_eq_some hq
  · exact ⟨q, wid, pkg, hq, hat.home, hold⟩
  · rw [hat.home] at hhome
    cases hhome
    have hc := Change.boundWrapper hnew hmethod hat.home
    rw [hat.method? h] at hmethod
    cases hmethod
    refine ⟨_, wid, pkg.addFunction (boundWrapperOf key f.name f.signature recv), hq, ?_, ?_⟩
    · exact package?_addFunction hat.home _
    · exact (problems_addFunction_bare hold hc rfl rfl rfl rfl rfl).2
        (nodup_paramNames_bound hparams)

theorem interfaceWrapper?_problems (h : p.Reachable) (hold : p.problems pkg = [])
    (hat : p.MethodAt key id pkg f recv) :
    ∃ q wid pkg', p.interfaceWrapper? key = some (q, wid) ∧ q.package? key.package = some pkg' ∧
      (q.problems pkg' = [] ↔ ∀ v ∈ f.signature.params, v.name ≠ "recv") := by
  have hparams := hat.nodup_paramNames hold
  obtain ⟨q, wid, hq⟩ := exists_interfaceWrapper? (hat.method? h)
  obtain ⟨rfl, hfind⟩ | ⟨hnew, name, signature, recv', home, hmethod, hhome, -, rfl⟩ :=
    interfaceWrapper?_eq_some hq
  · refine ⟨q, wid, pkg, hq, hat.home, iff_of_true hold ?_⟩
    -- the wrapper is there already, so it is one of the functions that have been checked
    obtain ⟨name, signature, recv', g, hmethod, hg, anonymous, blocks, rfl⟩ :=
      h.wrapped.interface _ _ hfind
    rw [hat.method? h] at hmethod
    cases hmethod
    have hhome : wid.package = key.package := (h.intact.interfaceWrappers _ _ hfind).1.symm
    unfold Program.function? at hg
    rw [hhome, hat.home] at hg
    have hmem := Package.mem_of_function? hg
    have hnodup := (problems_eq_nil_iff.1 hold _ hmem).params
    exact (nodup_paramNames_interface hparams recv.type).1 hnodup
  · rw [hat.home] at hhome
    cases hhome
    have hc := Change.interfaceWrapper hnew hmethod hat.home
    rw [hat.method? h] at hmethod
    cases hmethod
    refine ⟨_, wid, pkg.addFunction (interfaceWrapperOf key f.name f.signature recv), hq, ?_, ?_⟩
    · exact package?_addFunction hat.home _
    · exact (problems_addFunction_bare hold hc rfl rfl rfl rfl rfl).trans
        (nodup_paramNames_interface hparams recv.type)

theorem addAnonymous?_problems {pid : PackageId} (hpkg : p.package? pid = some pkg)
    (hold : p.problems pkg = []) {enclosing : FunctionId} {parent : Function}
    {signature : Signature} (inside : pkg.function? enclosing = some parent)
    (hparams : signature.paramNames.Nodup) (freeVars : List Var) :
    ∃ q id pkg', p.addAnonymous? pid enclosing signature freeVars = some (q, id) ∧
      q.package? pid = some pkg' ∧ q.problems pkg' = [] := by
  obtain ⟨q, id, hq⟩ : ∃ q id, p.addAnonymous? pid enclosing signature freeVars = some (q, id) := by
    unfold addAnonymous?
    rw [hpkg, Option.bind_eq_bind, Option.bind_some, inside]
    exact ⟨_, _, rfl⟩
  obtain ⟨home, parent', hhome, hinside, -, rfl⟩ := addAnonymous?_eq_some hq
  rw [hpkg] at hhome
  cases hhome
  rw [inside] at hinside
  cases hinside
  refine ⟨_, id, withAnonymous pkg enclosing parent signature freeVars, hq, ?_, ?_⟩
  · rw [package?_modifyPackage, if_pos rfl, hpkg]
    rfl
  · exact problems_withAnonymous hold (.anonymous hpkg inside) inside hparams

/-- A package that is found consistent is so again after a request for a function that closes over
the receiver of one of its methods, and with a function inside one of its functions if the
parameters have different names. After a request for a function that takes the receiver of a method
as a parameter it is so exactly if the method has no parameter `recv`. -/
theorem synthesis_keeps_consistent (diagnostics : Diagnostics) (operations : List Operation)
    {pid : PackageId} {pkg : Package}
    (hpkg : (built diagnostics operations).package? pid = some pkg)
    (hold : (built diagnostics operations).problems pkg = []) :
    let p := built diagnostics operations
    (∀ key id, key.package = pid → p.concreteMethods.find? key = some id →
      (∃ q wid pkg', p.boundWrapper? key = some (q, wid) ∧ q.package? pid = some pkg' ∧
        q.problems pkg' = []) ∧
      ∃ f, p.function? id = some f ∧
        ∃ q wid pkg', p.interfaceWrapper? key = some (q, wid) ∧ q.package? pid = some pkg' ∧
          (q.problems pkg' = [] ↔ ∀ v ∈ f.signature.params, v.name ≠ "recv")) ∧
    ∀ enclosing parent signature freeVars, pkg.function? enclosing = some parent →
      signature.paramNames.Nodup →
        ∃ q id pkg', p.addAnonymous? pid enclosing signature freeVars = some (q, id) ∧
          q.package? pid = some pkg' ∧ q.problems pkg' = [] := by
  intro p
  have h : p.Reachable := ⟨diagnostics, operations, rfl⟩
  refine ⟨fun key id hkey hfind => ?_, fun enclosing parent signature freeVars inside hparams => ?_⟩
  · obtain ⟨home, f, recv, hat⟩ := h.concreteMethods_iff.1 hfind
    have hsame : home = pkg := by
      have hhome := hat.home
      rw [hkey] at hhome
      exact Option.some.inj (hhome.symm.trans hpkg)
    subst hsame hkey
    exact ⟨boundWrapper?_problems h hold hat, f, hat.function? h,
      interfaceWrapper?_problems h hold hat⟩
  · exact addAnonymous?_problems hpkg hold inside hparams freeVars

theorem synthesis_keeps_consistent_receiving :
    let p := built {} [.create receiving]
    ∃ pkg, p.package? ⟨0⟩ = some pkg ∧ p.problems pkg = [] ∧
      (∃ q id pkg', p.boundWrapper? ⟨⟨0⟩, ⟨1⟩⟩ = some (q, id) ∧ q.package? ⟨0⟩ = some pkg' ∧
        q.problems pkg' = []) ∧
      ∃ q id pkg', p.addAnonymous? ⟨0⟩ ⟨⟨0⟩, 1⟩ ⟨none, [⟨"x", .basic .int⟩], [], false⟩ [] =
        some (q, id) ∧ q.package? ⟨0⟩ = some pkg' ∧ q.problems pkg' = [] := by
  intro p
  obtain ⟨pkg, hpkg, hold⟩ : ∃ pkg, p.package? ⟨0⟩ = some pkg ∧ p.problems pkg = [] :=
    ⟨_, rfl, rfl⟩
  obtain ⟨hmethods, hinner⟩ := synthesis_keeps_consistent {} [.create receiving] hpkg hold
  have hbound := (hmethods ⟨⟨0⟩, ⟨1⟩⟩ ⟨⟨0⟩, 1⟩ rfl rfl).1
  have hfun : ∃ parent, pkg.function? ⟨⟨0⟩, 1⟩ = some parent := by
    cases hpkg
    exact ⟨_, rfl⟩
  obtain ⟨parent, inside⟩ := hfun
  exact ⟨pkg, hpkg, hold, hbound, hinner _ parent _ [] inside (by decide)⟩

/-- The method `f` has a parameter `recv`, so the function that takes its receiver as a parameter
has two of that name. -/
theorem interface_repeats_recv :
    let p := built {} [.create receiving]
    ∃ pkg q id pkg', p.package? ⟨0⟩ = some pkg ∧ p.problems pkg = [] ∧
      p.concreteMethods.find? ⟨⟨0⟩, ⟨1⟩⟩ = some ⟨⟨0⟩, 1⟩ ∧
      p.interfaceWrapper? ⟨⟨0⟩, ⟨1⟩⟩ = some (q, id) ∧ q.package? ⟨0⟩ = some pkg' ∧
      q.problems pkg' = [.duplicateParam "m.f" "recv"] :=
  ⟨_, _, _, _, rfl, rfl, rfl, rfl, rfl, rfl⟩

end Program

end TraceDebugger
