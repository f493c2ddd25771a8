import TraceDebugger.Proofs.Batches
import TraceDebugger.Proofs.Coherence
import TraceDebugger.Proofs.WrapperRequests

/-!
# What stays of functions and packages

A function that is there is found under its id ever after, and only two operations show in it: a
function that is added inside it is listed at the end of those inside, and basic blocks that are
given to it replace the ones it had (`Function.After`). Each operation does so
(`Program.apply_after`), so runs of any length do (`Program.run_keeps`), and of the
packages nothing changes but their functions.
-/

namespace TraceDebugger

namespace Operation

/-- The basic blocks that an operation gives to the function of an id. -/
def blocksFor? (id : FunctionId) : Operation → Option (List Block)
  | .setBlocks id' blocks => if id' = id then some blocks else none
  | _ => none

/-- Whether an operation adds a function without a name inside the function of an id. -/
def addsInside (id : FunctionId) : Operation → Bool
  | .addAnonymous package enclosing _ _ => package = id.package ∧ enclosing = id
  | _ => false

/-- The basic blocks that the function of an id has got last. -/
def lastBlocks? (id : FunctionId) (operations : List Operation) : Option (List Block) :=
  (operations.filterMap (blocksFor? id)).getLast?

theorem lastBlocks?_append (id : FunctionId) (operations operations' : List Operation) :
    lastBlocks? id (operations ++ operations') =
      (lastBlocks? id operations').or (lastBlocks? id operations) := by
  unfold lastBlocks?
  rw [List.filterMap_append, List.getLast?_append]

end Operation

namespace Function

/-- The function of an id after operations: as many functions are added inside as the operations
ask for, and the blocks are the last that were given. -/
def After (f : Function) (id : FunctionId) (operations : List Operation) (f' : Function) : Prop :=
  ∃ added : List FunctionId, added.length = operations.countP (·.addsInside id) ∧
    f' = { f with
      anonymous := f.anonymous ++ added
      blocks := (Operation.lastBlocks? id operations).or f.blocks }

variable {f f' f'' : Function} {id : FunctionId} {operations operations' : List Operation}

theorem After.nil (f : Function) (id : FunctionId) : f.After id [] f := by
  refine ⟨[], rfl, ?_⟩
  rw [List.append_nil]
  rfl

theorem After.append (h : f.After id operations f') (h' : f'.After id operations' f'') :
    f.After id (operations ++ operations') f'' := by
  obtain ⟨added, hadded, rfl⟩ := h
  obtain ⟨added', hadded', rfl⟩ := h'
  refine ⟨added ++ added', ?_, ?_⟩
  · rw [List.length_append, List.countP_append, hadded, hadded']
  · rw [Operation.lastBlocks?_append, Option.or_assoc, List.append_assoc]

/-- An operation that is not about the function leaves it as it is. -/
theorem After.untouched {operation : Operation} (hinside : operation.addsInside id = false)
    (hblocks : operation.blocksFor? id = none) (f : Function) : f.After id [operation] f := by
  have hlast : Operation.lastBlocks? id [operation] = none := by
    simp [Operation.lastBlocks?, hblocks]
  refine ⟨[], ?_, ?_⟩
  · simp [hinside]
  · rw [hlast, List.append_nil, Option.none_or]

end Function

namespace Package

/-- A change of one function shows under its id only. -/
theorem function?_modifyFunction (pkg : Package) (target : FunctionId)
    (change : Function → Function) (id : FunctionId) :
    (pkg.modifyFunction target change).function? id =
      if id = target then (pkg.function? id).map change else pkg.function? id := by
  unfold modifyFunction
  by_cases htarget : target.package = pkg.id
  · rw [if_pos htarget]
    unfold function?
    by_cases hid : id.package = pkg.id
    · have hiff : id = target ↔ target.index = id.index := by
        rw [FunctionId.mk.injEq, htarget, hid]
        simp [eq_comm]
      rw [if_pos hid, if_pos hid, List.getElem?_modify]
      by_cases hindex : target.index = id.index
      · rw [if_pos (hiff.2 hindex)]
        simp [hindex]
      · rw [if_neg (mt hiff.1 hindex)]
        simp [hindex]
    · rw [if_neg hid, if_neg hid]
      simp
  · rw [if_neg htarget]
    by_cases hid : id = target
    · subst hid
      have hnone : pkg.function? id = none := if_neg htarget
      simp [hnone]
    · rw [if_neg hid]

theorem function?_addFunction_of_some {pkg : Package} {id : FunctionId} {f : Function}
    (h : pkg.function? id = some f) (g : Function) : (pkg.addFunction g).function? id = some f :=
  (function?_append (p := pkg) (q := pkg.addFunction g) rfl rfl).2 (.inl h)

/-- The function around the new one lists it, and all others are as they are with it added. -/
theorem function?_withAnonymous (pkg : Package) (enclosing : FunctionId) (parent : Function)
    (signature : Signature) (freeVars : List Var) (id : FunctionId) :
    (Program.withAnonymous pkg enclosing parent signature freeVars).function? id =
      ((pkg.addFunction (Program.anonymousIn pkg enclosing parent signature freeVars)).function?
        id).map fun f => if id = enclosing then
          { f with anonymous := f.anonymous ++ [pkg.nextFunction] } else f := by
  unfold Program.withAnonymous
  rw [function?_modifyFunction]
  by_cases hid : id = enclosing
  · rw [if_pos hid]
    simp only [if_pos hid]
  · rw [if_neg hid]
    simp only [if_neg hid, Option.map_id']

end Package

namespace Program

variable {p q : Program} {id : FunctionId} {f : Function}

/-- A change of one package shows in its functions only. -/
theorem function?_modifyPackage (p : Program) (package : PackageId) (change : Package → Package)
    (id : FunctionId) : (p.modifyPackage package change).function? id =
      if id.package = package then (p.package? id.package).bind fun pkg => (change pkg).function? id
      else p.function? id := by
  unfold function?
  rw [package?_modifyPackage]
  by_cases hpackage : id.package = package
  · rw [if_pos hpackage, if_pos hpackage, Option.bind_map]
    rfl
  · rw [if_neg hpackage, if_neg hpackage]

theorem function?_addFunction_of_some (h : p.function? id = some f) (package : PackageId)
    (g : Function) : (p.addFunction package g).function? id = some f := by
  unfold addFunction
  rw [function?_modifyPackage]
  obtain ⟨pkg, hpkg, hf⟩ := Option.bind_eq_some_iff.1 h
  by_cases hpackage : id.package = package
  · rw [if_pos hpackage, hpkg]
    exact Package.function?_addFunction_of_some hf g
  · rw [if_neg hpackage]
    exact h

theorem Includes.function? (h : p.Includes q) (hf : p.function? id = some f) :
    q.function? id = some f := by
  obtain ⟨pkg, hpkg, hf⟩ := Option.bind_eq_some_iff.1 hf
  have hpkg' := h.packages _ _ hpkg
  exact Option.bind_eq_some_iff.2 ⟨pkg, hpkg', hf⟩

/-- Making packages of units keeps all packages that are there, also if a unit is refused. -/
theorem createAll_includes (p : Program) (units : List SourceUnit) :
    p.Includes (p.createAll units).program :=
  createFrom_invariant (P := p.Includes) (fun q u hq => hq.trans (q.create_includes u)) units p
    [] [] [] (.refl p)

/-! ## One operation -/

theorem after_create (hf : p.function? id = some f) (u : SourceUnit) :
    ∃ f', (p.apply (.create u)).function? id = some f' ∧ f.After id [.create u] f' :=
  ⟨f, (p.create_includes u).function? hf, .untouched rfl rfl f⟩

theorem after_createAll (hf : p.function? id = some f) (units : List SourceUnit) :
    ∃ f', (p.apply (.createAll units)).function? id = some f' ∧
      f.After id [.createAll units] f' :=
  ⟨f, (p.createAll_includes units).function? hf, .untouched rfl rfl f⟩

theorem after_request (hf : p.function? id = some f) (kind : WrapperKind) (key : ObjectKey) :
    ∃ f', (p.apply (kind.operation key)).function? id = some f' ∧
      f.After id [kind.operation key] f' := by
  have hafter : f.After id [kind.operation key] f := by
    cases kind with
    | bound => exact .untouched rfl rfl f
    | interface => exact .untouched rfl rfl f
  refine ⟨f, ?_, hafter⟩
  cases h : p.request kind key with
  | none =>
    rw [apply_of_request_none h]
    exact hf
  | some answer =>
    obtain ⟨q, wid⟩ := answer
    rw [apply_of_request h]
    rcases request_eq_some h with ⟨rfl, -⟩ | ⟨-, name, signature, recv, pkg, -, -, -, rfl⟩
    · exact hf
    · unfold function?
      rw [package?_keep]
      exact function?_addFunction_of_some hf key.package _

/-- Among the functions that are there, adding one inside another shows in the one around it. -/
theorem function?_addInside {package : PackageId} {pkg : Package}
    (hpkg : p.package? package = some pkg) (hf : p.function? id = some f) (enclosing : FunctionId)
    (parent : Function) (signature : Signature) (freeVars : List Var) :
    (p.modifyPackage package fun pkg =>
        withAnonymous pkg enclosing parent signature freeVars).function? id =
      if package = id.package ∧ enclosing = id then
        some { f with anonymous := f.anonymous ++ [pkg.nextFunction] }
      else some f := by
  rw [function?_modifyPackage]
  by_cases hpackage : id.package = package
  · subst hpackage
    unfold function? at hf
    rw [hpkg, Option.bind_some] at hf
    rw [if_pos rfl, hpkg, Option.bind_some]
    rw [Package.function?_withAnonymous, Package.function?_addFunction_of_some hf, Option.map_some]
    by_cases hid : id = enclosing
    · rw [if_pos hid, if_pos ⟨rfl, hid.symm⟩]
    · rw [if_neg hid, if_neg fun h => hid h.2.symm]
  · rw [if_neg hpackage, if_neg fun h => hpackage h.1.symm]
    exact hf

theorem after_addAnonymous (hf : p.function? id = some f) (package : PackageId)
    (enclosing : FunctionId) (signature : Signature) (freeVars : List Var) :
    ∃ f', (p.apply (.addAnonymous package enclosing signature freeVars)).function? id = some f' ∧
      f.After id [.addAnonymous package enclosing signature freeVars] f' := by
  simp only [apply]
  by_cases hinside : package = id.package ∧ enclosing = id
  · -- the function is there, so the operation is not refused
    obtain ⟨rfl, rfl⟩ := hinside
    obtain ⟨pkg, hpkg, hparent⟩ := Option.bind_eq_some_iff.1 hf
    obtain ⟨q, aid, hq⟩ : ∃ q aid,
        p.addAnonymous? enclosing.package enclosing signature freeVars = some (q, aid) := by
      unfold addAnonymous?
      rw [hpkg, Option.bind_eq_bind, Option.bind_some, hparent]
      exact ⟨_, _, rfl⟩
    obtain ⟨pkg', parent, hpkg', -, -, rfl⟩ := addAnonymous?_eq_some hq
    rw [hq]
    have hfound := function?_addInside hpkg' hf enclosing parent signature freeVars
    rw [if_pos ⟨rfl, rfl⟩] at hfound
    refine ⟨_, hfound, [pkg'.nextFunction], ?_, rfl⟩
    simp [Operation.addsInside]
  · have hnone : (Operation.addAnonymous package enclosing signature freeVars).addsInside id =
        false := by
      simpa [Operation.addsInside] using hinside
    refine ⟨f, ?_, .untouched hnone rfl f⟩
    cases hq : p.addAnonymous? package enclosing signature freeVars with
    | none => exact hf
    | some answer =>
      obtain ⟨q, aid⟩ := answer
      obtain ⟨pkg, parent, hpkg, -, -, rfl⟩ := addAnonymous?_eq_some hq
      have hfound := function?_addInside hpkg hf enclosing parent signature freeVars
      rw [if_neg hinside] at hfound
      exact hfound

theorem after_setBlocks (hf : p.function? id = some f) (target : FunctionId)
    (blocks : List Block) :
    ∃ f', (p.apply (.setBlocks target blocks)).function? id = some f' ∧
      f.After id [.setBlocks target blocks] f' := by
  obtain ⟨pkg, hpkg, hpf⟩ := Option.bind_eq_some_iff.1 hf
  simp only [apply]
  by_cases htarget : target = id
  · subst htarget
    have hq : p.setBlocks? target blocks = some (p.modifyPackage target.package
        (·.modifyFunction target fun f => { f with blocks := some blocks })) := by
      unfold setBlocks?
      rw [hf]
      rfl
    rw [hq, Option.getD_some, function?_modifyPackage, if_pos rfl, hpkg, Option.bind_some,
      Package.function?_modifyFunction, if_pos rfl, hpf]
    refine ⟨_, rfl, [], rfl, ?_⟩
    simp [Operation.lastBlocks?, Operation.blocksFor?]
  · have hnone : (Operation.setBlocks target blocks).blocksFor? id = none := if_neg htarget
    refine ⟨f, ?_, .untouched rfl hnone f⟩
    cases hq : p.setBlocks? target blocks with
    | none => exact hf
    | some q =>
      obtain ⟨g, -, rfl⟩ := setBlocks?_eq_some hq
      rw [Option.getD_some, function?_modifyPackage]
      by_cases hpackage : id.package = target.package
      · rw [if_pos hpackage, hpkg, Option.bind_some, Package.function?_modifyFunction,
          if_neg (Ne.symm htarget)]
        exact hpf
      · rw [if_neg hpackage]
        exact hf

/-- What an operation does to a function that is there. -/
theorem apply_after (hf : p.function? id = some f)
    (operation : Operation) :
    ∃ f', (p.apply operation).function? id = some f' ∧ f.After id [operation] f' := by
  cases operation with
  | create u => exact after_create hf u
  | createAll units => exact after_createAll hf units
  | boundWrapper key => exact after_request hf .bound key
  | interfaceWrapper key => exact after_request hf .interface key
  | addAnonymous package enclosing signature freeVars =>
    exact after_addAnonymous hf package enclosing signature freeVars
  | setBlocks target blocks => exact after_setBlocks hf target blocks

/-! ## Runs -/

/-- What a run does to a function that is there. -/
theorem run_after (hf : p.function? id = some f)
    (operations : List Operation) :
    ∃ f', (p.run operations).function? id = some f' ∧ f.After id operations f' := by
  induction operations generalizing p f with
  | nil => exact ⟨f, hf, .nil f id⟩
  | cons operation rest ih =>
    obtain ⟨f', hf', hafter⟩ := apply_after hf operation
    obtain ⟨f'', hf'', hafter'⟩ := ih hf'
    exact ⟨f'', hf'', hafter.append hafter'⟩

/-- Whatever operations come later, the id of a function leads to the same function, except that
functions are added inside it, at the end and one for each operation that asks for it, and that it
has the last basic blocks that it was given. Of a package nothing changes but its functions. -/
theorem run_keeps (diagnostics : Diagnostics) (earlier later : List Operation) :
    let p := built diagnostics earlier
    let q := p.run later
    (∀ id f, p.function? id = some f → ∃ added : List FunctionId,
      added.length = later.countP (·.addsInside id) ∧
      q.function? id = some { f with
        anonymous := f.anonymous ++ added
        blocks := (Operation.lastBlocks? id later).or f.blocks }) ∧
    ∀ id pkg, p.package? id = some pkg →
      ∃ functions, q.package? id = some { pkg with functions := functions } := by
  intro p q
  constructor
  · intro id f hf
    obtain ⟨f', hf', added, hadded, rfl⟩ := run_after hf later
    exact ⟨added, hadded, hf'⟩
  · intro id pkg hpkg
    obtain ⟨pkg', hpkg', hgrows⟩ := run_grows later hpkg
    have hrest := hgrows.rest
    exact ⟨pkg'.functions, hrest ▸ hpkg'⟩

end Program

end TraceDebugger
