import TraceDebugger.Proofs.CheckedCreation
import TraceDebugger.Proofs.DepthFirst

/-!
# Declared initializers

A unit may declare initializers in several places. They are merged into the one function that every
package begins with: it takes over the first of them, the syntax of all of them is kept, and it gets
the variables of all of them (`Function.adoptAll`). To everything else they make no difference: but
for that function a package is the one that the unit without them becomes
(`Program.create_inits`).
-/

namespace TraceDebugger

/-! ## The package initializer -/

namespace Function

/-- Takes over declarations of initializers, one after the other, in the making of a package. -/
def adoptAll (p : Package) (f : Function) (decls : List FuncDecl) : Function :=
  decls.foldl (fun f decl => (f.adopt decl.source).addLocals (Draft.initLocals p decl)) f

variable {p : Package} {f : Function}

theorem adoptAll_concat (decls : List FuncDecl) (decl : FuncDecl) :
    f.adoptAll p (decls ++ [decl]) =
      ((f.adoptAll p decls).adopt decl.source).addLocals (Draft.initLocals p decl) :=
  List.foldl_concat ..

theorem locals_adopt (f : Function) (source : FuncSource) : (f.adopt source).locals = f.locals := by
  unfold adopt
  split <;> rfl

/-- It gets the variables of all of them. -/
theorem locals_adoptAll (decls : List FuncDecl) : (f.adoptAll p decls).locals =
    f.locals ++ ((decls.flatMap (Draft.initLocals p)).zipIdx f.locals.length).map fun e =>
      e.1.withSlot e.2 := by
  induction decls generalizing f with
  | nil => exact (List.append_nil _).symm
  | cons decl rest ih =>
    have hrest := ih (f := (f.adopt decl.source).addLocals (Draft.initLocals p decl))
    have hfirst := locals_addLocals (f.adopt decl.source) (Draft.initLocals p decl)
    rw [locals_adopt] at hfirst
    rw [hfirst, List.length_append, List.length_map, List.length_zipIdx] at hrest
    rw [List.flatMap_cons, List.zipIdx_append, List.map_append, ← List.append_assoc]
    exact hrest

theorem name_adoptAll (decls : List FuncDecl) : (f.adoptAll p decls).name = f.name := by
  induction decls generalizing f with
  | nil => rfl
  | cons decl rest ih =>
    exact (ih (f := _)).trans (f.keeps_adopt_addLocals decl.source (Draft.initLocals p decl)).name

/-- A declaration that is taken over is not replaced. -/
theorem adoptAll_of_declared {source : FuncSource} (h : f.origin = .declared source)
    (decls : List FuncDecl) :
    (f.adoptAll p decls).origin = .declared source ∧ (f.adoptAll p decls).span = f.span := by
  induction decls generalizing f with
  | nil => exact ⟨h, rfl⟩
  | cons decl rest ih =>
    have hstep : ((f.adopt decl.source).addLocals (Draft.initLocals p decl)).origin =
          .declared source ∧
        ((f.adopt decl.source).addLocals (Draft.initLocals p decl)).span = f.span := by
      unfold adopt
      rw [h, addLocals_eq]
      exact ⟨h, rfl⟩
    obtain ⟨horigin, hspan⟩ := ih hstep.1
    exact ⟨horigin, hspan.trans hstep.2⟩

/-- It takes over the first of them. -/
theorem adoptAll_of_synthetic {reason : String} (h : f.origin = .synthetic reason)
    (decls : List FuncDecl) :
    (f.adoptAll p decls).origin =
        decls.head?.elim (.synthetic reason) (fun decl => .declared decl.source) ∧
      (f.adoptAll p decls).span = decls.head?.elim f.span (·.span) := by
  cases decls with
  | nil => exact ⟨h, rfl⟩
  | cons decl rest =>
    have hstep : ((f.adopt decl.source).addLocals (Draft.initLocals p decl)).origin =
          .declared decl.source ∧
        ((f.adopt decl.source).addLocals (Draft.initLocals p decl)).span = decl.span := by
      unfold adopt
      rw [h, addLocals_eq]
      exact ⟨rfl, rfl⟩
    obtain ⟨horigin, hspan⟩ := adoptAll_of_declared (p := p) hstep.1 rest
    exact ⟨horigin, hspan.trans hstep.2⟩

end Function

namespace Draft

/-! ## Drafts -/

theorem initLocals_congr {p q : Package} (hunit : p.unit = q.unit)
    (hnumbers : p.scopeNumbers = q.scopeNumbers) : initLocals p = initLocals q := by
  funext decl
  unfold initLocals
  rw [localDecls_congr hunit hnumbers]

/-- Declared initializers have the variables of their scopes. -/
theorem flatMap_initLocals (p : Package) (decls : List FuncDecl) :
    decls.flatMap (initLocals p) =
      (decls.filterMap (·.scope)).flatMap fun root => p.localDecls root [] := by
  induction decls with
  | nil => rfl
  | cons decl rest ih =>
    rw [List.flatMap_cons, List.filterMap_cons, ih]
    unfold initLocals
    cases decl.scope <;> rfl

/-- A package in the making has merged the declared initializers so far. -/
structure Merges (base : Package) (done : List Item) (p : Package) : Prop where
  id : p.id = base.id
  unit : p.unit = base.unit
  numbers : p.scopeNumbers = base.scopeNumbers
  /-- The syntax of each of them is kept. -/
  bodies : p.initBodies = (done.filterMap Item.init?).map FuncDecl.source
  /-- The package initializer has taken them over. -/
  functions : ∃ rest, p.functions =
    (Package.initializer base.id).adoptAll base (done.filterMap Item.init?) :: rest

variable {base : Package} {done items : List Item} {d d' e : Draft}

theorem Merges.skip {p : Package} (h : Merges base done p) {item : Item}
    (hitem : item.init? = none) : Merges base (done ++ [item]) p := by
  have hinits : (done ++ [item]).filterMap Item.init? = done.filterMap Item.init? := by
    rw [List.filterMap_append, List.filterMap_cons_none hitem]
    exact List.append_nil _
  exact ⟨h.id, h.unit, h.numbers, by rw [hinits]; exact h.bodies, by rw [hinits]; exact h.functions⟩

theorem Merges.addFunction (h : Merges base done d.package) (o : ObjectId) (source : DeclSource)
    (name : String) (pos : Option Position) (signature : Signature) :
    Merges base done (addFunction d.package o source name pos signature) := by
  obtain ⟨rest, hfunctions⟩ := h.functions
  rw [addFunction_eq]
  refine ⟨h.id, h.unit, h.numbers, h.bodies,
    rest ++ [builtFunction d.package o source name pos signature], ?_⟩
  dsimp only
  rw [hfunctions, List.cons_append]

/-- Making an object adds functions at the end only. -/
theorem Merges.made (h : Merges base done d.package) {o : ObjectId} {source : DeclSource}
    (hm : d.Made o source d') : Merges base done d'.package := by
  cases hm with
  | known | type | const | global => exact ⟨h.id, h.unit, h.numbers, h.bodies, h.functions⟩
  | @function name pos signature =>
    have hadded := h.addFunction o source name pos signature
    exact ⟨hadded.id, hadded.unit, hadded.numbers, hadded.bodies, hadded.functions⟩
  | @method name pos signature => exact h.addFunction o source name pos signature

theorem Merges.adoptInit (h : Merges base done d.package) (decl : FuncDecl) :
    Merges base (done ++ [.initializer decl]) (d.adoptInit decl).package := by
  obtain ⟨rest, hfunctions⟩ := h.functions
  have hinits : (done ++ [Item.initializer decl]).filterMap Item.init? =
      done.filterMap Item.init? ++ [decl] := by
    rw [List.filterMap_append]
    rfl
  rw [adoptInit_package, initLocals_congr h.unit h.numbers]
  refine ⟨h.id, h.unit, h.numbers, ?_, rest, ?_⟩
  · rw [hinits, List.map_append]
    exact congrArg (· ++ [decl.source]) h.bodies
  · dsimp only
    rw [hinits, Function.adoptAll_concat, hfunctions]
    rfl

theorem merges_build {id : PackageId} {u : SourceUnit}
    (hb : build { package := .start id u } items = (d, none)) :
    Merges (.start id u) items d.package := by
  refine build_induction (P := fun done d => Merges (.start id u) done d.package)
    (fun done item d d' h _ hm => ?_) hb ⟨rfl, rfl, rfl, rfl, [], rfl⟩
  rcases make_cases hm with ⟨name, log, rfl, rfl⟩ | ⟨decl, rfl, rfl⟩ | ⟨o, source, hmakes, hmade⟩
  · exact h.skip rfl
  · exact h.adoptInit decl
  · refine (h.made hmade).skip ?_
    cases hmakes <;> rfl

end Draft

/-! ## Without the declarations -/

namespace SourceUnit

/-- The unit without its declared initializers. -/
def withoutInits (u : SourceUnit) : SourceUnit :=
  { u with
    files := u.files.map fun f => { f with decls := f.decls.filter fun d => d.init?.isNone } }

variable {u u' : SourceUnit}

theorem filter_ofDecl (d : Decl) : (Item.ofDecl d).filter (fun item => item.init?.isNone) =
    if d.init?.isNone then Item.ofDecl d else [] := by
  have hinits := Item.filterMap_ofDecl d
  cases hinit : d.init? with
  | none =>
    rw [hinit] at hinits
    rw [if_pos Option.isNone_none, List.filter_eq_self]
    intro item hitem
    rw [List.filterMap_eq_nil_iff.1 hinits item hitem]
    rfl
  | some decl =>
    rw [if_neg (by simp)]
    cases d with
    | gen kind specs span => cases hinit
    | func decl' =>
      obtain ⟨hcond, -⟩ := Option.ite_none_right_eq_some.1 hinit
      simp only [Item.ofDecl, if_pos hcond]
      rfl

theorem ofFile_filter (f : File) :
    Item.ofFile { f with decls := f.decls.filter fun d => d.init?.isNone } =
      (Item.ofFile f).filter fun item => item.init?.isNone := by
  have hdecls : ∀ decls : List Decl, (decls.filter fun d => d.init?.isNone).flatMap Item.ofDecl =
      (decls.flatMap Item.ofDecl).filter fun item => item.init?.isNone := by
    intro decls
    induction decls with
    | nil => rfl
    | cons d rest ih =>
      rw [List.flatMap_cons, List.filter_append, filter_ofDecl, ← ih]
      by_cases hd : d.init?.isNone = true
      · rw [if_pos hd, List.filter_cons_of_pos (p := fun d : Decl => d.init?.isNone) hd,
          List.flatMap_cons]
      · rw [if_neg hd, List.filter_cons_of_neg (p := fun d : Decl => d.init?.isNone) hd]
        rfl
  exact congrArg (Item.file f.name :: ·) (hdecls f.decls)

/-- It asks for everything else. -/
theorem items_withoutInits (u : SourceUnit) :
    u.withoutInits.items = u.items.filter fun item => item.init?.isNone := by
  by_cases hfiles : u.files = []
  -- without files the package scope is asked for, and no initializer
  · have hsame : u.withoutInits = u := by
      unfold withoutInits
      rw [hfiles, List.map_nil, ← hfiles]
    have hnone : u.items.filterMap Item.init? = [] := by
      rw [filterMap_init?_items]
      unfold inits decls
      rw [hfiles]
      rfl
    rw [hsame]
    refine (List.filter_eq_self.2 fun item hitem => ?_).symm
    rw [List.filterMap_eq_nil_iff.1 hnone item hitem]
    rfl
  · have hfiles' : u.withoutInits.files ≠ [] := by
      unfold withoutInits
      simpa using hfiles
    rw [items_eq hfiles, items_eq hfiles', List.filter_flatMap]
    unfold withoutInits
    dsimp only
    rw [List.flatMap_map]
    exact List.flatMap_congr fun f _ => ofFile_filter f

theorem scope?_congr (h : u'.scopes = u.scopes) : u'.scope? = u.scope? := by
  unfold scope?
  rw [h]

/-- The numbers of scopes do not depend on the files. -/
theorem numberFrom_congr (h : u'.scopes = u.scopes) : u'.numberFrom = u.numberFrom := by
  have hscope := scope?_congr h
  funext fuel
  induction fuel with
  | zero => rfl
  | succ fuel ih =>
    funext parent next s
    unfold numberFrom
    rw [hscope, ih]

theorem numbering_congr (h : u'.scopes = u.scopes) : u'.numbering = u.numbering := by
  unfold numbering
  rw [h, numberFrom_congr h]

theorem scopesEnd_congr (h : u'.scopes = u.scopes) : u'.scopesEnd = u.scopesEnd := by
  have hscope := scope?_congr h
  have hends : ∀ fuel, u'.endsWithin fuel = u.endsWithin fuel := by
    intro fuel
    induction fuel with
    | zero =>
      funext s
      unfold endsWithin
      rw [hscope]
    | succ fuel ih =>
      funext s
      unfold endsWithin
      rw [hscope, ih]
  unfold scopesEnd
  rw [h, hends]

theorem subtree_congr (h : u'.scopes = u.scopes) : u'.subtree = u.subtree := by
  have hscope := scope?_congr h
  have hfrom : ∀ numbers fuel, u'.subtreeFrom numbers fuel = u.subtreeFrom numbers fuel := by
    intro numbers fuel
    induction fuel with
    | zero => rfl
    | succ fuel ih =>
      funext s
      unfold subtreeFrom
      rw [hscope, ih]
  funext numbers root
  unfold subtree
  rw [h, hfrom]

end SourceUnit

namespace Package

/-- The package without what declared initializers have given it. -/
def withoutInits (p : Package) : Package :=
  { p with
    unit := p.unit.withoutInits
    functions := initializer p.id :: p.functions.tail
    initBodies := [] }

theorem start_withoutInits (id : PackageId) (u : SourceUnit) :
    (start id u).withoutInits = start id u.withoutInits := by
  have hnumbering : u.withoutInits.numbering = u.numbering := SourceUnit.numbering_congr rfl
  unfold start withoutInits
  rw [hnumbering]
  rfl

theorem localDecls_withoutInits (p : Package) : p.withoutInits.localDecls = p.localDecls := by
  funext root params
  unfold localDecls
  have hsubtree : p.withoutInits.unit.subtree = p.unit.subtree := SourceUnit.subtree_congr rfl
  rw [hsubtree]
  rfl

theorem nextFunction_withoutInits {p : Package} (h : p.functions ≠ []) :
    p.withoutInits.nextFunction = p.nextFunction := by
  obtain ⟨init, rest, hfunctions⟩ := List.exists_cons_of_ne_nil h
  unfold nextFunction withoutInits
  rw [hfunctions]
  rfl

/-- It has functions of the same numbers. -/
theorem isSome_function?_withoutInits {p : Package} (h : p.functions ≠ []) {id : FunctionId}
    (hid : (p.function? id).isSome) : (p.withoutInits.function? id).isSome := by
  have hlength : p.withoutInits.functions.length = p.functions.length := by
    obtain ⟨init, rest, hfunctions⟩ := List.exists_cons_of_ne_nil h
    unfold withoutInits
    rw [hfunctions]
    rfl
  unfold function? at hid ⊢
  split at hid
  · rename_i hhome
    have hhome' : id.package = p.withoutInits.id := hhome
    rw [isSome_getElem?] at hid
    rw [if_pos hhome', isSome_getElem?, hlength]
    exact hid
  · cases hid

end Package

namespace Draft

variable {d d' e : Draft}

/-- The second package in the making is the first without its declared initializers. -/
structure Strips (d d' : Draft) : Prop where
  begun : d.package.functions ≠ []
  package : d'.package = d.package.withoutInits
  methods : d'.methods = d.methods

theorem builtFunction_withoutInits (p : Package) (o : ObjectId) (source : DeclSource)
    (name : String) (pos : Option Position) (signature : Signature) :
    builtFunction p.withoutInits o source name pos signature =
      builtFunction p o source name pos signature := by
  unfold builtFunction localsOf
  rw [p.localDecls_withoutInits]
  rfl

theorem addFunction_withoutInits {p : Package} (h : p.functions ≠ []) (o : ObjectId)
    (source : DeclSource) (name : String) (pos : Option Position) (signature : Signature) :
    addFunction p.withoutInits o source name pos signature =
      (addFunction p o source name pos signature).withoutInits := by
  rw [addFunction_eq, addFunction_eq, builtFunction_withoutInits,
    Package.nextFunction_withoutInits h]
  obtain ⟨init, rest, hfunctions⟩ := List.exists_cons_of_ne_nil h
  unfold Package.withoutInits scopesWith
  dsimp only
  rw [hfunctions]
  rfl

theorem addFunction_ne_nil (p : Package) (o : ObjectId) (source : DeclSource) (name : String)
    (pos : Option Position) (signature : Signature) :
    (addFunction p o source name pos signature).functions ≠ [] := by
  rw [addFunction_functions]
  exact List.concat_ne_nil _ _

theorem makeObject_of_made {o : ObjectId} {source : DeclSource} (h : d.Made o source e) :
    d.makeObject o source = .ok e := by
  unfold makeObject
  dsimp only
  cases h with
  | known known => rw [if_pos known]
  | type new object => rw [if_neg (by simp [new]), object]
  | const new object => rw [if_neg (by simp [new]), object]
  | global new object => rw [if_neg (by simp [new]), object]
  | function new object isFunction =>
    rw [if_neg (by simp [new]), object]
    dsimp only
    rw [isFunction]
  | method new object isMethod declared =>
    rw [if_neg (by simp [new]), object]
    dsimp only
    rw [isMethod]
    dsimp only
    rw [addFunction_unit, if_pos declared]

/-- An object is made of a stripped draft as of the draft. -/
theorem Strips.made (h : d.Strips d') {o : ObjectId} {source : DeclSource}
    (hm : d.Made o source e) : ∃ e', d'.Made o source e' ∧ e.Strips e' := by
  obtain ⟨package', methods', log'⟩ := d'
  obtain ⟨hbegun, hpackage, hmethods⟩ := h
  dsimp only at hpackage hmethods
  subst hpackage hmethods
  cases hm with
  | known known => exact ⟨_, .known known, hbegun, rfl, rfl⟩
  | type new object => exact ⟨_, .type new object, hbegun, rfl, rfl⟩
  | const new object => exact ⟨_, .const new object, hbegun, rfl, rfl⟩
  | global new object => exact ⟨_, .global new object, hbegun, rfl, rfl⟩
  | @function name pos signature new object isFunction =>
    refine ⟨_, .function new object isFunction, ?_, ?_, rfl⟩
    · exact addFunction_ne_nil d.package o source name pos signature
    · dsimp only
      rw [addFunction_withoutInits hbegun, Package.nextFunction_withoutInits hbegun]
      rfl
  | @method name pos signature recv new object isMethod declared =>
    refine ⟨_, .method new object isMethod declared, ?_, ?_, ?_⟩
    · exact addFunction_ne_nil d.package o source name pos signature
    · exact addFunction_withoutInits hbegun o source name pos signature
    · dsimp only
      rw [Package.nextFunction_withoutInits hbegun]

theorem Strips.make (h : d.Strips d') {item : Item} (hitem : item.init? = none)
    (hm : d.make item = .ok e) : ∃ e', d'.make item = .ok e' ∧ e.Strips e' := by
  cases item with
  | file name =>
    cases hm
    exact ⟨_, rfl, h.begun, h.package, h.methods⟩
  | initializer decl => cases hitem
  | misplaced kind spec => cases hm
  | method o =>
    obtain ⟨e', hmade, he⟩ := h.made (made_of_makeObject hm)
    exact ⟨e', makeObject_of_made hmade, he⟩
  | ident name object source =>
    have hresolve : resolve d'.package.unit name object = resolve d.package.unit name object := by
      rw [h.package]
      rfl
    cases hr : resolve d.package.unit name object with
    | error cause =>
      simp only [Draft.make, hr, bind, Except.bind] at hm
      cases hm
    | ok o =>
      simp only [Draft.make, hr, bind, Except.bind] at hm
      obtain ⟨e', hmade, he⟩ := h.made (made_of_makeObject hm)
      refine ⟨e', ?_, he⟩
      simp only [Draft.make, hresolve, hr, bind, Except.bind]
      exact makeObject_of_made hmade

theorem Strips.adoptInit (h : d.Strips d') (decl : FuncDecl) : (d.adoptInit decl).Strips d' := by
  obtain ⟨init, rest, hfunctions⟩ := List.exists_cons_of_ne_nil h.begun
  refine ⟨?_, ?_, h.methods⟩
  · rw [adoptInit_package, hfunctions]
    exact List.cons_ne_nil _ _
  · rw [h.package, adoptInit_package]
    unfold Package.withoutInits
    rw [hfunctions]
    rfl

/-- Items other than declared initializers are made of a stripped draft as all items are of the
draft. -/
theorem Strips.build (h : d.Strips d') {items : List Item} (hb : d.build items = (e, none)) :
    ∃ e', d'.build (items.filter fun item => item.init?.isNone) = (e', none) ∧ e.Strips e' := by
  induction items generalizing d d' with
  | nil =>
    cases hb
    exact ⟨d', rfl, h⟩
  | cons item rest ih =>
    unfold Draft.build at hb
    cases hm : d.make item with
    | error cause =>
      rw [hm] at hb
      cases hb
    | ok d₁ =>
      rw [hm] at hb
      cases hinit : item.init? with
      | none =>
        obtain ⟨d₁', hm', h₁⟩ := h.make hinit hm
        obtain ⟨e', hb', he⟩ := ih h₁ hb
        refine ⟨e', ?_, he⟩
        rw [List.filter_cons_of_pos (by rw [hinit]; rfl), Draft.build, hm']
        exact hb'
      | some decl =>
        -- the second draft waits while the first adopts the initializer
        have hitem : item = .initializer decl := by
          cases item with
          | initializer decl' =>
            cases hinit
            rfl
          | _ => cases hinit
        subst hitem
        cases hm
        obtain ⟨e', hb', he⟩ := ih (h.adoptInit decl) hb
        refine ⟨e', ?_, he⟩
        rw [List.filter_cons_of_neg (by simp [hinit])]
        exact hb'

end Draft

namespace Program

variable {p : Program} {u : SourceUnit} {draft : Draft}

/-- Without its declared initializers a unit is made into the same package without them. -/
theorem Builds.withoutInits (h : p.Builds u draft) :
    ∃ draft', p.Builds u.withoutInits draft' ∧ draft.Strips draft' := by
  have hstart : Draft.Strips { package := .start p.nextPackage u }
      { package := .start p.nextPackage u.withoutInits } :=
    ⟨List.cons_ne_nil _ _, (Package.start_withoutInits _ u).symm, rfl⟩
  obtain ⟨draft', hb, hstrips⟩ := hstart.build h.built
  have hends : u.withoutInits.scopesEnd = u.scopesEnd := SourceUnit.scopesEnd_congr rfl
  refine ⟨draft', ⟨h.error, h.new, hends.trans h.ends, ?_⟩, hstrips⟩
  rw [SourceUnit.items_withoutInits]
  exact hb

theorem isSome_function?_addPackage {pkg pkg' : Package} (methods : List (ObjectId × FunctionId))
    (h : ∀ id, (pkg.function? id).isSome → (pkg'.function? id).isSome) {id : FunctionId}
    (hid : ((p.addPackage pkg methods).function? id).isSome) :
    ((p.addPackage pkg' methods).function? id).isSome := by
  unfold function? at hid ⊢
  rw [package?_addPackage] at hid ⊢
  split at hid
  · rename_i hnew
    rw [if_pos hnew]
    exact h id hid
  · rename_i hold
    rw [if_neg hold]
    exact hid

/-- If the check finds nothing wrong with a package, then neither without declared initializers. -/
theorem problems_withoutInits {pkg : Package} (hlaid : pkg.Laid) (hbegun : pkg.functions ≠ [])
    (methods : List (ObjectId × FunctionId)) (h : (p.addPackage pkg methods).problems pkg = []) :
    (p.addPackage pkg.withoutInits methods).problems pkg.withoutInits = [] := by
  have hfunction : ∀ id, (pkg.function? id).isSome → (pkg.withoutInits.function? id).isSome :=
    fun id hid => Package.isSome_function?_withoutInits hbegun hid
  rw [problems_eq_nil_iff] at h ⊢
  intro f hf
  rcases List.mem_cons.1 hf with rfl | hf
  -- the package initializer has no variables, and its scope is that of the package
  · refine consistent_of_bare rfl rfl rfl .nil (fun n hn => ?_) fun _ hid => nomatch hid
    cases hn
    exact hlaid.isSome_package
  · have hold := h f (List.mem_of_mem_tail hf)
    refine ⟨hold.params, hold.locals, hold.size, hold.scope, fun id hid => ?_, hold.blocks⟩
    exact (hold.enclosing id hid).imp (isSome_function?_addPackage methods hfunction)
      (hfunction id)

theorem create_withoutInits {id : PackageId} (h : p.Builds u draft) (hlaid : draft.finish.Laid)
    (hbegun : draft.finish.functions ≠ []) (hcreate : (p.create u).result = .ok id) :
    (p.create u.withoutInits).result = .ok id ∧
      (p.create u.withoutInits).program.package? id = some draft.finish.withoutInits := by
  obtain ⟨draft', h', hstrips⟩ := h.withoutInits
  have hfinish : draft'.finish = draft.finish.withoutInits := by
    unfold Draft.finish
    rw [hstrips.package]
    rfl
  have hresult := h.result
  rw [hcreate] at hresult
  split at hresult
  · cases hresult
  · rename_i hfine
    cases hresult
    refine ⟨?_, ?_⟩
    · rw [h'.result, if_neg]
      rintro ⟨hcheck, hproblems⟩
      rw [not_and_not_right, h.program] at hfine
      rw [h'.program, hfinish, hstrips.methods] at hproblems
      exact hproblems (problems_withoutInits hlaid hbegun draft.methods (hfine hcheck))
    · rw [h'.package?, hfinish]

/-- Declared initializers merge without loss. The package initializer, function number zero, takes
over the first of them in the order of the files and has the variables of all whose scope the walk
of the package visits: scope after scope depth-first, by name in a scope, in slots of this order. A
scope that it does not visit has no number in the package and gives no variables. The syntax of all
of them is kept, and for the rest the package is that of the unit without them. -/
theorem create_inits {id : PackageId} (hnew : p.byIdentity.find? u.path = none)
    (hcreate : (p.create u).result = .ok id) :
    ∃ pkg init rest, (p.create u).program.package? id = some pkg ∧ pkg.unit = u ∧
      pkg.functions = init :: rest ∧ pkg.function? ⟨id, 0⟩ = some init ∧
      pkg.initBodies = u.inits.map FuncDecl.source ∧ init.name = "init" ∧
      init.origin = u.inits.head?.elim (.synthetic "package initializer")
        (fun decl => .declared decl.source) ∧
      init.span = u.inits.head?.elim {} (·.span) ∧
      (∀ all, u.DepthFirst [.package] all → ∃ visited,
        u.DepthFirst ((u.inits.filterMap (·.scope)).filter (· ∈ all)) visited ∧
        init.locals = (visited.flatMap pkg.variablesOf).zipIdx.map fun e => e.1.withSlot e.2) ∧
      (∀ s, (pkg.variablesOf s).Pairwise (fun v w => compare v.name w.name = .lt) ∧
        ∀ v, v ∈ pkg.variablesOf s ↔ pkg.scopeFor? s = some v.scope ∧ ∃ o vname pos,
          u.Binds s v.name o ∧ u.object? o = some (.var vname pos v.type) ∧
          v.span = pos.elim {} Span.point) ∧
      (p.create u.withoutInits).result = .ok id ∧
      (p.create u.withoutInits).program.package? id = some { pkg with
        unit := u.withoutInits
        functions := Package.initializer id :: rest
        initBodies := [] } := by
  rcases create_ok_cases hcreate with ⟨hknown, -⟩ | ⟨draft, hbuilds, rfl⟩
  · rw [hnew] at hknown
    cases hknown
  · have hmerges := Draft.merges_build hbuilds.built
    have hlaid := (Draft.tracks_build (Draft.tracks_start p.nextPackage u) hbuilds.built).laid
    obtain ⟨rest, hfunctions⟩ := hmerges.functions
    have hbodies := hmerges.bodies
    rw [u.filterMap_init?_items] at hfunctions hbodies
    have hid : draft.finish.id = p.nextPackage := hmerges.id
    have hunit : draft.finish.unit = u := hmerges.unit
    have hnumbers : draft.finish.scopeNumbers = (Package.start p.nextPackage u).scopeNumbers :=
      hmerges.numbers
    have hfinish : draft.finish.functions = draft.package.functions := rfl
    rw [← hfinish] at hfunctions
    have hfirst : draft.finish.function? ⟨p.nextPackage, 0⟩ =
        some ((Package.initializer p.nextPackage).adoptAll (.start p.nextPackage u) u.inits) := by
      unfold Package.function?
      rw [if_pos hid.symm, hfunctions]
      rfl
    obtain ⟨horigin, hspan⟩ := Function.adoptAll_of_synthetic (p := .start p.nextPackage u)
      (f := Package.initializer p.nextPackage) rfl u.inits
    have hbegun : draft.finish.functions ≠ [] := by
      rw [hfunctions]
      exact List.cons_ne_nil _ _
    obtain ⟨hresult, hpackage⟩ := create_withoutInits hbuilds hlaid hbegun hcreate
    refine ⟨draft.finish, _, rest, hbuilds.package?, hunit, hfunctions, hfirst, hbodies,
      Function.name_adoptAll u.inits, horigin, hspan, fun all hall => ?_,
      fun s => ⟨?_, fun v => ?_⟩, hresult, ?_⟩
    · rw [← hunit] at hall
      obtain ⟨visited, hwalk, hvariables⟩ :=
        hlaid.flatMap_localDecls hall (u.inits.filterMap (·.scope))
      rw [hunit] at hwalk
      refine ⟨visited, hwalk, ?_⟩
      rw [Function.locals_adoptAll, ← Draft.initLocals_congr (p := draft.finish) hunit hnumbers,
        Draft.flatMap_initLocals, hvariables]
      rfl
    · exact draft.finish.pairwise_variablesOf s
    · rw [← hunit]
      exact Package.mem_variablesOf
    · rw [hpackage]
      unfold Package.withoutInits
      rw [hunit, hid, hfunctions]
      rfl

end Program

/-! ### Initializers in two files -/

namespace SourceUnit

/-- A unit with an initializer in either of its files. The scope of the first has a scope inside it,
and the second has no scope. -/
def initsApart : SourceUnit where
  path := "m"
  name := "m"
  importable := true
  error := none
  objects := [.func "f" none ⟨none, [], [], false⟩, .var "x" none (.basic .int),
    .var "y" none (.basic .int), .var "a" none (.basic .string)]
  scopes := [⟨{}, .ofList [("f", ⟨0⟩)], [⟨1⟩]⟩, ⟨{}, .ofList [("y", ⟨2⟩), ("x", ⟨1⟩)], [⟨2⟩]⟩,
    ⟨{}, .ofList [("a", ⟨3⟩)], []⟩]
  files := [⟨"f.go", [.func ⟨⟨"init", none, none⟩, none, [], some ⟨1⟩, none, {}⟩,
      .func ⟨⟨"f", some ⟨0⟩, none⟩, none, [], none, none, {}⟩]⟩,
    ⟨"g.go", [.func ⟨⟨"init", none, none⟩, none, [], none, some .null, {}⟩]⟩]

/-- A unit with an initializer whose scope the package scope does not contain. -/
def stranded : SourceUnit where
  path := "m"
  name := "m"
  importable := true
  error := none
  objects := [.var "x" none (.basic .int)]
  scopes := [⟨{}, .empty, []⟩, ⟨{}, .ofList [("x", ⟨0⟩)], []⟩]
  files := [⟨"f.go", [.func ⟨⟨"init", none, none⟩, none, [], some ⟨1⟩, none, {}⟩]⟩]

end SourceUnit

namespace Program

theorem create_inits_initsApart :
    let p : Program := {}
    let u := SourceUnit.initsApart
    (p.byIdentity.find? u.path = none ∧ (p.create u).result = .ok ⟨0⟩ ∧
      u.DepthFirst [.package] [⟨0⟩, ⟨1⟩, ⟨2⟩]) ∧
    ∃ pkg init rest, (p.create u).program.package? ⟨0⟩ = some pkg ∧
      pkg.functions = init :: rest ∧
      pkg.initBodies = [⟨none, [], none, {}⟩, ⟨none, [], some .null, {}⟩] ∧
      init.origin = .declared ⟨none, [], none, {}⟩ ∧
      init.locals.map (·.name) = ["x", "y", "a"] := by
  intro p u
  have hcreate : (p.create u).result = .ok ⟨0⟩ := by decide +kernel
  have hall : u.DepthFirst [.package] [⟨0⟩, ⟨1⟩, ⟨2⟩] :=
    .visit rfl (.visit rfl (.visit rfl .done))
  obtain ⟨pkg, init, rest, hpkg, -, hfunctions, -, hbodies, -, horigin, -, hlocals, -⟩ :=
    create_inits (u := u) rfl hcreate
  refine ⟨⟨rfl, hcreate, hall⟩, pkg, init, rest, hpkg, hfunctions, hbodies, horigin, ?_⟩
  obtain ⟨visited, hwalk, hslots⟩ := hlocals _ hall
  have hvisited : visited = [⟨1⟩, ⟨2⟩] := hwalk.unique (.visit rfl (.visit rfl .done))
  have hnames : ((p.create u).program.package? ⟨0⟩).map
      (fun q => ([⟨1⟩, ⟨2⟩].flatMap q.variablesOf).map (·.name)) = some ["x", "y", "a"] := by
    decide +kernel
  rw [hpkg, Option.map_some, Option.some.injEq] at hnames
  rw [hslots, hvisited, List.map_map]
  change List.map (LocalDecl.name ∘ Prod.fst) _ = _
  rw [← List.map_map, List.zipIdx_map_fst]
  exact hnames

/-- The scope of an initializer binds a variable that does not become one of its locals. -/
theorem create_inits_stranded :
    let p : Program := {}
    let u := SourceUnit.stranded
    (p.create u).result = .ok ⟨0⟩ ∧ u.inits.filterMap (·.scope) = [⟨1⟩] ∧
      u.DepthFirst [⟨1⟩] [⟨1⟩] ∧ u.Binds ⟨1⟩ "x" ⟨0⟩ ∧
      u.object? ⟨0⟩ = some (.var "x" none (.basic .int)) ∧
      ∃ init, (p.create u).program.function? ⟨⟨0⟩, 0⟩ = some init ∧ init.locals = [] := by
  intro p u
  have hcreate : (p.create u).result = .ok ⟨0⟩ := by decide +kernel
  exact ⟨hcreate, rfl, .visit rfl .done, ⟨_, rfl, rfl⟩, rfl, _, rfl, rfl⟩

end Program

end TraceDebugger
