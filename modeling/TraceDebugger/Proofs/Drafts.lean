import TraceDebugger.Program.Draft

/-!
# What a step of making a package does

`Draft.Made` lists everything that making an object can do to a draft, and
`Draft.made_of_makeObject` reads it off the code. Facts about a finished draft follow from facts
about one step by `Draft.build_induction`, or by `Draft.build_invariant` when the items do not
matter.
-/

namespace TraceDebugger

namespace Function

/-- Giving variables slots changes the list of variables and the table of slots only. -/
theorem addLocals_eq (f : Function) (vars : List LocalDecl) : f.addLocals vars =
    { f with locals := (f.addLocals vars).locals, slots := (f.addLocals vars).slots } := by
  induction vars generalizing f with
  | nil => rfl
  | cons v rest ih =>
    have h := ih (f.addLocal v)
    change (f.addLocal v).addLocals rest = _
    rw [h]
    rfl

end Function

namespace Package

/-- The function that was added last is the one that changes. -/
theorem modifyFunction_addFunction (p : Package) (f : Function) (change : Function → Function) :
    (p.addFunction f).modifyFunction p.nextFunction change = p.addFunction (change f) := by
  have hlast : ∀ l : List Function, (l ++ [f]).modify l.length change = l ++ [change f] := by
    intro l
    induction l with
    | nil => rfl
    | cons g rest ih => simpa using ih
  dsimp only [modifyFunction, addFunction, nextFunction]
  rw [if_pos rfl, hlast]

theorem modifyFunction_initId (p : Package) (change : Function → Function) :
    p.modifyFunction p.initId change = { p with functions := p.functions.modify 0 change } :=
  if_pos rfl

theorem recordValue_modifyFunction (p : Package) (id : FunctionId)
    (change : Function → Function) (object : ObjectId) (value : Built) :
    (p.recordValue object value).modifyFunction id change =
      (p.modifyFunction id change).recordValue object value := by
  unfold modifyFunction
  by_cases h : id.package = p.id
  · rw [if_pos h]
    exact if_pos h
  · rw [if_neg h]
    exact if_neg h

/-- Deriving the local variables of the function that was added last. -/
theorem deriveLocals_addFunction (p : Package) (f : Function) (object : ObjectId) (value : Built)
    (root : SourceScopeId) (params : List String) :
    ((p.addFunction f).recordValue object value).deriveLocals p.nextFunction root params =
      (p.addFunction (f.addLocals (p.localDecls root params))).recordValue object value := by
  rw [← p.modifyFunction_addFunction f (·.addLocals (p.localDecls root params))]
  exact (p.addFunction f).recordValue_modifyFunction _ _ object value

end Package

namespace Draft

/-! ## The function of an object -/

/-- The variables that get slots in the function of an object. -/
def localsOf (p : Package) (source : DeclSource) (signature : Signature) : List LocalDecl :=
  match source.func?.bind (·.scope) with
  | some root => p.localDecls root (signature.allParams.map (·.name))
  | none => []

theorem localsOf_func {p : Package} {decl : FuncDecl} {signature : Signature} {r : SourceScopeId}
    (h : decl.scope = some r) : localsOf p (.func decl) signature =
      p.localDecls r (signature.allParams.map (·.name)) := by
  unfold localsOf DeclSource.func?
  dsimp only [Option.bind_some]
  rw [h]

/-- The function that is made of an object, with its local variables. -/
def builtFunction (p : Package) (object : ObjectId) (source : DeclSource) (name : String)
    (pos : Option Position) (signature : Signature) : Function :=
  (functionOf p object source name pos signature).addLocals (localsOf p source signature)

section

variable (p : Package) (o : ObjectId) (source : DeclSource) (name : String) (pos : Option Position)
  (signature : Signature)

theorem builtFunction_object : (builtFunction p o source name pos signature).object = some o := by
  rw [builtFunction, Function.addLocals_eq]
  rfl

theorem builtFunction_name : (builtFunction p o source name pos signature).name = name := by
  rw [builtFunction, Function.addLocals_eq]
  rfl

theorem builtFunction_signature :
    (builtFunction p o source name pos signature).signature = signature := by
  rw [builtFunction, Function.addLocals_eq]
  rfl

theorem builtFunction_package : (builtFunction p o source name pos signature).package = p.id := by
  rw [builtFunction, Function.addLocals_eq]
  rfl

theorem builtFunction_enclosing :
    (builtFunction p o source name pos signature).enclosing = none := by
  rw [builtFunction, Function.addLocals_eq]
  rfl

end

/-- The scopes of a package after one of them, if one is given, was opened by a function. -/
def scopesWith (p : Package) (object : ObjectId) (source : DeclSource) : List Scope :=
  match (source.func?.bind (·.scope)).bind p.scopeFor? with
  | some scope => p.scopes.modify scope.index fun s => { s with node := .function object }
  | none => p.scopes

/-- Adding the function of an object adds it at the end, notes it as the value of the object and
marks the scope that it opens; all else stays. -/
theorem addFunction_eq (p : Package) (object : ObjectId) (source : DeclSource) (name : String)
    (pos : Option Position) (signature : Signature) :
    addFunction p object source name pos signature =
      { p with
        functions := p.functions ++ [builtFunction p object source name pos signature]
        values := p.values.insert object (.function p.nextFunction)
        scopes := scopesWith p object source } := by
  have hscope : (functionOf p object source name pos signature).scope =
      (source.func?.bind (·.scope)).bind p.scopeFor? := rfl
  unfold addFunction builtFunction localsOf scopesWith
  dsimp only
  rw [hscope]
  cases source.func?.bind (·.scope) with
  | none => rfl
  | some root =>
    dsimp only [Option.bind]
    cases p.scopeFor? root with
    | none =>
      dsimp only
      rw [Package.deriveLocals_addFunction]
      rfl
    | some scope =>
      have hnext : p.nextFunction = (p.setScopeNode scope (.function object)).nextFunction := rfl
      dsimp only
      rw [hnext, Package.deriveLocals_addFunction]
      rfl

theorem addFunction_unit (p : Package) (object : ObjectId) (source : DeclSource) (name : String)
    (pos : Option Position) (signature : Signature) :
    (addFunction p object source name pos signature).unit = p.unit := by
  rw [addFunction_eq]

theorem addFunction_values (p : Package) (object : ObjectId) (source : DeclSource) (name : String)
    (pos : Option Position) (signature : Signature) :
    (addFunction p object source name pos signature).values =
      p.values.insert object (.function p.nextFunction) := by
  rw [addFunction_eq]

theorem addFunction_functions (p : Package) (object : ObjectId) (source : DeclSource)
    (name : String) (pos : Option Position) (signature : Signature) :
    (addFunction p object source name pos signature).functions =
      p.functions ++ [builtFunction p object source name pos signature] := by
  rw [addFunction_eq]

/-! ## Declared initializers -/

/-- The variables that get slots in the package initializer on account of one declaration. -/
def initLocals (p : Package) (decl : FuncDecl) : List LocalDecl :=
  match decl.scope with
  | some root => p.localDecls root []
  | none => []

/-- Adopting a declared initializer keeps its source and changes the package initializer; all else
stays. -/
theorem adoptInit_package (d : Draft) (decl : FuncDecl) : (d.adoptInit decl).package =
    { d.package with
      initBodies := d.package.initBodies ++ [decl.source]
      functions := d.package.functions.modify 0 fun f =>
        (f.adopt decl.source).addLocals (initLocals d.package decl) } := by
  unfold adoptInit initLocals
  dsimp only
  cases decl.scope with
  | none => exact Package.modifyFunction_initId _ _
  | some root =>
    dsimp only [Package.deriveLocals]
    rw [Package.modifyFunction_initId { d.package with initBodies := _ } _]
    refine (Package.modifyFunction_initId _ _).trans ?_
    dsimp only
    rw [List.modify_modify_eq]
    rfl

/-! ## The steps -/

/-- Making the object `id` turns the draft `d` into the given one. -/
inductive Made (d : Draft) (id : ObjectId) (source : DeclSource) : Draft → Prop where
  /-- The object has been made before. -/
  | known (known : d.package.values.contains id = true) : Made d id source d
  /-- The object becomes a type. -/
  | type {name : String} {pos : Option Position} {type underlying : Ty} {methods : List ObjectId}
      (new : d.package.values.contains id = false)
      (object : d.package.unit.object? id = some (.typeName name pos type underlying methods)) :
      Made d id source { d with
        package := (d.package.recordValue id .type).insertMember
          (.type ⟨name, id, type, underlying, pos⟩) }
  /-- The object becomes a constant. -/
  | const {name : String} {pos : Option Position} {type : Ty} {value : Constant}
      (new : d.package.values.contains id = false)
      (object : d.package.unit.object? id = some (.const name pos type value)) :
      Made d id source { d with
        package :=
          (d.package.recordValue id (.const (constantOf source pos type value))).insertMember
            (.const ⟨name, id, constantOf source pos type value⟩) }
  /-- The object becomes a package-level variable. -/
  | global {name : String} {pos : Option Position} {type : Ty}
      (new : d.package.values.contains id = false)
      (object : d.package.unit.object? id = some (.var name pos type)) :
      Made d id source { d with
        package := (d.package.recordValue id (.global name)).insertMember
          (.global ⟨name, some id, .pointer type, ⟨pos, (source.span?.bind (·.stop)).or pos⟩⟩) }
  /-- The object becomes a function without a receiver. -/
  | function {name : String} {pos : Option Position} {signature : Signature}
      (new : d.package.values.contains id = false)
      (object : d.package.unit.object? id = some (.func name pos signature))
      (isFunction : signature.recv = none) :
      Made d id source { d with
        package := (addFunction d.package id source name pos signature).insertMember
          (.function name d.package.nextFunction) }
  /-- The object becomes a method. -/
  | method {name : String} {pos : Option Position} {signature : Signature} {recv : Var}
      (new : d.package.values.contains id = false)
      (object : d.package.unit.object? id = some (.func name pos signature))
      (isMethod : signature.recv = some recv)
      (declared : isDeclaredType d.package.unit recv.type = true) :
      Made d id source { d with
        package := addFunction d.package id source name pos signature
        methods := d.methods ++ [(id, d.package.nextFunction)] }

/-- Making an object adds the function that it becomes, or no function. -/
theorem Made.functions_cases {d d' : Draft} {o : ObjectId} {source : DeclSource}
    (hm : d.Made o source d') :
    d'.package.functions = d.package.functions ∨
    ∃ name pos signature, d.package.unit.object? o = some (.func name pos signature) ∧
      d'.package.functions =
        d.package.functions ++ [builtFunction d.package o source name pos signature] := by
  cases hm with
  | known | type | const | global => exact .inl rfl
  | function new object isFunction =>
    exact .inr ⟨_, _, _, object, addFunction_functions d.package o source _ _ _⟩
  | method new object isMethod declared =>
    exact .inr ⟨_, _, _, object, addFunction_functions d.package o source _ _ _⟩

/-- Making an object does one of the things that `Made` lists. -/
theorem made_of_makeObject {d d' : Draft} {id : ObjectId} {source : DeclSource}
    (h : d.makeObject id source = .ok d') : d.Made id source d' := by
  unfold makeObject at h
  dsimp only at h
  by_cases hknown : d.package.values.contains id = true
  · rw [if_pos hknown] at h
    cases h
    exact .known hknown
  rw [if_neg hknown] at h
  have hnew : d.package.values.contains id = false := by simpa using hknown
  cases hobj : d.package.unit.object? id with
  | none => rw [hobj] at h; cases h
  | some object =>
    rw [hobj] at h
    cases object with
    | typeName name pos type underlying methods => cases h; exact .type hnew hobj
    | const name pos type value => cases h; exact .const hnew hobj
    | var name pos type => cases h; exact .global hnew hobj
    | package name pos imported => cases h
    | func name pos signature =>
      dsimp only at h
      cases hrecv : signature.recv with
      | none =>
        rw [hrecv] at h
        cases h
        exact .function hnew hobj hrecv
      | some recv =>
        rw [hrecv] at h
        dsimp only at h
        rw [addFunction_unit] at h
        by_cases hdecl : isDeclaredType d.package.unit recv.type = true
        · rw [if_pos hdecl] at h
          cases h
          exact .method hnew hobj hrecv hdecl
        · rw [if_neg hdecl] at h
          cases h

/-- What holds before any item and is kept by every item holds of what the items make. -/
theorem build_induction {P : List Item → Draft → Prop} {d d' : Draft} {items : List Item}
    (step : ∀ done item d d', P done d → item ∈ items → d.make item = .ok d' →
      P (done ++ [item]) d')
    (hb : d.build items = (d', none)) (h : P [] d) : P items d' := by
  suffices ∀ (rest done : List Item) (d : Draft), (∀ item ∈ rest, item ∈ items) →
      d.build rest = (d', none) → P done d → P (done ++ rest) d' from
    this items [] d (fun _ hi => hi) hb h
  intro rest
  induction rest with
  | nil =>
    intro done d _ hb h
    cases hb
    rwa [List.append_nil]
  | cons item rest ih =>
    intro done d hmem hb h
    unfold build at hb
    cases hm : d.make item with
    | error cause => rw [hm] at hb; cases hb
    | ok d₁ =>
      rw [hm] at hb
      have h₁ := step done item d d₁ h (hmem item List.mem_cons_self) hm
      have h₂ := ih (done ++ [item]) d₁ (fun i hi => hmem i (List.mem_cons_of_mem _ hi)) hb h₁
      rwa [List.append_assoc] at h₂

/-- What notes, declared initializers and made objects keep holds of what the items make. -/
theorem build_invariant {P : Draft → Prop} {d d' : Draft} {items : List Item}
    (note : ∀ d log, P d → P { d with log := log })
    (adopt : ∀ d decl, P d → P (d.adoptInit decl))
    (made : ∀ d id source d', P d → d.Made id source d' → P d')
    (hb : d.build items = (d', none)) (h : P d) : P d' := by
  refine build_induction (P := fun _ d => P d) (fun _ item d d' h _ hm => ?_) hb h
  cases item with
  | file name => cases hm; exact note _ _ h
  | initializer decl => cases hm; exact adopt _ _ h
  | misplaced kind spec => cases hm
  | method object => exact made _ _ _ _ h (made_of_makeObject hm)
  | ident name object source =>
    cases hr : resolve d.package.unit name object with
    | error cause => simp only [make, hr, bind, Except.bind] at hm; cases hm
    | ok id =>
      simp only [make, hr, bind, Except.bind] at hm
      exact made _ _ _ _ h (made_of_makeObject hm)

end Draft

end TraceDebugger
