import TraceDebugger.Proofs.Wrappers

/-!
# Members, values and functions of a package

A package says three times what has become of an object: its members, the values that it notes and
its functions each name the object. In a coherent package, `Package.Coherent`, the three agree with
each other and with the unit, even if the unit repeats names or objects. Finished packages are
coherent, and every step keeps them so (`Package.Coherent.step`). So in every program that
operations make the three describe the same objects (`Program.objects_agree`).
-/

namespace TraceDebugger

/-- What never changes of a function. -/
structure Function.Keeps (f f' : Function) : Prop where
  name : f'.name = f.name
  object : f'.object = f.object
  signature : f'.signature = f.signature
  enclosing : f'.enclosing = f.enclosing

namespace Function

theorem Keeps.refl (f : Function) : f.Keeps f := ⟨rfl, rfl, rfl, rfl⟩

theorem keeps_adopt_addLocals (f : Function) (source : FuncSource) (vars : List LocalDecl) :
    f.Keeps ((f.adopt source).addLocals vars) := by
  rw [addLocals_eq]
  unfold adopt
  split
  · exact ⟨rfl, rfl, rfl, rfl⟩
  · exact ⟨rfl, rfl, rfl, rfl⟩

end Function

namespace Package

variable {p q : Package}

/-- The package notes of an object what the unit has, and a function carries what its object
says. -/
inductive Records (p : Package) (o : ObjectId) : Object → Built → Prop where
  | type {name : String} {pos : Option Position} {type underlying : Ty} {methods : List ObjectId} :
    Records p o (.typeName name pos type underlying methods) .type
  | const {name : String} {pos : Option Position} {type : Ty} {value : Constant} {span : Span} :
    Records p o (.const name pos type value) (.const ⟨value, type, span⟩)
  | global {name : String} {pos : Option Position} {type : Ty} :
    Records p o (.var name pos type) (.global name)
  | function {name : String} {pos : Option Position} {signature : Signature} {id : FunctionId}
    {f : Function} (found : p.function? id = some f) (object : f.object = some o)
    (named : f.name = name) (typed : f.signature = signature) :
    Records p o (.func name pos signature) (.function id)

/-- What a member stands for is noted by the package. The initializer and its guard stand for no
object. -/
inductive Backs (p : Package) : Member → Prop where
  | type {t : TypeMember} (value : p.values.find? t.object = some .type) : Backs p (.type t)
  | const {c : ConstMember} (value : p.values.find? c.object = some (.const c.value)) :
    Backs p (.const c)
  | guard {g : Global} (object : g.object = none) (named : g.name = "init$guard") :
    Backs p (.global g)
  | global {g : Global} {o : ObjectId} (object : g.object = some o)
    (value : p.values.find? o = some (.global g.name)) : Backs p (.global g)
  | init {name : String} {f : Function} (found : p.function? p.initId = some f)
    (named : f.name = name) (plain : f.receiver? = none) : Backs p (.function name p.initId)
  | function {name : String} {id : FunctionId} {f : Function} {o : ObjectId}
    (found : p.function? id = some f) (named : f.name = name) (plain : f.receiver? = none)
    (object : f.object = some o) (value : p.values.find? o = some (.function id)) :
    Backs p (.function name id)

/-- The object of a function has become that function, and a function inside another has none. -/
structure Files (p : Package) (id : FunctionId) (f : Function) : Prop where
  object : ∀ o, f.object = some o → p.values.find? o = some (.function id)
  inner : f.enclosing.isSome → f.object = none

/-- Members, values and functions agree on the objects of the unit. -/
structure Coherent (p : Package) : Prop where
  /-- A member is stored under its name, and what it stands for is noted. -/
  members : ∀ key m, p.members.find? key = some m → m.name = key ∧ p.Backs m
  /-- What is noted of an object is what the unit has. -/
  values : ∀ o value, p.values.find? o = some value →
    ∃ object, p.unit.object? o = some object ∧ p.Records o object value
  /-- A function is what its object has become. -/
  functions : ∀ id f, p.function? id = some f → p.Files id f
  /-- The initializer has no object. -/
  init : ∃ f, p.function? p.initId = some f ∧ f.object = none

/-! ## Extending a package -/

/-- A later stage of a package: nothing that is noted is lost or changed. -/
structure Retains (p q : Package) : Prop where
  id : q.id = p.id
  unit : q.unit = p.unit
  values : ∀ o value, p.values.find? o = some value → q.values.find? o = some value
  functions : ∀ id f, p.function? id = some f → ∃ f', q.function? id = some f' ∧ f.Keeps f'

theorem Retains.initId (h : p.Retains q) : q.initId = p.initId := by
  unfold Package.initId
  rw [h.id]

theorem Records.mono {o : ObjectId} {object : Object} {value : Built} (h : p.Records o object value)
    (hr : p.Retains q) : q.Records o object value := by
  cases h with
  | type => exact .type
  | const => exact .const
  | global => exact .global
  | function found object named typed =>
    obtain ⟨f', hf', hkeeps⟩ := hr.functions _ _ found
    exact .function hf' (hkeeps.object.trans object) (hkeeps.name.trans named)
      (hkeeps.signature.trans typed)

theorem Backs.mono {m : Member} (h : p.Backs m) (hr : p.Retains q) : q.Backs m := by
  have hplain : ∀ {f f' : Function}, f.Keeps f' → f.receiver? = none → f'.receiver? = none := by
    intro f f' hkeeps hrecv
    unfold Function.receiver? at hrecv ⊢
    rw [hkeeps.signature, hrecv]
  cases h with
  | type value => exact .type (hr.values _ _ value)
  | const value => exact .const (hr.values _ _ value)
  | guard object named => exact .guard object named
  | global object value => exact .global object (hr.values _ _ value)
  | init found named plain =>
    obtain ⟨f', hf', hkeeps⟩ := hr.functions _ _ found
    rw [← hr.initId] at hf' ⊢
    exact .init hf' (hkeeps.name.trans named) (hplain hkeeps plain)
  | function found named plain object value =>
    obtain ⟨f', hf', hkeeps⟩ := hr.functions _ _ found
    exact .function hf' (hkeeps.name.trans named) (hplain hkeeps plain)
      (hkeeps.object.trans object) (hr.values _ _ value)

/-- A later stage of a coherent package is coherent if what is new in it agrees. -/
theorem Coherent.extend (h : p.Coherent) (hr : p.Retains q)
    (members : ∀ key m, q.members.find? key = some m →
      p.members.find? key = some m ∨ (m.name = key ∧ q.Backs m))
    (values : ∀ o value, q.values.find? o = some value → p.values.find? o = some value ∨
      ∃ object, q.unit.object? o = some object ∧ q.Records o object value)
    (functions : ∀ id f', q.function? id = some f' →
      (∃ f, p.function? id = some f) ∨ q.Files id f') : q.Coherent where
  members key m hm := by
    rcases members key m hm with hold | hnew
    · obtain ⟨hname, hbacks⟩ := h.members key m hold
      exact ⟨hname, hbacks.mono hr⟩
    · exact hnew
  values o value hv := by
    rcases values o value hv with hold | hnew
    · obtain ⟨object, hobject, hrecords⟩ := h.values o value hold
      rw [← hr.unit] at hobject
      exact ⟨object, hobject, hrecords.mono hr⟩
    · exact hnew
  functions id f' hf' := by
    rcases functions id f' hf' with ⟨f, hf⟩ | hnew
    · obtain ⟨f'', hf'', hkeeps⟩ := hr.functions id f hf
      rw [hf'] at hf''
      cases hf''
      have hfiles := h.functions id f hf
      refine ⟨fun o ho => hr.values _ _ (hfiles.object o (hkeeps.object ▸ ho)), fun hinner => ?_⟩
      rw [hkeeps.object]
      exact hfiles.inner (hkeeps.enclosing ▸ hinner)
    · exact hnew
  init := by
    obtain ⟨f, hf, hobject⟩ := h.init
    obtain ⟨f', hf', hkeeps⟩ := hr.functions _ _ hf
    rw [hr.initId]
    exact ⟨f', hf', hkeeps.object.trans hobject⟩

/-! ## Each way of extending it -/

theorem Coherent.insertMember (h : p.Coherent) {m : Member} (hm : p.Backs m) :
    (p.insertMember m).Coherent := by
  have hr : p.Retains (p.insertMember m) :=
    ⟨rfl, rfl, fun _ _ hv => hv, fun _ f hf => ⟨f, hf, .refl f⟩⟩
  refine h.extend hr (fun key m' hm' => ?_) (fun _ _ hv => .inl hv) fun id f hf => .inl ⟨f, hf⟩
  change (p.members.insert m.name m).find? key = _ at hm'
  rw [Table.find?_insert_eq] at hm'
  split at hm'
  · rename_i hkey
    cases hm'
    exact .inr ⟨hkey.symm, hm.mono hr⟩
  · exact .inl hm'

theorem find?_recordValue_of_find? {o o' : ObjectId} {value value' : Built}
    (hnew : p.values.find? o = none) (h : p.values.find? o' = some value') :
    (p.values.insert o value).find? o' = some value' := by
  have hne : o' ≠ o := by
    rintro rfl
    rw [hnew] at h
    cases h
  rw [Table.find?_insert_of_ne _ _ hne]
  exact h

theorem Coherent.recordValue (h : p.Coherent) {o : ObjectId} {object : Object} {value : Built}
    (hnew : p.values.find? o = none) (hobject : p.unit.object? o = some object)
    (hrecords : p.Records o object value) : (p.recordValue o value).Coherent := by
  have hr : p.Retains (p.recordValue o value) :=
    ⟨rfl, rfl, fun _ _ hv => find?_recordValue_of_find? hnew hv, fun _ f hf => ⟨f, hf, .refl f⟩⟩
  refine h.extend hr (fun _ _ hm => .inl hm) (fun o' value' hv => ?_) fun id f hf => .inl ⟨f, hf⟩
  change (p.values.insert o value).find? o' = _ at hv
  rw [Table.find?_insert_eq] at hv
  split at hv
  · rename_i heq
    cases hv
    rw [heq]
    exact .inr ⟨object, hobject, hrecords.mono hr⟩
  · exact .inl hv

/-- With one more function at the end, the next id leads to it and the others as before. -/
theorem function?_append {f f' : Function} {id : FunctionId} (hid : q.id = p.id)
    (hfunctions : q.functions = p.functions ++ [f]) :
    q.function? id = some f' ↔ p.function? id = some f' ∨ (id = p.nextFunction ∧ f' = f) := by
  unfold function? nextFunction
  rw [hid, hfunctions]
  by_cases hhome : id.package = p.id
  · rw [if_pos hhome, if_pos hhome, List.getElem?_append]
    have heq : id = ⟨p.id, p.functions.length⟩ ↔ id.index = p.functions.length := by
      rw [← hhome]
      cases id
      simp
    rw [heq]
    by_cases hlt : id.index < p.functions.length
    · rw [if_pos hlt]
      have hne : id.index ≠ p.functions.length := Nat.ne_of_lt hlt
      simp [hne]
    · rw [if_neg hlt, List.getElem?_eq_none (Nat.not_lt.1 hlt)]
      by_cases hlast : id.index = p.functions.length
      · simp [hlast, eq_comm]
      · have hpos : id.index - p.functions.length ≠ 0 := by omega
        rw [List.getElem?_eq_none (by simp; omega)]
        simp [hlast]
  · rw [if_neg hhome, if_neg hhome]
    have hne : id ≠ ⟨p.id, p.functions.length⟩ := by
      rintro rfl
      exact hhome rfl
    simp [hne]

/-- A function may be added at the end if it is what its object becomes. -/
theorem Coherent.append (h : p.Coherent) {f : Function} (hid : q.id = p.id)
    (hunit : q.unit = p.unit) (hmembers : q.members = p.members)
    (hfunctions : q.functions = p.functions ++ [f])
    (hkept : ∀ o value, p.values.find? o = some value → q.values.find? o = some value)
    (hvalues : ∀ o value, q.values.find? o = some value → p.values.find? o = some value ∨
      ∃ object, q.unit.object? o = some object ∧ q.Records o object value)
    (hfiles : q.Files p.nextFunction f) : q.Coherent := by
  have hr : p.Retains q := ⟨hid, hunit, hkept, fun id f' hf' =>
    ⟨f', (function?_append hid hfunctions).2 (.inl hf'), .refl f'⟩⟩
  refine h.extend hr (fun key m hm => .inl ?_) hvalues fun id f' hf' => ?_
  · rw [← hmembers]
    exact hm
  · rcases (function?_append hid hfunctions).1 hf' with hold | ⟨rfl, rfl⟩
    · exact .inl ⟨f', hold⟩
    · exact .inr hfiles

theorem Coherent.addFunction (h : p.Coherent) {f : Function} (hobject : f.object = none) :
    (p.addFunction f).Coherent := by
  refine h.append rfl rfl rfl rfl (fun _ _ hv => hv) (fun _ _ hv => .inl hv)
    ⟨fun o ho => ?_, fun _ => hobject⟩
  rw [hobject] at ho
  cases ho

/-- A function may be changed in place if it keeps what never changes. -/
theorem Coherent.modify (h : p.Coherent) {i : Nat} {change : Function → Function}
    (hid : q.id = p.id) (hunit : q.unit = p.unit) (hmembers : q.members = p.members)
    (hvalues : q.values = p.values) (hfunctions : q.functions = p.functions.modify i change)
    (hchange : ∀ f : Function, f.Keeps (change f)) : q.Coherent := by
  -- at every id the function is the one from before, changed or not
  have hfun : ∀ id, q.function? id = (p.function? id).map fun f =>
      if i = id.index then change f else f := by
    intro id
    unfold function?
    rw [hid, hfunctions]
    by_cases hhome : id.package = p.id
    · rw [if_pos hhome, if_pos hhome, List.getElem?_modify]
      by_cases hi : i = id.index
      · simp [hi]
      · simp [hi]
    · rw [if_neg hhome, if_neg hhome]
      rfl
  have hr : p.Retains q := by
    refine ⟨hid, hunit, fun o value hv => by rw [hvalues]; exact hv, fun id f hf => ?_⟩
    rw [hfun, hf]
    refine ⟨_, rfl, ?_⟩
    split
    · exact hchange f
    · exact .refl f
  refine h.extend hr (fun key m hm => .inl ?_) (fun o value hv => .inl ?_) fun id f hf => .inl ?_
  · rw [← hmembers]
    exact hm
  · rw [← hvalues]
    exact hv
  · rw [hfun] at hf
    obtain ⟨f', hf', -⟩ := Option.map_eq_some_iff.1 hf
    exact ⟨f', hf'⟩

theorem Coherent.modifyFunction (h : p.Coherent) (id : FunctionId) {change : Function → Function}
    (hchange : ∀ f : Function, f.Keeps (change f)) : (p.modifyFunction id change).Coherent := by
  by_cases hid : id.package = p.id
  · unfold Package.modifyFunction
    rw [if_pos hid]
    exact h.modify rfl rfl rfl rfl rfl hchange
  · unfold Package.modifyFunction
    rw [if_neg hid]
    exact h

/-! ## Making a package -/

theorem coherent_start (id : PackageId) (u : SourceUnit) : (start id u).Coherent := by
  have hinit : (start id u).function? (start id u).initId = some (initializer id) := by
    unfold function?
    exact if_pos rfl
  have hfunction : ∀ fid f, (start id u).function? fid = some f → f = initializer id := by
    intro fid f hf
    obtain ⟨-, hf⟩ := Option.ite_none_right_eq_some.1 hf
    exact List.mem_singleton.1 (List.mem_of_getElem? hf)
  refine ⟨fun key m hm => ?_, fun _ _ hv => (nomatch hv), fun fid f hf => ?_, _, hinit, rfl⟩
  · change ((Table.empty : Table String Member).insert "init" (.function "init" ⟨id, 0⟩)).find? key
      = _ at hm
    rw [Table.find?_insert_eq] at hm
    split at hm
    · rename_i hkey
      cases hm
      exact ⟨hkey.symm, .init hinit rfl rfl⟩
    · cases hm
  · rw [hfunction fid f hf]
    exact ⟨fun _ ho => (nomatch ho), fun _ => rfl⟩

end Package

namespace Draft

open Package

theorem coherent_addFunction {p : Package} (h : p.Coherent) {o : ObjectId} {name : String}
    {pos : Option Position} {signature : Signature} (hnew : p.values.find? o = none)
    (hobject : p.unit.object? o = some (.func name pos signature)) (source : DeclSource) :
    let q := addFunction p o source name pos signature
    q.Coherent ∧ q.values.find? o = some (.function p.nextFunction) ∧
      q.function? p.nextFunction = some (builtFunction p o source name pos signature) := by
  intro q
  have hid : q.id = p.id := addFunction_id p o source name pos signature
  have hunit : q.unit = p.unit := addFunction_unit p o source name pos signature
  have hvalues : q.values = p.values.insert o (.function p.nextFunction) :=
    addFunction_values p o source name pos signature
  have hfunctions : q.functions = p.functions ++ [builtFunction p o source name pos signature] :=
    addFunction_functions p o source name pos signature
  have hmembers : q.members = p.members := by simp only [q, addFunction_eq]
  have hobject' := builtFunction_object p o source name pos signature
  have hvalue : q.values.find? o = some (.function p.nextFunction) := by
    rw [hvalues]
    exact p.values.find?_insert_self o _
  have hlast : q.function? p.nextFunction = some (builtFunction p o source name pos signature) :=
    (function?_append hid hfunctions).2 (.inr ⟨rfl, rfl⟩)
  refine ⟨?_, hvalue, hlast⟩
  refine h.append hid hunit hmembers hfunctions (fun o' value hv => ?_) (fun o' value hv => ?_)
    ⟨fun o' ho' => ?_, fun hinner => ?_⟩
  · rw [hvalues]
    exact find?_recordValue_of_find? hnew hv
  · rw [hvalues, Table.find?_insert_eq] at hv
    split at hv
    · rename_i heq
      cases hv
      rw [heq, hunit]
      exact .inr ⟨_, hobject, .function hlast hobject'
        (builtFunction_name p o source name pos signature)
        (builtFunction_signature p o source name pos signature)⟩
    · exact .inl hv
  · rw [hobject'] at ho'
    cases ho'
    exact hvalue
  · rw [builtFunction_enclosing] at hinner
    cases hinner

theorem coherent_made {d d' : Draft} {o : ObjectId} {source : DeclSource}
    (h : d.package.Coherent) (hm : d.Made o source d') : d'.package.Coherent := by
  have hunmade : d.package.values.contains o = false → d.package.values.find? o = none :=
    Table.contains_eq_false_iff.1
  cases hm with
  | known known => exact h
  | type new object =>
    exact (h.recordValue (hunmade new) object .type).insertMember
      (.type (d.package.values.find?_insert_self _ _))
  | const new object =>
    exact (h.recordValue (hunmade new) object .const).insertMember
      (.const (d.package.values.find?_insert_self _ _))
  | global new object =>
    exact (h.recordValue (hunmade new) object .global).insertMember
      (.global rfl (d.package.values.find?_insert_self _ _))
  | @function name pos signature new object plain =>
    obtain ⟨hcoherent, hvalue, hlast⟩ := coherent_addFunction h (hunmade new) object source
    refine hcoherent.insertMember (.function hlast ?_ ?_ ?_ hvalue)
    · exact builtFunction_name d.package o source name pos signature
    · unfold Function.receiver?
      rw [builtFunction_signature, plain]
    · exact builtFunction_object d.package o source name pos signature
  | @method name pos signature recv new object _ _ =>
    exact (coherent_addFunction h (hunmade new) object source).1

theorem coherent_adoptInit {d : Draft} (h : d.package.Coherent) (decl : FuncDecl) :
    (d.adoptInit decl).package.Coherent := by
  rw [adoptInit_package]
  exact h.modify rfl rfl rfl rfl rfl fun f => f.keeps_adopt_addLocals _ _

end Draft

namespace Package

variable {p q : Package}

theorem Finished.coherent (h : p.Finished) : p.Coherent := by
  obtain ⟨id, u, draft, hbuild, rfl⟩ := h
  have hdraft : draft.package.Coherent :=
    Draft.build_invariant (P := fun d => d.package.Coherent) (fun _ _ hd => hd)
      (fun _ decl hd => Draft.coherent_adoptInit hd decl)
      (fun _ _ _ _ hd hm => Draft.coherent_made hd hm) hbuild (coherent_start id u)
  exact hdraft.insertMember (.guard rfl rfl)

theorem Coherent.step (h : p.Coherent) (hs : p.Step q) : q.Coherent := by
  cases hs with
  | stays => exact h
  | wrapper _ _ wraps =>
    rcases wraps with rfl | rfl
    · exact h.addFunction rfl
    · exact h.addFunction rfl
  | @anonymous enclosing parent signature freeVars inside =>
    exact (h.addFunction rfl).modifyFunction enclosing fun f => ⟨rfl, rfl, rfl, rfl⟩
  | blocks id blocks => exact h.modifyFunction id fun f => ⟨rfl, rfl, rfl, rfl⟩

end Package

namespace Program

theorem Reachable.coherent {p : Program} (h : p.Reachable) {pkg : Package}
    (hmem : pkg ∈ p.packages) : pkg.Coherent :=
  h.package_induction (fun _ hf => hf.coherent) (fun _ _ hp hs => hp.step hs) pkg hmem

/-- A kept wrapper is a function that no object declares. -/
theorem Reachable.wrapper_object {p : Program} (h : p.Reachable) {key : ObjectKey} {id : FunctionId}
    (hfind : p.boundWrappers.find? key = some id ∨ p.interfaceWrappers.find? key = some id) :
    ∃ f, p.function? id = some f ∧ f.object = none := by
  rcases hfind with hbound | hinterface
  · obtain ⟨name, signature, recv, f, -, hf, anonymous, blocks, rfl⟩ := h.wrapped.bound _ _ hbound
    exact ⟨_, hf, rfl⟩
  · obtain ⟨name, signature, recv, f, -, hf, anonymous, blocks, rfl⟩ :=
      h.wrapped.interface _ _ hinterface
    exact ⟨_, hf, rfl⟩

/-- Members, values and functions of every package that operations make describe the same objects.
The initializer, functions inside others and wrappers of methods stand for no object. -/
theorem objects_agree (diagnostics : Diagnostics) (operations : List Operation) :
    let p := built diagnostics operations
    (∀ pkg ∈ p.packages,
      (∀ key m, pkg.member? key = some m → m.name = key) ∧
      (∀ key t, pkg.member? key = some (.type t) → pkg.values.find? t.object = some .type) ∧
      (∀ key c, pkg.member? key = some (.const c) →
        pkg.values.find? c.object = some (.const c.value)) ∧
      (∀ key g, pkg.member? key = some (.global g) →
        (g.object = none ∧ g.name = "init$guard") ∨
          ∃ o, g.object = some o ∧ pkg.values.find? o = some (.global g.name)) ∧
      (∀ key name id, pkg.member? key = some (.function name id) →
        ∃ f, pkg.function? id = some f ∧ f.name = name ∧ f.receiver? = none ∧
          (id = pkg.initId ∨
            ∃ o, f.object = some o ∧ pkg.values.find? o = some (.function id))) ∧
      (∀ id f o, pkg.function? id = some f → f.object = some o →
        pkg.values.find? o = some (.function id) ∧
          ∀ id' f', pkg.function? id' = some f' → f'.object = some o → id' = id) ∧
      (∀ o value, pkg.values.find? o = some value →
        ∃ object, pkg.unit.object? o = some object ∧ pkg.Records o object value) ∧
      (∃ f, pkg.function? pkg.initId = some f ∧ f.object = none) ∧
      ∀ id f, pkg.function? id = some f → f.enclosing.isSome → f.object = none) ∧
    ∀ key id, (p.boundWrappers.find? key = some id ∨ p.interfaceWrappers.find? key = some id) →
      ∃ f, p.function? id = some f ∧ f.object = none := by
  intro p
  have hreach : p.Reachable := ⟨diagnostics, operations, rfl⟩
  refine ⟨fun pkg hmem => ?_, fun key id hfind => hreach.wrapper_object hfind⟩
  have h := hreach.coherent hmem
  refine ⟨fun key m hm => (h.members key m hm).1, fun key t hm => ?_, fun key c hm => ?_,
    fun key g hm => ?_, fun key name id hm => ?_, fun id f o hf ho => ?_, h.values, h.init,
    fun id f hf => (h.functions id f hf).inner⟩
  · cases (h.members _ _ hm).2 with
    | type value => exact value
  · cases (h.members _ _ hm).2 with
    | const value => exact value
  · cases (h.members _ _ hm).2 with
    | guard object named => exact .inl ⟨object, named⟩
    | global object value => exact .inr ⟨_, object, value⟩
  · cases (h.members _ _ hm).2 with
    | init found named plain => exact ⟨_, found, named, plain, .inl rfl⟩
    | function found named plain object value =>
      exact ⟨_, found, named, plain, .inr ⟨_, object, value⟩⟩
  · have hvalue := (h.functions id f hf).object o ho
    refine ⟨hvalue, fun id' f' hf' ho' => ?_⟩
    have hvalue' := (h.functions id' f' hf').object o ho'
    rw [hvalue] at hvalue'
    cases hvalue'
    rfl

end Program

end TraceDebugger
