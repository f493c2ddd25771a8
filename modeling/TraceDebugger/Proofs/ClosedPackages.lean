import TraceDebugger.Proofs.Drafts
import TraceDebugger.Proofs.Tables

/-!
# Packages that refer to their own functions

Ids of functions stand in the members, values and functions of a package. A package is closed,
`Package.Closed`, if every id that it holds is that of one of its own functions and these know where
they belong. Each way of extending a package keeps it closed, provided that the ids put in are owned
already or become so; therefore every package that is made of a unit is closed
(`Draft.closed_of_build`).
-/

namespace TraceDebugger

/-- A function refers to the function of this id. -/
def Function.Mentions (f : Function) (id : FunctionId) : Prop :=
  f.enclosing = some id ∨ id ∈ f.anonymous

/-- A declaration and local variables change neither the package nor the functions referred to. -/
theorem Function.refers_adopt_addLocals (f : Function) (source : FuncSource)
    (vars : List LocalDecl) : ((f.adopt source).addLocals vars).package = f.package ∧
      ∀ id, ((f.adopt source).addLocals vars).Mentions id → f.Mentions id := by
  rw [Function.addLocals_eq]
  unfold Function.adopt
  split
  · exact ⟨rfl, fun id hm => hm⟩
  · exact ⟨rfl, fun id hm => hm⟩

namespace Package

/-- The ids of functions that a package holds. -/
inductive Holds (p : Package) : FunctionId → Prop where
  /-- The initializer. -/
  | init : Holds p p.initId
  /-- A member that is a function. -/
  | member {key name : String} {id : FunctionId}
      (found : p.members.find? key = some (.function name id)) : Holds p id
  /-- An object that has become a function. -/
  | value {object : ObjectId} {id : FunctionId}
      (found : p.values.find? object = some (.function id)) : Holds p id
  /-- A function around or inside a function. -/
  | mention {f : Function} {id : FunctionId} (mem : f ∈ p.functions) (mention : f.Mentions id) :
      Holds p id

/-- An id is that of a function of the package. -/
def Owns (p : Package) (id : FunctionId) : Prop := id.package = p.id ∧ id.index < p.functions.length

/-- A package refers to its own functions only, and they know where they belong. -/
structure Closed (p : Package) : Prop where
  /-- Every function carries the number of the package. -/
  home : ∀ f ∈ p.functions, f.package = p.id
  /-- Every id that is held is that of a function of the package. -/
  owns : ∀ id, p.Holds id → p.Owns id

variable {p q : Package}

theorem owns_iff {id : FunctionId} : p.Owns id ↔ ∃ f, p.function? id = some f := by
  unfold Owns function?
  by_cases h : id.package = p.id
  · rw [if_pos h]
    exact ⟨fun howns => ⟨_, List.getElem?_eq_getElem howns.2⟩,
      fun ⟨f, hf⟩ => ⟨h, (List.getElem?_eq_some_iff.1 hf).1⟩⟩
  · rw [if_neg h]
    simp [h]

theorem Owns.mono {id : FunctionId} (h : p.Owns id) (hid : q.id = p.id)
    (hlen : p.functions.length ≤ q.functions.length) : q.Owns id :=
  ⟨h.1.trans hid.symm, Nat.lt_of_lt_of_le h.2 hlen⟩

/-- A package that holds what another holds, and besides only ids that it owns, is closed too. -/
theorem Closed.extend (h : p.Closed) (hid : q.id = p.id)
    (hlen : p.functions.length ≤ q.functions.length) (hhome : ∀ f ∈ q.functions, f.package = q.id)
    (hholds : ∀ id, q.Holds id → p.Holds id ∨ q.Owns id) : q.Closed where
  home := hhome
  owns id hq := (hholds id hq).elim (fun hp => (h.owns id hp).mono hid hlen) fun howns => howns

theorem Closed.insertMember (h : p.Closed) {m : Member}
    (hm : ∀ name id, m = .function name id → p.Owns id) : (p.insertMember m).Closed := by
  refine h.extend rfl (Nat.le_refl _) h.home fun id hq => ?_
  cases hq with
  | init => exact .inl .init
  | value found => exact .inl (.value found)
  | mention mem mention => exact .inl (.mention mem mention)
  | @member key name id found =>
    change (p.members.insert m.name m).find? key = _ at found
    rw [Table.find?_insert_eq] at found
    split at found
    · exact .inr (hm name id (Option.some.inj found))
    · exact .inl (.member found)

theorem Closed.recordValue (h : p.Closed) (object : ObjectId) (value : Built)
    (hv : ∀ id, value = .function id → p.Owns id) : (p.recordValue object value).Closed := by
  refine h.extend rfl (Nat.le_refl _) h.home fun id hq => ?_
  cases hq with
  | init => exact .inl .init
  | member found => exact .inl (.member found)
  | mention mem mention => exact .inl (.mention mem mention)
  | @value object' id found =>
    change (p.values.insert object value).find? object' = _ at found
    rw [Table.find?_insert_eq] at found
    split at found
    · exact .inr (hv id (Option.some.inj found))
    · exact .inl (.value found)

theorem Closed.addFunction (h : p.Closed) {f : Function} (hhome : f.package = p.id)
    (hf : ∀ id, f.Mentions id → (p.addFunction f).Owns id) : (p.addFunction f).Closed := by
  refine h.extend rfl ?_ ?_ fun id hq => ?_
  · simp [Package.addFunction]
  · intro g hg
    rcases List.mem_append.1 hg with hg | hg
    · exact h.home g hg
    · rw [List.mem_singleton.1 hg]
      exact hhome
  cases hq with
  | init => exact .inl .init
  | member found => exact .inl (.member found)
  | value found => exact .inl (.value found)
  | @mention g id mem mention =>
    rcases List.mem_append.1 mem with hg | hg
    · exact .inl (.mention hg mention)
    · rw [List.mem_singleton.1 hg] at mention
      exact .inr (hf id mention)

/-- A function of a changed package is the change of one of the package, or was there before. -/
theorem mem_modifyFunction {id : FunctionId} {change : Function → Function} {f : Function}
    (h : f ∈ (p.modifyFunction id change).functions) :
    f ∈ p.functions ∨ ∃ g ∈ p.functions, f = change g := by
  unfold modifyFunction at h
  split at h
  · obtain ⟨i, hi⟩ := List.mem_iff_getElem?.1 h
    rw [List.getElem?_modify] at hi
    obtain ⟨g, hg, hgf⟩ := Option.map_eq_some_iff.1 hi
    have hmem : g ∈ p.functions := List.mem_of_getElem? hg
    split at hgf
    · exact .inr ⟨g, hmem, hgf.symm⟩
    · exact .inl (hgf ▸ hmem)
  · exact .inl h

theorem modifyFunction_eq (p : Package) (id : FunctionId) (change : Function → Function) :
    p.modifyFunction id change =
      { p with functions := (p.modifyFunction id change).functions } := by
  unfold modifyFunction
  split <;> rfl

theorem length_modifyFunction (p : Package) (id : FunctionId) (change : Function → Function) :
    (p.modifyFunction id change).functions.length = p.functions.length := by
  unfold modifyFunction
  split <;> simp

theorem Closed.modifyFunction (h : p.Closed) (id : FunctionId) {change : Function → Function}
    (hhome : ∀ f, (change f).package = f.package)
    (hchange : ∀ f ∈ p.functions, ∀ id, (change f).Mentions id → f.Mentions id ∨ p.Owns id) :
    (p.modifyFunction id change).Closed := by
  have hlen := Nat.le_of_eq (p.length_modifyFunction id change).symm
  have hfun : ∀ f ∈ (p.modifyFunction id change).functions,
      f.package = p.id ∧ ∀ id', f.Mentions id' → p.Owns id' := by
    intro f hf
    rcases mem_modifyFunction hf with hf | ⟨g, hg, rfl⟩
    · exact ⟨h.home f hf, fun id' hm => h.owns id' (.mention hf hm)⟩
    · refine ⟨(hhome g).trans (h.home g hg), fun id' hm => ?_⟩
      rcases hchange g hg id' hm with hm | hm
      · exact h.owns id' (.mention hg hm)
      · exact hm
  have heq := p.modifyFunction_eq id change
  have hid : (p.modifyFunction id change).id = p.id := by rw [heq]
  refine h.extend hid hlen (fun f hf => (hfun f hf).1.trans hid.symm) fun id' hq => ?_
  cases hq with
  | init =>
    refine .inl ?_
    unfold initId
    rw [hid]
    exact .init
  | member found => rw [heq] at found; exact .inl (.member found)
  | value found => rw [heq] at found; exact .inl (.value found)
  | mention mem mention => exact .inr (((hfun _ mem).2 _ mention).mono hid hlen)

theorem Closed.modifyInit (h : p.Closed) {change : Function → Function}
    (hhome : ∀ f, (change f).package = f.package)
    (hchange : ∀ f ∈ p.functions, ∀ id, (change f).Mentions id → f.Mentions id ∨ p.Owns id) :
    Closed { p with functions := p.functions.modify 0 change } := by
  rw [← modifyFunction_initId]
  exact h.modifyFunction p.initId hhome hchange

/-- Local variables, scopes and bodies of initializers hold no ids of functions. -/
theorem Closed.withInitBody (h : p.Closed) (bodies : List FuncSource) :
    Closed { p with initBodies := bodies } := by
  refine h.extend rfl (Nat.le_refl _) h.home fun id hq => .inl ?_
  cases hq with
  | init => exact .init
  | member found => exact .member found
  | value found => exact .value found
  | mention mem mention => exact .mention mem mention

theorem Closed.withScopes (h : p.Closed) (scopes : List Scope) :
    Closed { p with scopes } := by
  refine h.extend rfl (Nat.le_refl _) h.home fun id hq => .inl ?_
  cases hq with
  | init => exact .init
  | member found => exact .member found
  | value found => exact .value found
  | mention mem mention => exact .mention mem mention

theorem closed_start (id : PackageId) (u : SourceUnit) : (start id u).Closed := by
  have hfun : ∀ f ∈ (start id u).functions, f = initializer id := fun f hf =>
    List.mem_singleton.1 hf
  refine ⟨fun f hf => ?_, fun id' hq => ?_⟩
  · rw [hfun f hf]
    rfl
  cases hq with
  | init => exact ⟨rfl, Nat.zero_lt_one⟩
  | value found => cases found
  | mention mem mention =>
    rw [hfun _ mem] at mention
    rcases mention with h | h
    · cases h
    · cases h
  | @member key name id' found =>
    change ((Table.empty : Table String Member).insert "init" (.function "init" ⟨id, 0⟩)).find? key
      = _ at found
    rw [Table.find?_insert_eq] at found
    split at found
    · cases found
      exact ⟨rfl, Nat.zero_lt_one⟩
    · cases found

end Package

namespace Draft

/-- A package in the making is closed, and its methods are functions of it. -/
structure Closed (d : Draft) : Prop where
  /-- The package so far is closed. -/
  package : d.package.Closed
  /-- The methods so far are functions of the package. -/
  methods : ∀ m ∈ d.methods, d.package.Owns m.2

/-- The function of an object is made with none around it and none inside. -/
theorem not_mentions_builtFunction (p : Package) (object : ObjectId) (source : DeclSource)
    (name : String) (pos : Option Position) (signature : Signature) (id : FunctionId) :
    ¬ (builtFunction p object source name pos signature).Mentions id := by
  intro hm
  unfold builtFunction at hm
  rw [Function.addLocals_eq] at hm
  rcases hm with hm | hm
  · cases hm
  · cases hm

theorem closed_addFunction {p : Package} (h : p.Closed) (object : ObjectId) (source : DeclSource)
    (name : String) (pos : Option Position) (signature : Signature) :
    (addFunction p object source name pos signature).Closed := by
  have hhome : (builtFunction p object source name pos signature).package = p.id := by
    unfold builtFunction
    rw [Function.addLocals_eq]
    rfl
  have hadded := h.addFunction hhome fun id hm =>
    absurd hm (not_mentions_builtFunction p object source name pos signature id)
  have hvalue := hadded.recordValue object (.function p.nextFunction)
    fun id hid => by
      cases hid
      exact ⟨rfl, by simp [Package.addFunction, Package.nextFunction]⟩
  rw [addFunction_eq]
  exact hvalue.withScopes (scopesWith p object source)

theorem length_addFunction (p : Package) (object : ObjectId) (source : DeclSource) (name : String)
    (pos : Option Position) (signature : Signature) :
    (addFunction p object source name pos signature).functions.length =
      p.functions.length + 1 := by
  rw [addFunction_eq]
  exact List.length_append

theorem addFunction_id (p : Package) (object : ObjectId) (source : DeclSource) (name : String)
    (pos : Option Position) (signature : Signature) :
    (addFunction p object source name pos signature).id = p.id := by
  rw [addFunction_eq]

theorem Closed.adoptInit {d : Draft} (h : d.Closed) (decl : FuncDecl) :
    (d.adoptInit decl).Closed := by
  have hbodies := h.package.withInitBody (d.package.initBodies ++ [decl.source])
  have hinit := hbodies.modifyInit
    (fun f => (f.refers_adopt_addLocals decl.source (initLocals d.package decl)).1)
    fun f _ id hm => .inl ((f.refers_adopt_addLocals decl.source _).2 id hm)
  have heq := d.adoptInit_package decl
  refine ⟨heq ▸ hinit, fun m hm => ?_⟩
  rw [heq]
  exact (h.methods m hm).mono rfl (by simp)

/-- Making an object keeps a draft closed. -/
theorem Closed.made {d d' : Draft} {id : ObjectId} {source : DeclSource} (h : d.Closed)
    (hm : d.Made id source d') : d'.Closed := by
  cases hm with
  | known known => exact h
  | type new object =>
    have hvalue := h.package.recordValue id .type fun _ hid => nomatch hid
    exact ⟨hvalue.insertMember (fun _ _ hid => nomatch hid), h.methods⟩
  | @const name pos type value new object =>
    have hvalue := h.package.recordValue id
      (.const (constantOf source pos type value)) fun _ hid => nomatch hid
    exact ⟨hvalue.insertMember (fun _ _ hid => nomatch hid), h.methods⟩
  | @global name pos type new object =>
    have hvalue := h.package.recordValue id (.global name) fun _ hid => nomatch hid
    exact ⟨hvalue.insertMember (fun _ _ hid => nomatch hid), h.methods⟩
  | @function name pos signature new object recv =>
    have hadded := closed_addFunction h.package id source name pos signature
    have hlen := length_addFunction d.package id source name pos signature
    have hid := addFunction_id d.package id source name pos signature
    refine ⟨hadded.insertMember fun _ _ heq => ?_, fun m hm => ?_⟩
    · cases heq
      exact ⟨hid.symm, by rw [hlen]; exact Nat.lt_succ_self _⟩
    · exact (h.methods m hm).mono hid (by
        change _ ≤ (addFunction d.package id source name pos signature).functions.length
        rw [hlen]
        exact Nat.le_succ _)
  | @method name pos signature recv new object isMethod declared =>
    have hadded := closed_addFunction h.package id source name pos signature
    have hlen := length_addFunction d.package id source name pos signature
    have hid := addFunction_id d.package id source name pos signature
    refine ⟨hadded, fun m hm => ?_⟩
    rcases List.mem_append.1 hm with hm | hm
    · exact (h.methods m hm).mono hid (by rw [hlen]; exact Nat.le_succ _)
    · rw [List.mem_singleton.1 hm]
      exact ⟨hid.symm, by rw [hlen]; exact Nat.lt_succ_self _⟩

/-- What the items of a unit make is closed. -/
theorem closed_of_build {id : PackageId} {u : SourceUnit} {items : List Item} {d : Draft}
    (hb : Draft.build { package := .start id u } items = (d, none)) : d.Closed :=
  build_invariant (P := Closed) (fun _ _ h => ⟨h.package, h.methods⟩)
    (fun _ decl h => h.adoptInit decl)
    (fun _ _ _ _ h hm => h.made hm) hb ⟨Package.closed_start id u, fun _ hm => nomatch hm⟩

/-- A finished package is closed. -/
theorem Closed.finish {d : Draft} (h : d.Closed) : d.finish.Closed :=
  h.package.insertMember fun _ _ hid => nomatch hid

/-! ## Number and unit -/

/-- Making a package changes neither its number nor its unit. -/
theorem id_unit_of_build {id : PackageId} {u : SourceUnit} {items : List Item} {d : Draft}
    (hb : Draft.build { package := .start id u } items = (d, none)) :
    d.package.id = id ∧ d.package.unit = u := by
  refine build_invariant (P := fun d => d.package.id = id ∧ d.package.unit = u)
    (fun _ _ h => h) (fun d decl h => ?_) (fun d object source d' h hm => ?_) hb ⟨rfl, rfl⟩
  · rw [adoptInit_package]
    exact h
  · cases hm with
    | known known => exact h
    | type new object => exact h
    | @const name pos type value new object => exact h
    | global new object => exact h
    | function new object recv =>
      rw [addFunction_eq]
      exact h
    | method new object isMethod declared =>
      rw [addFunction_eq]
      exact h

end Draft

end TraceDebugger
