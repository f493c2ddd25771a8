import TraceDebugger.Proofs.Drafts
import TraceDebugger.Proofs.Tables

/-!
# What becomes of declared objects

While a package is made, its members and values stand for the objects that the items so far have
asked for (`Draft.Tracks`), whatever comes of these items. A finished package therefore has the
functions of its unit as they follow from the unit alone, and no member that is not an object of the
unit, the initializer or its guard.
-/

namespace TraceDebugger

/-- An item asks for an object, with the declaration that comes with it. -/
inductive Item.Makes : Item → ObjectId → DeclSource → Prop where
  | ident {name : String} {o : ObjectId} {source : DeclSource} :
    Makes (.ident name (some o) source) o source
  | method {o : ObjectId} : Makes (.method o) o .none

theorem Item.Makes.unique {item : Item} {o o' : ObjectId} {source source' : DeclSource}
    (h : item.Makes o source) (h' : item.Makes o' source') : o = o' ∧ source = source' := by
  cases h with
  | ident =>
    cases h'
    exact ⟨rfl, rfl⟩
  | method =>
    cases h'
    exact ⟨rfl, rfl⟩

/-- The declaration with which an item asks for an object. -/
def Item.source? (item : Item) (o : ObjectId) : Option DeclSource :=
  match item with
  | .ident _ (some o') source => if o' = o then some source else none
  | .method o' => if o' = o then some .none else none
  | _ => none

theorem Item.source?_eq_some {item : Item} {o : ObjectId} {source : DeclSource} :
    item.source? o = some source ↔ item.Makes o source := by
  constructor
  · intro h
    unfold source? at h
    split at h
    · split at h
      · rename_i heq
        cases heq
        cases h
        exact .ident
      · cases h
    · split at h
      · rename_i heq
        cases heq
        cases h
        exact .method
      · cases h
    · cases h
  · intro h
    cases h with
    | ident => exact if_pos rfl
    | method => exact if_pos rfl

/-- The declaration with which the first item asks for an object. -/
def Item.firstSource? (items : List Item) (o : ObjectId) : Option DeclSource :=
  items.findSome? (·.source? o)

theorem Item.exists_makes_of_firstSource? {items : List Item} {o : ObjectId} {source : DeclSource}
    (h : firstSource? items o = some source) : ∃ item ∈ items, item.Makes o source := by
  obtain ⟨item, hmem, hsource⟩ := List.exists_of_findSome?_eq_some h
  exact ⟨item, hmem, source?_eq_some.1 hsource⟩

/-- More items do not change what the first one comes with. -/
theorem Item.firstSource?_append {items : List Item} {o : ObjectId} {source : DeclSource}
    (h : firstSource? items o = some source) (rest : List Item) :
    firstSource? (items ++ rest) o = some source := by
  unfold firstSource? at h ⊢
  rw [List.findSome?_append, h]
  rfl

/-- An item is the first to ask for an object that no item before asks for. -/
theorem Item.firstSource?_append_singleton {items : List Item} {item : Item} {o : ObjectId}
    {source : DeclSource} (hnew : ∀ i ∈ items, ∀ source, ¬ i.Makes o source)
    (hitem : item.Makes o source) : firstSource? (items ++ [item]) o = some source := by
  have hnone : items.findSome? (·.source? o) = none := by
    rw [List.findSome?_eq_none_iff]
    intro i hi
    refine Option.eq_none_iff_forall_not_mem.2 fun s hs => ?_
    exact hnew i hi s (source?_eq_some.1 hs)
  unfold firstSource?
  rw [List.findSome?_append, hnone, List.findSome?_singleton]
  exact source?_eq_some.2 hitem

/-- Whether an object is a function with a receiver. -/
def Object.isMethod : Object → Bool
  | .func _ _ signature => signature.recv.isSome
  | _ => false

/-- A member stands for an object. -/
def Package.Offers (p : Package) (o : ObjectId) : Member → Prop
  | .type t => t.object = o
  | .const c => c.object = o
  | .global g => g.object = some o
  | .function _ id => p.values.find? o = some (.function id)

/-- A member is what an object becomes, wherever it is declared. -/
inductive Package.Portrays (p : Package) (o : ObjectId) : Object → Member → Prop where
  | type {name : String} {pos : Option Position} {type underlying : Ty} {methods : List ObjectId} :
    Portrays p o (.typeName name pos type underlying methods)
      (.type ⟨name, o, type, underlying, pos⟩)
  | const {name : String} {pos : Option Position} {type : Ty} {value : Constant} {span : Span} :
    Portrays p o (.const name pos type value) (.const ⟨name, o, ⟨value, type, span⟩⟩)
  | global {name : String} {pos : Option Position} {type : Ty} {span : Span} :
    Portrays p o (.var name pos type) (.global ⟨name, some o, .pointer type, span⟩)
  | function {name : String} {pos : Option Position} {signature : Signature} {id : FunctionId}
    (value : p.values.find? o = some (.function id)) :
    Portrays p o (.func name pos signature) (.function name id)

namespace Package.Portrays

variable {p q : Package} {o : ObjectId} {object : Object} {m : Member}

theorem name_eq (h : p.Portrays o object m) : m.name = object.name := by
  cases h <;> rfl

theorem offers (h : p.Portrays o object m) : p.Offers o m := by
  cases h with
  | function value => exact value
  | _ => rfl

theorem of_find?_eq (h : p.Portrays o object m) (heq : q.values.find? o = p.values.find? o) :
    q.Portrays o object m := by
  cases h with
  | type => exact .type
  | const => exact .const
  | global => exact .global
  | function value => exact .function (heq.trans value)

end Package.Portrays

namespace Draft

/-- A package in the making has done what the items `done` ask for. It began as `base`. -/
structure Tracks (base : Package) (done : List Item) (d : Draft) : Prop where
  /-- The number of the package stays the same. -/
  id : d.package.id = base.id
  /-- The unit stays the same. -/
  unit : d.package.unit = base.unit
  /-- The numbers of the scopes stay the same. -/
  numbers : d.package.scopeNumbers = base.scopeNumbers
  /-- The scopes stay the same up to what opened them. -/
  scopes : d.package.scopes.map (fun s => (s.id, s.parent)) =
    base.scopes.map fun s => (s.id, s.parent)
  /-- There is an initializer. -/
  init : 0 < d.package.functions.length
  /-- The initializer is a member. -/
  initMember : (d.package.members.find? "init").isSome
  /-- An object has a value only if the unit has it and an item asked for it. -/
  asked : ∀ o, (d.package.values.find? o).isSome → (base.unit.object? o).isSome ∧
    ∃ item ∈ done, ∃ source, item.Makes o source
  /-- An object that an item asked for has a value. -/
  made : ∀ item ∈ done, ∀ o source, item.Makes o source → (d.package.values.find? o).isSome
  /-- A member is the initializer or what an object of its name has become. -/
  members : ∀ name m, d.package.members.find? name = some m →
    (name = "init" ∧ m = .function "init" base.initId) ∨
    ∃ o object, (d.package.values.find? o).isSome ∧ base.unit.object? o = some object ∧
      object.isMethod = false ∧ object.name = name ∧ d.package.Portrays o object m
  /-- There is a member of the name of each object with a value that is no method. -/
  offered : ∀ o object, (d.package.values.find? o).isSome → base.unit.object? o = some object →
    object.isMethod = false → (d.package.members.find? object.name).isSome
  /-- A function with a value was made of the object as the unit has it, with the declaration of the
  first item that asked for it. -/
  functions : ∀ o id, d.package.values.find? o = some (.function id) →
    id.package = base.id ∧ 0 < id.index ∧ ∃ source name pos signature,
      Item.firstSource? done o = some source ∧
        base.unit.object? o = some (.func name pos signature) ∧
        d.package.functions[id.index]? = some (builtFunction base o source name pos signature)
  /-- The value of a function object is a function. -/
  funcs : ∀ o name pos signature, (d.package.values.find? o).isSome →
    base.unit.object? o = some (.func name pos signature) →
      ∃ id, d.package.values.find? o = some (.function id)

variable {base : Package} {done : List Item} {d d' : Draft}

/-- The variables of a walk follow from what never changes. -/
theorem localDecls_congr {p q : Package} (hunit : p.unit = q.unit)
    (hnumbers : p.scopeNumbers = q.scopeNumbers) : p.localDecls = q.localDecls := by
  have hdecl : p.localDecl? = q.localDecl? := by
    funext s name o
    unfold Package.localDecl?
    rw [hunit]
  funext r params
  unfold Package.localDecls
  rw [hunit, hnumbers, hdecl]

/-- The function that is made of an object follows from what never changes. -/
theorem builtFunction_congr {p q : Package} (hid : p.id = q.id) (hunit : p.unit = q.unit)
    (hnumbers : p.scopeNumbers = q.scopeNumbers) (o : ObjectId) (source : DeclSource)
    (name : String) (pos : Option Position) (signature : Signature) :
    builtFunction p o source name pos signature = builtFunction q o source name pos signature := by
  have hscope : p.scopeFor? = q.scopeFor? := by
    funext s
    unfold Package.scopeFor?
    rw [hnumbers]
  unfold builtFunction functionOf localsOf
  rw [hid, hscope, localDecls_congr hunit hnumbers]

theorem map_scopesWith (p : Package) (o : ObjectId) (source : DeclSource) :
    (scopesWith p o source).map (fun s => (s.id, s.parent)) =
      p.scopes.map fun s => (s.id, s.parent) := by
  unfold scopesWith
  split
  · refine List.ext_getElem? fun i => ?_
    rw [List.getElem?_map, List.getElem?_map, List.getElem?_modify]
    split
    · cases p.scopes[i]? <;> rfl
    · cases p.scopes[i]? <;> rfl
  · rfl

/-- A new object gets a value, and a member of its name unless it is a method. -/
structure Puts (d : Draft) (o : ObjectId) (source : DeclSource) (object : Object) (value : Built)
    (d' : Draft) : Prop where
  /-- The object is new. -/
  new : d.package.values.find? o = none
  /-- The unit has the object. -/
  found : d.package.unit.object? o = some object
  /-- The number of the package stays the same. -/
  id : d'.package.id = d.package.id
  /-- The unit stays the same. -/
  unit : d'.package.unit = d.package.unit
  /-- The numbers of the scopes stay the same. -/
  numbers : d'.package.scopeNumbers = d.package.scopeNumbers
  /-- The scopes stay the same up to what opened them. -/
  scopes : d'.package.scopes.map (fun s => (s.id, s.parent)) =
    d.package.scopes.map fun s => (s.id, s.parent)
  /-- The object gets a value. -/
  values : d'.package.values = d.package.values.insert o value
  /-- Functions are added at the end. -/
  functions : d.package.functions <+: d'.package.functions
  /-- A method is no member, and everything else is one. -/
  members : (object.isMethod = true ∧ d'.package.members = d.package.members) ∨
    (object.isMethod = false ∧ ∃ m, d'.package.Portrays o object m ∧
      d'.package.members = d.package.members.insert object.name m)
  /-- A function is the one that is made of the object. -/
  built : ∀ id, value = .function id → id = d.package.nextFunction ∧
    ∃ name pos signature, object = .func name pos signature ∧ d'.package.functions[id.index]? =
      some (builtFunction d.package o source name pos signature)
  /-- A function object becomes a function. -/
  func : ∀ name pos signature, object = .func name pos signature → ∃ id, value = .function id

/-- Making an object puts it in place, or the object was made before. -/
theorem Made.puts {o : ObjectId} {source : DeclSource} (h : d.Made o source d') :
    ((d.package.values.find? o).isSome ∧ d' = d) ∨
      ∃ object value, d.Puts o source object value d' := by
  have hnew : d.package.values.contains o = false → d.package.values.find? o = none :=
    Table.contains_eq_false_iff.1
  cases h with
  | known known => exact .inl ⟨known, rfl⟩
  | @type name pos type underlying methods new object =>
    exact .inr ⟨_, .type, hnew new, object, rfl, rfl, rfl, rfl, rfl, List.prefix_refl _,
      .inr ⟨rfl, _, .type, rfl⟩,
      fun _ h => (nomatch h), fun _ _ _ h => (nomatch h)⟩
  | @const name pos type value new object =>
    exact .inr ⟨_, _, hnew new, object, rfl, rfl, rfl, rfl, rfl, List.prefix_refl _,
      .inr ⟨rfl, _, .const, rfl⟩,
      fun _ h => (nomatch h), fun _ _ _ h => (nomatch h)⟩
  | @global name pos type new object =>
    exact .inr ⟨_, _, hnew new, object, rfl, rfl, rfl, rfl, rfl, List.prefix_refl _,
      .inr ⟨rfl, _, .global, rfl⟩,
      fun _ h => (nomatch h), fun _ _ _ h => (nomatch h)⟩
  | @function name pos signature new object isFunction =>
    rw [addFunction_eq]
    refine .inr ⟨_, .function d.package.nextFunction, hnew new, object, rfl, rfl, rfl,
      map_scopesWith _ _ _, rfl, List.prefix_append _ _, .inr ⟨?_, _, .function ?_, rfl⟩,
      fun id hid => ?_, fun _ _ _ _ => ⟨_, rfl⟩⟩
    · simp [Object.isMethod, isFunction]
    · exact d.package.values.find?_insert_self o _
    · cases hid
      exact ⟨rfl, name, pos, signature, rfl, by simp [Package.insertMember, Package.nextFunction]⟩
  | @method name pos signature recv new object isMethod declared =>
    rw [addFunction_eq]
    refine .inr ⟨_, .function d.package.nextFunction, hnew new, object, rfl, rfl, rfl,
      map_scopesWith _ _ _, rfl, List.prefix_append _ _, .inl ⟨?_, rfl⟩,
      fun id hid => ?_, fun _ _ _ _ => ⟨_, rfl⟩⟩
    · simp [Object.isMethod, isMethod]
    · cases hid
      exact ⟨rfl, name, pos, signature, rfl, by simp [Package.nextFunction]⟩

/-- What making an item does. -/
theorem make_cases {item : Item} (hm : d.make item = .ok d') :
    (∃ name log, item = .file name ∧ d' = { d with log }) ∨
    (∃ decl, item = .initializer decl ∧ d' = d.adoptInit decl) ∨
    ∃ o source, item.Makes o source ∧ d.Made o source d' := by
  cases item with
  | file name =>
    cases hm
    exact .inl ⟨name, _, rfl, rfl⟩
  | initializer decl =>
    cases hm
    exact .inr (.inl ⟨decl, rfl, rfl⟩)
  | misplaced kind spec => cases hm
  | method o => exact .inr (.inr ⟨o, .none, .method, made_of_makeObject hm⟩)
  | ident name object source =>
    cases hr : resolve d.package.unit name object with
    | error cause =>
      simp only [make, hr, bind, Except.bind] at hm
      cases hm
    | ok o =>
      simp only [make, hr, bind, Except.bind] at hm
      unfold resolve at hr
      split at hr
      · split at hr
        · cases hr
          exact .inr (.inr ⟨o, source, .ident, made_of_makeObject hm⟩)
        · cases hr
      · cases hr

/-! ## The invariant -/

theorem tracks_start (id : PackageId) (u : SourceUnit) :
    Tracks (.start id u) [] { package := .start id u } where
  id := rfl
  unit := rfl
  numbers := rfl
  scopes := rfl
  init := Nat.one_pos
  initMember := by
    change ((Table.empty : Table String Member).insert "init" _).find? "init" |>.isSome
    rw [Table.find?_insert_self]
    rfl
  asked o h := by
    change ((Table.empty : Table ObjectId Built).find? o).isSome at h
    rw [Table.find?_empty] at h
    cases h
  made item h := nomatch h
  members name m h := by
    change ((Table.empty : Table String Member).insert "init" _).find? name = some m at h
    rw [Table.find?_insert_eq, Table.find?_empty] at h
    split at h
    · rename_i hname
      cases h
      exact .inl ⟨hname, rfl⟩
    · cases h
  offered o object h := by
    change ((Table.empty : Table ObjectId Built).find? o).isSome at h
    rw [Table.find?_empty] at h
    cases h
  functions o id h := by
    change (Table.empty : Table ObjectId Built).find? o = _ at h
    rw [Table.find?_empty] at h
    cases h
  funcs o name pos signature h := by
    change ((Table.empty : Table ObjectId Built).find? o).isSome at h
    rw [Table.find?_empty] at h
    cases h

/-- What was done stays done when there is one more item that asks for nothing new. -/
theorem Tracks.skip (h : Tracks base done d) (item : Item)
    (hitem : ∀ o source, item.Makes o source → (d.package.values.find? o).isSome) :
    Tracks base (done ++ [item]) d where
  id := h.id
  unit := h.unit
  numbers := h.numbers
  scopes := h.scopes
  init := h.init
  initMember := h.initMember
  asked o ho := by
    obtain ⟨hobject, item', hmem, hmakes⟩ := h.asked o ho
    exact ⟨hobject, item', List.mem_append_left _ hmem, hmakes⟩
  made item' hmem o source hmakes := by
    rcases List.mem_append.1 hmem with hmem | hmem
    · exact h.made item' hmem o source hmakes
    · rw [List.mem_singleton.1 hmem] at hmakes
      exact hitem o source hmakes
  members := h.members
  offered := h.offered
  functions o id ho := by
    obtain ⟨hpackage, hpos, source, name, pos, signature, hfirst, rest⟩ := h.functions o id ho
    exact ⟨hpackage, hpos, source, name, pos, signature, Item.firstSource?_append hfirst _, rest⟩
  funcs := h.funcs

theorem Puts.isSome_iff {o : ObjectId} {source : DeclSource} {object : Object} {value : Built}
    (hp : d.Puts o source object value d') (o' : ObjectId) :
    (d'.package.values.find? o').isSome ↔ o' = o ∨ (d.package.values.find? o').isSome := by
  rw [hp.values, Table.find?_insert_eq]
  split
  · rename_i heq
    simp [heq]
  · rename_i hne
    simp [hne]

/-- The value of an object that was there before stays. -/
theorem Puts.find?_eq {o : ObjectId} {source : DeclSource} {object : Object} {value : Built}
    (hp : d.Puts o source object value d') {o' : ObjectId}
    (ho' : (d.package.values.find? o').isSome) :
    d'.package.values.find? o' = d.package.values.find? o' := by
  have hne : o' ≠ o := by
    rintro rfl
    rw [hp.new] at ho'
    cases ho'
  rw [hp.values, Table.find?_insert_of_ne _ _ hne]

/-- One more item that asks for a new object. -/
theorem Tracks.put (h : Tracks base done d) {item : Item} {o : ObjectId} {source : DeclSource}
    {object : Object} {value : Built} (hp : d.Puts o source object value d')
    (hitem : item.Makes o source) : Tracks base (done ++ [item]) d' where
  id := hp.id.trans h.id
  unit := hp.unit.trans h.unit
  numbers := hp.numbers.trans h.numbers
  scopes := hp.scopes.trans h.scopes
  init := Nat.lt_of_lt_of_le h.init hp.functions.length_le
  initMember := by
    rcases hp.members with ⟨-, heq⟩ | ⟨-, m, -, heq⟩
    · rw [heq]
      exact h.initMember
    · rw [heq, Table.find?_insert_eq]
      split
      · rfl
      · exact h.initMember
  asked o' ho' := by
    rcases (hp.isSome_iff o').1 ho' with rfl | ho'
    · refine ⟨?_, item, by simp, source, hitem⟩
      rw [← h.unit, hp.found]
      rfl
    · obtain ⟨hobject, item', hmem, hmakes⟩ := h.asked o' ho'
      exact ⟨hobject, item', List.mem_append_left _ hmem, hmakes⟩
  made item' hmem o' source' hmakes := by
    refine (hp.isSome_iff o').2 ?_
    rcases List.mem_append.1 hmem with hmem | hmem
    · exact .inr (h.made item' hmem o' source' hmakes)
    · rw [List.mem_singleton.1 hmem] at hmakes
      exact .inl (hmakes.unique hitem).1
  members name m hm := by
    have hold : d.package.members.find? name = some m →
        (name = "init" ∧ m = .function "init" base.initId) ∨
        ∃ o object, (d'.package.values.find? o).isSome ∧ base.unit.object? o = some object ∧
          object.isMethod = false ∧ object.name = name ∧ d'.package.Portrays o object m := by
      intro hm
      rcases h.members name m hm with
        hinit | ⟨o', object', ho', hobject, hmethod, hname, hportrays⟩
      · exact .inl hinit
      · exact .inr ⟨o', object', (hp.isSome_iff o').2 (.inr ho'), hobject, hmethod, hname,
          hportrays.of_find?_eq (hp.find?_eq ho')⟩
    rcases hp.members with ⟨-, heq⟩ | ⟨hmethod, m', hportrays, heq⟩
    · rw [heq] at hm
      exact hold hm
    · rw [heq, Table.find?_insert_eq] at hm
      split at hm
      · rename_i hkey
        cases hm
        refine .inr ⟨o, object, (hp.isSome_iff o).2 (.inl rfl), ?_, hmethod, hkey.symm, hportrays⟩
        rw [← h.unit]
        exact hp.found
      · exact hold hm
  offered o' object' ho' hobject hmethod := by
    have hold : (d.package.members.find? object'.name).isSome →
        (d'.package.members.find? object'.name).isSome := by
      intro hm
      rcases hp.members with ⟨-, heq⟩ | ⟨-, m, -, heq⟩
      · rw [heq]
        exact hm
      · rw [heq, Table.find?_insert_eq]
        split
        · rfl
        · exact hm
    rcases (hp.isSome_iff o').1 ho' with rfl | ho'
    · have hfound := hp.found
      rw [h.unit, hobject, Option.some.injEq] at hfound
      subst hfound
      rcases hp.members with ⟨hmethod', -⟩ | ⟨-, m, -, heq⟩
      · rw [hmethod] at hmethod'
        cases hmethod'
      · rw [heq, Table.find?_insert_self]
        rfl
    · exact hold (h.offered o' object' ho' hobject hmethod)
  functions o' id ho' := by
    by_cases heq : o' = o
    · subst heq
      rw [hp.values, Table.find?_insert_self, Option.some.injEq] at ho'
      obtain ⟨rfl, name, pos, signature, rfl, hget⟩ := hp.built id ho'
      have hfound := hp.found
      rw [h.unit] at hfound
      have hfirst : Item.firstSource? (done ++ [item]) o' = some source := by
        refine Item.firstSource?_append_singleton (fun i hi s hs => ?_) hitem
        have hknown := h.made i hi o' s hs
        rw [hp.new] at hknown
        cases hknown
      refine ⟨h.id, h.init, source, name, pos, signature, hfirst, hfound, ?_⟩
      rw [hget, builtFunction_congr h.id h.unit h.numbers]
    · rw [hp.values, Table.find?_insert_of_ne _ _ heq] at ho'
      obtain ⟨hpackage, hpos, source', name, pos, signature, hfirst, hobject, hget⟩ :=
        h.functions o' id ho'
      obtain ⟨added, hadded⟩ := hp.functions
      refine ⟨hpackage, hpos, source', name, pos, signature, Item.firstSource?_append hfirst _,
        hobject, ?_⟩
      rw [← hadded, List.getElem?_append_left (List.getElem?_eq_some_iff.1 hget).1]
      exact hget
  funcs o' name pos signature ho' hobject := by
    rcases (hp.isSome_iff o').1 ho' with rfl | ho'
    · have hfound := hp.found
      rw [h.unit, hobject, Option.some.injEq] at hfound
      obtain ⟨id, hid⟩ := hp.func name pos signature hfound.symm
      refine ⟨id, ?_⟩
      rw [hp.values, Table.find?_insert_self, hid]
    · obtain ⟨id, hid⟩ := h.funcs o' name pos signature ho' hobject
      exact ⟨id, (hp.find?_eq ho').trans hid⟩

/-- A declared initializer asks for nothing and changes the initializer only. -/
theorem Tracks.adoptInit (h : Tracks base done d) (decl : FuncDecl) :
    Tracks base done (d.adoptInit decl) := by
  have hpackage := adoptInit_package d decl
  have hvalues : (d.adoptInit decl).package.values = d.package.values := by rw [hpackage]
  have hmembers : (d.adoptInit decl).package.members = d.package.members := by rw [hpackage]
  refine ⟨?_, ?_, ?_, ?_, ?_, ?_, ?_, ?_, ?_, ?_, ?_, ?_⟩
  · rw [hpackage]
    exact h.id
  · rw [hpackage]
    exact h.unit
  · rw [hpackage]
    exact h.numbers
  · rw [hpackage]
    exact h.scopes
  · rw [hpackage]
    dsimp only
    rw [List.length_modify]
    exact h.init
  · rw [hmembers]
    exact h.initMember
  · rw [hvalues]
    exact h.asked
  · rw [hvalues]
    exact h.made
  · rw [hmembers, hvalues]
    intro name m hm
    rcases h.members name m hm with
      hinit | ⟨o, object, ho, hobject, hmethod, hname, hportrays⟩
    · exact .inl hinit
    · refine .inr ⟨o, object, ho, hobject, hmethod, hname, hportrays.of_find?_eq ?_⟩
      rw [hvalues]
  · rw [hvalues, hmembers]
    exact h.offered
  · rw [hvalues, hpackage]
    intro o id ho
    obtain ⟨hid, hpos, source, name, pos, signature, hfirst, hobject, hget⟩ := h.functions o id ho
    refine ⟨hid, hpos, source, name, pos, signature, hfirst, hobject, ?_⟩
    dsimp only
    rw [List.getElem?_modify_ne _ _ (Nat.ne_of_lt hpos)]
    exact hget
  · rw [hvalues]
    exact h.funcs

/-- What a package in the making has done after all items. -/
theorem tracks_build {base : Package} {d : Draft} {items : List Item}
    (hstart : Tracks base [] { package := base })
    (hb : build { package := base } items = (d, none)) :
    Tracks base items d := by
  refine build_induction (P := Tracks base) (fun done item d d' h _ hm => ?_) hb hstart
  rcases make_cases hm with
    ⟨name, log, rfl, rfl⟩ | ⟨decl, rfl, rfl⟩ | ⟨o, source, hitem, hmade⟩
  · have hskip := h.skip (.file name) fun o source hmakes => nomatch hmakes
    exact ⟨hskip.id, hskip.unit, hskip.numbers, hskip.scopes, hskip.init, hskip.initMember,
      hskip.asked, hskip.made, hskip.members, hskip.offered, hskip.functions, hskip.funcs⟩
  · exact (h.adoptInit decl).skip (.initializer decl) fun o source hmakes => nomatch hmakes
  · rcases hmade.puts with ⟨hknown, rfl⟩ | ⟨object, value, hp⟩
    · refine h.skip item fun o' source' hmakes => ?_
      rw [(hmakes.unique hitem).1]
      exact hknown
    · exact h.put hp hitem

end Draft

end TraceDebugger
