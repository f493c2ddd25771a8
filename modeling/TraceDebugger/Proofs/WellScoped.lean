import Mathlib.Data.List.Pairwise
import TraceDebugger.Program.Creation
import TraceDebugger.Proofs.CreationWays
import TraceDebugger.Proofs.Growth
import TraceDebugger.Proofs.Membership
import TraceDebugger.Proofs.Slots

/-!
# Packages of well-scoped units

A type checker leaves a unit well scoped (`SourceUnit.WellScoped`): its scopes are a tree, and the
package scope binds the names that the unit declares. In a package that is made of such a unit the
members are those names, apart from the initializer and its guard (`Program.Reflects`), and the
functions of declarations have the slots that their scopes ask for.
-/

namespace TraceDebugger

/-! ## Well-scoped units -/

/-- The name that an item declares, with its object. -/
def Item.declaration? : Item → Option (String × ObjectId)
  | .ident name (some o) _ => some (name, o)
  | _ => none

namespace SourceUnit

/-- The names that a unit declares, with their objects. Blank names and declared initializers are
not among them. -/
def declarations (u : SourceUnit) : List (String × ObjectId) := u.items.filterMap Item.declaration?

/-- An object of the unit is a function with a receiver. -/
def IsMethod (u : SourceUnit) (o : ObjectId) : Prop := ∃ object, u.object? o = some object ∧
  object.isMethod = true

/-- A unit as the type checker leaves it. -/
structure WellScoped (u : SourceUnit) : Prop where
  /-- The scopes are a tree. -/
  tree : u.IsTree
  /-- The package scope binds the names that are declared, apart from those of methods. -/
  binds : ∀ name o, u.Binds .package name o ↔ (name, o) ∈ u.declarations ∧ ¬ u.IsMethod o
  /-- A name that the package scope binds is that of its object. -/
  named : ∀ name o object, u.Binds .package name o → u.object? o = some object →
    object.name = name
  /-- The names of the initializer and of its guard are not bound. -/
  reserved : ∀ name o, u.Binds .package name o → name ≠ "init" ∧ name ≠ "init$guard"
  /-- No object is declared twice. -/
  once : (u.declarations.map (·.2)).Nodup

/-- A declaration in a unit declares the function or method `o` with the given signature and opens
the scope `r` for it. -/
structure Opens (u : SourceUnit) (decl : FuncDecl) (o : ObjectId) (signature : Signature)
    (r : SourceScopeId) : Prop where
  /-- The declaration stands in a file. -/
  declared : ∃ file ∈ u.files, Decl.func decl ∈ file.decls
  /-- It declares no initializer. -/
  notInit : ¬ (decl.recv.isNone ∧ decl.name.name = "init")
  /-- Its name is not blank. -/
  notBlank : decl.name.isBlank = false
  /-- It declares the object. -/
  ident : decl.name.object = some o
  /-- The object is a function. -/
  object : ∃ name pos, u.object? o = some (.func name pos signature)
  /-- It opens the scope. -/
  scope : decl.scope = some r
  /-- The scope is not that of the package. -/
  inner : r ≠ .package
  /-- In the function only variables are bound. -/
  vars : ∀ t name o, u.Contains r t → u.Binds t name o →
    ∃ vname pos type, u.object? o = some (.var vname pos type)
  /-- The parameters that have a name are bound in the scope. -/
  params : ∀ v ∈ signature.allParams, v.name ≠ "" → v.name ≠ "_" → ∃ o, u.Binds r v.name o
  /-- Between the scope and that of the package nothing is bound. -/
  between : ∀ t name o, u.Contains t r → t ≠ r → t ≠ .package → ¬ u.Binds t name o

variable {u : SourceUnit}

theorem Opens.not_contains_package {decl : FuncDecl} {o : ObjectId} {signature : Signature}
    {r : SourceScopeId} (h : u.Opens decl o signature r) (htree : u.IsTree) :
    ¬ u.Contains r .package := by
  intro hcontains
  exact h.inner (htree.antisymm hcontains (htree.rooted r hcontains.outer_isSome))

/-- The scope of the function binds the names of parameters. -/
theorem Opens.exists_binds {decl : FuncDecl} {o : ObjectId} {signature : Signature}
    {r : SourceScopeId} (h : u.Opens decl o signature r) {name : String}
    (hparam : name ∈ signature.allParams.map (·.name)) (hempty : name ≠ "") (hblank : name ≠ "_") :
    ∃ o, u.Binds r name o := by
  obtain ⟨v, hv, rfl⟩ := List.mem_map.1 hparam
  exact h.params v hv hempty hblank

theorem mem_declarations {name : String} {o : ObjectId} :
    (name, o) ∈ u.declarations ↔ ∃ source, .ident name (some o) source ∈ u.items := by
  unfold declarations
  rw [List.mem_filterMap]
  constructor
  · rintro ⟨item, hmem, hitem⟩
    unfold Item.declaration? at hitem
    split at hitem
    · rename_i source
      cases hitem
      exact ⟨source, hmem⟩
    · cases hitem
  · rintro ⟨source, hmem⟩
    exact ⟨_, hmem, rfl⟩

theorem items_eq (h : u.files ≠ []) : u.items = u.files.flatMap Item.ofFile := by
  unfold items isBinary
  rw [if_neg]
  simpa using h

/-- A unit with files asks for objects by identifiers only. -/
theorem method_not_mem_items (h : u.files ≠ []) (o : ObjectId) : Item.method o ∉ u.items := by
  intro hmem
  have hident : ∀ source (i : Ident), Item.method o ∉ Item.ofIdent source i := by
    intro source i hi
    unfold Item.ofIdent at hi
    split at hi
    · cases hi
    · cases List.mem_singleton.1 hi
  rw [items_eq h] at hmem
  obtain ⟨file, -, hfile⟩ := List.mem_flatMap.1 hmem
  rcases List.mem_cons.1 hfile with hfile | hfile
  · cases hfile
  obtain ⟨decl, -, hdecl⟩ := List.mem_flatMap.1 hfile
  cases decl with
  | func decl =>
    simp only [Item.ofDecl] at hdecl
    split at hdecl
    · cases List.mem_singleton.1 hdecl
    · exact hident _ _ hdecl
  | gen kind specs span =>
    obtain ⟨spec, -, hspec⟩ := List.mem_flatMap.1 hdecl
    unfold Item.ofSpec at hspec
    split at hspec
    · cases hspec
    · obtain ⟨i, -, hi⟩ := List.mem_flatMap.1 hspec
      exact hident _ _ hi
    · obtain ⟨i, -, hi⟩ := List.mem_flatMap.1 hspec
      exact hident _ _ hi
    · exact hident _ _ hspec
    · cases List.mem_singleton.1 hspec

theorem Opens.files {decl : FuncDecl} {o : ObjectId} {signature : Signature} {r : SourceScopeId}
    (h : u.Opens decl o signature r) : u.files ≠ [] := by
  obtain ⟨file, hfile, -⟩ := h.declared
  exact List.ne_nil_of_mem hfile

theorem Opens.mem_items {decl : FuncDecl} {o : ObjectId} {signature : Signature}
    {r : SourceScopeId} (h : u.Opens decl o signature r) :
    .ident decl.name.name (some o) (.func decl) ∈ u.items := by
  obtain ⟨file, hfile, hdecl⟩ := h.declared
  rw [items_eq h.files]
  refine List.mem_flatMap.2 ⟨file, hfile, List.mem_cons_of_mem _ ?_⟩
  refine List.mem_flatMap.2 ⟨_, hdecl, ?_⟩
  unfold Item.ofDecl Item.ofIdent
  dsimp only
  rw [if_neg h.notInit, h.notBlank, h.ident]
  exact List.mem_singleton.2 rfl

/-- Each object is declared in one place. -/
theorem WellScoped.item_unique (h : u.WellScoped) {name name' : String} {o : ObjectId}
    {source source' : DeclSource} (hi : .ident name (some o) source ∈ u.items)
    (hi' : .ident name' (some o) source' ∈ u.items) :
    Item.ident name (some o) source = .ident name' (some o) source' := by
  have honce := h.once
  unfold declarations at honce
  rw [List.map_filterMap] at honce
  let differ : Item → Item → Prop := fun a a' =>
    ∀ o, a.declaration?.map (·.2) = some o → ∀ o', a'.declaration?.map (·.2) = some o' → o ≠ o'
  have : Std.Symm differ := ⟨fun a b hab o ho o' ho' heq => hab o' ho' o ho heq.symm⟩
  have hpair : u.items.Pairwise differ := List.pairwise_filterMap.1 honce
  by_contra hne
  exact hpair.forall hi hi' hne o rfl o rfl rfl

/-- The declaration is the first to ask for its object. -/
theorem Opens.firstSource? {decl : FuncDecl} {o : ObjectId} {signature : Signature}
    {r : SourceScopeId} (hd : u.Opens decl o signature r) (h : u.WellScoped) :
    Item.firstSource? u.items o = some (.func decl) := by
  cases hfirst : Item.firstSource? u.items o with
  | none =>
    have hnone := List.findSome?_eq_none_iff.1 hfirst _ hd.mem_items
    rw [Item.source?_eq_some.2 .ident] at hnone
    cases hnone
  | some source =>
    obtain ⟨item, hitem, hmakes⟩ := Item.exists_makes_of_firstSource? hfirst
    cases hmakes with
    | ident =>
      have heq := h.item_unique hitem hd.mem_items
      injection heq with _ _ hsource
      rw [hsource]
    | method => exact absurd hitem (method_not_mem_items hd.files o)

/-! ### A unit with a name for two things -/

/-- The declaration of a function with a parameter. -/
def shadowingDecl : FuncDecl := ⟨⟨"f", some ⟨0⟩, none⟩, none, [], some ⟨2⟩, none, {}⟩

/-- A unit with a function that has, in a block, a variable of the name of its parameter. -/
def shadowing : SourceUnit where
  path := "demo"
  name := "demo"
  importable := true
  error := none
  objects := [.func "f" none ⟨none, [⟨"x", .basic .int⟩], [], false⟩, .var "x" none (.basic .int),
    .var "x" none (.basic .string)]
  scopes := [⟨{}, .ofList [("f", ⟨0⟩)], [⟨1⟩]⟩, ⟨{}, .empty, [⟨2⟩]⟩,
    ⟨{}, .ofList [("x", ⟨1⟩)], [⟨3⟩]⟩, ⟨{}, .ofList [("x", ⟨2⟩)], []⟩]
  files := [⟨"f.go", [.func shadowingDecl]⟩]

theorem shadowing_scope {s : SourceScopeId} (h : (shadowing.scope? s).isSome) :
    s = .package ∨ s = ⟨1⟩ ∨ s = ⟨2⟩ ∨ s = ⟨3⟩ := by
  obtain ⟨scope, hscope⟩ := Option.isSome_iff_exists.1 h
  obtain ⟨hlt, -⟩ := List.getElem?_eq_some_iff.1 hscope
  change s.index.toNat < 4 at hlt
  have hindex : s.index.toNat = 0 ∨ s.index.toNat = 1 ∨ s.index.toNat = 2 ∨ s.index.toNat = 3 := by
    omega
  cases s with
  | mk index =>
  rcases hindex with hi | hi | hi | hi
  · exact .inl (congrArg _ (UInt32.toNat_inj.1 hi))
  · exact .inr (.inl (congrArg _ (UInt32.toNat_inj.1 hi)))
  · exact .inr (.inr (.inl (congrArg _ (UInt32.toNat_inj.1 hi))))
  · exact .inr (.inr (.inr (congrArg _ (UInt32.toNat_inj.1 hi))))

theorem shadowing_binds {s : SourceScopeId} {name : String} {o : ObjectId} :
    shadowing.Binds s name o ↔ (s, name, o) ∈ [(.package, "f", ⟨0⟩), (⟨2⟩, "x", ⟨1⟩),
      ((⟨3⟩ : SourceScopeId), "x", (⟨2⟩ : ObjectId))] := by
  constructor
  · intro h
    have hsome := h.isSome
    obtain ⟨scope, hscope, hfind⟩ := h
    rw [Table.find?_eq_some_iff] at hfind
    rcases shadowing_scope hsome with rfl | rfl | rfl | rfl
    · cases hscope
      cases List.mem_singleton.1 hfind
      decide
    · cases hscope
      cases hfind
    · cases hscope
      cases List.mem_singleton.1 hfind
      decide
    · cases hscope
      cases List.mem_singleton.1 hfind
      decide
  · intro h
    simp only [List.mem_cons, List.not_mem_nil, or_false, Prod.mk.injEq] at h
    rcases h with ⟨rfl, rfl, rfl⟩ | ⟨rfl, rfl, rfl⟩ | ⟨rfl, rfl, rfl⟩
    · exact ⟨_, rfl, rfl⟩
    · exact ⟨_, rfl, rfl⟩
    · exact ⟨_, rfl, rfl⟩

theorem shadowing_encloses : shadowing.Encloses .package ⟨1⟩ ∧ shadowing.Encloses ⟨1⟩ ⟨2⟩ ∧
    shadowing.Encloses ⟨2⟩ ⟨3⟩ :=
  ⟨⟨rfl, _, rfl, by decide⟩, ⟨rfl, _, rfl, by decide⟩, ⟨rfl, _, rfl, by decide⟩⟩

theorem isTree_shadowing : shadowing.IsTree where
  rooted s hs := by
    obtain ⟨hfile, hfunction, hblock⟩ := shadowing_encloses
    rcases shadowing_scope hs with rfl | rfl | rfl | rfl
    · exact .refl hs
    · exact hfile.contains
    · exact hfile.contains.trans hfunction.contains
    · exact (hfile.contains.trans hfunction.contains).trans hblock.contains
  listedOnce := by decide
  topmost := by decide

theorem wellScoped_shadowing : shadowing.WellScoped where
  tree := isTree_shadowing
  binds name o := by
    have hdecls : shadowing.declarations = [("f", ⟨0⟩)] := rfl
    rw [hdecls, List.mem_singleton, shadowing_binds]
    constructor
    · intro h
      obtain ⟨rfl, rfl⟩ : name = "f" ∧ o = ⟨0⟩ := by simpa [SourceScopeId.package] using h
      refine ⟨rfl, ?_⟩
      rintro ⟨object, hobject, hmethod⟩
      cases hobject
      cases hmethod
    · rintro ⟨h, -⟩
      cases h
      decide
  named name o object hbinds hobject := by
    obtain ⟨rfl, rfl⟩ : name = "f" ∧ o = ⟨0⟩ := by
      simpa [shadowing_binds, SourceScopeId.package] using hbinds
    cases hobject
    rfl
  reserved name o hbinds := by
    obtain ⟨rfl, rfl⟩ : name = "f" ∧ o = ⟨0⟩ := by
      simpa [shadowing_binds, SourceScopeId.package] using hbinds
    decide
  once := by decide

theorem opens_shadowing : shadowing.Opens shadowingDecl ⟨0⟩
    ⟨none, [⟨"x", .basic .int⟩], [], false⟩ ⟨2⟩ where
  declared := ⟨_, List.mem_singleton.2 rfl, List.mem_singleton.2 rfl⟩
  notInit := by decide
  notBlank := by decide
  ident := rfl
  object := ⟨_, _, rfl⟩
  scope := rfl
  inner := by decide
  vars t name o hinside hbinds := by
    rw [shadowing_binds] at hbinds
    simp only [List.mem_cons, List.not_mem_nil, or_false, Prod.mk.injEq] at hbinds
    rcases hbinds with ⟨rfl, rfl, rfl⟩ | ⟨rfl, rfl, rfl⟩ | ⟨rfl, rfl, rfl⟩
    · have heq := isTree_shadowing.antisymm hinside (isTree_shadowing.rooted ⟨2⟩ rfl)
      exact absurd heq (by decide)
    · exact ⟨_, _, _, rfl⟩
    · exact ⟨_, _, _, rfl⟩
  params v hv _ _ := by
    cases List.mem_singleton.1 hv
    exact ⟨⟨1⟩, shadowing_binds.2 (by decide)⟩
  between t name o hinside hne htop hbinds := by
    rw [shadowing_binds] at hbinds
    simp only [List.mem_cons, List.not_mem_nil, or_false, Prod.mk.injEq] at hbinds
    rcases hbinds with ⟨rfl, rfl, rfl⟩ | ⟨rfl, rfl, rfl⟩ | ⟨rfl, rfl, rfl⟩
    · exact htop rfl
    · exact hne rfl
    · have heq := isTree_shadowing.antisymm hinside shadowing_encloses.2.2.contains
      exact absurd heq (by decide)

end SourceUnit

/-! ## The function of a declaration -/

namespace Draft

variable {id : PackageId} {u : SourceUnit} {d : Draft} {o : ObjectId}

theorem Tracks.laid (h : Tracks (.start id u) u.items d) : d.finish.Laid := by
  have hlaid := Package.laid_start id u
  refine ⟨?_, ?_⟩
  · change d.package.scopes.map _ = d.package.unit.numbering.map _
    rw [h.scopes, hlaid.scopes, h.unit]
  · change d.package.scopeNumbers = .ofList (d.package.unit.numbering.map _)
    rw [h.numbers, hlaid.numbers, h.unit]

/-- An object that was asked for is declared. -/
theorem Tracks.mem_declarations (h : Tracks (.start id u) u.items d) (hfiles : u.files ≠ [])
    (ho : (d.package.values.find? o).isSome) : ∃ name, (name, o) ∈ u.declarations := by
  obtain ⟨-, item, hitem, source, hmakes⟩ := h.asked o ho
  cases hmakes with
  | ident => exact ⟨_, SourceUnit.mem_declarations.2 ⟨source, hitem⟩⟩
  | method => exact absurd hitem (SourceUnit.method_not_mem_items hfiles o)

/-- A member that is not the initializer stands for the object that the package scope binds its name
to. -/
theorem Tracks.binds_of_member (h : Tracks (.start id u) u.items d) (hu : u.WellScoped)
    (hfiles : u.files ≠ []) {name : String} {m : Member}
    (hm : d.package.members.find? name = some m) :
    (name = "init" ∧ m = .function "init" ⟨id, 0⟩) ∨
      ∃ o, u.Binds .package name o ∧ m.name = name ∧ d.package.Offers o m := by
  rcases h.members name m hm with hinit | ⟨o, object, ho, hobject, hmethod, rfl, hportrays⟩
  · exact .inl hinit
  · obtain ⟨name, hdecl⟩ := h.mem_declarations hfiles ho
    have hnot : ¬ u.IsMethod o := by
      rintro ⟨object', hobject', hmethod'⟩
      have heq : some object = some object' := hobject.symm.trans hobject'
      cases heq
      rw [hmethod] at hmethod'
      cases hmethod'
    have hbinds := (hu.binds name o).2 ⟨hdecl, hnot⟩
    rw [← hu.named name o object hbinds hobject] at hbinds
    exact .inr ⟨o, hbinds, hportrays.name_eq, hportrays.offers⟩

/-- The package has a member for each name that the package scope binds. -/
theorem Tracks.exists_member (h : Tracks (.start id u) u.items d) (hu : u.WellScoped)
    (hfiles : u.files ≠ []) {name : String} (hbinds : u.Binds .package name o) :
    ∃ m, d.package.members.find? name = some m ∧ m.name = name ∧ d.package.Offers o m := by
  obtain ⟨hdecl, hmethod⟩ := (hu.binds name o).1 hbinds
  obtain ⟨source, hitem⟩ := SourceUnit.mem_declarations.1 hdecl
  have ho := h.made _ hitem o source .ident
  obtain ⟨object, hobject⟩ := Option.isSome_iff_exists.1 (h.asked o ho).1
  have hnot : object.isMethod = false := by
    cases hvalue : object.isMethod with
    | false => rfl
    | true => exact absurd ⟨object, hobject, hvalue⟩ hmethod
  obtain ⟨m, hm⟩ := Option.isSome_iff_exists.1 (h.offered o object ho hobject hnot)
  rw [hu.named name o object hbinds hobject] at hm
  rcases h.binds_of_member hu hfiles hm with ⟨hinit, -⟩ | ⟨o', hbinds', hname, hoffers⟩
  · exact absurd hinit (hu.reserved name o hbinds).1
  · rw [hbinds'.unique hbinds] at hoffers
    exact ⟨m, hm, hname, hoffers⟩

/-- The value of a function object is its function. -/
theorem Tracks.function_of_value (h : Tracks (.start id u) u.items d) {fid : FunctionId}
    (hfid : d.package.values.find? o = some (.function fid)) : fid.package = id ∧
      ∃ f object, d.package.functions[fid.index]? = some f ∧ f.object = some o ∧
        u.object? o = some object ∧ f.name = object.name := by
  obtain ⟨hpackage, -, source, name, pos, signature, -, hobject, hget⟩ := h.functions o fid hfid
  exact ⟨hpackage, _, _, hget, builtFunction_object _ _ _ _ _ _, hobject,
    builtFunction_name _ _ _ _ _ _⟩

end Draft

/-! ## The finished package -/

/-- The variable that guards the initializer of a package. -/
def Global.initGuard : Global := ⟨"init$guard", none, .pointer (.basic .bool), {}⟩

/-- A package of a program has its unit's scopes, and members for the names that its unit's package
scope binds. -/
structure Program.Reflects (q : Program) (pkg : Package) : Prop where
  /-- The scopes are those of the unit. -/
  laid : pkg.Laid
  /-- A name that the package scope binds is that of a member, which stands for the object. -/
  bound : ∀ name o, pkg.unit.Binds .package name o →
    ∃ m, pkg.member? name = some m ∧ m.name = name ∧ pkg.Offers o m
  /-- There are no other members but the initializer and its guard. -/
  unbound : ∀ name, (∀ o, ¬ pkg.unit.Binds .package name o) → name ≠ "init" →
    name ≠ "init$guard" → pkg.member? name = none
  /-- The initializer is a member. -/
  init : pkg.member? "init" = some (.function "init" pkg.initId)
  /-- The guard is a member. -/
  guard : pkg.member? "init$guard" = some (.global .initGuard)
  /-- There is an initializer. -/
  initializer : ∃ f, q.function? pkg.initId = some f
  /-- The value of a function object is its function. -/
  functions : ∀ o id, pkg.values.find? o = some (.function id) → ∃ f object,
    q.function? id = some f ∧ f.object = some o ∧ pkg.unit.object? o = some object ∧
      f.name = object.name

namespace Draft

variable {id : PackageId} {u : SourceUnit} {d : Draft} {q : Program} {pkg : Package} {o : ObjectId}
  {signature : Signature}

theorem finish_member? (d : Draft) (name : String) : d.finish.member? name =
    if name = "init$guard" then some (.global .initGuard) else d.package.members.find? name :=
  Table.find?_insert_eq _ _ _ _

/-- A package that is made of a unit keeps the scopes of the unit from then on. -/
theorem Tracks.laid_grown (h : Tracks (.start id u) u.items d) (hgrows : d.finish.Grows pkg) :
    pkg.unit = u ∧ pkg.Laid := by
  have hunit : d.package.unit = u := h.unit
  have hlaid := h.laid
  obtain ⟨hrest, -⟩ := hgrows
  rw [hrest]
  exact ⟨hunit, hlaid.scopes, hlaid.numbers⟩

theorem Tracks.function?_grown (h : Tracks (.start id u) u.items d)
    (hpkg : q.package? id = some pkg) (hgrows : d.finish.Grows pkg) {fid : FunctionId}
    {f : Function} (hfid : fid.package = id) (hf : d.package.functions[fid.index]? = some f) :
    ∃ f', q.function? fid = some f' ∧ f.Continues f' := by
  refine q.function?_of_grows (hfid ▸ hpkg) ?_ hgrows hf
  exact hfid.trans h.id.symm

/-- A package that is made of a well-scoped unit reflects it from then on. -/
theorem Tracks.reflects (h : Tracks (.start id u) u.items d) (hu : u.WellScoped)
    (hfiles : u.files ≠ []) (hpkg : q.package? id = some pkg) (hgrows : d.finish.Grows pkg) :
    q.Reflects pkg := by
  have hfunction : ∀ {fid : FunctionId} {f : Function}, fid.package = id →
      d.package.functions[fid.index]? = some f → ∃ f', q.function? fid = some f' ∧
        f.Continues f' := h.function?_grown hpkg hgrows
  have hinitializer : ∃ f, q.function? ⟨d.package.id, 0⟩ = some f := by
    obtain ⟨f, hf⟩ : ∃ f, d.package.functions[0]? = some f := ⟨_, List.getElem?_eq_getElem h.init⟩
    obtain ⟨f', hf', -⟩ := @hfunction ⟨d.package.id, 0⟩ f h.id hf
    exact ⟨f', hf'⟩
  have hinitMember : d.package.members.find? "init" = some (.function "init" ⟨id, 0⟩) := by
    obtain ⟨m, hm⟩ := Option.isSome_iff_exists.1 h.initMember
    rcases h.binds_of_member hu hfiles hm with ⟨-, rfl⟩ | ⟨o, hbinds, -⟩
    · exact hm
    · exact absurd rfl (hu.reserved "init" o hbinds).1
  have hid : d.package.id = id := h.id
  have hunit : d.package.unit = u := h.unit
  have hlaid : pkg.Laid := (h.laid_grown hgrows).2
  obtain ⟨hrest, -⟩ := hgrows
  generalize pkg.functions = functions at hrest
  subst hrest
  have hmember : ∀ name, Package.member? { d.finish with functions } name =
      d.finish.member? name := fun _ => rfl
  refine ⟨hlaid, ?_, ?_, ?_, ?_, ?_, ?_⟩
  · intro name o hbinds
    change d.package.unit.Binds .package name o at hbinds
    rw [hunit] at hbinds
    rw [hmember, finish_member?, if_neg (hu.reserved name o hbinds).2]
    exact h.exists_member hu hfiles hbinds
  · intro name hfree hinit hguard
    change ∀ o, ¬ d.package.unit.Binds .package name o at hfree
    rw [hunit] at hfree
    rw [hmember, finish_member?, if_neg hguard]
    cases hm : d.package.members.find? name with
    | none => rfl
    | some m =>
      rcases h.binds_of_member hu hfiles hm with ⟨hname, -⟩ | ⟨o, hbinds, -⟩
      · exact absurd hname hinit
      · exact absurd hbinds (hfree o)
  · rw [hmember, finish_member?, if_neg (by decide), hinitMember]
    change _ = some (Member.function "init" ⟨d.package.id, 0⟩)
    rw [hid]
  · rw [hmember, finish_member?]
    exact if_pos rfl
  · exact hinitializer
  · intro o fid hfid
    obtain ⟨hpackage, f, object, hf, ho, hobject, hname⟩ := h.function_of_value hfid
    obtain ⟨f', hf', anonymous, blocks, rfl⟩ := hfunction hpackage hf
    refine ⟨_, object, hf', ho, ?_, hname⟩
    change d.package.unit.object? o = some object
    rw [hunit]
    exact hobject

/-- A function object that an item asked for is a function from then on, made of the declaration of
the first such item. -/
theorem Tracks.exists_continued (h : Tracks (.start id u) u.items d) {source : DeclSource}
    {name : String} {pos : Option Position}
    (hfirst : Item.firstSource? u.items o = some source)
    (hobject : u.object? o = some (.func name pos signature))
    (hpkg : q.package? id = some pkg) (hgrows : d.finish.Grows pkg) : ∃ fid f,
      pkg.values.find? o = some (.function fid) ∧ q.function? fid = some f ∧
      (builtFunction pkg o source name pos signature).Continues f := by
  obtain ⟨item, hitem, hmakes⟩ := Item.exists_makes_of_firstSource? hfirst
  obtain ⟨fid, hfid⟩ := h.funcs o name pos signature (h.made item hitem o source hmakes) hobject
  obtain ⟨hpackage, -, source', name', pos', signature', hfirst', hobject', hget⟩ :=
    h.functions o fid hfid
  have hobject'' : u.object? o = some (.func name' pos' signature') := hobject'
  rw [hobject, Option.some.injEq] at hobject''
  cases hobject''
  rw [hfirst, Option.some.injEq] at hfirst'
  subst hfirst'
  obtain ⟨f, hf, hcontinues⟩ := h.function?_grown hpkg hgrows hpackage hget
  refine ⟨fid, f, ?_, hf, ?_⟩
  · rw [hgrows.rest]
    exact hfid
  · have hid : pkg.id = id := by
      rw [hgrows.rest]
      exact h.id
    have hnumbers : pkg.scopeNumbers = (Package.start id u).scopeNumbers := by
      rw [hgrows.rest]
      exact h.numbers
    rw [builtFunction_congr hid (h.laid_grown hgrows).1 hnumbers]
    exact hcontinues

/-- The function that is made of a declaration has the variables of the scopes in that of the
declaration. -/
theorem Tracks.exists_allotted {decl : FuncDecl} {r : SourceScopeId}
    (h : Tracks (.start id u) u.items d) (hnested : u.Nested)
    (hr : (u.scope? r).isSome → u.Contains .package r)
    (hobject : ∃ name pos, u.object? o = some (.func name pos signature))
    (hfirst : Item.firstSource? u.items o = some (.func decl)) (hscope : decl.scope = some r)
    (hpkg : q.package? id = some pkg) (hgrows : d.finish.Grows pkg) : ∃ fid f,
      pkg.values.find? o = some (.function fid) ∧ q.function? fid = some f ∧ f.object = some o ∧
      f.signature = signature ∧ f.package = id ∧ pkg.Allotted r f := by
  obtain ⟨name, pos, hobject⟩ := hobject
  obtain ⟨fid, f, hvalue, hf, anonymous, blocks, rfl⟩ :=
    h.exists_continued hfirst hobject hpkg hgrows
  obtain ⟨rfl, hlaid⟩ := h.laid_grown hgrows
  have hid : pkg.id = id := by
    rw [hgrows.rest]
    exact h.id
  have hallotted := hlaid.allotted hnested hr
    (f := functionOf pkg o (.func decl) name pos signature) rfl rfl
  refine ⟨fid, _, hvalue, hf, builtFunction_object _ _ _ _ _ _,
    builtFunction_signature _ _ _ _ _ _, ?_, ?_⟩
  · exact (builtFunction_package pkg o (.func decl) name pos signature).trans hid
  · rw [builtFunction, localsOf_func hscope]
    exact ⟨hallotted.increasing, hallotted.entries, hallotted.numbered, hallotted.placed,
      hallotted.found⟩

/-- The function of a declaration has slots for the variables of its scope. -/
theorem Tracks.exists_slotted {decl : FuncDecl} {r : SourceScopeId}
    (h : Tracks (.start id u) u.items d) (hu : u.WellScoped) (hd : u.Opens decl o signature r)
    (hpkg : q.package? id = some pkg) (hgrows : d.finish.Grows pkg) : ∃ fid f,
      pkg.values.find? o = some (.function fid) ∧ q.function? fid = some f ∧ f.object = some o ∧
      f.signature = signature ∧ f.package = id ∧ pkg.Allotted r f :=
  h.exists_allotted hu.tree.nested (hu.tree.rooted r) hd.object (hd.firstSource? hu) hd.scope hpkg
    hgrows

end Draft

/-- The package that is made of a new unit is there, grown, after any operations. -/
theorem Program.exists_grown_of_create {p : Program} {u : SourceUnit} {id : PackageId}
    (hnew : p.byIdentity.find? u.path = none) (hcreate : (p.create u).result = .ok id)
    (operations : List Operation) : ∃ d pkg,
      Draft.build { package := .start id u } u.items = (d, none) ∧
      ((p.create u).program.run operations).package? id = some pkg ∧ d.finish.Grows pkg := by
  obtain ⟨d, hb, hprogram, rfl⟩ := exists_draft_of_create hnew hcreate
  have hadded : (p.create u).program.package? p.nextPackage = some d.finish := by
    rw [hprogram, package?_addPackage, if_pos rfl]
  obtain ⟨pkg, hpkg, hgrows⟩ := run_grows operations hadded
  exact ⟨d, pkg, hb, hpkg, hgrows⟩

end TraceDebugger
