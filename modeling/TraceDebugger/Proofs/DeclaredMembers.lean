import TraceDebugger.Proofs.WellScoped

/-!
# Members of declared names

A package that is made of files has a member for each identifier that declares something at package
level (`SourceUnit.memberIdents`), its initializer and the guard of it, and no others. Where no name
is declared twice, the member is what the object of the identifier has become
(`Program.Mirrors`).
-/

namespace TraceDebugger

/-! ## Declared identifiers -/

/-- The identifiers that a part of a declaration declares. -/
def Spec.idents : Spec → List Ident
  | .import _ => []
  | .value names _ => names
  | .type name _ => [name]

/-- The identifiers that are to be members: those of constants, variables and types, and those of
functions without receiver that are no initializers. -/
def Decl.memberIdents : Decl → List Ident
  | .gen .import _ _ => []
  | .gen _ specs _ => specs.flatMap Spec.idents
  | .func decl => if decl.recv.isNone ∧ decl.name.name ≠ "init" then [decl.name] else []

/-- Whether an object is a constant, a variable or a type. -/
def Object.isSpecified : Object → Bool
  | .const .. | .var .. | .typeName .. => true
  | .func .. | .package .. => false

namespace SourceUnit

/-- The declarations of all files. -/
def decls (u : SourceUnit) : List Decl := u.files.flatMap (·.decls)

/-- The identifiers of a unit that are to be members, blank ones left out. -/
def memberIdents (u : SourceUnit) : List Ident :=
  (u.decls.flatMap Decl.memberIdents).filter fun i => !i.isBlank

/-- The declarations of a unit agree with its objects. -/
structure Agrees (u : SourceUnit) : Prop where
  /-- An identifier carries the name of its object. -/
  named : ∀ i ∈ u.memberIdents, ∀ o object, i.object = some o → u.object? o = some object →
    object.name = i.name
  /-- A declaration of constants, variables or types declares such. -/
  specified : ∀ kind specs span, Decl.gen kind specs span ∈ u.decls → kind ≠ .import →
    ∀ spec ∈ specs, ∀ i ∈ spec.idents, i.isBlank = false → ∀ o object, i.object = some o →
      u.object? o = some object → object.isSpecified = true
  /-- A declaration of a function has a receiver just if its object is a method. -/
  receivers : ∀ decl, Decl.func decl ∈ u.decls → decl.name.isBlank = false →
    ¬ (decl.recv.isNone ∧ decl.name.name = "init") → ∀ o, decl.name.object = some o →
      (decl.recv.isSome ↔ u.IsMethod o)

variable {u : SourceUnit}

/-! ## Declared identifiers as items -/

theorem mem_items (h : u.files ≠ []) {item : Item} : item ∈ u.items ↔
    (∃ file ∈ u.files, item = .file file.name) ∨ ∃ decl ∈ u.decls, item ∈ Item.ofDecl decl := by
  rw [items_eq h, List.mem_flatMap]
  unfold decls Item.ofFile
  simp only [List.mem_cons, List.mem_flatMap]
  constructor
  · rintro ⟨file, hfile, heq | ⟨decl, hdecl, hitem⟩⟩
    · exact .inl ⟨file, hfile, heq⟩
    · exact .inr ⟨decl, ⟨file, hfile, hdecl⟩, hitem⟩
  · rintro (⟨file, hfile, heq⟩ | ⟨decl, ⟨file, hfile, hdecl⟩, hitem⟩)
    · exact ⟨file, hfile, .inl heq⟩
    · exact ⟨file, hfile, .inr ⟨decl, hdecl, hitem⟩⟩

end SourceUnit

namespace Item

variable {item : Item} {kind : DeclKind} {spec : Spec} {decl : Decl} {i : Ident} {name : String}
  {object : Option ObjectId} {source : DeclSource}

/-- An item with all that it takes to make it. -/
def Complete : Item → Prop
  | .ident _ object _ => object.isSome
  | .misplaced .. => False
  | _ => True

theorem mem_ofIdent :
    item ∈ ofIdent source i ↔ i.isBlank = false ∧ item = .ident i.name i.object source := by
  unfold ofIdent
  cases i.isBlank <;> simp

theorem exists_ident_of_mem_ofSpec (h : .ident name object source ∈ ofSpec kind spec) :
    kind ≠ .import ∧ ∃ i ∈ spec.idents, i.isBlank = false ∧ i.name = name ∧ i.object = object := by
  unfold ofSpec at h
  split at h
  · cases h
  · obtain ⟨i, hi, hmem⟩ := List.mem_flatMap.1 h
    obtain ⟨hblank, heq⟩ := mem_ofIdent.1 hmem
    cases heq
    exact ⟨by decide, i, hi, hblank, rfl, rfl⟩
  · obtain ⟨i, hi, hmem⟩ := List.mem_flatMap.1 h
    obtain ⟨hblank, heq⟩ := mem_ofIdent.1 hmem
    cases heq
    exact ⟨by decide, i, hi, hblank, rfl, rfl⟩
  · obtain ⟨hblank, heq⟩ := mem_ofIdent.1 h
    cases heq
    exact ⟨by decide, _, List.mem_singleton.2 rfl, hblank, rfl, rfl⟩
  · cases List.mem_singleton.1 h

/-- A part of a declaration that fits its keyword asks for what it declares. -/
theorem mem_ofSpec_of_mem_idents (hcomplete : ∀ item ∈ ofSpec kind spec, item.Complete)
    (hkind : kind ≠ .import) (hi : i ∈ spec.idents) (hblank : i.isBlank = false) :
    ∃ source, .ident i.name i.object source ∈ ofSpec kind spec := by
  have hfits : (∃ source, .ident i.name i.object source ∈ ofSpec kind spec) ∨
      .misplaced kind spec ∈ ofSpec kind spec := by
    unfold ofSpec
    split
    · exact absurd rfl hkind
    · exact .inl ⟨_, List.mem_flatMap.2 ⟨i, hi, mem_ofIdent.2 ⟨hblank, rfl⟩⟩⟩
    · exact .inl ⟨_, List.mem_flatMap.2 ⟨i, hi, mem_ofIdent.2 ⟨hblank, rfl⟩⟩⟩
    · rw [List.mem_singleton.1 hi] at hblank ⊢
      exact .inl ⟨_, mem_ofIdent.2 ⟨hblank, rfl⟩⟩
    · exact .inr (List.mem_singleton.2 rfl)
  rcases hfits with hfits | hmisplaced
  · exact hfits
  · cases hcomplete _ hmisplaced

theorem memberIdents_gen {specs : List Spec} {span : Span} (h : kind ≠ .import) :
    (Decl.gen kind specs span).memberIdents = specs.flatMap Spec.idents := by
  cases kind with
  | «import» => exact absurd rfl h
  | _ => rfl

theorem mem_memberIdents_func {f : FuncDecl} : i ∈ (Decl.func f).memberIdents ↔
    (f.recv = none ∧ f.name.name ≠ "init") ∧ i = f.name := by
  have heq : (Decl.func f).memberIdents =
      if f.recv.isNone ∧ f.name.name ≠ "init" then [f.name] else [] := rfl
  rw [heq, ← Option.isNone_iff_eq_none]
  split
  · rename_i hplain
    rw [List.mem_singleton]
    exact ⟨fun hi => ⟨hplain, hi⟩, fun hi => hi.2⟩
  · rename_i hplain
    exact ⟨fun hi => (nomatch hi), fun hi => absurd hi.1 hplain⟩

/-- A declaration asks for what is to be a member, and for methods. -/
theorem exists_ident_of_mem_ofDecl (h : .ident name object source ∈ ofDecl decl) :
    (∃ i ∈ decl.memberIdents, i.isBlank = false ∧ i.name = name ∧ i.object = object) ∨
      ∃ f, decl = .func f ∧ f.recv.isSome ∧ f.name.isBlank = false ∧ f.name.object = object := by
  cases decl with
  | gen kind specs span =>
    obtain ⟨spec, hspec, hmem⟩ := List.mem_flatMap.1 h
    obtain ⟨hkind, i, hi, hrest⟩ := exists_ident_of_mem_ofSpec hmem
    rw [memberIdents_gen hkind]
    exact .inl ⟨i, List.mem_flatMap.2 ⟨spec, hspec, hi⟩, hrest⟩
  | func f =>
    simp only [ofDecl] at h
    split at h
    · cases List.mem_singleton.1 h
    · rename_i hinit
      obtain ⟨hblank, heq⟩ := mem_ofIdent.1 h
      cases heq
      cases hrecv : f.recv with
      | none =>
        have hname : f.name.name ≠ "init" := fun hname => hinit ⟨by rw [hrecv]; rfl, hname⟩
        exact .inl ⟨f.name, mem_memberIdents_func.2 ⟨⟨hrecv, hname⟩, rfl⟩, hblank, rfl, rfl⟩
      | some _ => exact .inr ⟨f, rfl, by rw [hrecv]; rfl, hblank, rfl⟩

/-- A declaration whose parts fit its keyword asks for what is to be a member. -/
theorem mem_ofDecl_of_mem_memberIdents (hcomplete : ∀ item ∈ ofDecl decl, item.Complete)
    (hi : i ∈ decl.memberIdents) (hblank : i.isBlank = false) :
    ∃ source, .ident i.name i.object source ∈ ofDecl decl := by
  cases decl with
  | gen kind specs span =>
    have hkind : kind ≠ .import := by
      rintro rfl
      cases hi
    rw [memberIdents_gen hkind] at hi
    obtain ⟨spec, hspec, hi⟩ := List.mem_flatMap.1 hi
    have hspecs : ∀ item ∈ ofSpec kind spec, item.Complete := fun item hitem =>
      hcomplete item (List.mem_flatMap.2 ⟨spec, hspec, hitem⟩)
    obtain ⟨source, hmem⟩ := mem_ofSpec_of_mem_idents hspecs hkind hi hblank
    exact ⟨source, List.mem_flatMap.2 ⟨spec, hspec, hmem⟩⟩
  | func f =>
    obtain ⟨⟨-, hname⟩, rfl⟩ := mem_memberIdents_func.1 hi
    refine ⟨.func f, ?_⟩
    simp only [ofDecl]
    rw [if_neg fun hinit => hname hinit.2]
    exact mem_ofIdent.2 ⟨hblank, rfl⟩

end Item

namespace SourceUnit

variable {u : SourceUnit} {i : Ident} {o : ObjectId} {object : Object}

theorem mem_memberIdents : i ∈ u.memberIdents ↔
    i.isBlank = false ∧ ∃ decl ∈ u.decls, i ∈ decl.memberIdents := by
  unfold memberIdents
  rw [List.mem_filter, List.mem_flatMap, Bool.not_eq_true']
  exact And.comm

/-- An identifier that is to be a member is asked for. -/
theorem exists_item_of_mem_memberIdents (hfiles : u.files ≠ [])
    (hcomplete : ∀ item ∈ u.items, item.Complete) (hi : i ∈ u.memberIdents) :
    ∃ o source, i.object = some o ∧ .ident i.name (some o) source ∈ u.items := by
  obtain ⟨hblank, decl, hdecl, hi⟩ := mem_memberIdents.1 hi
  have hmem : ∀ item ∈ Item.ofDecl decl, item ∈ u.items := fun item hitem =>
    (mem_items hfiles).2 (.inr ⟨decl, hdecl, hitem⟩)
  obtain ⟨source, hitem⟩ := Item.mem_ofDecl_of_mem_memberIdents
    (fun item hitem => hcomplete item (hmem item hitem)) hi hblank
  obtain ⟨o, ho⟩ := Option.isSome_iff_exists.1 (hcomplete _ (hmem _ hitem))
  rw [ho] at hitem
  exact ⟨o, source, ho, hmem _ hitem⟩

namespace Agrees

/-- An identifier that is to be a member is not that of a method. -/
theorem isMethod_eq_false (h : u.Agrees) (hi : i ∈ u.memberIdents) (ho : i.object = some o)
    (hobject : u.object? o = some object) : object.isMethod = false := by
  obtain ⟨hblank, decl, hdecl, hi⟩ := mem_memberIdents.1 hi
  cases decl with
  | gen kind specs span =>
    have hkind : kind ≠ .import := by
      rintro rfl
      cases hi
    rw [Item.memberIdents_gen hkind] at hi
    obtain ⟨spec, hspec, hi⟩ := List.mem_flatMap.1 hi
    have hspecified := h.specified kind specs span hdecl hkind spec hspec i hi hblank o object ho
      hobject
    cases object with
    | func name pos signature => cases hspecified
    | _ => rfl
  | func f =>
    obtain ⟨⟨hrecv, hname⟩, rfl⟩ := Item.mem_memberIdents_func.1 hi
    have hiff := h.receivers f hdecl hblank (fun hinit => hname hinit.2) o ho
    cases hmethod : object.isMethod with
    | false => rfl
    | true =>
      have hsome := hiff.2 ⟨object, hobject, hmethod⟩
      rw [hrecv] at hsome
      cases hsome

/-- An object that is asked for and is no method is that of an identifier that is to be a member. -/
theorem exists_memberIdent (h : u.Agrees) (hfiles : u.files ≠ []) {item : Item}
    {source : DeclSource} (hitem : item ∈ u.items) (hmakes : item.Makes o source)
    (hobject : u.object? o = some object) (hmethod : object.isMethod = false) :
    ∃ i ∈ u.memberIdents, i.object = some o ∧ i.name = object.name := by
  cases hmakes with
  | method => exact absurd hitem (method_not_mem_items hfiles o)
  | ident =>
    rcases (mem_items hfiles).1 hitem with ⟨file, -, heq⟩ | ⟨decl, hdecl, hmem⟩
    · cases heq
    rcases Item.exists_ident_of_mem_ofDecl hmem with
      ⟨i, hi, hblank, -, ho⟩ | ⟨f, rfl, hrecv, hblank, ho⟩
    · have hmember := mem_memberIdents.2 ⟨hblank, decl, hdecl, hi⟩
      exact ⟨i, hmember, ho, (h.named i hmember o object ho hobject).symm⟩
    · -- What has a receiver is a method.
      have hinit : ¬ (f.recv.isNone ∧ f.name.name = "init") := by
        rintro ⟨hnone, -⟩
        rw [Option.isNone_iff_eq_none] at hnone
        rw [hnone] at hrecv
        cases hrecv
      obtain ⟨object', hobject', hmethod'⟩ := (h.receivers f hdecl hblank hinit o ho).1 hrecv
      rw [hobject, Option.some.injEq] at hobject'
      subst hobject'
      rw [hmethod] at hmethod'
      cases hmethod'

end Agrees

end SourceUnit

/-! ### A unit with all kinds of declarations -/

namespace SourceUnit

/-- A unit that imports a package and declares constants, one of them blank, a variable, a type with
a method, a function and an initializer. -/
def assorted : SourceUnit where
  path := "demo"
  name := "demo"
  importable := true
  error := none
  objects := [.typeName "T" none (.named "demo" "T") (.struct []) [⟨3⟩],
    .const "C" none (.basic .int) (.int 1), .var "V" none (.basic .bool),
    .func "M" none ⟨some ⟨"t", .named "demo" "T"⟩, [], [], false⟩,
    .func "f" none ⟨none, [], [], false⟩]
  scopes := [⟨{}, .ofList [("T", ⟨0⟩), ("C", ⟨1⟩), ("V", ⟨2⟩), ("f", ⟨4⟩)], []⟩]
  files := [⟨"demo.go", [.gen .import [.import "fmt"] {},
    .gen .const [.value [⟨"C", some ⟨1⟩, none⟩, ⟨"_", none, none⟩] {}] {},
    .gen .var [.value [⟨"V", some ⟨2⟩, none⟩] {}] {},
    .gen .type [.type ⟨"T", some ⟨0⟩, none⟩ {}] {},
    .func ⟨⟨"M", some ⟨3⟩, none⟩, some [⟨[], .named "demo" "T"⟩], [], none, none, {}⟩,
    .func ⟨⟨"f", some ⟨4⟩, none⟩, none, [], none, none, {}⟩,
    .func ⟨⟨"init", none, none⟩, none, [], none, none, {}⟩]⟩]

theorem agrees_assorted : assorted.Agrees where
  named i hi o object ho hobject := by
    have hidents : assorted.memberIdents = [⟨"C", some ⟨1⟩, none⟩, ⟨"V", some ⟨2⟩, none⟩,
      ⟨"T", some ⟨0⟩, none⟩, ⟨"f", some ⟨4⟩, none⟩] := rfl
    rw [hidents] at hi
    simp only [List.mem_cons, List.not_mem_nil, or_false] at hi
    rcases hi with rfl | rfl | rfl | rfl <;> cases ho <;> cases hobject <;> rfl
  specified kind specs span hdecl hkind spec hspec i hi hblank o object ho hobject := by
    simp only [decls, assorted, List.flatMap_cons, List.flatMap_nil, List.append_nil, List.mem_cons,
      List.not_mem_nil, or_false, Decl.gen.injEq, reduceCtorEq] at hdecl
    rcases hdecl with ⟨rfl, rfl, rfl⟩ | ⟨rfl, rfl, rfl⟩ | ⟨rfl, rfl, rfl⟩ | ⟨rfl, rfl, rfl⟩
    · exact absurd rfl hkind
    · rw [List.mem_singleton.1 hspec] at hi
      simp only [Spec.idents, List.mem_cons, List.not_mem_nil, or_false] at hi
      rcases hi with rfl | rfl
      · cases ho
        cases hobject
        rfl
      · exact absurd hblank (by decide)
    · rw [List.mem_singleton.1 hspec] at hi
      cases List.mem_singleton.1 hi
      cases ho
      cases hobject
      rfl
    · rw [List.mem_singleton.1 hspec] at hi
      cases List.mem_singleton.1 hi
      cases ho
      cases hobject
      rfl
  receivers decl hdecl hblank hinit o ho := by
    simp only [decls, assorted, List.flatMap_cons, List.flatMap_nil, List.append_nil, List.mem_cons,
      List.not_mem_nil, or_false, false_or, Decl.func.injEq, reduceCtorEq] at hdecl
    rcases hdecl with rfl | rfl | rfl
    · cases ho
      exact ⟨fun _ => ⟨_, rfl, rfl⟩, fun _ => rfl⟩
    · cases ho
      refine ⟨fun hrecv => (nomatch hrecv), ?_⟩
      rintro ⟨object, hobject, hmethod⟩
      cases hobject
      cases hmethod
    · exact absurd ⟨rfl, rfl⟩ hinit

end SourceUnit

/-! ## The members of the package -/

namespace Draft

variable {id : PackageId} {u : SourceUnit} {d : Draft}

/-- In an accepted unit each identifier is resolved and each part of a declaration fits. -/
theorem complete_of_build {items : List Item}
    (hb : build { package := .start id u } items = (d, none)) : ∀ item ∈ items, item.Complete := by
  refine build_induction (P := fun done _ => ∀ item ∈ done, item.Complete)
    (fun done item d d' hdone _ hm i hi => ?_) hb (fun _ h => (nomatch h))
  rcases List.mem_append.1 hi with hi | hi
  · exact hdone i hi
  rw [List.mem_singleton.1 hi]
  cases item with
  | misplaced kind spec => cases hm
  | ident name object source =>
    cases object with
    | some o => rfl
    | none => cases hm
  | _ => trivial

variable (h : Tracks (.start id u) u.items d) (hu : u.Agrees) (hfiles : u.files ≠ [])
include h hu hfiles

/-- A member that is not the initializer is what the object of an identifier has become. -/
theorem Tracks.exists_memberIdent {name : String} {m : Member}
    (hm : d.package.members.find? name = some m) :
    (name = "init" ∧ m = .function "init" ⟨id, 0⟩) ∨
      ∃ i ∈ u.memberIdents, ∃ o object, i.name = name ∧ i.object = some o ∧
        u.object? o = some object ∧ d.package.Portrays o object m := by
  rcases h.members name m hm with hinit | ⟨o, object, ho, hobject, hmethod, rfl, hportrays⟩
  · exact .inl hinit
  · obtain ⟨-, item, hitem, source, hmakes⟩ := h.asked o ho
    obtain ⟨i, hi, hio, hname⟩ := hu.exists_memberIdent hfiles hitem hmakes hobject hmethod
    exact .inr ⟨i, hi, o, object, hname, hio, hobject, hportrays⟩

/-- There is a member of the name of each identifier that is to be one. -/
theorem Tracks.find?_memberIdent (hcomplete : ∀ item ∈ u.items, item.Complete) {i : Ident}
    (hi : i ∈ u.memberIdents) : (d.package.members.find? i.name).isSome := by
  obtain ⟨o, source, ho, hitem⟩ := SourceUnit.exists_item_of_mem_memberIdents hfiles hcomplete hi
  have hmade := h.made _ hitem o source .ident
  obtain ⟨object, hobject⟩ := Option.isSome_iff_exists.1 (h.asked o hmade).1
  have hobject' : u.object? o = some object := hobject
  rw [← hu.named i hi o object ho hobject']
  exact h.offered o object hmade hobject (hu.isMethod_eq_false hi ho hobject')

end Draft

/-- A package has what is to be members of its unit: what the objects of the identifiers have
become, its initializer and the guard of it. -/
structure Program.Mirrors (q : Program) (pkg : Package) : Prop where
  /-- The member of an identifier is what its object has become. -/
  declared : ∀ i ∈ pkg.unit.memberIdents, ∃ o object m, i.object = some o ∧
    pkg.unit.object? o = some object ∧ pkg.member? i.name = some m ∧ pkg.Portrays o object m
  /-- What a function object has become is a function of its name and signature. -/
  functions : ∀ o fid, pkg.values.find? o = some (.function fid) → ∃ f name pos signature,
    q.function? fid = some f ∧ pkg.unit.object? o = some (.func name pos signature) ∧
      f.object = some o ∧ f.name = name ∧ f.signature = signature
  /-- The initializer is a member. -/
  init : pkg.member? "init" = some (.function "init" pkg.initId)
  /-- There is an initializer. -/
  initializer : ∃ f, q.function? pkg.initId = some f
  /-- The guard is a member. -/
  guard : pkg.member? "init$guard" = some (.global .initGuard)

namespace Draft

variable {id : PackageId} {u : SourceUnit} {d : Draft} {q : Program} {pkg : Package}

theorem Tracks.member?_isSome_iff (h : Tracks (.start id u) u.items d) (hu : u.Agrees)
    (hfiles : u.files ≠ []) (hcomplete : ∀ item ∈ u.items, item.Complete) (name : String) :
    (d.finish.member? name).isSome ↔
      name ∈ u.memberIdents.map (·.name) ∨ name = "init" ∨ name = "init$guard" := by
  rw [finish_member?]
  by_cases hguard : name = "init$guard"
  · simp [hguard]
  rw [if_neg hguard]
  constructor
  · intro hsome
    obtain ⟨m, hm⟩ := Option.isSome_iff_exists.1 hsome
    rcases h.exists_memberIdent hu hfiles hm with ⟨hinit, -⟩ | ⟨i, hi, o, object, rfl, -⟩
    · exact .inr (.inl hinit)
    · exact .inl (List.mem_map_of_mem hi)
  · rintro (hname | hinit | hguard')
    · obtain ⟨i, hi, rfl⟩ := List.mem_map.1 hname
      exact h.find?_memberIdent hu hfiles hcomplete hi
    · rw [hinit]
      exact h.initMember
    · exact absurd hguard' hguard

/-- Where names are declared once, the member of an identifier is what its own object has become. -/
theorem Tracks.portrays_memberIdent (h : Tracks (.start id u) u.items d) (hu : u.Agrees)
    (hfiles : u.files ≠ []) (hcomplete : ∀ item ∈ u.items, item.Complete)
    (honce : (u.memberIdents.map (·.name)).Nodup) (hinit : "init" ∉ u.memberIdents.map (·.name))
    {i : Ident} (hi : i ∈ u.memberIdents) : ∃ o object m, i.object = some o ∧
      u.object? o = some object ∧ d.package.members.find? i.name = some m ∧
        d.package.Portrays o object m := by
  obtain ⟨m, hm⟩ := Option.isSome_iff_exists.1 (h.find?_memberIdent hu hfiles hcomplete hi)
  rcases h.exists_memberIdent hu hfiles hm with
    ⟨hname, -⟩ | ⟨i', hi', o, object, hname, ho, hobject, hportrays⟩
  · have hmem : i.name ∈ u.memberIdents.map (·.name) := List.mem_map_of_mem hi
    rw [hname] at hmem
    exact absurd hmem hinit
  · -- No other identifier has the name.
    have hsame : i' = i := List.inj_on_of_nodup_map honce hi' hi hname
    subst hsame
    exact ⟨o, object, m, ho, hobject, hm, hportrays⟩

/-- Where names are declared once, the package mirrors its unit from then on. -/
theorem Tracks.mirrors (h : Tracks (.start id u) u.items d) (hu : u.Agrees)
    (hfiles : u.files ≠ []) (hcomplete : ∀ item ∈ u.items, item.Complete)
    (honce : (u.memberIdents.map (·.name)).Nodup) (hinit : "init" ∉ u.memberIdents.map (·.name))
    (hguard : "init$guard" ∉ u.memberIdents.map (·.name)) (hpkg : q.package? id = some pkg)
    (hgrows : d.finish.Grows pkg) : q.Mirrors pkg := by
  have hid : d.package.id = id := h.id
  have hunit : d.package.unit = u := h.unit
  have hmembers : ∀ name, pkg.member? name = d.finish.member? name := by
    intro name
    rw [hgrows.rest]
    rfl
  have hvalues : ∀ o, pkg.values.find? o = d.package.values.find? o := by
    intro o
    rw [hgrows.rest]
    rfl
  have hpkgUnit : pkg.unit = u := (h.laid_grown hgrows).1
  have hinitId : pkg.initId = ⟨id, 0⟩ := by
    rw [hgrows.rest]
    exact congrArg (FunctionId.mk · 0) hid
  refine ⟨fun i hi => ?_, fun o fid hfid => ?_, ?_, ?_, ?_⟩
  · rw [hpkgUnit] at hi ⊢
    have hname : i.name ∈ u.memberIdents.map (·.name) := List.mem_map_of_mem hi
    obtain ⟨o, object, m, ho, hobject, hm, hportrays⟩ :=
      h.portrays_memberIdent hu hfiles hcomplete honce hinit hi
    refine ⟨o, object, m, ho, hobject, ?_, hportrays.of_find?_eq (hvalues o)⟩
    rw [hmembers, finish_member?, if_neg, hm]
    intro heq
    rw [heq] at hname
    exact hguard hname
  · rw [hvalues] at hfid
    obtain ⟨hpackage, -, source, name, pos, signature, -, hobject, hget⟩ := h.functions o fid hfid
    obtain ⟨f, hf, anonymous, blocks, rfl⟩ := h.function?_grown hpkg hgrows hpackage hget
    refine ⟨_, name, pos, signature, hf, ?_, ?_, ?_, ?_⟩
    · rw [hpkgUnit]
      exact hobject
    · exact builtFunction_object _ _ _ _ _ _
    · exact builtFunction_name _ _ _ _ _ _
    · exact builtFunction_signature _ _ _ _ _ _
  · obtain ⟨m, hm⟩ := Option.isSome_iff_exists.1 h.initMember
    rw [hmembers, finish_member?, if_neg (by decide), hm, hinitId]
    rcases h.exists_memberIdent hu hfiles hm with ⟨-, rfl⟩ | ⟨i, hi, o, object, heq, -⟩
    · rfl
    · exact absurd (heq ▸ List.mem_map_of_mem hi) hinit
  · obtain ⟨f, hf⟩ : ∃ f, d.package.functions[0]? = some f := ⟨_, List.getElem?_eq_getElem h.init⟩
    have hhome : (⟨id, 0⟩ : FunctionId).package = id := rfl
    obtain ⟨f', hf', -⟩ := h.function?_grown hpkg hgrows hhome hf
    rw [hinitId]
    exact ⟨f', hf'⟩
  · rw [hmembers, finish_member?, if_pos rfl]

end Draft

namespace Program

/-- A package that is made of files has a member for each name that they declare, its initializer
and the guard of it, and no others, whatever operations come later. Where names are declared once,
the members are what the declared objects have become. -/
theorem create_members {p : Program} {u : SourceUnit} {id : PackageId} (hfiles : u.files ≠ [])
    (hu : u.Agrees) (hnew : p.byIdentity.find? u.path = none)
    (hcreate : (p.create u).result = .ok id) (operations : List Operation) :
    let q := (p.create u).program.run operations
    let declared := u.memberIdents.map (·.name)
    ∃ pkg, q.package? id = some pkg ∧ pkg.unit = u ∧
      (∀ name, (pkg.member? name).isSome ↔
        name ∈ declared ∨ name = "init" ∨ name = "init$guard") ∧
      (declared.Nodup → "init" ∉ declared → "init$guard" ∉ declared → q.Mirrors pkg) := by
  intro q declared
  obtain ⟨d, pkg, hb, hpkg, hgrows⟩ := exists_grown_of_create hnew hcreate operations
  have htracks := Draft.tracks_build (Draft.tracks_start id u) hb
  have hcomplete := Draft.complete_of_build hb
  refine ⟨pkg, hpkg, (htracks.laid_grown hgrows).1, fun name => ?_, fun honce hinit hguard => ?_⟩
  · rw [← htracks.member?_isSome_iff hu hfiles hcomplete name, hgrows.rest]
    rfl
  · exact htracks.mirrors hu hfiles hcomplete honce hinit hguard hpkg hgrows

theorem create_members_assorted :
    let p : Program := {}
    let u := SourceUnit.assorted
    let q := (p.create u).program.run []
    let declared := u.memberIdents.map (·.name)
    (u.files ≠ [] ∧ u.Agrees ∧ p.byIdentity.find? u.path = none ∧
      (p.create u).result = .ok ⟨0⟩ ∧ declared.Nodup ∧ "init" ∉ declared ∧
      "init$guard" ∉ declared) ∧
    ∃ pkg, q.package? ⟨0⟩ = some pkg ∧ pkg.unit = u ∧
      (∀ name, (pkg.member? name).isSome ↔
        name ∈ declared ∨ name = "init" ∨ name = "init$guard") ∧ q.Mirrors pkg := by
  intro p u q declared
  have hfiles : u.files ≠ [] := List.cons_ne_nil _ _
  have hcreate : (p.create u).result = .ok ⟨0⟩ := rfl
  have honce : declared.Nodup := by decide
  have hinit : "init" ∉ declared := by decide
  have hguard : "init$guard" ∉ declared := by decide
  obtain ⟨pkg, hpkg, hunit, hmembers, hmirrors⟩ :=
    create_members hfiles SourceUnit.agrees_assorted rfl hcreate []
  exact ⟨⟨hfiles, SourceUnit.agrees_assorted, rfl, hcreate, honce, hinit, hguard⟩, pkg, hpkg, hunit,
    hmembers, hmirrors honce hinit hguard⟩

end Program

end TraceDebugger
