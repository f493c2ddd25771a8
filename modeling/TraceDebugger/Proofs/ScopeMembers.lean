import Mathlib.Data.List.Dedup
import TraceDebugger.Proofs.Batches
import TraceDebugger.Proofs.CheckedCreation
import TraceDebugger.Proofs.MethodTable
import TraceDebugger.Proofs.Tables

/-!
# Packages without files

A unit without files is read from its package scope: the names that are bound there become members,
and the methods that the types among them list are made once each, however often they are listed,
and are no members (`Program.create_unfiled`). All functions come from elsewhere: there is no
declaration of them, and so no scope and no local variables (`Function.Loaded`).
-/

namespace TraceDebugger

/-! ## Sizes of tables -/

namespace Table

variable {α β : Type} [Ord α] [Std.LawfulEqOrd α]

/-- A table that has got some new keys is longer by as many. -/
theorem size_eq_add {t t' : Table α β} {new : List α} (hnodup : new.Nodup)
    (hnew : ∀ key ∈ new, t.find? key = none)
    (hkeys : ∀ key, (t'.find? key).isSome ↔ (t.find? key).isSome ∨ key ∈ new) :
    t'.size = t.size + new.length := by
  have hdisjoint : (t.keys ++ new).Nodup := by
    refine List.nodup_append.2 ⟨t.nodup_keys, hnodup, ?_⟩
    rintro key hold _ hkey rfl
    rw [mem_keys_iff, hnew key hkey] at hold
    cases hold
  have hperm : t'.keys.Perm (t.keys ++ new) := by
    refine (List.perm_ext_iff_of_nodup t'.nodup_keys hdisjoint).2 ?_
    intro key
    rw [List.mem_append, mem_keys_iff, mem_keys_iff]
    exact hkeys key
  have hlength := hperm.length_eq
  rw [List.length_append] at hlength
  simpa [keys, size] using hlength

end Table

/-! ## Units without files -/

namespace SourceUnit

variable {u : SourceUnit} {name : String} {o m : ObjectId}

/-- The names of the package scope, with their objects. -/
def boundNames (u : SourceUnit) : List (String × ObjectId) :=
  u.packageScope?.elim [] fun scope => scope.names.entries

/-- The methods that the types in the package scope list, as often as they do. -/
def listedMethods (u : SourceUnit) : List ObjectId :=
  u.boundNames.flatMap fun e => u.methodsOf e.2

/-- A unit without files whose package scope binds no methods, and whose types list nothing else. -/
structure Unfiled (u : SourceUnit) : Prop where
  files : u.files = []
  /-- A name is that of the object which it is bound to. -/
  named : ∀ name o object, (name, o) ∈ u.boundNames → u.object? o = some object → object.name = name
  plain : ∀ name o, (name, o) ∈ u.boundNames → ¬ u.IsMethod o
  methods : ∀ o ∈ u.listedMethods, u.IsMethod o

theorem mem_scopeItems {item : Item} : item ∈ u.scopeItems ↔
    (∃ name o, (name, o) ∈ u.boundNames ∧ item = .ident name (some o) .none) ∨
      ∃ m ∈ u.listedMethods, item = .method m := by
  unfold scopeItems listedMethods boundNames
  cases u.packageScope? with
  | none => simp
  | some scope =>
    simp only [Option.elim_some, List.mem_flatMap, List.mem_cons, List.mem_map, Prod.exists]
    constructor
    · rintro ⟨name, o, hbound, heq | ⟨m, hm, heq⟩⟩
      · exact .inl ⟨name, o, hbound, heq⟩
      · exact .inr ⟨m, ⟨name, o, hbound, hm⟩, heq.symm⟩
    · rintro (⟨name, o, hbound, heq⟩ | ⟨m, ⟨name, o, hbound, hm⟩, heq⟩)
      · exact ⟨name, o, hbound, .inl heq⟩
      · exact ⟨name, o, hbound, .inr ⟨m, hm, heq.symm⟩⟩

namespace Unfiled

variable (hu : u.Unfiled)
include hu

theorem items_eq : u.items = u.scopeItems := by
  unfold items isBinary
  rw [hu.files]
  rfl

/-- What is asked for is bound in the package scope or listed by a type, and comes without a
declaration. -/
theorem makes_cases {item : Item} {source : DeclSource} (hitem : item ∈ u.items)
    (hmakes : item.Makes o source) :
    source = .none ∧ ((∃ name, (name, o) ∈ u.boundNames) ∨ o ∈ u.listedMethods) := by
  rw [hu.items_eq, mem_scopeItems] at hitem
  rcases hitem with ⟨name, o', hbound, rfl⟩ | ⟨m, hm, rfl⟩
  · cases hmakes
    exact ⟨rfl, .inl ⟨name, hbound⟩⟩
  · cases hmakes
    exact ⟨rfl, .inr hm⟩

end Unfiled

/-! ### A method that is listed several times -/

/-- A unit whose types list the same method, one of them twice. -/
def sharing : SourceUnit where
  path := "shared"
  name := "shared"
  importable := true
  error := none
  objects := [.typeName "T" none (.named "shared" "T") (.struct []) [⟨2⟩, ⟨2⟩],
    .typeName "U" none (.named "shared" "U") (.struct []) [⟨2⟩],
    .func "M" none ⟨some ⟨"t", .named "shared" "T"⟩, [], [], false⟩,
    .func "f" none ⟨none, [], [], false⟩, .var "v" none (.basic .int)]
  scopes := [⟨{}, .ofList [("T", ⟨0⟩), ("U", ⟨1⟩), ("f", ⟨3⟩), ("v", ⟨4⟩)], []⟩]
  files := []

theorem unfiled_sharing : sharing.Unfiled := by
  have hnames : sharing.boundNames = [("T", ⟨0⟩), ("U", ⟨1⟩), ("f", ⟨3⟩), ("v", ⟨4⟩)] := rfl
  have hmethods : sharing.listedMethods = [⟨2⟩, ⟨2⟩, ⟨2⟩] := rfl
  refine ⟨rfl, ?_, ?_, ?_⟩
  · intro name o object hbound hobject
    simp only [hnames, List.mem_cons, Prod.mk.injEq, List.not_mem_nil, or_false] at hbound
    rcases hbound with ⟨rfl, rfl⟩ | ⟨rfl, rfl⟩ | ⟨rfl, rfl⟩ | ⟨rfl, rfl⟩ <;> cases hobject <;> rfl
  · rintro name o hbound ⟨object, hobject, hmethod⟩
    simp only [hnames, List.mem_cons, Prod.mk.injEq, List.not_mem_nil, or_false] at hbound
    rcases hbound with ⟨rfl, rfl⟩ | ⟨rfl, rfl⟩ | ⟨rfl, rfl⟩ | ⟨rfl, rfl⟩ <;>
      cases hobject <;> cases hmethod
  · intro o ho
    simp only [hmethods, List.mem_cons, or_self, List.not_mem_nil, or_false] at ho
    subst ho
    exact ⟨_, rfl, rfl⟩

end SourceUnit

/-! ## Functions without a declaration -/

/-- A function of which there is no declaration. -/
structure Function.Loaded (f : Function) : Prop where
  reason : f.syntheticReason? = some "loaded from gc object file"
  undeclared : f.source? = none
  scope : f.scope = none
  locals : f.locals = []
  slots : f.slots = .empty

namespace Draft

variable {id : PackageId} {u : SourceUnit} {d : Draft} {o : ObjectId}

theorem loaded_builtFunction (p : Package) (o : ObjectId) (name : String) (pos : Option Position)
    (signature : Signature) : (builtFunction p o .none name pos signature).Loaded :=
  ⟨rfl, rfl, rfl, rfl, rfl⟩

/-- The functions are the initializer and functions of objects without a declaration. -/
theorem functions_of_unfiled (hu : u.Unfiled)
    (hb : build { package := .start id u } u.items = (d, none)) :
    ∃ rest, d.package.functions = Package.initializer id :: rest ∧
      ∀ f ∈ rest, f.object.isSome ∧ f.Loaded := by
  refine build_induction (P := fun _ d => ∃ rest,
    d.package.functions = Package.initializer id :: rest ∧
      ∀ f ∈ rest, f.object.isSome ∧ f.Loaded) ?_ hb ⟨[], rfl, fun f hf => nomatch hf⟩
  rintro done item d d' ⟨rest, hfunctions, hrest⟩ hitem hm
  rcases make_cases hm with
    ⟨name, log, rfl, rfl⟩ | ⟨decl, rfl, rfl⟩ | ⟨o, source, hmakes, hmade⟩
  · exact ⟨rest, hfunctions, hrest⟩
  · -- a unit without files declares no initializer
    rw [hu.items_eq, SourceUnit.mem_scopeItems] at hitem
    rcases hitem with ⟨name, o, -, heq⟩ | ⟨m, -, heq⟩
    · cases heq
    · cases heq
  · obtain ⟨rfl, -⟩ := hu.makes_cases hitem hmakes
    rcases hmade.functions_cases with hkept | ⟨name, pos, signature, -, hadded⟩
    · exact ⟨rest, hkept.trans hfunctions, hrest⟩
    · rw [hfunctions, List.cons_append] at hadded
      refine ⟨_, hadded, fun f hf => ?_⟩
      rcases List.mem_append.1 hf with hf | hf
      · exact hrest f hf
      · rw [List.mem_singleton.1 hf, builtFunction_object]
        exact ⟨rfl, loaded_builtFunction d.package o name pos signature⟩

variable (h : Tracks (.start id u) u.items d) (hu : u.Unfiled)
include h hu

/-- The names of the package scope are the members, apart from the initializer and its guard. -/
theorem Tracks.member?_unfiled (name : String) : (d.finish.member? name).isSome ↔
    name ∈ u.boundNames.map (·.1) ∨ name = "init" ∨ name = "init$guard" := by
  rw [finish_member?]
  by_cases hguard : name = "init$guard"
  · simp [hguard]
  rw [if_neg hguard]
  constructor
  · intro hsome
    obtain ⟨m, hm⟩ := Option.isSome_iff_exists.1 hsome
    rcases h.members name m hm with ⟨hinit, -⟩ | ⟨o, object, ho, hobject, hplain, hname, -⟩
    · exact .inr (.inl hinit)
    · obtain ⟨-, item, hitem, source, hmakes⟩ := h.asked o ho
      rcases (hu.makes_cases hitem hmakes).2 with ⟨name', hbound⟩ | hlisted
      · rw [hu.named name' o object hbound hobject] at hname
        rw [← hname]
        exact .inl (List.mem_map_of_mem hbound)
      · obtain ⟨object', hobject', hmethod⟩ := hu.methods o hlisted
        rw [show u.object? o = some object from hobject, Option.some.injEq] at hobject'
        rw [← hobject', hplain] at hmethod
        cases hmethod
  · rintro (hname | hinit | hguard')
    · obtain ⟨⟨name, o⟩, hbound, rfl⟩ := List.mem_map.1 hname
      have hitem : Item.ident name (some o) .none ∈ u.items := by
        rw [hu.items_eq, SourceUnit.mem_scopeItems]
        exact .inl ⟨name, o, hbound, rfl⟩
      have hvalue := h.made _ hitem o .none .ident
      obtain ⟨object, hobject⟩ := Option.isSome_iff_exists.1 (h.asked o hvalue).1
      have hplain : object.isMethod = false := by
        by_contra hmethod
        exact hu.plain name o hbound ⟨object, hobject, by simpa using hmethod⟩
      have hmember := h.offered o object hvalue hobject hplain
      rwa [hu.named name o object hbound hobject] at hmember
    · rw [hinit]
      exact h.initMember
    · exact absurd hguard' hguard

/-- The methods of the package are those that types list. -/
theorem Tracks.exists_hasMethod_iff :
    (∃ fid recv, d.finish.HasMethod o fid recv) ↔ o ∈ u.listedMethods := by
  have hunit : d.finish.unit = u := h.unit
  constructor
  · rintro ⟨fid, recv, hvalue, hrecv⟩
    have ho : (d.package.values.find? o).isSome := Option.isSome_iff_exists.2 ⟨_, hvalue⟩
    obtain ⟨-, item, hitem, source, hmakes⟩ := h.asked o ho
    rcases (hu.makes_cases hitem hmakes).2 with ⟨name, hbound⟩ | hlisted
    · obtain ⟨object, hobject, hrecv⟩ := Option.bind_eq_some_iff.1 hrecv
      rw [hunit] at hobject
      refine absurd ⟨object, hobject, ?_⟩ (hu.plain name o hbound)
      cases object with
      | func name pos signature => exact Option.isSome_iff_exists.2 ⟨recv, hrecv⟩
      | _ => cases hrecv
    · exact hlisted
  · intro hlisted
    have hitem : Item.method o ∈ u.items := by
      rw [hu.items_eq, SourceUnit.mem_scopeItems]
      exact .inr ⟨o, hlisted, rfl⟩
    have hvalue := h.made _ hitem o .none .method
    obtain ⟨object, hobject, hmethod⟩ := hu.methods o hlisted
    cases object with
    | func name pos signature =>
      obtain ⟨fid, hfid⟩ := h.funcs o name pos signature hvalue hobject
      obtain ⟨recv, hrecv⟩ := Option.isSome_iff_exists.1 hmethod
      refine ⟨fid, recv, hfid, ?_⟩
      rw [hunit, hobject]
      exact hrecv
    | _ => cases hmethod

end Draft

/-! ## Making the package -/

namespace Program

/-- The table of methods of the program `q` is that of `p` with one more entry for each of the
objects of a package. -/
structure GainsMethods (p q : Program) (id : PackageId) (objects : List ObjectId) : Prop where
  kept : ∀ key fid, p.concreteMethods.find? key = some fid → q.concreteMethods.find? key = some fid
  new : ∀ o ∈ objects, p.concreteMethods.find? ⟨id, o⟩ = none ∧
    (q.concreteMethods.find? ⟨id, o⟩).isSome
  only : ∀ key, (q.concreteMethods.find? key).isSome →
    (p.concreteMethods.find? key).isSome ∨ (key.package = id ∧ key.object ∈ objects)
  size : q.concreteMethods.size = p.concreteMethods.size + objects.dedup.length

theorem ListsMethods.gains {p q : Program} {id : PackageId} {pkg : Package}
    {objects : List ObjectId} (hp : p.ListsMethods) (hq : q.ListsMethods)
    (hnew : p.package? id = none)
    (hpackage : ∀ id', q.package? id' = if id' = id then some pkg else p.package? id')
    (hobjects : ∀ o, (∃ fid recv, pkg.HasMethod o fid recv) ↔ o ∈ objects) :
    p.GainsMethods q id objects := by
  have hfresh : ∀ o, p.concreteMethods.find? ⟨id, o⟩ = none := by
    intro o
    by_contra hsome
    obtain ⟨fid, hfid⟩ := Option.ne_none_iff_exists'.1 hsome
    obtain ⟨pkg', recv, hpkg', -⟩ := (hp _ fid).1 hfid
    rw [hnew] at hpkg'
    cases hpkg'
  have hsome : ∀ key, (q.concreteMethods.find? key).isSome ↔
      (p.concreteMethods.find? key).isSome ∨ (key.package = id ∧ key.object ∈ objects) := by
    intro key
    simp only [Option.isSome_iff_exists, hp key, hq key, hpackage, ← hobjects]
    by_cases hkey : key.package = id
    · simp [hkey, hnew]
    · simp [hkey]
  refine ⟨fun key fid hfid => ?_, fun o ho => ⟨hfresh o, (hsome _).2 (.inr ⟨rfl, ho⟩)⟩,
    fun key h => (hsome key).1 h, ?_⟩
  · have hkey : key.package ≠ id := by
      intro hkey
      have hnone := hfresh key.object
      rw [← hkey, hfid] at hnone
      cases hnone
    rw [hq key fid, hpackage, if_neg hkey]
    exact (hp key fid).1 hfid
  · have hinj : Function.Injective (ObjectKey.mk id) := fun o o' heq => congrArg ObjectKey.object heq
    rw [← List.length_map (ObjectKey.mk id)]
    refine Table.size_eq_add (objects.nodup_dedup.map hinj) ?_ ?_
    · intro key hkey
      obtain ⟨o, -, rfl⟩ := List.mem_map.1 hkey
      exact hfresh o
    · intro key
      rw [hsome key, List.mem_map]
      refine or_congr_right ?_
      constructor
      · rintro ⟨rfl, ho⟩
        exact ⟨key.object, List.mem_dedup.2 ho, rfl⟩
      · rintro ⟨o, ho, rfl⟩
        exact ⟨rfl, List.mem_dedup.1 ho⟩

/-- A package without files has a member for each name of its package scope, its initializer and
the guard of it, and no others. The table of methods gets one entry for each method that a type
lists. Apart from the initializer, which is as in every package, the functions are those of objects
that are bound or listed, one for each, and there are no declarations of them. -/
theorem create_unfiled {p : Program} {u : SourceUnit} {id : PackageId} (hreach : p.Reachable)
    (hu : u.Unfiled) (hnew : p.byIdentity.find? u.path = none)
    (hcreate : (p.create u).result = .ok id) :
    let q := (p.create u).program
    ∃ pkg, q.package? id = some pkg ∧ pkg.unit = u ∧
      (∀ name, (pkg.member? name).isSome ↔
        name ∈ u.boundNames.map (·.1) ∨ name = "init" ∨ name = "init$guard") ∧
      p.GainsMethods q id u.listedMethods ∧
      (∀ o ∈ u.listedMethods, ∃ fid f, q.concreteMethods.find? ⟨id, o⟩ = some fid ∧
        pkg.function? fid = some f ∧ f.object = some o) ∧
      (∀ fid f, pkg.function? fid = some f →
        (fid = pkg.initId ∧ f = Package.initializer id) ∨
        (f.Loaded ∧ ∃ o, f.object = some o ∧
          (o ∈ u.boundNames.map (·.2) ∨ o ∈ u.listedMethods) ∧
          ∀ fid' f', pkg.function? fid' = some f' → f'.object = some o → fid' = fid)) := by
  intro q
  obtain ⟨d, hb, hprogram, rfl⟩ := exists_draft_of_create hnew hcreate
  have htracks := Draft.tracks_build (Draft.tracks_start p.nextPackage u) hb
  have hcoherent : d.finish.Coherent := Package.Finished.coherent ⟨_, u, d, hb, rfl⟩
  have hpackage : ∀ id', q.package? id' =
      if id' = p.nextPackage then some d.finish else p.package? id' := by
    intro id'
    change (p.create u).program.package? id' = _
    rw [hprogram, package?_addPackage]
  have hlists : q.ListsMethods := (hreach.apply (.create u)).listsMethods
  refine ⟨d.finish, by rw [hpackage, if_pos rfl], htracks.unit, htracks.member?_unfiled hu,
    hreach.listsMethods.gains hlists p.package?_nextPackage hpackage fun o =>
      htracks.exists_hasMethod_iff hu, ?_, ?_⟩
  · intro o ho
    obtain ⟨fid, recv, hmethod⟩ := (htracks.exists_hasMethod_iff hu).2 ho
    obtain ⟨-, f, hf, hobject, -⟩ := hcoherent.hasMethod_iff.1 hmethod
    have hentry : q.concreteMethods.find? ⟨p.nextPackage, o⟩ = some fid := by
      rw [hlists ⟨p.nextPackage, o⟩ fid]
      exact ⟨d.finish, recv, by rw [hpackage, if_pos rfl], hmethod⟩
    exact ⟨fid, f, hentry, hf, hobject⟩
  intro fid f hf
  obtain ⟨rest, hfunctions, hrest⟩ := Draft.functions_of_unfiled hu hb
  obtain ⟨hhome, hget⟩ := Option.ite_none_right_eq_some.1 hf
  change d.package.functions[fid.index]? = some f at hget
  rw [hfunctions] at hget
  cases hindex : fid.index with
  | zero =>
    rw [hindex, List.getElem?_cons_zero, Option.some.injEq] at hget
    refine .inl ⟨?_, hget.symm⟩
    cases fid
    exact congrArg₂ FunctionId.mk hhome hindex
  | succ i =>
    rw [hindex, List.getElem?_cons_succ] at hget
    obtain ⟨hobject, hloaded⟩ := hrest f (List.mem_of_getElem? hget)
    obtain ⟨o, ho⟩ := Option.isSome_iff_exists.1 hobject
    have hvalue := (hcoherent.functions fid f hf).object o ho
    refine .inr ⟨hloaded, o, ho, ?_, ?_⟩
    · have hsome : (d.package.values.find? o).isSome := Option.isSome_iff_exists.2 ⟨_, hvalue⟩
      obtain ⟨-, item, hitem, source, hmakes⟩ := htracks.asked o hsome
      rcases (hu.makes_cases hitem hmakes).2 with ⟨name, hbound⟩ | hlisted
      · exact .inl (List.mem_map_of_mem hbound)
      · exact .inr hlisted
    · intro fid' f' hf' ho'
      have hvalue' := (hcoherent.functions fid' f' hf').object o ho'
      rw [hvalue] at hvalue'
      cases hvalue'
      rfl

theorem create_unfiled_sharing :
    let p : Program := {}
    let u := SourceUnit.sharing
    let q := (p.create u).program
    (p.Reachable ∧ u.Unfiled ∧ p.byIdentity.find? u.path = none ∧
      (p.create u).result = .ok ⟨0⟩) ∧
    ∃ pkg, q.package? ⟨0⟩ = some pkg ∧ pkg.unit = u ∧
      (∀ name, (pkg.member? name).isSome ↔
        name ∈ u.boundNames.map (·.1) ∨ name = "init" ∨ name = "init$guard") ∧
      p.GainsMethods q ⟨0⟩ u.listedMethods ∧
      (∀ o ∈ u.listedMethods, ∃ fid f, q.concreteMethods.find? ⟨⟨0⟩, o⟩ = some fid ∧
        pkg.function? fid = some f ∧ f.object = some o) ∧
      (∀ fid f, pkg.function? fid = some f →
        (fid = pkg.initId ∧ f = Package.initializer ⟨0⟩) ∨
        (f.Loaded ∧ ∃ o, f.object = some o ∧
          (o ∈ u.boundNames.map (·.2) ∨ o ∈ u.listedMethods) ∧
          ∀ fid' f', pkg.function? fid' = some f' → f'.object = some o → fid' = fid)) := by
  intro p u q
  have hreach : p.Reachable := ⟨{}, [], rfl⟩
  have hcreate : (p.create u).result = .ok ⟨0⟩ := rfl
  exact ⟨⟨hreach, SourceUnit.unfiled_sharing, rfl, hcreate⟩,
    create_unfiled hreach SourceUnit.unfiled_sharing rfl hcreate⟩

/-- The method that both types list is there once. -/
example : (Program.create {} SourceUnit.sharing).program.concreteMethods.size = 1 := by decide

end Program

end TraceDebugger
