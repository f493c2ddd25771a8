import TraceDebugger.Proofs.Consistency
import TraceDebugger.Proofs.CreationWays
import TraceDebugger.Proofs.DeclaredMembers
import TraceDebugger.Proofs.Preorder

/-!
# Packages pass their own check

The check of a finished package finds nothing wrong if the unit is as the type checker leaves it
(`Program.create_consistent`). A function stays consistent when it gets a variable under a new key
(`Function.Consistent.addLocal`). The variables of one walk have different keys, and so have those
of walks that have no scope in common, which is why declared initializers can share the package
initializer.
-/

namespace TraceDebugger

/-! ## Giving slots to variables -/

namespace Function

variable {p : Program} {pkg pkg' : Package} {f : Function}

/-- A consistent function gets a variable under a new key. -/
theorem Consistent.addLocal (h : f.Consistent p pkg) {v : LocalDecl}
    (hnew : f.slots.find? v.key = none) (hscope : (pkg.scope? v.scope).isSome) :
    (f.addLocal v).Consistent p pkg := by
  have hslots : (f.addLocal v).slots = f.slots.insert v.key f.locals.length := rfl
  have hlocals : (f.addLocal v).locals = f.locals ++ [v.withSlot f.locals.length] := rfl
  refine ⟨h.params, fun i l hl => ?_, ?_, h.scope, h.enclosing, h.blocks⟩
  · have hslot : (f.addLocal v).slot? l.name l.scope =
        if l.key = v.key then some f.locals.length else f.slots.find? l.key := by
      rw [← Table.find?_insert_eq, ← hslots]
      rfl
    rw [hlocals] at hl
    rw [hslot]
    by_cases hi : i < f.locals.length
    · rw [List.getElem?_append_left hi] at hl
      obtain ⟨hplace, hfound, hexists⟩ := h.locals i l hl
      have hne : l.key ≠ v.key := by
        intro heq
        rw [← heq] at hnew
        cases hfound.symm.trans hnew
      rw [if_neg hne]
      exact ⟨hplace, hfound, hexists⟩
    · rw [List.getElem?_append_right (by omega)] at hl
      obtain ⟨hone, rfl⟩ := List.getElem?_eq_some_iff.1 hl
      rw [List.length_singleton] at hone
      have hlast : i = f.locals.length := by omega
      subst hlast
      rw [List.getElem_singleton]
      exact ⟨rfl, if_pos rfl, hscope⟩
  · rw [hslots, hlocals, Table.size_insert hnew, h.size, List.length_append]
    rfl

/-- A consistent function gets variables under new keys, no two of which are the same. -/
theorem Consistent.addLocals (h : f.Consistent p pkg) {vars : List LocalDecl}
    (hkeys : (vars.map LocalDecl.key).Nodup) (hnew : ∀ v ∈ vars, f.slots.find? v.key = none)
    (hscopes : ∀ v ∈ vars, (pkg.scope? v.scope).isSome) : (f.addLocals vars).Consistent p pkg := by
  induction vars generalizing f with
  | nil => exact h
  | cons v rest ih =>
    obtain ⟨hv, hrest⟩ := List.nodup_cons.1 hkeys
    have hfirst := h.addLocal (hnew v List.mem_cons_self) (hscopes v List.mem_cons_self)
    refine ih hfirst hrest (fun w hw => ?_) fun w hw => hscopes w (List.mem_cons_of_mem v hw)
    have hne : w.key ≠ v.key := fun heq => hv (heq ▸ List.mem_map_of_mem hw)
    have hkeep := Table.find?_insert_of_ne f.slots f.locals.length hne
    exact hkeep.trans (hnew w (List.mem_cons_of_mem v hw))

/-- The keys of the table are those of earlier variables and of the new ones. -/
theorem find?_slots_addLocals {vars : List LocalDecl} {key : LocalKey} {i : Nat}
    (h : (f.addLocals vars).slots.find? key = some i) :
    f.slots.find? key = some i ∨ ∃ v ∈ vars, v.key = key := by
  rw [slots_addLocals] at h
  rcases Table.find?_foldl_insert_cases h with ⟨⟨v, k⟩, hmem, hkey, -⟩ | hold
  · exact .inr ⟨v, (List.mem_zipIdx hmem).2.2 ▸ List.getElem_mem _, hkey⟩
  · exact .inl hold

theorem slots_adopt (f : Function) (source : FuncSource) : (f.adopt source).slots = f.slots := by
  unfold Function.adopt
  split <;> rfl

theorem Consistent.adopt (h : f.Consistent p pkg) (source : FuncSource) :
    (f.adopt source).Consistent p pkg := by
  unfold Function.adopt
  split
  · exact ⟨h.params, h.locals, h.size, h.scope, h.enclosing, h.blocks⟩
  · exact h

/-- A function stays consistent where there is no less to refer to. -/
theorem Consistent.mono (h : f.Consistent p pkg)
    (hscopes : ∀ n, (pkg.scope? n).isSome → (pkg'.scope? n).isSome)
    (hfunctions : ∀ id, (pkg.function? id).isSome → (pkg'.function? id).isSome) :
    f.Consistent p pkg' := by
  refine ⟨h.params, fun i l hl => ?_, h.size, fun n hn => hscopes n (h.scope n hn),
    fun id hid => ?_, h.blocks⟩
  · obtain ⟨hplace, hfound, hexists⟩ := h.locals i l hl
    exact ⟨hplace, hfound, hscopes _ hexists⟩
  · exact (h.enclosing id hid).imp_right (hfunctions id)

end Function

/-! ## The scopes of a package -/

theorem SourceUnit.numbering_of_nil {u : SourceUnit} (h : u.scopes = []) :
    u.numbering = [(.package, ⟨.package, none, .package, {}⟩)] := by
  unfold numbering
  rw [h]
  rfl

namespace Package.Laid

variable {p : Package} {s r : SourceScopeId} {n : ScopeId} {params : List String}

theorem length_scopes_eq (h : p.Laid) : p.scopes.length = p.unit.numbering.length := by
  simpa using congrArg List.length h.scopes

/-- The numbers are those of the scopes that there are. -/
theorem isSome_scope? (h : p.Laid) (hn : p.scopeFor? s = some n) : (p.scope? n).isSome := by
  obtain ⟨e, he, rfl⟩ : ∃ e ∈ p.unit.numbering, e.2.id = n := by
    unfold scopeFor? at hn
    rw [h.numbers] at hn
    rcases Table.find?_foldl_insert_cases hn with ⟨e, he, -, rfl⟩ | hempty
    · obtain ⟨e', he', rfl⟩ := List.mem_map.1 he
      exact ⟨e', he', rfl⟩
    · cases hempty
  unfold scope?
  rw [isSome_getElem?, h.length_scopes_eq]
  cases hscopes : p.unit.scopes with
  | nil =>
    rw [SourceUnit.numbering_of_nil hscopes] at he ⊢
    cases List.mem_singleton.1 he
    exact Nat.one_pos
  | cons scope rest =>
    have htop : p.unit.scope? .package = some scope := by
      change p.unit.scopes[0]? = _
      rw [hscopes]
      rfl
    have hplace := SourceUnit.getElem?_numbering (by rw [htop]; rfl) he
    exact (List.getElem?_eq_some_iff.1 hplace).1

/-- There is a package scope in any case. -/
theorem isSome_package (h : p.Laid) : (p.scope? .package).isSome := by
  unfold scope?
  rw [isSome_getElem?, h.length_scopes_eq]
  cases hscopes : p.unit.scopes with
  | nil =>
    rw [SourceUnit.numbering_of_nil hscopes]
    exact Nat.one_pos
  | cons scope rest =>
    have htop : p.unit.scope? .package = some scope := by
      change p.unit.scopes[0]? = _
      rw [hscopes]
      rfl
    unfold SourceUnit.numbering
    rw [hscopes, List.isEmpty_cons, if_neg Bool.false_ne_true, List.length_cons,
      SourceUnit.numberFrom_succ _ _ _ htop]
    exact Nat.succ_pos _

/-- A walk goes through scopes that the package scope contains, or it goes nowhere. -/
theorem reached_or_localDecls_eq_nil (h : p.Laid) (hnested : p.unit.Nested) (r : SourceScopeId)
    (params : List String) :
    ((p.unit.scope? r).isSome → p.unit.Contains .package r) ∨ p.localDecls r params = [] := by
  by_cases hsome : (p.unit.scope? r).isSome
  · cases hn : p.scopeFor? r with
    | some n =>
      rw [h.scopeFor?_iff_getElem? hnested hsome] at hn
      exact .inl fun _ => hnested.mem_walk.1 (List.mem_of_getElem? hn)
    | none =>
      have hsubtree : ∀ fuel, p.unit.subtreeFrom p.scopeNumbers fuel r = [] := by
        intro fuel
        have hfind : p.scopeNumbers.find? r = none := hn
        cases fuel with
        | zero => rfl
        | succ fuel =>
          unfold SourceUnit.subtreeFrom
          rw [hfind]
          split
          · cases ‹none = some _›
          · rfl
      right
      unfold localDecls SourceUnit.subtree
      rw [hsubtree]
      rfl
  · exact .inl fun hsome' => absurd hsome' hsome

/-- No two variables of one walk have the same key. -/
theorem nodup_keys (h : p.Laid) (hnested : p.unit.Nested) (r : SourceScopeId)
    (params : List String) : ((p.localDecls r params).map LocalDecl.key).Nodup := by
  rcases h.reached_or_localDecls_eq_nil hnested r params with hr | hnil
  · exact h.nodup_keys_localDecls hnested hr params
  · rw [hnil]
    exact List.nodup_nil

/-- A variable belongs to the number of a scope below the root of its walk. -/
theorem exists_scope_of_mem (h : p.Laid) (hnested : p.unit.Nested) {d : LocalDecl}
    (hd : d ∈ p.localDecls r params) :
    ∃ t, p.unit.Contains r t ∧ p.scopeFor? t = some d.scope := by
  rcases h.reached_or_localDecls_eq_nil hnested r params with hr | hnil
  · obtain ⟨t, -, hcontains, hn, -⟩ := (h.mem_localDecls hnested hr).1 hd
    exact ⟨t, hcontains, hn⟩
  · rw [hnil] at hd
    cases hd

end Package.Laid

/-! ## Declared initializers -/

/-- The declaration of an initializer: of a function called `init` without a receiver. -/
def Decl.init? : Decl → Option FuncDecl
  | .func decl => if decl.recv.isNone ∧ decl.name.name = "init" then some decl else none
  | .gen .. => none

/-- The declaration of an initializer, of an item that is one. -/
def Item.init? : Item → Option FuncDecl
  | .initializer decl => some decl
  | _ => none

theorem Item.filterMap_ofDecl (decl : Decl) :
    (ofDecl decl).filterMap init? = decl.init?.toList := by
  have hident : ∀ source i, (ofIdent source i).filterMap init? = [] := by
    intro source i
    unfold ofIdent
    split <;> rfl
  cases decl with
  | gen kind specs span =>
    have hspec : ∀ spec, (ofSpec kind spec).filterMap init? = [] := by
      intro spec
      unfold ofSpec
      split <;> simp [List.filterMap_flatMap, hident, init?]
    simp only [ofDecl, List.filterMap_flatMap, hspec, Decl.init?]
    simp
  | func decl =>
    simp only [ofDecl, Decl.init?]
    by_cases hinit : decl.recv.isNone ∧ decl.name.name = "init"
    · rw [if_pos hinit, if_pos hinit]
      rfl
    · rw [if_neg hinit, if_neg hinit, hident]
      rfl

theorem Item.filterMap_ofFile (file : File) :
    (ofFile file).filterMap init? = file.decls.filterMap Decl.init? := by
  unfold ofFile
  rw [List.filterMap_cons_none rfl, List.filterMap_flatMap, List.filterMap_eq_flatMap_toList]
  simp only [filterMap_ofDecl]

/-- The declared initializers of a unit, in order. -/
def SourceUnit.inits (u : SourceUnit) : List FuncDecl := u.decls.filterMap Decl.init?

theorem SourceUnit.filterMap_init?_items (u : SourceUnit) :
    u.items.filterMap Item.init? = u.inits := by
  unfold inits decls
  by_cases hfiles : u.files = []
  · have hitems : u.items = u.scopeItems := by
      unfold items isBinary
      rw [hfiles]
      rfl
    rw [hitems, hfiles]
    unfold scopeItems
    cases u.packageScope? with
    | none => rfl
    | some scope => simp [List.filterMap_flatMap, Item.init?]
  · rw [items_eq hfiles, List.filterMap_flatMap, List.filterMap_flatMap]
    simp only [Item.filterMap_ofFile]

/-- The scope of a declared initializer. -/
def Decl.initScope? : Decl → Option SourceScopeId
  | .func decl => if decl.recv.isNone ∧ decl.name.name = "init" then decl.scope else none
  | .gen .. => none

/-- The scope of an item that is an initializer. -/
def Item.initScope? : Item → Option SourceScopeId
  | .initializer decl => decl.scope
  | _ => none

namespace SourceUnit

variable {u : SourceUnit}

/-- The scopes of the declared initializers, in order. -/
def initScopes (u : SourceUnit) : List SourceScopeId := u.decls.filterMap Decl.initScope?

/-- No scope is part of two declared initializers. -/
def DisjointInits (u : SourceUnit) : Prop :=
  u.initScopes.Pairwise fun r r' => ∀ s, u.Contains r s → ¬ u.Contains r' s

/-- In each function that is made the parameters that have a name have different names. -/
def DistinctParams (u : SourceUnit) : Prop :=
  ∀ item ∈ u.items, ∀ o source name pos signature, item.Makes o source →
    u.object? o = some (.func name pos signature) → signature.paramNames.Nodup

theorem initScopes_eq (u : SourceUnit) : u.initScopes = u.inits.filterMap (·.scope) := by
  unfold initScopes inits
  rw [List.filterMap_filterMap]
  refine List.filterMap_congr fun decl _ => ?_
  cases decl with
  | gen kind specs span => rfl
  | func decl =>
    simp only [Decl.initScope?, Decl.init?]
    split <;> rfl

theorem filterMap_items (u : SourceUnit) : u.items.filterMap Item.initScope? = u.initScopes := by
  rw [initScopes_eq, ← filterMap_init?_items, List.filterMap_filterMap]
  refine List.filterMap_congr fun item _ => ?_
  cases item <;> rfl

/-- A declared initializer has no scope in common with those before it. -/
theorem DisjointInits.not_contains (h : u.DisjointInits) {done : List Item} {decl : FuncDecl}
    (hpre : done ++ [.initializer decl] <+: u.items) {root : SourceScopeId}
    (hroot : decl.scope = some root) {r s : SourceScopeId}
    (hr : r ∈ done.filterMap Item.initScope?) (hs : u.Contains r s) : ¬ u.Contains root s := by
  unfold DisjointInits at h
  rw [← filterMap_items] at h
  have hpair := h.sublist (hpre.filterMap Item.initScope?).sublist
  rw [List.filterMap_append, List.pairwise_append] at hpair
  refine hpair.2.2 r hr root ?_ s hs
  simp [Item.initScope?, hroot]

end SourceUnit

/-! ## Every step keeps the functions consistent -/

namespace Draft

variable {q : Program} {base : Package} {done : List Item} {d d' : Draft} {f : Function}

/-- A consistent function gets the variables of a walk whose keys are new. -/
theorem consistent_addLocalDecls (hlaid : base.Laid) (hnested : base.unit.Nested)
    (h : f.Consistent q base) {r : SourceScopeId} {params : List String}
    (hnew : ∀ v ∈ base.localDecls r params, f.slots.find? v.key = none) :
    (f.addLocals (base.localDecls r params)).Consistent q base := by
  refine h.addLocals (hlaid.nodup_keys hnested r params) hnew fun v hv => ?_
  obtain ⟨t, -, hn⟩ := hlaid.exists_scope_of_mem hnested hv
  exact hlaid.isSome_scope? hn

theorem consistent_builtFunction (hlaid : base.Laid) (hnested : base.unit.Nested) (o : ObjectId)
    (source : DeclSource) (name : String) (pos : Option Position) {signature : Signature}
    (hparams : signature.paramNames.Nodup) :
    (builtFunction base o source name pos signature).Consistent q base := by
  have hbare : (functionOf base o source name pos signature).Consistent q base := by
    refine Program.consistent_of_bare rfl rfl rfl hparams (fun n hn => ?_) fun _ hid => nomatch hid
    obtain ⟨r, -, hn⟩ := Option.bind_eq_some_iff.1 hn
    exact hlaid.isSome_scope? hn
  unfold builtFunction localsOf
  cases source.func?.bind (·.scope) with
  | none => exact hbare
  | some root => exact consistent_addLocalDecls hlaid hnested hbare fun _ _ => rfl

/-- The functions of a package in the making are consistent, and the variables of its initializer
belong to the declared initializers so far. -/
structure Checks (q : Program) (base : Package) (done : List Item) (p : Package) : Prop where
  id : p.id = base.id
  unit : p.unit = base.unit
  numbers : p.scopeNumbers = base.scopeNumbers
  functions : ∃ init rest, p.functions = init :: rest ∧
    (∀ f ∈ init :: rest, f.Consistent q base) ∧
    ∀ key slot, init.slots.find? key = some slot → ∃ r ∈ done.filterMap Item.initScope?,
      ∃ t, base.unit.Contains r t ∧ base.scopeFor? t = some key.scope

theorem checks_start (q : Program) (id : PackageId) (u : SourceUnit) :
    Checks q (.start id u) [] (.start id u) := by
  have hinit : (Package.initializer id).Consistent q (.start id u) := by
    refine Program.consistent_of_bare rfl rfl rfl .nil (fun n hn => ?_) fun _ hid => nomatch hid
    cases hn
    exact (Package.laid_start id u).isSome_package
  refine ⟨rfl, rfl, rfl, Package.initializer id, [], rfl, fun f hf => ?_,
    fun _ _ hslot => nomatch hslot⟩
  rw [List.mem_singleton.1 hf]
  exact hinit

theorem Checks.later {p : Package} (h : Checks q base done p) (item : Item) :
    Checks q base (done ++ [item]) p := by
  obtain ⟨init, rest, hfunctions, hconsistent, hinit⟩ := h.functions
  refine ⟨h.id, h.unit, h.numbers, init, rest, hfunctions, hconsistent, fun key slot hslot => ?_⟩
  obtain ⟨r, hr, t, ht⟩ := hinit key slot hslot
  rw [List.filterMap_append]
  exact ⟨r, List.mem_append_left _ hr, t, ht⟩

/-- A function that is made is consistent if its parameters have different names. -/
theorem Checks.made (h : Checks q base done d.package) (hlaid : base.Laid)
    (hnested : base.unit.Nested) {o : ObjectId} {source : DeclSource} (hm : d.Made o source d')
    (hparams : ∀ name pos signature, base.unit.object? o = some (.func name pos signature) →
      signature.paramNames.Nodup) : Checks q base done d'.package := by
  obtain ⟨init, rest, hfunctions, hconsistent, hinit⟩ := h.functions
  have hsame : d'.package.id = d.package.id ∧ d'.package.unit = d.package.unit ∧
      d'.package.scopeNumbers = d.package.scopeNumbers := by
    rcases hm.puts with ⟨-, rfl⟩ | ⟨object, value, hp⟩
    · exact ⟨rfl, rfl, rfl⟩
    · exact ⟨hp.id, hp.unit, hp.numbers⟩
  obtain ⟨hid, hunit, hnumbers⟩ := hsame
  refine ⟨hid.trans h.id, hunit.trans h.unit, hnumbers.trans h.numbers, ?_⟩
  rcases hm.functions_cases with hkept | ⟨name, pos, signature, hobject, hadded⟩
  · rw [hkept]
    exact h.functions
  · rw [h.unit] at hobject
    rw [builtFunction_congr h.id h.unit h.numbers, hfunctions, List.cons_append] at hadded
    refine ⟨init, _, hadded, fun f hf => ?_, hinit⟩
    rw [← List.cons_append] at hf
    rcases List.mem_append.1 hf with hf | hf
    · exact hconsistent f hf
    · rw [List.mem_singleton.1 hf]
      exact consistent_builtFunction hlaid hnested o source name pos (hparams _ _ _ hobject)

/-- A declared initializer adds variables of its own scopes only. -/
theorem Checks.adoptInit (h : Checks q base done d.package) (hlaid : base.Laid)
    (hnested : base.unit.Nested) {decl : FuncDecl}
    (hdisjoint : ∀ root, decl.scope = some root → ∀ r ∈ done.filterMap Item.initScope?,
      ∀ s, base.unit.Contains r s → ¬ base.unit.Contains root s) :
    Checks q base (done ++ [.initializer decl]) (d.adoptInit decl).package := by
  obtain ⟨init, rest, hfunctions, hconsistent, hinit⟩ := h.functions
  have hlocals : initLocals d.package decl = initLocals base decl := by
    unfold initLocals
    rw [localDecls_congr h.unit h.numbers]
  have hadopt := (hconsistent init List.mem_cons_self).adopt decl.source
  have hrest : ∀ f ∈ rest, f.Consistent q base := fun f hf =>
    hconsistent f (List.mem_cons_of_mem init hf)
  rw [adoptInit_package, hlocals, hfunctions]
  refine ⟨h.id, h.unit, h.numbers, (init.adopt decl.source).addLocals (initLocals base decl), rest,
    rfl, List.forall_mem_cons.2 ⟨?_, hrest⟩, fun key slot hslot => ?_⟩
  · unfold initLocals
    cases hroot : decl.scope with
    | none => exact hadopt
    | some root =>
      refine consistent_addLocalDecls hlaid hnested hadopt fun v hv => ?_
      rw [Function.slots_adopt]
      refine Option.eq_none_iff_forall_ne_some.2 fun slot hslot => ?_
      -- an earlier variable of the same key would belong to a scope of both initializers
      obtain ⟨r, hr, t, ht, hn⟩ := hinit _ _ hslot
      obtain ⟨t', ht', hn'⟩ := hlaid.exists_scope_of_mem hnested hv
      have heq : t = t' := hlaid.number_inj hnested ht.inner_isSome hn hn'
      exact hdisjoint root hroot r hr t ht (heq ▸ ht')
  · rw [List.filterMap_append]
    rcases Function.find?_slots_addLocals hslot with hold | ⟨v, hv, rfl⟩
    · rw [Function.slots_adopt] at hold
      obtain ⟨r, hr, ht⟩ := hinit key slot hold
      exact ⟨r, List.mem_append_left _ hr, ht⟩
    · unfold initLocals at hv
      cases hroot : decl.scope with
      | none =>
        rw [hroot] at hv
        cases hv
      | some root =>
        rw [hroot] at hv
        refine ⟨root, List.mem_append_right _ ?_, hlaid.exists_scope_of_mem hnested hv⟩
        simp [Item.initScope?, hroot]

/-- All functions of a package are consistent if no two parameters of a function have the same name
and no scope is part of two declared initializers. -/
theorem checks_build {id : PackageId} {u : SourceUnit} (hnested : u.Nested)
    (hparams : u.DistinctParams) (hinits : u.DisjointInits)
    (hb : build { package := .start id u } u.items = (d, none)) :
    Checks q (.start id u) u.items d.package := by
  have hlaid := Package.laid_start id u
  refine build_induction
    (P := fun done d => done <+: u.items → Checks q (.start id u) done d.package)
    (fun done item d d' h hitem hm hpre => ?_) hb (fun _ => checks_start q id u)
    List.prefix_rfl
  have h := h ((List.prefix_append done [item]).trans hpre)
  rcases make_cases hm with
    ⟨name, log, rfl, rfl⟩ | ⟨decl, rfl, rfl⟩ | ⟨o, source, hmakes, hmade⟩
  · exact h.later (.file name)
  · refine h.adoptInit hlaid hnested fun root hroot r hr s hs => ?_
    exact hinits.not_contains hpre hroot hr hs
  · refine (h.made hlaid hnested hmade fun name pos signature hobject => ?_).later item
    exact hparams item hitem o source name pos signature hmakes hobject

end Draft

/-! ## The check -/

namespace Program

variable {p : Program} {u : SourceUnit} {id : PackageId}

/-- The check of a finished package finds nothing wrong. -/
theorem problems_finish {draft : Draft} (hnested : u.Nested) (hparams : u.DistinctParams)
    (hinits : u.DisjointInits)
    (hb : Draft.build { package := .start id u } u.items = (draft, none)) :
    p.problems draft.finish = [] := by
  have hlaid := Package.laid_start id u
  have hfinish := (Draft.tracks_build (Draft.tracks_start id u) hb).laid
  have hchecks := Draft.checks_build (q := p) hnested hparams hinits hb
  obtain ⟨init, rest, hfunctions, hconsistent, -⟩ := hchecks.functions
  have hscopes : draft.finish.scopes.length = (Package.start id u).scopes.length := by
    rw [hfinish.length_scopes_eq, hlaid.length_scopes_eq]
    exact congrArg (fun u => u.numbering.length) hchecks.unit
  rw [problems_eq_nil_iff]
  intro f hf
  change f ∈ draft.package.functions at hf
  rw [hfunctions] at hf
  refine (hconsistent f hf).mono (fun n hn => ?_) fun fid hfid => ?_
  · unfold Package.scope? at hn ⊢
    rw [isSome_getElem?] at hn ⊢
    rwa [hscopes]
  · obtain ⟨g, hg⟩ := Option.isSome_iff_exists.1 hfid
    obtain ⟨hhome, hg⟩ := Option.ite_none_right_eq_some.1 hg
    obtain ⟨hlt, -⟩ := List.getElem?_eq_some_iff.1 hg
    have hzero : fid.index = 0 := Nat.lt_one_iff.1 hlt
    have hid : draft.finish.id = id := hchecks.id
    have hinit : draft.finish.functions = init :: rest := hfunctions
    unfold Package.function?
    rw [if_pos (hhome.trans hid.symm), hinit, hzero]
    rfl

/-- The check of a new package finds nothing wrong if the scopes of the unit are nested, the
parameters of each function have different names and the declared initializers have no scope in
common. So it makes no difference whether the check is asked for. -/
theorem create_consistent (hnested : u.Nested) (hparams : u.DistinctParams)
    (hinits : u.DisjointInits) (hnew : p.byIdentity.find? u.path = none)
    (hcreate : (p.create u).result = .ok id) :
    (∃ pkg, (p.create u).program.package? id = some pkg ∧
      (p.create u).program.problems pkg = []) ∧
    ∀ d, ((p.withDiagnostics d).create u).result = .ok id ∧
      ((p.withDiagnostics d).create u).program = (p.create u).program.withDiagnostics d := by
  rcases create_ok_cases hcreate with ⟨hknown, -⟩ | ⟨draft, hbuilds, rfl⟩
  · rw [hnew] at hknown
    cases hknown
  · have hnone : ∀ q : Program, q.problems draft.finish = [] := fun q =>
      problems_finish hnested hparams hinits hbuilds.built
    refine ⟨⟨draft.finish, hbuilds.package?, hnone _⟩, fun d => ⟨?_, ?_⟩⟩
    · rw [(hbuilds.withDiagnostics d).result, if_neg fun h => h.2 (hnone _)]
      rfl
    · exact create_program_withDiagnostics p u d

end Program

/-! ### A unit with two initializers -/

namespace SourceUnit

/-- A unit with a function that has two blank parameters, and with two initializers that have
variables of the same name. -/
def initializing : SourceUnit where
  path := "m"
  name := "m"
  importable := true
  error := none
  objects := [
    .func "f" none ⟨none, [⟨"x", .basic .int⟩, ⟨"_", .basic .int⟩, ⟨"_", .basic .int⟩], [], false⟩,
    .var "x" none (.basic .int), .var "y" none (.basic .int), .var "y" none (.basic .string)]
  scopes := [⟨{}, .ofList [("f", ⟨0⟩)], [⟨1⟩, ⟨2⟩, ⟨3⟩]⟩, ⟨{}, .ofList [("x", ⟨1⟩)], []⟩,
    ⟨{}, .ofList [("y", ⟨2⟩)], [⟨4⟩]⟩, ⟨{}, .ofList [("y", ⟨3⟩)], []⟩,
    ⟨{}, .ofList [("y", ⟨3⟩)], []⟩]
  files := [⟨"f.go", [.func ⟨⟨"f", some ⟨0⟩, none⟩, none, [], some ⟨1⟩, none, {}⟩,
    .func ⟨⟨"init", none, none⟩, none, [], some ⟨2⟩, none, {}⟩,
    .func ⟨⟨"init", none, none⟩, none, [], some ⟨3⟩, none, {}⟩]⟩]

theorem nested_initializing : initializing.Nested where
  listedOnce := by decide
  topmost := by decide

theorem distinctParams_initializing : initializing.DistinctParams := by
  intro item hitem o source name pos signature hmakes hobject
  have hitems : initializing.items = [.file "f.go",
    .ident "f" (some ⟨0⟩) (.func ⟨⟨"f", some ⟨0⟩, none⟩, none, [], some ⟨1⟩, none, {}⟩),
    .initializer ⟨⟨"init", none, none⟩, none, [], some ⟨2⟩, none, {}⟩,
    .initializer ⟨⟨"init", none, none⟩, none, [], some ⟨3⟩, none, {}⟩] := rfl
  rw [hitems] at hitem
  simp only [List.mem_cons, List.not_mem_nil, or_false] at hitem
  rcases hitem with rfl | rfl | rfl | rfl
  · cases hmakes
  · cases hmakes
    cases hobject
    decide
  · cases hmakes
  · cases hmakes

theorem disjointInits_initializing : initializing.DisjointInits := by
  have hscopes : initializing.initScopes = [⟨2⟩, ⟨3⟩] := rfl
  have hreached : ∀ s : SourceScopeId, s ∈ initializing.walk → initializing.Contains .package s :=
    fun s hs => nested_initializing.mem_walk.1 hs
  unfold DisjointInits
  rw [hscopes, List.pairwise_pair]
  intro s hs hs'
  rw [← nested_initializing.mem_preorder_iff fun _ => hreached ⟨2⟩ (by decide)] at hs
  rw [← nested_initializing.mem_preorder_iff fun _ => hreached ⟨3⟩ (by decide)] at hs'
  have hfirst : initializing.preorder 5 ⟨2⟩ = [⟨2⟩, ⟨4⟩] := by decide
  have hsecond : initializing.preorder 5 ⟨3⟩ = [⟨3⟩] := by decide
  change s ∈ initializing.preorder 5 ⟨2⟩ at hs
  change s ∈ initializing.preorder 5 ⟨3⟩ at hs'
  rw [hfirst] at hs
  rw [hsecond] at hs'
  cases List.mem_singleton.1 hs'
  exact absurd hs (by decide)

end SourceUnit

namespace Program

theorem create_consistent_initializing :
    let p : Program := {}
    let u := SourceUnit.initializing
    (u.Nested ∧ u.DistinctParams ∧ u.DisjointInits ∧ u.initScopes = [⟨2⟩, ⟨3⟩] ∧
      p.byIdentity.find? u.path = none ∧ (p.create u).result = .ok ⟨0⟩) ∧
    (∃ pkg, (p.create u).program.package? ⟨0⟩ = some pkg ∧
      (p.create u).program.problems pkg = []) ∧
    ((p.withDiagnostics { checkFunctions := true }).create u).result = .ok ⟨0⟩ := by
  intro p u
  have hcreate : (p.create u).result = .ok ⟨0⟩ := by decide +kernel
  obtain ⟨hpackage, hchecked⟩ := create_consistent SourceUnit.nested_initializing
    SourceUnit.distinctParams_initializing SourceUnit.disjointInits_initializing rfl hcreate
  exact ⟨⟨SourceUnit.nested_initializing, SourceUnit.distinctParams_initializing,
    SourceUnit.disjointInits_initializing, rfl, rfl, hcreate⟩, hpackage, (hchecked _).1⟩

end Program

end TraceDebugger
