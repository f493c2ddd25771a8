import TraceDebugger.Program.Resolution
import TraceDebugger.Proofs.WellScoped

/-!
# Names mean what the type checker binds them to

In a function of a well-scoped unit a name refers to what the nearest scope binds it to
(`Program.resolve_nearest`), although look-up knows the scopes by their numbers only, variables by
their slots, parameters by their places and members by their names.
-/

namespace TraceDebugger

/-! ## Walking outwards -/

namespace Package.Laid

variable {p : Package} {s t : SourceScopeId} {n : ScopeId} {α : Type} {read : ScopeId → Option α}

/-- Nothing is found on the way outwards if no scope on it has anything. -/
theorem findSome?_ancestors_eq_none (h : p.Laid) (htree : p.unit.IsTree)
    (hs : p.scopeFor? s = some n) (hsome : (p.unit.scope? s).isSome)
    (hread : ∀ x m, p.unit.Contains x s → p.scopeFor? x = some m → read m = none) :
    (p.ancestors n).findSome? read = none := by
  obtain ⟨depth, hdepth⟩ := htree.rooted s hsome
  induction depth generalizing s n with
  | zero =>
    obtain ⟨rfl, -⟩ := SourceUnit.below_zero_iff.1 hdepth
    rw [h.ancestors_package htree.nested hsome hs, List.findSome?_cons,
      hread _ n (.refl hsome) hs]
    rfl
  | succ depth ih =>
    cases hdepth with
    | @down _ _ t _ hdepth step =>
      obtain ⟨m, hm⟩ := h.exists_number htree.nested (htree.rooted _ step.outer_isSome)
      rw [h.ancestors_inner htree.nested step hm hs, List.findSome?_cons,
        hread s n (.refl hsome) hs]
      exact ih hm step.outer_isSome
        (fun x k hx hk => hread x k (hx.trans step.contains) hk) hdepth

/-- The nearest scope that binds a name decides, if scopes that do not bind it have nothing. -/
theorem findSome?_ancestors_nearest (h : p.Laid) (htree : p.unit.IsTree) {name : String}
    {o : ObjectId} {m : ScopeId} {value : α} (hnear : p.unit.Nearest name t o s)
    (hs : p.scopeFor? s = some n) (ht : p.scopeFor? t = some m) (hvalue : read m = some value)
    (hunbound : ∀ x k, p.scopeFor? x = some k → (∀ o, ¬ p.unit.Binds x name o) → read k = none) :
    (p.ancestors n).findSome? read = some value := by
  induction hnear generalizing n with
  | here binds =>
    rw [hs, Option.some.injEq] at ht
    subst ht
    obtain ⟨rest, hrest⟩ := h.exists_ancestors htree.nested binds.isSome hs
    rw [hrest, List.findSome?_cons, hvalue]
  | @outer s around unbound step _ ih =>
    obtain ⟨k, hk⟩ := h.exists_number htree.nested (htree.rooted _ step.outer_isSome)
    rw [h.ancestors_inner htree.nested step hk hs, List.findSome?_cons, hunbound s n hs unbound]
    exact ih hk

end Package.Laid

/-! ## What a name means -/

/-- What a name refers to in a function of the scope `r`, if the nearest scope that binds it is `t`,
which binds it to the object `o`. -/
inductive Denotes (q : Program) (pkg : Package) (f : Function) (r : SourceScopeId) (name : String)
    (t : SourceScopeId) (o : ObjectId) : Referent → Prop where
  /-- In the scope of the function, the first parameter of the name. -/
  | param {i : Nat} {v : Var} (root : t = r) (place : f.params[i]? = some v) (named : v.name = name)
      (first : ∀ j w, j < i → f.params[j]? = some w → w.name ≠ name) :
      Denotes q pkg f r name t o (.param i v)
  /-- In the scope of the function and below it, the one variable of that name and scope. -/
  | var {slot : Nat} {v : Local} {vname : String} {pos : Option Position}
      (inside : pkg.unit.Contains r t) (notParam : ¬ (t = r ∧ name ∈ f.params.map (·.name)))
      (held : f.locals[slot]? = some v) (place : v.slot = slot) (named : v.name = name)
      (scope : pkg.scopeFor? t = some v.scope)
      (object : pkg.unit.object? o = some (.var vname pos v.type))
      (span : v.span = pos.elim {} Span.point)
      (only : ∀ k w, f.locals[k]? = some w → w.name = name → w.scope = v.scope → k = slot) :
      Denotes q pkg f r name t o (.local slot v)
  /-- In the package scope, the type. -/
  | type {m : TypeMember} (top : t = .package) (member : pkg.member? name = some (.type m))
      (named : m.name = name) (object : m.object = o) : Denotes q pkg f r name t o (.type pkg m)
  /-- In the package scope, the constant. -/
  | const {c : ConstMember} (top : t = .package) (member : pkg.member? name = some (.const c))
      (named : c.name = name) (object : c.object = o) : Denotes q pkg f r name t o (.const pkg c)
  /-- In the package scope, the package-level variable. -/
  | global {g : Global} (top : t = .package) (member : pkg.member? name = some (.global g))
      (named : g.name = name) (object : g.object = some o) :
      Denotes q pkg f r name t o (.global pkg g)
  /-- In the package scope, the function. -/
  | function {id : FunctionId} {g : Function} (top : t = .package)
      (member : pkg.member? name = some (.function name id)) (found : q.function? id = some g)
      (named : g.name = name) (object : g.object = some o) :
      Denotes q pkg f r name t o (.function g)

/-- What a name means that no scope binds. -/
inductive Unbound (q : Program) (pkg : Package) (name : String) :
    Except ResolveError Referent → Prop where
  /-- The package initializer. -/
  | initializer {g : Function} (named : name = "init") (found : q.function? pkg.initId = some g) :
      Unbound q pkg name (.ok (.function g))
  /-- The guard of the initializer. -/
  | guard (named : name = "init$guard") : Unbound q pkg name (.ok (.global pkg .initGuard))
  /-- A package of that short name. -/
  | package {other : Package} (notInit : name ≠ "init") (notGuard : name ≠ "init$guard")
      (found : q.named? name = some other) : Unbound q pkg name (.ok (.package other))
  /-- Nothing, if there is no such package. -/
  | nothing (notInit : name ≠ "init") (notGuard : name ≠ "init$guard")
      (missing : q.named? name = none) : Unbound q pkg name (.error (.notFound name))

/-- What a name means at the scope `s` in a function of the scope `r`: what the nearest scope binds
it to, if there is one. -/
inductive Means (q : Program) (pkg : Package) (f : Function) (r s : SourceScopeId)
    (name : String) : Except ResolveError Referent → Prop where
  | bound {t : SourceScopeId} {o : ObjectId} {referent : Referent}
      (near : pkg.unit.Nearest name t o s) (denotes : Denotes q pkg f r name t o referent) :
      Means q pkg f r s name (.ok referent)
  | free {answer : Except ResolveError Referent} (free : ∀ t o, ¬ pkg.unit.Nearest name t o s)
      (unbound : Unbound q pkg name answer) : Means q pkg f r s name answer

section Unique

variable {q : Program} {pkg : Package} {f : Function} {o : ObjectId} {r s t : SourceScopeId}
  {name : String}

/-- What the package scope binds a name to is a member. -/
theorem Denotes.resolveMember?_eq {a : Referent} (h : Denotes q pkg f r name .package o a)
    (hroot : ¬ pkg.unit.Contains r .package) (hr : r ≠ .package) :
    q.resolveMember? pkg name = some a := by
  unfold Program.resolveMember?
  cases h with
  | param root => exact absurd root.symm hr
  | var inside => exact absurd inside hroot
  | type _ member =>
    rw [member]
    rfl
  | const _ member =>
    rw [member]
    rfl
  | global _ member =>
    rw [member]
    rfl
  | function _ member found =>
    rw [member]
    change (q.function? _).map Referent.function = _
    rw [found]
    rfl

/-- A name denotes one thing. -/
theorem Denotes.unique {a b : Referent} (h : Denotes q pkg f r name t o a)
    (h' : Denotes q pkg f r name t o b) (hroot : ¬ pkg.unit.Contains r .package)
    (hr : r ≠ .package) : a = b := by
  have hmem : ∀ {i : Nat} {v : Var}, f.params[i]? = some v → v.name = name →
      name ∈ f.params.map (·.name) := fun place named =>
    List.mem_map.2 ⟨_, List.mem_of_getElem? place, named⟩
  by_cases htop : t = .package
  · subst htop
    have hmember := h.resolveMember?_eq hroot hr
    rw [h'.resolveMember?_eq hroot hr, Option.some.injEq] at hmember
    exact hmember.symm
  cases h with
  | @param i v root place named first =>
    cases h' with
    | @param j w _ place' named' first' =>
      have hij : i = j := by
        rcases Nat.lt_trichotomy i j with hlt | heq | hlt
        · exact absurd named (first' i v hlt place)
        · exact heq
        · exact absurd named' (first j w hlt place')
      subst hij
      rw [place, Option.some.injEq] at place'
      rw [place']
    | var _ notParam => exact absurd ⟨root, hmem place named⟩ notParam
    | type top => exact absurd top htop
    | const top => exact absurd top htop
    | global top => exact absurd top htop
    | function top => exact absurd top htop
  | @var slot v _ _ _ notParam held _ _ scope _ _ only =>
    cases h' with
    | param root place named => exact absurd ⟨root, hmem place named⟩ notParam
    | @var slot' v' _ _ _ _ held' _ named' scope' _ _ _ =>
      rw [scope, Option.some.injEq] at scope'
      have hslot : slot' = slot := only slot' v' held' named' scope'.symm
      subst hslot
      rw [held, Option.some.injEq] at held'
      rw [held']
    | type top => exact absurd top htop
    | const top => exact absurd top htop
    | global top => exact absurd top htop
    | function top => exact absurd top htop
  | type top => exact absurd top htop
  | const top => exact absurd top htop
  | global top => exact absurd top htop
  | function top => exact absurd top htop

theorem Unbound.unique {a b : Except ResolveError Referent} (h : Unbound q pkg name a)
    (h' : Unbound q pkg name b) : a = b := by
  cases h with
  | initializer named found =>
    subst named
    cases h' with
    | initializer _ found' =>
      rw [found, Option.some.injEq] at found'
      rw [found']
    | guard named' => exact absurd named' (by decide)
    | package notInit => exact absurd rfl notInit
    | nothing notInit => exact absurd rfl notInit
  | guard named =>
    subst named
    cases h' with
    | initializer named' => exact absurd named' (by decide)
    | guard _ => rfl
    | package _ notGuard => exact absurd rfl notGuard
    | nothing _ notGuard => exact absurd rfl notGuard
  | package notInit notGuard found =>
    cases h' with
    | initializer named => exact absurd named notInit
    | guard named => exact absurd named notGuard
    | package _ _ found' =>
      rw [found, Option.some.injEq] at found'
      rw [found']
    | nothing _ _ missing =>
      rw [found] at missing
      cases missing
  | nothing notInit notGuard missing =>
    cases h' with
    | initializer named => exact absurd named notInit
    | guard named => exact absurd named notGuard
    | package _ _ found =>
      rw [found] at missing
      cases missing
    | nothing _ _ _ => rfl

/-- A name means one thing. -/
theorem Means.unique {a b : Except ResolveError Referent} (h : Means q pkg f r s name a)
    (h' : Means q pkg f r s name b) (htree : pkg.unit.IsTree)
    (hroot : ¬ pkg.unit.Contains r .package) (hr : r ≠ .package) : a = b := by
  cases h with
  | bound near denotes =>
    cases h' with
    | bound near' denotes' =>
      obtain ⟨rfl, rfl⟩ := near.unique near' htree
      rw [denotes.unique denotes' hroot hr]
    | free free _ => exact absurd near (free _ _)
  | free free unbound =>
    cases h' with
    | bound near _ => exact absurd near (free _ _)
    | free _ unbound' => exact unbound.unique unbound'

end Unique

/-! ## Local variables and parameters -/

section Locals

variable {pkg : Package} {f : Function} {decl : FuncDecl} {signature : Signature} {name : String}
  {object o : ObjectId} {r s t : SourceScopeId} {n : ScopeId}

/-- A slot is found in the scope that binds the name only. -/
theorem Package.Allotted.binds_of_slot (hslots : pkg.Allotted r f) (hlaid : pkg.Laid)
    (htree : pkg.unit.IsTree) {slot : Nat} (hs : pkg.scopeFor? s = some n)
    (hslot : f.slot? name n = some slot) :
    pkg.unit.Contains r s ∧ ¬ (s = r ∧ name ∈ f.params.map (·.name)) ∧
      ∃ o, pkg.unit.Binds s name o := by
  obtain ⟨x, o, -, -, -, hcontains, hx, hbinds, hparam, -⟩ := hslots.held hslot
  have heq : x = s := hlaid.number_inj htree.nested hbinds.isSome hx hs
  subst heq
  exact ⟨hcontains, hparam, o, hbinds⟩

/-- No slot is found if the scopes of the function bind the name to a parameter at most. -/
theorem lookupLocal?_eq_none (hslots : pkg.Allotted r f) (hlaid : pkg.Laid)
    (htree : pkg.unit.IsTree) (hs : pkg.scopeFor? s = some n) (hsome : (pkg.unit.scope? s).isSome)
    (hfree : ∀ x o, pkg.unit.Contains x s → pkg.unit.Contains r x → pkg.unit.Binds x name o →
      x = r ∧ name ∈ f.params.map (·.name)) :
    pkg.lookupLocal? f (some n) name = none := by
  refine hlaid.findSome?_ancestors_eq_none htree hs hsome fun x m hx hm => ?_
  cases hslot : f.slot? name m with
  | none => rfl
  | some slot =>
    obtain ⟨hcontains, hparam, o, hbinds⟩ := hslots.binds_of_slot hlaid htree hm hslot
    exact absurd (hfree x o hx hcontains hbinds) hparam

/-- The slot of the nearest scope is found, unless that scope binds the name to a parameter. -/
theorem lookupLocal?_nearest (hslots : pkg.Allotted r f) (hlaid : pkg.Laid)
    (htree : pkg.unit.IsTree) (hs : pkg.scopeFor? s = some n)
    (hnear : pkg.unit.Nearest name t o s) (hinside : pkg.unit.Contains r t)
    (hparam : ¬ (t = r ∧ name ∈ f.params.map (·.name)))
    (hvar : ∃ vname pos type, pkg.unit.object? o = some (.var vname pos type)) (q : Program) :
    ∃ slot var, pkg.lookupLocal? f (some n) name = some slot ∧ f.locals[slot]? = some var ∧
      Denotes q pkg f r name t o (.local slot var) := by
  obtain ⟨m, hm⟩ := hlaid.exists_number htree.nested (htree.rooted _ hnear.binds.isSome)
  obtain ⟨_, _, _, hobject⟩ := hvar
  obtain ⟨slot, hslot⟩ := hslots.exists_slot hinside hm hnear.binds hparam hobject
  obtain ⟨x, o', vname, pos, type, -, hx, hbinds, -, hobject', hlocal⟩ := hslots.held hslot
  have hxt : x = t := hlaid.number_inj htree.nested hbinds.isSome hx hm
  subst hxt
  rw [hbinds.unique hnear.binds] at hobject'
  have honly : ∀ k w, f.locals[k]? = some w → w.name = name → w.scope = m → k = slot := by
    intro k w hw hname hscope
    have hk := hslots.slot?_of_getElem? hw
    rw [hname, hscope, hslot, Option.some.injEq] at hk
    exact hk.symm
  have hlookup : pkg.lookupLocal? f (some n) name = some slot := by
    refine hlaid.findSome?_ancestors_nearest htree hnear hs hm hslot fun y k hk hunbound => ?_
    cases hslot' : f.slot? name k with
    | none => rfl
    | some slot' =>
      obtain ⟨-, -, o'', hbinds'⟩ := hslots.binds_of_slot hlaid htree hk hslot'
      exact absurd hbinds' (hunbound o'')
  exact ⟨slot, _, hlookup, hlocal, .var hinside hparam hlocal rfl rfl hm hobject' rfl honly⟩

end Locals

theorem Function.findParam?_eq_some {f : Function} {name : String} {i : Nat} {v : Var}
    (h : f.findParam? name = some (i, v)) : f.params[i]? = some v ∧ v.name = name ∧
      ∀ j w, j < i → f.params[j]? = some w → w.name ≠ name := by
  obtain ⟨⟨v', i'⟩, hfind, heq⟩ := Option.map_eq_some_iff.1 h
  cases heq
  obtain ⟨hname, k, hk, hget, hfirst⟩ := List.find?_eq_some_iff_getElem.1 hfind
  rw [List.getElem_zipIdx] at hget
  cases hget
  rw [List.length_zipIdx] at hk
  refine ⟨?_, by simpa using hname, fun j w hj hw => ?_⟩
  · rw [Nat.zero_add]
    exact List.getElem?_eq_getElem hk
  · rw [Nat.zero_add] at hj
    obtain ⟨hlt, rfl⟩ := List.getElem?_eq_some_iff.1 hw
    have hne := hfirst j hj
    rw [List.getElem_zipIdx] at hne
    simpa using hne

theorem Function.findParam?_eq_none {f : Function} {name : String} :
    f.findParam? name = none ↔ name ∉ f.params.map (·.name) := by
  unfold findParam?
  rw [Option.map_eq_none_iff, List.find?_eq_none]
  constructor
  · intro h hmem
    obtain ⟨v, hv, rfl⟩ := List.mem_map.1 hmem
    obtain ⟨i, hi⟩ := List.getElem?_of_mem hv
    have hne := h (v, i) (List.mem_zipIdx_iff_getElem?.2 hi)
    simp at hne
  · rintro h ⟨v, i⟩ hmem
    have hv := List.mem_of_getElem? (List.mem_zipIdx_iff_getElem?.1 hmem)
    intro hname
    exact h (List.mem_map.2 ⟨v, hv, by simpa using hname⟩)

/-! ## Names without a dot -/

theorem Text.splitChars?_eq_none_iff {sep : Char} {cs : List Char} :
    Text.splitChars? sep cs = none ↔ sep ∉ cs := by
  induction cs with
  | nil => exact ⟨fun _ => List.not_mem_nil, fun _ => rfl⟩
  | cons c cs ih =>
    rw [List.mem_cons, not_or, Text.splitChars?]
    by_cases hc : c = sep
    · simp [hc]
    · rw [if_neg hc, Option.map_eq_none_iff, ih]
      exact ⟨fun h => ⟨Ne.symm hc, h⟩, fun h => h.2⟩

theorem Text.splitAt?_eq_none_iff {sep : Char} {s : String} :
    Text.splitAt? sep s = none ↔ sep ∉ s.toList := by
  unfold Text.splitAt?
  rw [Option.map_eq_none_iff, Text.splitChars?_eq_none_iff]

namespace Program

variable {q : Program} {pkg : Package} {f : Function} {decl : FuncDecl} {signature : Signature}
  {object o : ObjectId} {r s t : SourceScopeId} {n : ScopeId} {name : String}

theorem resolve_eq (hhome : q.package? f.package = some pkg) (hdot : '.' ∉ name.toList)
    (scope : Option ScopeId) : q.resolve f scope name =
      (q.resolveBare? pkg f scope name).elim (.error (.notFound name)) .ok := by
  unfold resolve
  rw [hhome]
  dsimp only
  rw [Text.splitAt?_eq_none_iff.2 hdot]
  dsimp only
  cases q.resolveBare? pkg f scope name with
  | none => rfl
  | some referent => rfl

theorem resolveBare?_of_lookup {scope : Option ScopeId} {slot : Nat} {var : Local}
    (hslot : pkg.lookupLocal? f scope name = some slot) (hvar : f.locals[slot]? = some var) :
    q.resolveBare? pkg f scope name = some (.local slot var) := by
  have hlocal : resolveLocal? pkg f scope name = some (.local slot var) := by
    unfold resolveLocal?
    rw [hslot]
    change (f.locals[slot]?).bind (fun var => some (Referent.local slot var)) = _
    rw [hvar]
    rfl
  unfold resolveBare?
  rw [hlocal]
  rfl

theorem resolveBare?_of_lookup_none {scope : Option ScopeId}
    (hslot : pkg.lookupLocal? f scope name = none) : q.resolveBare? pkg f scope name =
      ((f.findParam? name).map (fun e => .param e.1 e.2) <|> q.resolveMember? pkg name
        <|> (q.named? name).map .package) := by
  unfold resolveBare? resolveLocal?
  simp only [hslot]
  rfl

/-- A name that the package scope binds refers to the member for its object. -/
theorem Reflects.resolveMember?_bound (h : q.Reflects pkg) (hu : pkg.unit.WellScoped)
    (hbinds : pkg.unit.Binds .package name o) (f : Function) (r : SourceScopeId) :
    ∃ referent, q.resolveMember? pkg name = some referent ∧
      Denotes q pkg f r name .package o referent := by
  obtain ⟨m, hm, hname, hoffers⟩ := h.bound name o hbinds
  unfold resolveMember?
  rw [hm]
  cases m with
  | type t => exact ⟨.type pkg t, rfl, .type rfl hm hname hoffers⟩
  | const c => exact ⟨.const pkg c, rfl, .const rfl hm hname hoffers⟩
  | global g => exact ⟨.global pkg g, rfl, .global rfl hm hname hoffers⟩
  | function name' id =>
    cases hname
    obtain ⟨g, object, hg, ho, hobject, hgname⟩ := h.functions o id hoffers
    refine ⟨.function g, ?_, .function rfl hm hg ?_ ho⟩
    · change (q.function? id).map Referent.function = _
      rw [hg]
      rfl
    · rw [hgname]
      exact hu.named _ o object hbinds hobject

/-- A name that a scope around binds. -/
theorem Reflects.resolve_bound (h : q.Reflects pkg) (hu : pkg.unit.WellScoped)
    (hd : pkg.unit.Opens decl object f.signature r) (hslots : pkg.Allotted r f)
    (hhome : q.package? f.package = some pkg) (hs : pkg.unit.Contains r s)
    (hn : pkg.scopeFor? s = some n) (hempty : name ≠ "") (hblank : name ≠ "_")
    (hdot : '.' ∉ name.toList) (hnear : pkg.unit.Nearest name t o s) :
    ∃ referent, q.resolve f (some n) name = .ok referent ∧
      Denotes q pkg f r name t o referent := by
  rw [resolve_eq hhome hdot]
  by_cases hinside : pkg.unit.Contains r t
  · by_cases hparam : t = r ∧ name ∈ f.params.map (·.name)
    · -- A parameter: no scope of the function below its own binds the name.
      obtain ⟨rfl, hmem⟩ := hparam
      have hlookup : pkg.lookupLocal? f (some n) name = none := by
        refine lookupLocal?_eq_none hslots h.laid hu.tree hn hs.inner_isSome ?_
        intro x o' hx hrx hbinds
        exact ⟨hu.tree.antisymm (hnear.contains_of_binds hu.tree hx hbinds) hrx, hmem⟩
      obtain ⟨⟨i, v⟩, hfind⟩ : ∃ e, f.findParam? name = some e := by
        refine Option.ne_none_iff_exists'.1 fun hnone => ?_
        exact Function.findParam?_eq_none.1 hnone hmem
      obtain ⟨hplace, hname, hfirst⟩ := Function.findParam?_eq_some hfind
      refine ⟨.param i v, ?_, .param rfl hplace hname hfirst⟩
      rw [resolveBare?_of_lookup_none hlookup, hfind]
      rfl
    · obtain ⟨slot, var, hlookup, hvar, hdenotes⟩ :=
        lookupLocal?_nearest hslots h.laid hu.tree hn hnear hinside hparam
          (hd.vars t name o hinside hnear.binds) q
      refine ⟨.local slot var, ?_, hdenotes⟩
      rw [resolveBare?_of_lookup hlookup hvar]
      rfl
  · -- Outside the function only the package scope binds anything.
    have hfree : ∀ x o', pkg.unit.Contains x s → pkg.unit.Contains r x →
        ¬ pkg.unit.Binds x name o' := by
      intro x o' hx hrx hbinds
      exact hinside (hrx.trans (hnear.contains_of_binds hu.tree hx hbinds))
    have htr : pkg.unit.Contains t r :=
      (hu.tree.nested.chain hnear.contains hs).resolve_right hinside
    have hnparam : name ∉ f.params.map (·.name) := by
      intro hmem
      obtain ⟨o', ho'⟩ := hd.exists_binds hmem hempty hblank
      exact hfree r o' hs (.refl ho'.isSome) ho'
    have htop : t = .package := by
      by_contra hne
      refine hd.between t name o htr ?_ hne hnear.binds
      rintro rfl
      exact hinside htr
    subst htop
    have hlookup : pkg.lookupLocal? f (some n) name = none :=
      lookupLocal?_eq_none hslots h.laid hu.tree hn hs.inner_isSome fun x o' hx hrx hbinds =>
        absurd hbinds (hfree x o' hx hrx)
    obtain ⟨referent, hreferent, hdenotes⟩ := h.resolveMember?_bound hu hnear.binds f r
    refine ⟨referent, ?_, hdenotes⟩
    rw [resolveBare?_of_lookup_none hlookup, Function.findParam?_eq_none.2 hnparam, hreferent]
    rfl

/-- A name that no scope around binds. -/
theorem Reflects.resolve_free (h : q.Reflects pkg) (hu : pkg.unit.WellScoped)
    (hd : pkg.unit.Opens decl object f.signature r) (hslots : pkg.Allotted r f)
    (hhome : q.package? f.package = some pkg) (hs : pkg.unit.Contains r s)
    (hn : pkg.scopeFor? s = some n) (hempty : name ≠ "") (hblank : name ≠ "_")
    (hdot : '.' ∉ name.toList) (hfree : ∀ t o, ¬ pkg.unit.Nearest name t o s) :
    Means q pkg f r s name (q.resolve f (some n) name) := by
  have hunbound : ∀ x o, pkg.unit.Contains x s → ¬ pkg.unit.Binds x name o := by
    intro x o hx hbinds
    obtain ⟨t, o', hnear⟩ := SourceUnit.exists_nearest hx hbinds
    exact hfree t o' hnear
  have hnparam : name ∉ f.params.map (·.name) := by
    intro hmem
    obtain ⟨o, ho⟩ := hd.exists_binds hmem hempty hblank
    exact hunbound r o hs ho
  have hlookup : pkg.lookupLocal? f (some n) name = none :=
    lookupLocal?_eq_none hslots h.laid hu.tree hn hs.inner_isSome fun x o hx _ hbinds =>
      absurd hbinds (hunbound x o hx)
  rw [resolve_eq hhome hdot, resolveBare?_of_lookup_none hlookup,
    Function.findParam?_eq_none.2 hnparam]
  by_cases hinit : name = "init"
  · obtain ⟨g, hg⟩ := h.initializer
    have hmember : q.resolveMember? pkg name = some (.function g) := by
      unfold resolveMember?
      rw [hinit, h.init]
      change (q.function? pkg.initId).map Referent.function = _
      rw [hg]
      rfl
    rw [hmember]
    exact .free hfree (.initializer hinit hg)
  by_cases hguard : name = "init$guard"
  · have hmember : q.resolveMember? pkg name = some (.global pkg .initGuard) := by
      unfold resolveMember?
      rw [hguard, h.guard]
      rfl
    rw [hmember]
    exact .free hfree (.guard hguard)
  have hmember : q.resolveMember? pkg name = none := by
    have htop : ∀ o, ¬ pkg.unit.Binds .package name o := fun o =>
      hunbound .package o (hu.tree.rooted s hs.inner_isSome)
    unfold resolveMember?
    rw [h.unbound name htop hinit hguard]
    rfl
  rw [hmember]
  cases hnamed : q.named? name with
  | none => exact .free hfree (.nothing hinit hguard hnamed)
  | some other => exact .free hfree (.package hinit hguard hnamed)

/-- In a program with the package of a well-scoped unit, whatever operations came later, a name in
the function of a declaration refers to what it means in the unit: what the nearest scope binds it
to. -/
theorem resolve_nearest {p : Program} {u : SourceUnit} {id : PackageId} {decl : FuncDecl}
    {o : ObjectId} {signature : Signature} {r : SourceScopeId} (hu : u.WellScoped)
    (hd : u.Opens decl o signature r) (hnew : p.byIdentity.find? u.path = none)
    (hcreate : (p.create u).result = .ok id) (operations : List Operation) :
    let q := (p.create u).program.run operations
    ∃ pkg fid f, q.package? id = some pkg ∧ pkg.unit = u ∧
      pkg.values.find? o = some (.function fid) ∧ q.function? fid = some f ∧
      f.object = some o ∧ f.signature = signature ∧
      ∀ s, u.Contains r s → ∃ n, pkg.scopeFor? s = some n ∧
        ∀ name, name ≠ "" → name ≠ "_" → '.' ∉ name.toList →
          ∀ answer, q.resolve f (some n) name = answer ↔ Means q pkg f r s name answer := by
  intro q
  obtain ⟨d, hb, hprogram, rfl⟩ := exists_draft_of_create hnew hcreate
  have htracks := Draft.tracks_build (Draft.tracks_start p.nextPackage u) hb
  have hadded : (p.create u).program.package? p.nextPackage = some d.finish := by
    rw [hprogram, package?_addPackage, if_pos rfl]
  obtain ⟨pkg, hpkg, hgrows⟩ := run_grows operations hadded
  have hreflects : q.Reflects pkg := htracks.reflects hu hd.files hpkg hgrows
  obtain ⟨fid, f, hvalue, hf, hobject, rfl, hhome, hslots⟩ :=
    htracks.exists_slotted hu hd hpkg hgrows
  have hunit : pkg.unit = u := by
    rw [hgrows.rest]
    exact htracks.unit
  subst hunit
  refine ⟨pkg, fid, f, hpkg, rfl, hvalue, hf, hobject, rfl, fun s hs => ?_⟩
  obtain ⟨n, hn⟩ := hreflects.laid.exists_number hu.tree.nested (hu.tree.rooted s hs.inner_isSome)
  refine ⟨n, hn, fun name hempty hblank hdot answer => ?_⟩
  have hpkg' : q.package? f.package = some pkg := by
    rw [hhome]
    exact hpkg
  have hmeans : Means q pkg f r s name (q.resolve f (some n) name) := by
    by_cases hbound : ∃ t o, pkg.unit.Nearest name t o s
    · obtain ⟨t, o', hnear⟩ := hbound
      obtain ⟨referent, hreferent, hdenotes⟩ :=
        hreflects.resolve_bound hu hd hslots hpkg' hs hn hempty hblank hdot hnear
      rw [hreferent]
      exact .bound hnear hdenotes
    · refine hreflects.resolve_free hu hd hslots hpkg' hs hn hempty hblank hdot ?_
      exact fun t o' hnear => hbound ⟨t, o', hnear⟩
  constructor
  · rintro rfl
    exact hmeans
  · exact fun h => hmeans.unique h hu.tree (hd.not_contains_package hu.tree) hd.inner

theorem resolve_nearest_shadowing :
    let p : Program := {}
    let u := SourceUnit.shadowing
    let q := (p.create u).program.run []
    (u.WellScoped ∧
      u.Opens SourceUnit.shadowingDecl ⟨0⟩ ⟨none, [⟨"x", .basic .int⟩], [], false⟩ ⟨2⟩ ∧
      p.byIdentity.find? u.path = none ∧ (p.create u).result = .ok ⟨0⟩) ∧
    ∃ pkg fid f, q.package? ⟨0⟩ = some pkg ∧ pkg.unit = u ∧
      pkg.values.find? ⟨0⟩ = some (.function fid) ∧ q.function? fid = some f ∧
      f.object = some ⟨0⟩ ∧ f.signature = ⟨none, [⟨"x", .basic .int⟩], [], false⟩ ∧
      ∀ s, u.Contains ⟨2⟩ s → ∃ n, pkg.scopeFor? s = some n ∧
        ∀ name, name ≠ "" → name ≠ "_" → '.' ∉ name.toList →
          ∀ answer, q.resolve f (some n) name = answer ↔ Means q pkg f ⟨2⟩ s name answer := by
  intro p u q
  have hcreate : (p.create u).result = .ok ⟨0⟩ := rfl
  exact ⟨⟨SourceUnit.wellScoped_shadowing, SourceUnit.opens_shadowing, rfl, hcreate⟩,
    resolve_nearest SourceUnit.wellScoped_shadowing SourceUnit.opens_shadowing rfl hcreate []⟩

end Program

end TraceDebugger
