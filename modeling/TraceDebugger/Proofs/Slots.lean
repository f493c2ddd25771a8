import TraceDebugger.Proofs.Drafts
import TraceDebugger.Proofs.Numbering

/-!
# Slots of local variables

The variables declared below the scope of a function get its slots in the order of the walk
(`Function.locals_addLocals`), and each slot is found under the name and scope of its variable
(`Function.slot?_addLocals`). In nested scopes this gives exactly one slot to each variable bound in
a scope of the function, parameters apart (`Package.Allotted`).
-/

namespace TraceDebugger

/-! ## Giving slots -/

/-- The key under which the slot of a variable is found. -/
def LocalDecl.key (d : LocalDecl) : LocalKey := ⟨d.name, d.scope⟩

/-- The order of local variables: by scope, and by name in a scope. -/
def LocalKey.Before (k k' : LocalKey) : Prop :=
  k.scope.index < k'.scope.index ∨ k.scope = k'.scope ∧ k.name < k'.name

theorem LocalKey.not_before_self (k : LocalKey) : ¬ k.Before k := by
  rintro (hlt | ⟨-, hlt⟩)
  · omega
  · exact String.lt_irrefl _ hlt

/-- The variable with a slot. -/
def LocalDecl.withSlot (d : LocalDecl) (slot : Nat) : Local :=
  ⟨d.name, d.type, d.scope, slot, d.span⟩

theorem LocalDecl.map_key_zipIdx (vars : List LocalDecl) :
    (vars.zipIdx 0).map (fun e => e.1.key) = vars.map LocalDecl.key := by
  conv_rhs => rw [← List.zipIdx_map_fst 0 vars, List.map_map]
  rfl

namespace Function

theorem locals_addLocals (f : Function) (vars : List LocalDecl) : (f.addLocals vars).locals =
    f.locals ++ (vars.zipIdx f.locals.length).map fun e => e.1.withSlot e.2 := by
  induction vars generalizing f with
  | nil => simp [addLocals]
  | cons v rest ih =>
    have hlength : (f.addLocal v).locals.length = f.locals.length + 1 := by simp [addLocal]
    change ((f.addLocal v).addLocals rest).locals = _
    rw [ih, hlength, List.zipIdx_cons, List.map_cons]
    change (f.locals ++ [v.withSlot f.locals.length]) ++ _ = _
    rw [List.append_assoc]
    rfl

theorem slots_addLocals (f : Function) (vars : List LocalDecl) : (f.addLocals vars).slots =
    (vars.zipIdx f.locals.length).foldl (fun t e => t.insert e.1.key e.2) f.slots := by
  induction vars generalizing f with
  | nil => rfl
  | cons v rest ih =>
    have hlength : (f.addLocal v).locals.length = f.locals.length + 1 := by simp [addLocal]
    change ((f.addLocal v).addLocals rest).slots = _
    rw [ih, hlength, List.zipIdx_cons, List.foldl_cons]
    rfl

/-- The slot that is found under a name and a scope is the place of the variable declared there. -/
theorem slot?_addLocals {f : Function} (hlocals : f.locals = []) (hslots : f.slots = .empty)
    {vars : List LocalDecl} (hkeys : (vars.map LocalDecl.key).Nodup) {name : String}
    {scope : ScopeId} {slot : Nat} : (f.addLocals vars).slot? name scope = some slot ↔
      ∃ v, vars[slot]? = some v ∧ v.key = ⟨name, scope⟩ := by
  have hnodup : ((vars.zipIdx 0).map fun e => e.1.key).Nodup := by
    rw [LocalDecl.map_key_zipIdx]
    exact hkeys
  unfold slot?
  rw [slots_addLocals, hlocals, hslots]
  refine (Table.find?_foldl_insert_of_nodup (k := fun e : LocalDecl × Nat => e.1.key)
    (v := fun e : LocalDecl × Nat => e.2) hnodup).trans ?_
  constructor
  · rintro ⟨⟨v, k⟩, hmem, hkey, rfl⟩
    exact ⟨v, List.mem_zipIdx_iff_getElem?.1 hmem, hkey⟩
  · rintro ⟨v, hv, hkey⟩
    exact ⟨(v, slot), List.mem_zipIdx_iff_getElem?.2 hv, hkey, rfl⟩

theorem getElem?_locals_addLocals {f : Function} (hlocals : f.locals = [])
    (vars : List LocalDecl) (slot : Nat) :
    (f.addLocals vars).locals[slot]? = (vars[slot]?).map (·.withSlot slot) := by
  rw [locals_addLocals, hlocals, List.nil_append, List.getElem?_map, List.getElem?_zipIdx]
  cases vars[slot]? with
  | none => rfl
  | some v => simp

theorem map_key_locals_addLocals {f : Function} (hlocals : f.locals = [])
    (vars : List LocalDecl) :
    (f.addLocals vars).locals.map Local.key = vars.map LocalDecl.key := by
  rw [locals_addLocals, hlocals, List.nil_append, List.map_map, ← LocalDecl.map_key_zipIdx]
  rfl

theorem mem_locals_addLocals {f : Function} (hlocals : f.locals = [])
    (vars : List LocalDecl) {d : LocalDecl} :
    (∃ slot, d.withSlot slot ∈ (f.addLocals vars).locals) ↔ d ∈ vars := by
  constructor
  · rintro ⟨slot, hmem⟩
    obtain ⟨i, hi⟩ := List.getElem?_of_mem hmem
    rw [getElem?_locals_addLocals hlocals] at hi
    obtain ⟨v, hv, heq⟩ := Option.map_eq_some_iff.1 hi
    have hvd : v = d := by
      cases v
      cases d
      cases heq
      rfl
    subst hvd
    exact List.mem_of_getElem? hv
  · intro hmem
    obtain ⟨i, hi⟩ := List.getElem?_of_mem hmem
    refine ⟨i, List.mem_of_getElem? (i := i) ?_⟩
    rw [getElem?_locals_addLocals hlocals, hi]
    rfl

end Function

/-! ## The variables below a scope -/

namespace Package.Laid

variable {p : Package}

theorem map_subtreeFrom (h : p.Laid) (hnested : p.unit.Nested) (fuel : Nat) {a : SourceScopeId}
    (ha : (p.unit.scope? a).isSome → p.unit.Contains .package a) :
    (p.unit.subtreeFrom p.scopeNumbers fuel a).map (·.1) = p.unit.preorder fuel a := by
  induction fuel generalizing a with
  | zero => rfl
  | succ fuel ih =>
    cases hscope : p.unit.scope? a with
    | none => simp only [SourceUnit.subtreeFrom, SourceUnit.preorder, hscope, List.map_nil]
    | some scope =>
      have ha := ha (by rw [hscope]; rfl)
      obtain ⟨n, hn⟩ := h.exists_number hnested ha
      have hfind : p.scopeNumbers.find? a = some n := hn
      simp only [SourceUnit.subtreeFrom, SourceUnit.preorder, hscope, hfind, List.map_cons,
        List.map_flatMap]
      congr 1
      refine List.flatMap_congr fun c hc => ih fun hsome => ?_
      exact ha.trans (SourceUnit.Encloses.contains ⟨hsome, scope, hscope, hc⟩)

theorem of_mem_subtreeFrom {fuel : Nat} {a : SourceScopeId}
    {e : SourceScopeId × ScopeId × SourceScope}
    (he : e ∈ p.unit.subtreeFrom p.scopeNumbers fuel a) :
    p.unit.scope? e.1 = some e.2.2 ∧ p.scopeFor? e.1 = some e.2.1 := by
  induction fuel generalizing a with
  | zero => cases he
  | succ fuel ih =>
    simp only [SourceUnit.subtreeFrom] at he
    split at he
    · rename_i scope n hscope hn
      rcases List.mem_cons.1 he with rfl | he
      · exact ⟨hscope, hn⟩
      · obtain ⟨c, -, hc⟩ := List.mem_flatMap.1 he
        exact ih hc
    · cases he

/-- The walk that collects variables comes to the scopes that its root contains. -/
theorem mem_subtree (h : p.Laid) (hnested : p.unit.Nested) {r t : SourceScopeId} {n : ScopeId}
    {info : SourceScope} (hr : (p.unit.scope? r).isSome → p.unit.Contains .package r) :
    (t, n, info) ∈ p.unit.subtree p.scopeNumbers r ↔
      p.unit.Contains r t ∧ p.scopeFor? t = some n ∧ p.unit.scope? t = some info := by
  have hmap := h.map_subtreeFrom hnested p.unit.scopes.length hr
  constructor
  · intro he
    obtain ⟨hinfo, hn⟩ := of_mem_subtreeFrom he
    have ht : t ∈ p.unit.preorder p.unit.scopes.length r := by
      rw [← hmap]
      exact List.mem_map_of_mem he
    exact ⟨(hnested.mem_preorder_iff hr).1 ht, hn, hinfo⟩
  · rintro ⟨ht, hn, hinfo⟩
    have hmem := (hnested.mem_preorder_iff hr).2 ht
    rw [← hmap] at hmem
    obtain ⟨⟨t', n', info'⟩, he, rfl⟩ := List.mem_map.1 hmem
    obtain ⟨hinfo', hn'⟩ := of_mem_subtreeFrom he
    rw [hn, Option.some.injEq] at hn'
    rw [hinfo, Option.some.injEq] at hinfo'
    subst hn'
    subst hinfo'
    exact he

theorem localDecl?_eq_some {scope : ScopeId} {name : String} {o : ObjectId} {d : LocalDecl} :
    p.localDecl? scope name o = some d ↔ d.key = ⟨name, scope⟩ ∧
      ∃ vname pos, p.unit.object? o = some (.var vname pos d.type) ∧
        d.span = pos.elim {} Span.point := by
  unfold localDecl?
  constructor
  · intro h
    split at h
    · rename_i vname pos type hobject
      cases h
      exact ⟨rfl, vname, pos, hobject, rfl⟩
    · cases h
  · rintro ⟨hkey, vname, pos, hobject, hspan⟩
    rw [hobject]
    obtain ⟨dname, dtype, dscope, dspan⟩ := d
    cases hkey
    cases hspan
    rfl

/-- A variable gets a slot if a scope below the root binds its name to it; in the root itself the
names of parameters do not count. -/
theorem mem_localDecls (h : p.Laid) (hnested : p.unit.Nested) {r : SourceScopeId}
    (hr : (p.unit.scope? r).isSome → p.unit.Contains .package r) {params : List String}
    {d : LocalDecl} : d ∈ p.localDecls r params ↔
      ∃ t o, p.unit.Contains r t ∧ p.scopeFor? t = some d.scope ∧ p.unit.Binds t d.name o ∧
        ¬ (t = r ∧ d.name ∈ params) ∧
        ∃ vname pos, p.unit.object? o = some (.var vname pos d.type) ∧
          d.span = pos.elim {} Span.point := by
  unfold localDecls
  rw [List.mem_flatMap]
  constructor
  · rintro ⟨⟨t, n, info⟩, he, hd⟩
    obtain ⟨hcontains, hn, hinfo⟩ := (h.mem_subtree hnested hr).1 he
    obtain ⟨⟨name, o⟩, hentry, hd⟩ := List.mem_filterMap.1 hd
    dsimp only at hd
    split at hd
    · cases hd
    · rename_i hparam
      obtain ⟨hkey, hvar⟩ := localDecl?_eq_some.1 hd
      cases hkey
      have hbinds : p.unit.Binds t d.name o :=
        ⟨info, hinfo, info.names.find?_eq_some_iff.2 hentry⟩
      exact ⟨t, o, hcontains, hn, hbinds, hparam, hvar⟩
  · rintro ⟨t, o, hcontains, hn, ⟨info, hinfo, hfind⟩, hparam, hvar⟩
    refine ⟨(t, d.scope, info), (h.mem_subtree hnested hr).2 ⟨hcontains, hn, hinfo⟩, ?_⟩
    refine List.mem_filterMap.2 ⟨(d.name, o), info.names.find?_eq_some_iff.1 hfind, ?_⟩
    dsimp only
    rw [if_neg hparam]
    exact localDecl?_eq_some.2 ⟨rfl, hvar⟩

/-- The walk that collects variables goes by growing numbers. -/
theorem pairwise_subtree (h : p.Laid) (hnested : p.unit.Nested) {r : SourceScopeId}
    (hr : (p.unit.scope? r).isSome → p.unit.Contains .package r) :
    (p.unit.subtree p.scopeNumbers r).Pairwise fun e e' => e.2.1.index < e'.2.1.index := by
  cases hscope : p.unit.scope? r with
  | none =>
    have hempty : p.unit.subtree p.scopeNumbers r = [] := by
      have hmap := h.map_subtreeFrom hnested p.unit.scopes.length hr
      rw [SourceUnit.preorder_none _ hscope, List.map_eq_nil_iff] at hmap
      exact hmap
    rw [hempty]
    exact .nil
  | some scope =>
    have hreached := hr (by rw [hscope]; rfl)
    have hwalk := (h.pairwise_walk hnested hreached.inner_isSome).sublist
      (hnested.preorder_infix hreached).sublist
    rw [← h.map_subtreeFrom hnested _ hr, List.pairwise_map] at hwalk
    refine hwalk.imp_of_mem fun {e e'} he he' hnumbers => ?_
    exact hnumbers _ _ (of_mem_subtreeFrom he).2 (of_mem_subtreeFrom he').2

/-- Variables get slots in the order of their scopes, and by name in a scope. -/
theorem pairwise_localDecls (h : p.Laid) (hnested : p.unit.Nested) {r : SourceScopeId}
    (hr : (p.unit.scope? r).isSome → p.unit.Contains .package r) (params : List String) :
    (p.localDecls r params).Pairwise fun d d' => d.key.Before d'.key := by
  have hkey : ∀ (e : SourceScopeId × ScopeId × SourceScope) (b : String × ObjectId) (d : LocalDecl),
      (if e.1 = r ∧ b.1 ∈ params then none else p.localDecl? e.2.1 b.1 b.2) = some d →
        d.key = ⟨b.1, e.2.1⟩ := by
    intro e b d hd
    split at hd
    · cases hd
    · exact (localDecl?_eq_some.1 hd).1
  unfold localDecls
  rw [List.pairwise_flatMap]
  constructor
  · intro e _
    refine List.pairwise_filterMap.2 (e.2.2.names.sorted.imp fun {b b'} hlt d hd d' hd' => ?_)
    rw [hkey e b d hd, hkey e b' d' hd']
    exact .inr ⟨rfl, compareOfLessAndEq_eq_lt.1 hlt⟩
  · refine (h.pairwise_subtree hnested hr).imp fun {e e'} hlt d hd d' hd' => ?_
    obtain ⟨b, -, hb⟩ := List.mem_filterMap.1 hd
    obtain ⟨b', -, hb'⟩ := List.mem_filterMap.1 hd'
    rw [hkey e b d hb, hkey e' b' d' hb']
    exact .inl hlt

/-- No two variables have the same name and scope. -/
theorem nodup_keys_localDecls (h : p.Laid) (hnested : p.unit.Nested) {r : SourceScopeId}
    (hr : (p.unit.scope? r).isSome → p.unit.Contains .package r) (params : List String) :
    ((p.localDecls r params).map LocalDecl.key).Nodup := by
  have hpair := h.pairwise_localDecls hnested hr params
  refine List.pairwise_map.2 (hpair.imp fun {d d'} hlt heq => ?_)
  rw [heq] at hlt
  exact d'.key.not_before_self hlt

end Package.Laid

/-! ## The slots of a function -/

/-- The local variables of a function are those that are bound in the scope `r` and below it. In `r`
itself the names of parameters do not count. -/
structure Package.Allotted (p : Package) (r : SourceScopeId) (f : Function) : Prop where
  /-- The variables stand in the order of their scopes, and by name in a scope. -/
  increasing : f.locals.Pairwise fun v v' => v.key.Before v'.key
  /-- There is one for each name that a scope in `r` binds to a variable. -/
  entries : ∀ (name : String) (type : Ty) (n : ScopeId) (span : Span),
    (∃ slot, ⟨name, type, n, slot, span⟩ ∈ f.locals) ↔
      ∃ t o vname pos, p.unit.Contains r t ∧ p.scopeFor? t = some n ∧ p.unit.Binds t name o ∧
        ¬ (t = r ∧ name ∈ f.params.map (·.name)) ∧
        p.unit.object? o = some (.var vname pos type) ∧ span = pos.elim {} Span.point
  /-- The scopes in `r` have numbers. -/
  numbered : ∀ t, p.unit.Contains r t → ∃ n, p.scopeFor? t = some n
  /-- The slot of a variable is its place. -/
  placed : ∀ (i : Nat) (v : Local), f.locals[i]? = some v → v.slot = i
  /-- The slot that is found under a name and a scope is the place of that variable. -/
  found : ∀ (name : String) (n : ScopeId) (i : Nat), f.slot? name n = some i ↔
    ∃ v, f.locals[i]? = some v ∧ v.name = name ∧ v.scope = n

theorem Package.Laid.allotted {p : Package} (h : p.Laid) (hnested : p.unit.Nested) {f : Function}
    {r : SourceScopeId} (hr : (p.unit.scope? r).isSome → p.unit.Contains .package r)
    (hlocals : f.locals = []) (hslots : f.slots = .empty) :
    p.Allotted r (f.addLocals (p.localDecls r (f.params.map (·.name)))) := by
  have hparams : (f.addLocals (p.localDecls r (f.params.map (·.name)))).params = f.params := by
    rw [Function.addLocals_eq]
    rfl
  have hkeys := h.nodup_keys_localDecls hnested hr (f.params.map (·.name))
  refine ⟨?_, fun name type n span => ?_, fun t ht => ?_, fun i v hv => ?_, fun name n i => ?_⟩
  · have hpair := h.pairwise_localDecls hnested hr (f.params.map (·.name))
    rw [← List.pairwise_map (f := LocalDecl.key), ← Function.map_key_locals_addLocals hlocals,
      List.pairwise_map] at hpair
    exact hpair
  · have hmem := Function.mem_locals_addLocals hlocals (p.localDecls r (f.params.map (·.name)))
      (d := ⟨name, type, n, span⟩)
    rw [h.mem_localDecls hnested hr] at hmem
    rw [hparams]
    refine hmem.trans ?_
    constructor
    · rintro ⟨t, o, hcontains, hn, hbinds, hparam, vname, pos, hobject, hspan⟩
      exact ⟨t, o, vname, pos, hcontains, hn, hbinds, hparam, hobject, hspan⟩
    · rintro ⟨t, o, vname, pos, hcontains, hn, hbinds, hparam, hobject, hspan⟩
      exact ⟨t, o, hcontains, hn, hbinds, hparam, vname, pos, hobject, hspan⟩
  · exact h.exists_number hnested ((hr ht.outer_isSome).trans ht)
  · rw [Function.getElem?_locals_addLocals hlocals] at hv
    obtain ⟨d, -, rfl⟩ := Option.map_eq_some_iff.1 hv
    rfl
  · rw [Function.slot?_addLocals hlocals hslots hkeys]
    constructor
    · rintro ⟨d, hd, hkey⟩
      cases hkey
      refine ⟨d.withSlot i, ?_, rfl, rfl⟩
      rw [Function.getElem?_locals_addLocals hlocals, hd]
      rfl
    · rintro ⟨v, hv, rfl, rfl⟩
      rw [Function.getElem?_locals_addLocals hlocals] at hv
      obtain ⟨d, hd, rfl⟩ := Option.map_eq_some_iff.1 hv
      exact ⟨d, hd, rfl⟩

namespace Package.Allotted

variable {p : Package} {r t : SourceScopeId} {f : Function} {name vname : String} {n : ScopeId}
  {slot : Nat} {o : ObjectId} {pos : Option Position} {type : Ty}

/-- A slot that is found holds the variable that the scope binds the name to. -/
theorem held (h : p.Allotted r f) (hslot : f.slot? name n = some slot) :
    ∃ t o vname pos type, p.unit.Contains r t ∧ p.scopeFor? t = some n ∧ p.unit.Binds t name o ∧
      ¬ (t = r ∧ name ∈ f.params.map (·.name)) ∧ p.unit.object? o = some (.var vname pos type) ∧
      f.locals[slot]? = some ⟨name, type, n, slot, pos.elim {} Span.point⟩ := by
  obtain ⟨v, hv, rfl, rfl⟩ := (h.found name n slot).1 hslot
  have hplace := h.placed slot v hv
  obtain ⟨vname, type, scope, slot', span⟩ := v
  dsimp only at hplace
  subst hplace
  obtain ⟨t, o, oname, pos, hcontains, hn, hbinds, hparam, hobject, rfl⟩ :=
    (h.entries vname type scope span).1 ⟨_, List.mem_of_getElem? hv⟩
  exact ⟨t, o, oname, pos, type, hcontains, hn, hbinds, hparam, hobject, hv⟩

/-- There is a slot for each variable. -/
theorem exists_slot (h : p.Allotted r f) (hcontains : p.unit.Contains r t)
    (hn : p.scopeFor? t = some n) (hbinds : p.unit.Binds t name o)
    (hparam : ¬ (t = r ∧ name ∈ f.params.map (·.name)))
    (hobject : p.unit.object? o = some (.var vname pos type)) :
    ∃ slot, f.slot? name n = some slot := by
  obtain ⟨slot, hmem⟩ := (h.entries name type n (pos.elim {} Span.point)).2
    ⟨t, o, vname, pos, hcontains, hn, hbinds, hparam, hobject, rfl⟩
  obtain ⟨i, hi⟩ := List.getElem?_of_mem hmem
  exact ⟨i, (h.found name n i).2 ⟨_, hi, rfl, rfl⟩⟩

/-- Each variable is found in its slot. -/
theorem slot?_of_getElem? (h : p.Allotted r f) {v : Local} (hv : f.locals[slot]? = some v) :
    f.slot? v.name v.scope = some slot :=
  (h.found v.name v.scope slot).2 ⟨v, hv, rfl, rfl⟩

end Package.Allotted

end TraceDebugger
