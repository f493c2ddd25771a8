import TraceDebugger.Program.Package
import TraceDebugger.Proofs.ScopeTree
import TraceDebugger.Proofs.Tables

/-!
# The numbers of scopes

The scopes of a tree are numbered in preorder (`SourceUnit.preorder`), so each scope of the unit has
exactly one number, and the scope around it has a smaller one. The walk outwards from a number
(`Package.ancestors`) therefore follows the tree up to the package scope.
-/

namespace TraceDebugger

namespace SourceUnit

variable {u : SourceUnit}

/-! ## The walk -/

/-- The scopes below and including a scope, depth-first, in at most `fuel` levels. -/
def preorder (u : SourceUnit) : Nat → SourceScopeId → List SourceScopeId
  | 0, _ => []
  | fuel + 1, id =>
    match u.scope? id with
    | none => []
    | some scope => id :: scope.children.flatMap (u.preorder fuel)

theorem mem_preorder {fuel : Nat} {a s : SourceScopeId} :
    s ∈ u.preorder fuel a ↔ ∃ n < fuel, u.Below n a s := by
  induction fuel generalizing a with
  | zero => simp [preorder]
  | succ fuel ih =>
    cases hscope : u.scope? a with
    | none =>
      simp only [preorder, hscope]
      constructor
      · intro h
        cases h
      · rintro ⟨n, -, hn⟩
        have hsome := hn.outer_isSome
        rw [hscope] at hsome
        cases hsome
    | some scope =>
      simp only [preorder, hscope, List.mem_cons, List.mem_flatMap]
      constructor
      · rintro (rfl | ⟨c, hc, hs⟩)
        · exact ⟨0, by omega, .here (by rw [hscope]; rfl)⟩
        · obtain ⟨n, hlt, hn⟩ := ih.1 hs
          exact ⟨n + 1, by omega,
            below_succ_iff.2 ⟨c, ⟨hn.outer_isSome, scope, hscope, hc⟩, hn⟩⟩
      · rintro ⟨n, hlt, hn⟩
        cases n with
        | zero => exact .inl (below_zero_iff.1 hn).1.symm
        | succ n =>
          obtain ⟨c, ⟨-, scope', hscope', hc⟩, hn⟩ := below_succ_iff.1 hn
          rw [hscope, Option.some.injEq] at hscope'
          subst hscope'
          exact .inr ⟨c, hc, ih.2 ⟨n, by omega, hn⟩⟩

/-- The walk from a scope that the package scope contains comes to each scope once. -/
theorem Nested.nodup_preorder (h : u.Nested) (fuel : Nat) {a : SourceScopeId}
    (ha : (u.scope? a).isSome → u.Contains .package a) : (u.preorder fuel a).Nodup := by
  induction fuel generalizing a with
  | zero => exact List.nodup_nil
  | succ fuel ih =>
    cases hscope : u.scope? a with
    | none =>
      simp only [preorder, hscope]
      exact List.nodup_nil
    | some scope =>
      have ha := ha (by rw [hscope]; rfl)
      have hencloses : ∀ {c : SourceScopeId}, c ∈ scope.children → (u.scope? c).isSome →
          u.Encloses a c := fun hc hsome => ⟨hsome, scope, hscope, hc⟩
      have hbelow : ∀ {c s : SourceScopeId} {n : Nat}, c ∈ scope.children → u.Below n c s →
          u.Below (n + 1) a s := fun hc hn =>
        below_succ_iff.2 ⟨_, hencloses hc hn.outer_isSome, hn⟩
      simp only [preorder, hscope]
      refine List.nodup_cons.2 ⟨fun hmem => ?_, List.nodup_flatMap.2 ⟨fun c hc => ?_, ?_⟩⟩
      · obtain ⟨c, hc, hs⟩ := List.mem_flatMap.1 hmem
        obtain ⟨n, -, hn⟩ := mem_preorder.1 hs
        have hloop := h.eq_of_below ha (hbelow hc hn) (.here hn.inner_isSome)
        omega
      · exact ih fun hsome => ha.trans (hencloses hc hsome).contains
      · refine (h.pairwise_children hscope).imp_of_mem fun {c c'} hc hc' hne s hs hs' => ?_
        obtain ⟨n, -, hn⟩ := mem_preorder.1 hs
        obtain ⟨m, -, hm⟩ := mem_preorder.1 hs'
        have hlevel := h.eq_of_below ha (hbelow hc hn) (hbelow hc' hm)
        have hnm : n = m := by omega
        subst hnm
        exact hne hn.outer_isSome hm.outer_isSome (h.above_unique hn hm)

/-- The walk from a scope that the package scope contains comes to all scopes in it. -/
theorem Nested.mem_preorder_iff (h : u.Nested) {a s : SourceScopeId}
    (ha : (u.scope? a).isSome → u.Contains .package a) :
    s ∈ u.preorder u.scopes.length a ↔ u.Contains a s := by
  rw [mem_preorder]
  constructor
  · rintro ⟨n, -, hn⟩
    exact ⟨n, hn⟩
  · rintro ⟨n, hn⟩
    exact ⟨n, h.depth_lt (ha hn.outer_isSome) hn, hn⟩

/-! ## Stretches of the walk -/

theorem preorder_succ (fuel : Nat) {s : SourceScopeId} {scope : SourceScope}
    (h : u.scope? s = some scope) :
    u.preorder (fuel + 1) s = s :: scope.children.flatMap (u.preorder fuel) := by
  simp only [preorder, h]

theorem preorder_none (fuel : Nat) {s : SourceScopeId} (h : u.scope? s = none) :
    u.preorder fuel s = [] := by
  cases fuel with
  | zero => rfl
  | succ fuel => simp only [preorder, h]

/-- Bounds beyond the levels below a scope make no difference. -/
theorem preorder_congr {fuel fuel' : Nat} {a : SourceScopeId}
    (hfuel : ∀ n s, u.Below n a s → n < fuel) (hfuel' : ∀ n s, u.Below n a s → n < fuel') :
    u.preorder fuel a = u.preorder fuel' a := by
  induction fuel generalizing a fuel' with
  | zero =>
    have hnone : u.scope? a = none := by
      by_contra hsome
      have hlt := hfuel 0 a (.here (Option.isSome_iff_ne_none.2 hsome))
      omega
    rw [preorder_none 0 hnone, preorder_none fuel' hnone]
  | succ fuel ih =>
    cases hscope : u.scope? a with
    | none => rw [preorder_none _ hscope, preorder_none _ hscope]
    | some scope =>
      have hpos := hfuel' 0 a (.here (by rw [hscope]; rfl))
      obtain ⟨k, rfl⟩ := Nat.exists_eq_add_of_lt hpos
      rw [Nat.zero_add, preorder_succ fuel hscope, preorder_succ k hscope]
      congr 1
      refine List.flatMap_congr fun c hc => ih (fun n s hn => ?_) fun n s hn => ?_
      · have hlt := hfuel _ s (below_succ_iff.2 ⟨c, ⟨hn.outer_isSome, scope, hscope, hc⟩, hn⟩)
        omega
      · have hlt := hfuel' _ s (below_succ_iff.2 ⟨c, ⟨hn.outer_isSome, scope, hscope, hc⟩, hn⟩)
        omega

theorem Encloses.preorder_infix {a b : SourceScopeId} (h : u.Encloses a b) (fuel : Nat) :
    u.preorder fuel b <:+: u.preorder (fuel + 1) a := by
  obtain ⟨-, scope, hscope, hmem⟩ := h
  obtain ⟨before, after, hchildren⟩ := List.append_of_mem hmem
  rw [preorder_succ fuel hscope, hchildren, List.flatMap_append, List.flatMap_cons]
  exact ⟨a :: before.flatMap (u.preorder fuel), after.flatMap (u.preorder fuel), by simp⟩

theorem Below.preorder_infix {n : Nat} {a b : SourceScopeId} (h : u.Below n a b) (fuel : Nat) :
    u.preorder fuel b <:+: u.preorder (fuel + n) a := by
  induction h generalizing fuel with
  | here _ => exact List.infix_rfl
  | @down n a s b _ step ih =>
    have houter := ih (fuel + 1)
    rw [Nat.add_right_comm] at houter
    exact (step.preorder_infix fuel).trans houter

/-- All scopes of the package in the order of the walk. -/
def walk (u : SourceUnit) : List SourceScopeId := u.preorder u.scopes.length .package

namespace Nested

theorem nodup_walk (h : u.Nested) : u.walk.Nodup := h.nodup_preorder _ .refl

theorem mem_walk (h : u.Nested) {s : SourceScopeId} : s ∈ u.walk ↔ u.Contains .package s :=
  h.mem_preorder_iff .refl

/-- The scopes in a scope are one stretch of the walk. -/
theorem preorder_infix (h : u.Nested) {a : SourceScopeId} (ha : u.Contains .package a) :
    u.preorder u.scopes.length a <:+: u.walk := by
  obtain ⟨d, hd⟩ := ha
  have htop : u.Contains .package .package := .refl hd.outer_isSome
  obtain ⟨fuel, hfuel⟩ := Nat.exists_eq_add_of_lt (h.depth_lt htop hd)
  have hinfix := hd.preorder_infix (fuel + 1)
  have hlength : fuel + 1 + d = u.scopes.length := by omega
  rw [hlength] at hinfix
  -- The walk from `a` is cut off at other bounds here and there, both beyond the levels below `a`.
  have heq : u.preorder (fuel + 1) a = u.preorder u.scopes.length a := by
    refine preorder_congr (fun n s hn => ?_) fun n s hn => h.depth_lt ⟨d, hd⟩ hn
    have hdeep := h.depth_lt htop (hd.trans hn)
    omega
  rw [heq] at hinfix
  exact hinfix

end Nested

/-! ## Numbering -/

/-- Numbers the scopes below and including each of a list, one after the other. -/
def numberAll (u : SourceUnit) (fuel : Nat) (parent : Option ScopeId) (next : Nat) :
    List SourceScopeId → List (SourceScopeId × Scope)
  | [] => []
  | id :: rest =>
    let first := u.numberFrom fuel parent next id
    first ++ u.numberAll fuel parent (next + first.length) rest

theorem foldl_numberFrom (fuel : Nat) (parent : Option ScopeId) (next : Nat)
    (children : List SourceScopeId) (done : List (SourceScopeId × Scope)) :
    children.foldl (fun done child =>
        done ++ u.numberFrom fuel parent (next + done.length) child) done
      = done ++ u.numberAll fuel parent (next + done.length) children := by
  induction children generalizing done with
  | nil => simp [numberAll]
  | cons child rest ih =>
    rw [List.foldl_cons, ih, numberAll, List.append_assoc, List.length_append, Nat.add_assoc]

/-- The numbers of a scope and of what is inside it. -/
theorem numberFrom_succ (fuel : Nat) (parent : Option ScopeId) (next : Nat) {id : SourceScopeId}
    {scope : SourceScope} (h : u.scope? id = some scope) :
    u.numberFrom (fuel + 1) parent next id =
      (id, ⟨⟨next⟩, parent, if parent.isNone then .package else .block, scope.span⟩) ::
        u.numberAll fuel (some ⟨next⟩) (next + 1) scope.children := by
  simp only [numberFrom, h]
  rw [foldl_numberFrom]
  rfl

/-- What a numbering of the scopes of a walk has to be. The walk starts below a scope with the
number `parent`. -/
structure Numbers (u : SourceUnit) (parent : Option ScopeId) (next : Nat)
    (walk : List SourceScopeId) (isTop : SourceScopeId → Prop)
    (numbered : List (SourceScopeId × Scope)) : Prop where
  /-- The scopes are those of the walk, in order. -/
  scopes : numbered.map (·.1) = walk
  /-- The numbers count up from `next`. -/
  numbers : numbered.map (·.2.id.index) = List.range' next numbered.length
  /-- A scope is outermost, or the scope around it is numbered before it. -/
  parents : ∀ e ∈ numbered, (isTop e.1 ∧ e.2.parent = parent) ∨
    ∃ e' ∈ numbered, u.Encloses e'.1 e.1 ∧ e.2.parent = some e'.2.id ∧
      e'.2.id.index < e.2.id.index

theorem numbers_numberAll {fuel : Nat} {parent : Option ScopeId}
    (hone : ∀ next id, Numbers u parent next (u.preorder fuel id) (· = id)
      (u.numberFrom fuel parent next id)) (next : Nat) (ids : List SourceScopeId) :
    Numbers u parent next (ids.flatMap (u.preorder fuel)) (· ∈ ids)
      (u.numberAll fuel parent next ids) := by
  induction ids generalizing next with
  | nil => exact ⟨rfl, rfl, fun _ he => nomatch he⟩
  | cons id rest ih =>
    have hfirst := hone next id
    have hrest := ih (next + (u.numberFrom fuel parent next id).length)
    refine ⟨?_, ?_, fun e he => ?_⟩
    · rw [numberAll, List.map_append, List.flatMap_cons, hfirst.scopes, hrest.scopes]
    · rw [numberAll, List.map_append, hfirst.numbers, hrest.numbers, List.length_append,
        List.range'_append_1]
    · rcases List.mem_append.1 he with he | he
      · rcases hfirst.parents e he with ⟨htop, hparent⟩ | ⟨e', he', h⟩
        · exact .inl ⟨List.mem_cons.2 (.inl htop), hparent⟩
        · exact .inr ⟨e', List.mem_append_left _ he', h⟩
      · rcases hrest.parents e he with ⟨htop, hparent⟩ | ⟨e', he', h⟩
        · exact .inl ⟨List.mem_cons_of_mem id htop, hparent⟩
        · exact .inr ⟨e', List.mem_append_right _ he', h⟩

theorem Numbers.le_index {parent : Option ScopeId} {next : Nat} {walk : List SourceScopeId}
    {isTop : SourceScopeId → Prop} {numbered : List (SourceScopeId × Scope)}
    (h : Numbers u parent next walk isTop numbered) {e : SourceScopeId × Scope}
    (he : e ∈ numbered) : next ≤ e.2.id.index := by
  have hmem : e.2.id.index ∈ numbered.map (·.2.id.index) := List.mem_map_of_mem he
  rw [h.numbers, List.mem_range'_1] at hmem
  exact hmem.1

theorem numbers_numberFrom (fuel : Nat) (parent : Option ScopeId) (next : Nat)
    (id : SourceScopeId) : Numbers u parent next (u.preorder fuel id) (· = id)
      (u.numberFrom fuel parent next id) := by
  induction fuel generalizing parent next id with
  | zero => exact ⟨rfl, rfl, fun _ he => nomatch he⟩
  | succ fuel ih =>
    cases hscope : u.scope? id with
    | none =>
      have hempty : u.numberFrom (fuel + 1) parent next id = [] := by simp only [numberFrom, hscope]
      have hwalk : u.preorder (fuel + 1) id = [] := by simp only [preorder, hscope]
      rw [hempty, hwalk]
      exact ⟨rfl, rfl, fun _ he => nomatch he⟩
    | some scope =>
      have hinner := numbers_numberAll (ih (some ⟨next⟩)) (next + 1) scope.children
      have hwalk : u.preorder (fuel + 1) id = id :: scope.children.flatMap (u.preorder fuel) := by
        simp only [preorder, hscope]
      rw [numberFrom_succ fuel parent next hscope, hwalk]
      refine ⟨?_, ?_, fun e he => ?_⟩
      · rw [List.map_cons, hinner.scopes]
      · rw [List.map_cons, hinner.numbers, List.length_cons, List.range'_succ]
      · rcases List.mem_cons.1 he with rfl | he
        · exact .inl ⟨rfl, rfl⟩
        · rcases hinner.parents e he with ⟨hchild, hparent⟩ | ⟨e', he', h⟩
          · have hlt := hinner.le_index he
            have hsome : (u.scope? e.1).isSome := by
              have hmem : e.1 ∈ scope.children.flatMap (u.preorder fuel) := by
                rw [← hinner.scopes]
                exact List.mem_map_of_mem he
              obtain ⟨c, -, hc⟩ := List.mem_flatMap.1 hmem
              obtain ⟨n, -, hn⟩ := mem_preorder.1 hc
              exact hn.inner_isSome
            exact .inr ⟨_, List.mem_cons_self, ⟨hsome, scope, hscope, hchild⟩, hparent, hlt⟩
          · exact .inr ⟨e', List.mem_cons_of_mem _ he', h⟩

theorem numbers_numbering {s : SourceScopeId} (hs : (u.scope? s).isSome) :
    Numbers u none 0 (u.preorder u.scopes.length .package) (· = .package) u.numbering := by
  have hne : u.scopes.isEmpty = false := by
    cases hscopes : u.scopes with
    | nil =>
      rw [scope?, hscopes] at hs
      cases hs
    | cons _ _ => rfl
  have hnumbering : u.numbering = u.numberFrom u.scopes.length none 0 .package := by
    rw [numbering, hne]
    rfl
  rw [hnumbering]
  exact u.numbers_numberFrom _ none 0 .package

/-- The number of a scope is its place in the numbering. -/
theorem index_of_getElem?_numbering {s : SourceScopeId} (hs : (u.scope? s).isSome) {k : Nat}
    {e : SourceScopeId × Scope} (hk : u.numbering[k]? = some e) : e.2.id.index = k := by
  have hnumbers := congrArg (·[k]?) (numbers_numbering hs).numbers
  have hlt : k < u.numbering.length := (List.getElem?_eq_some_iff.1 hk).1
  simp only [List.getElem?_map, hk, Option.map_some, List.getElem?_range' hlt] at hnumbers
  have heq := Option.some.inj hnumbers
  omega

theorem getElem?_numbering {s : SourceScopeId} (hs : (u.scope? s).isSome)
    {e : SourceScopeId × Scope} (he : e ∈ u.numbering) : u.numbering[e.2.id.index]? = some e := by
  obtain ⟨k, hk⟩ := List.getElem?_of_mem he
  rw [index_of_getElem?_numbering hs hk]
  exact hk

end SourceUnit

/-! ## The scopes of a package -/

namespace Package

/-- The scopes of a package are those of its unit by their numbers. What opened them is left
open. -/
structure Laid (p : Package) : Prop where
  /-- The scopes stand in the order of their numbers. -/
  scopes : p.scopes.map (fun s => (s.id, s.parent)) =
    p.unit.numbering.map fun e => (e.2.id, e.2.parent)
  /-- The table of numbers is that of the unit. -/
  numbers : p.scopeNumbers = .ofList (p.unit.numbering.map fun e => (e.1, e.2.id))

theorem laid_start (id : PackageId) (u : SourceUnit) : (start id u).Laid := by
  refine ⟨?_, rfl⟩
  change (u.numbering.map (·.2)).map _ = _
  rw [List.map_map]
  rfl

namespace Laid

variable {p : Package} {s t : SourceScopeId} {n m : ScopeId}

theorem scopeFor?_iff (h : p.Laid) (hnested : p.unit.Nested) (hs : (p.unit.scope? s).isSome) :
    p.scopeFor? t = some n ↔ ∃ scope, (t, scope) ∈ p.unit.numbering ∧ scope.id = n := by
  have hkeys : ((p.unit.numbering.map fun e => (e.1, e.2.id)).map (·.1)).Nodup := by
    rw [List.map_map]
    change (p.unit.numbering.map (·.1)).Nodup
    rw [(SourceUnit.numbers_numbering hs).scopes]
    exact hnested.nodup_preorder _ .refl
  unfold scopeFor?
  rw [h.numbers, Table.find?_ofList hkeys, List.mem_map]
  constructor
  · rintro ⟨⟨t', scope⟩, hmem, heq⟩
    cases heq
    exact ⟨scope, hmem, rfl⟩
  · rintro ⟨scope, hmem, rfl⟩
    exact ⟨(t, scope), hmem, rfl⟩

/-- The number of a scope is its place in the walk. -/
theorem scopeFor?_iff_getElem? (h : p.Laid) (hnested : p.unit.Nested)
    (hsome : (p.unit.scope? s).isSome) :
    p.scopeFor? t = some n ↔ p.unit.walk[n.index]? = some t := by
  have hscopes : p.unit.walk = p.unit.numbering.map (·.1) :=
    (SourceUnit.numbers_numbering hsome).scopes.symm
  rw [h.scopeFor?_iff hnested hsome, hscopes, List.getElem?_map]
  constructor
  · rintro ⟨scope, hmem, rfl⟩
    have hget := SourceUnit.getElem?_numbering hsome hmem
    dsimp only at hget
    rw [hget]
    rfl
  · intro hget
    obtain ⟨⟨t', scope⟩, he, rfl⟩ := Option.map_eq_some_iff.1 hget
    refine ⟨scope, List.mem_of_getElem? he, ?_⟩
    exact congrArg ScopeId.mk (SourceUnit.index_of_getElem?_numbering hsome he)

/-- Along the walk the numbers grow. -/
theorem pairwise_walk (h : p.Laid) (hnested : p.unit.Nested) (hsome : (p.unit.scope? s).isSome) :
    p.unit.walk.Pairwise fun t t' =>
      ∀ n m, p.scopeFor? t = some n → p.scopeFor? t' = some m → n.index < m.index := by
  rw [List.pairwise_iff_getElem]
  intro i j hi hj hlt n m hn hm
  rw [h.scopeFor?_iff_getElem? hnested hsome, ← List.getElem?_eq_getElem hi] at hn
  rw [h.scopeFor?_iff_getElem? hnested hsome, ← List.getElem?_eq_getElem hj] at hm
  have hni := (List.getElem?_inj hi hnested.nodup_walk).1 hn.symm
  have hmj := (List.getElem?_inj hj hnested.nodup_walk).1 hm.symm
  omega

/-- Each scope that is reached from the package scope has a number. -/
theorem exists_number (h : p.Laid) (hnested : p.unit.Nested) (hs : p.unit.Contains .package s) :
    ∃ n, p.scopeFor? s = some n := by
  obtain ⟨k, hk⟩ := List.getElem?_of_mem (hnested.mem_walk.2 hs)
  exact ⟨⟨k⟩, (h.scopeFor?_iff_getElem? hnested hs.inner_isSome).2 hk⟩

/-- No two scopes have the same number. -/
theorem number_inj (h : p.Laid) (hnested : p.unit.Nested) (hsome : (p.unit.scope? s).isSome)
    (hs : p.scopeFor? s = some n) (ht : p.scopeFor? t = some n) : s = t := by
  rw [h.scopeFor?_iff_getElem? hnested hsome] at hs ht
  rw [hs, Option.some.injEq] at ht
  exact ht

/-- The scope of a number names the scope around it by its number, which is smaller. -/
theorem scope?_number (h : p.Laid) (hnested : p.unit.Nested) (hsome : (p.unit.scope? s).isSome)
    (hs : p.scopeFor? s = some n) : ∃ scope, p.scope? n = some scope ∧ scope.id = n ∧
      ((s = .package ∧ scope.parent = none) ∨ ∃ t m, p.unit.Encloses t s ∧
        p.scopeFor? t = some m ∧ scope.parent = some m ∧ m.index < n.index) := by
  obtain ⟨scope, hscope, rfl⟩ := (h.scopeFor?_iff hnested hsome).1 hs
  have hget := congrArg (·[scope.id.index]?) h.scopes
  have he := SourceUnit.getElem?_numbering hsome hscope
  dsimp only at he
  simp only [List.getElem?_map, he, Option.map_some] at hget
  obtain ⟨scope', hscope', heq⟩ := Option.map_eq_some_iff.1 hget
  obtain ⟨hid, hparent⟩ := Prod.mk.inj heq
  refine ⟨scope', hscope', hid, ?_⟩
  rw [hparent]
  rcases (SourceUnit.numbers_numbering hsome).parents _ hscope with
    ⟨htop, hnone⟩ | ⟨⟨t, around⟩, ht, hin, hpar, hlt⟩
  · exact .inl ⟨htop, hnone⟩
  · exact .inr ⟨t, around.id, hin, (h.scopeFor?_iff hnested hsome).2 ⟨around, ht, rfl⟩, hpar, hlt⟩

theorem index_lt (h : p.Laid) (hnested : p.unit.Nested) (hsome : (p.unit.scope? s).isSome)
    (hs : p.scopeFor? s = some n) : n.index < p.scopes.length := by
  obtain ⟨scope, hscope, -⟩ := h.scope?_number hnested hsome hs
  exact (List.getElem?_eq_some_iff.1 hscope).1

/-- The walk outwards does not depend on its bound, as long as this exceeds the number. -/
theorem ancestorsFrom_eq (h : p.Laid) (hnested : p.unit.Nested) (fuel fuel' : Nat)
    (hsome : (p.unit.scope? s).isSome) (hs : p.scopeFor? s = some n) (hfuel : n.index < fuel)
    (hfuel' : n.index < fuel') :
    p.ancestorsFrom fuel (some n) = p.ancestorsFrom fuel' (some n) := by
  induction fuel generalizing fuel' s n with
  | zero => omega
  | succ fuel ih =>
    cases fuel' with
    | zero => omega
    | succ fuel' =>
      obtain ⟨scope, hscope, hid, ⟨-, hparent⟩ | ⟨t, m, hin, ht, hparent, hlt⟩⟩ :=
        h.scope?_number hnested hsome hs
      · simp only [ancestorsFrom, hscope, hparent]
        cases fuel <;> cases fuel' <;> rfl
      · simp only [ancestorsFrom, hscope, hparent]
        rw [ih fuel' hin.outer_isSome ht (by omega) (by omega)]

theorem ancestors_package (h : p.Laid) (hnested : p.unit.Nested)
    (hsome : (p.unit.scope? .package).isSome) (hn : p.scopeFor? .package = some n) :
    p.ancestors n = [n] := by
  obtain ⟨scope, hscope, hid, ⟨-, hparent⟩ | ⟨t, -, hin, -⟩⟩ := h.scope?_number hnested hsome hn
  · have hlt := h.index_lt hnested hsome hn
    unfold ancestors
    obtain ⟨k, hk⟩ := Nat.exists_eq_add_of_lt hlt
    rw [hk, ancestorsFrom, hscope]
    dsimp only
    rw [hparent, hid]
    cases n.index + k with
    | zero => rfl
    | succ _ => rfl
  · exact absurd hin hnested.not_encloses_package

/-- The walk outwards follows the tree. -/
theorem ancestors_inner (h : p.Laid) (hnested : p.unit.Nested) (hin : p.unit.Encloses t s)
    (ht : p.scopeFor? t = some m) (hs : p.scopeFor? s = some n) :
    p.ancestors n = n :: p.ancestors m := by
  obtain ⟨scope, hscope, hid, ⟨rfl, -⟩ | ⟨t', m', hin', ht', hparent, hlt⟩⟩ :=
    h.scope?_number hnested hin.1 hs
  · exact absurd hin hnested.not_encloses_package
  · rw [hnested.outer_unique hin' hin, ht, Option.some.injEq] at ht'
    subst ht'
    have hlt' := h.index_lt hnested hin.1 hs
    obtain ⟨k, hk⟩ := Nat.exists_eq_add_of_lt hlt'
    have hstep : p.ancestors n = n :: p.ancestorsFrom (n.index + k) (some m) := by
      unfold ancestors
      rw [hk, ancestorsFrom, hscope]
      dsimp only
      rw [hid, hparent]
    rw [hstep, h.ancestorsFrom_eq hnested (n.index + k) p.scopes.length hin.outer_isSome ht
      (by omega) (by omega)]
    rfl

theorem exists_ancestors (h : p.Laid) (hnested : p.unit.Nested) (hsome : (p.unit.scope? s).isSome)
    (hs : p.scopeFor? s = some n) : ∃ rest, p.ancestors n = n :: rest := by
  obtain ⟨scope, hscope, hid, -⟩ := h.scope?_number hnested hsome hs
  obtain ⟨k, hk⟩ := Nat.exists_eq_add_of_lt (h.index_lt hnested hsome hs)
  refine ⟨p.ancestorsFrom (n.index + k) scope.parent, ?_⟩
  unfold ancestors
  rw [hk, ancestorsFrom, hscope]
  dsimp only
  rw [hid]

end Laid

end Package

end TraceDebugger
