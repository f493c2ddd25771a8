import Mathlib.Data.Set.Card
import TraceDebugger.Proofs.WellScoped

/-!
# Scope numbers as a preorder

The walk from a scope is one stretch of the walk from the package scope
(`SourceUnit.Nested.exists_stretch`), so the scopes in a scope have the numbers that follow its own,
without a gap. What a package that is made of nested scopes answers about them is collected in
`Package.Preordered`.
-/

namespace TraceDebugger

/-! ## Stretches of the walk -/

namespace SourceUnit

variable {u : SourceUnit} {a : SourceScopeId}

/-- Each inner scope begins the walk from it. -/
theorem children_sublist (fuel : Nat) (children : List SourceScopeId) :
    (children.filter fun c => (u.scope? c).isSome).Sublist
      (children.flatMap (u.preorder (fuel + 1))) := by
  induction children with
  | nil => exact .slnil
  | cons c rest ih =>
    rw [List.flatMap_cons]
    cases hscope : u.scope? c with
    | none =>
      rw [List.filter_cons_of_neg (by simp [hscope])]
      exact ih.trans (List.sublist_append_right _ _)
    | some scope =>
      rw [List.filter_cons_of_pos (by simp [hscope]), preorder_succ fuel hscope, List.cons_append]
      exact (ih.trans (List.sublist_append_right _ _)).cons_cons c

/-- The scopes in a scope are one stretch of the walk, which begins with that scope. Its inner
scopes come in the order in which they are listed. -/
theorem Nested.exists_stretch (h : u.Nested) {scope : SourceScope} (ha : u.Contains .package a)
    (hscope : u.scope? a = some scope) : ∃ before inner after,
      u.walk = before ++ (a :: inner) ++ after ∧ (∀ s, s ∈ a :: inner ↔ u.Contains a s) ∧
        (scope.children.filter fun c => (u.scope? c).isSome).Sublist inner := by
  obtain ⟨before, after, hinfix⟩ := h.preorder_infix ha
  have hmem : ∀ s, s ∈ u.preorder u.scopes.length a ↔ u.Contains a s := fun s =>
    h.mem_preorder_iff fun _ => ha
  have hlt := h.depth_lt ha (.here ha.inner_isSome)
  obtain ⟨fuel, hfuel⟩ := Nat.exists_eq_add_of_lt hlt
  rw [hfuel, Nat.zero_add, preorder_succ fuel hscope] at hinfix hmem
  refine ⟨before, _, after, hinfix.symm, hmem, ?_⟩
  cases fuel with
  | zero =>
    -- The only scope of a unit has no scope inside.
    have hnone : (scope.children.filter fun c => (u.scope? c).isSome) = [] := by
      refine List.filter_eq_nil_iff.2 fun c hc hsome => ?_
      have hdeep := h.depth_lt ha (.of_encloses ⟨hsome, scope, hscope, hc⟩)
      omega
    rw [hnone]
    exact List.nil_sublist _
  | succ fuel => exact children_sublist fuel scope.children

/-! ### A unit with scattered scopes -/

/-- The declaration of a function with a parameter and two variables. -/
def scatteredDecl : FuncDecl := ⟨⟨"f", some ⟨0⟩, none⟩, none, [], some ⟨2⟩, none, {}⟩

/-- A unit that lists the inner scopes of its package scope out of order, and a number of no scope
among them. One of its scopes is listed nowhere. -/
def scattered : SourceUnit where
  path := "demo"
  name := "demo"
  importable := true
  error := none
  objects := [.func "f" none ⟨none, [⟨"x", .basic .int⟩], [], false⟩, .var "x" none (.basic .int),
    .var "y" none (.basic .bool), .var "x" none (.basic .string)]
  scopes := [⟨{}, .ofList [("f", ⟨0⟩)], [⟨2⟩, ⟨9⟩, ⟨1⟩]⟩, ⟨{}, .empty, []⟩,
    ⟨{}, .ofList [("x", ⟨1⟩), ("y", ⟨2⟩)], [⟨4⟩]⟩, ⟨{}, .empty, [⟨9⟩]⟩,
    ⟨{}, .ofList [("x", ⟨3⟩)], []⟩]
  files := [⟨"f.go", [.func scatteredDecl]⟩]

theorem nested_scattered : scattered.Nested where
  listedOnce := by decide
  topmost := by decide

example : scattered.walk = [.package, ⟨2⟩, ⟨4⟩, ⟨1⟩] := by decide

end SourceUnit

/-- In a list without repetition the places of a stretch are those of its members. -/
theorem mem_stretch_iff {α : Type} {l before inner after : List α} (hl : l.Nodup)
    (heq : l = before ++ inner ++ after) {k : Nat} {x : α} (hk : l[k]? = some x) :
    x ∈ inner ↔ before.length ≤ k ∧ k < before.length + inner.length := by
  have hplace : ∀ j, j < inner.length → l[before.length + j]? = inner[j]? := by
    intro j hj
    rw [heq, List.append_assoc, List.getElem?_append_right (by omega), Nat.add_sub_cancel_left,
      List.getElem?_append_left hj]
  constructor
  · intro hx
    obtain ⟨j, hj⟩ := List.getElem?_of_mem hx
    have hlt := (List.getElem?_eq_some_iff.1 hj).1
    have hj' : l[before.length + j]? = l[k]? := by rw [hplace j hlt, hj, hk]
    have hlong : before.length + j < l.length := by
      rw [heq, List.length_append, List.length_append]
      omega
    have heq' := (List.getElem?_inj hlong hl).1 hj'
    omega
  · rintro ⟨hle, hlt⟩
    obtain ⟨j, rfl⟩ := Nat.exists_eq_add_of_le hle
    rw [hplace j (by omega)] at hk
    exact List.mem_of_getElem? hk

/-! ## The scopes of a package -/

namespace Package

/-- The walk outwards from a scope to one without a scope around it. -/
inductive Outwards (p : Package) : ScopeId → List ScopeId → Prop where
  | top {n : ScopeId} {scope : Scope} (found : p.scope? n = some scope)
    (last : scope.parent = none) : Outwards p n [n]
  | around {n m : ScopeId} {scope : Scope} {rest : List ScopeId} (found : p.scope? n = some scope)
    (parent : scope.parent = some m) (more : Outwards p m rest) : Outwards p n (n :: rest)

/-- The scopes of a package are those that its unit's package scope contains, numbered in
preorder. -/
structure Preordered (p : Package) : Prop where
  /-- A scope stands at the place of its number. -/
  placed : ∀ (i : Nat) (scope : Scope), p.scopes[i]? = some scope → scope.id = ⟨i⟩
  /-- The scopes that the package scope contains have numbers, and no others. -/
  numbered : ∀ s, (∃ n, p.scopeFor? s = some n) ↔ p.unit.Contains .package s
  /-- The numbers are those from zero up to the number of scopes. -/
  dense : ∀ n : ScopeId, n.index < p.scopes.length ↔ ∃ s, p.scopeFor? s = some n
  /-- No two scopes have the same number. -/
  injective : ∀ s t n, p.scopeFor? s = some n → p.scopeFor? t = some n → s = t
  /-- The scope around a scope is the one that lists it. -/
  parents : ∀ s n, p.scopeFor? s = some n → ∃ scope, p.scope? n = some scope ∧
    ∀ m, scope.parent = some m ↔ ∃ t, p.unit.Encloses t s ∧ p.scopeFor? t = some m
  /-- Inner scopes are numbered in the order in which they are listed. -/
  listed : ∀ s n scope, p.scopeFor? s = some n → p.unit.scope? s = some scope →
    scope.children.Pairwise fun c c' => ∀ m m', p.scopeFor? c = some m → p.scopeFor? c' = some m' →
      m.index < m'.index
  /-- The scopes in a scope have the numbers that follow its own. -/
  interval : ∀ s n t m, p.scopeFor? s = some n → p.scopeFor? t = some m →
    (p.unit.Contains s t ↔
      n.index ≤ m.index ∧ m.index < n.index + Set.ncard { x | p.unit.Contains s x })
  /-- The walk outwards from a scope comes to the package scope by ever smaller numbers. -/
  outwards : ∀ n : ScopeId, n.index < p.scopes.length → p.Outwards n (p.ancestors n) ∧
    (p.ancestors n).Pairwise (fun m m' => m'.index < m.index) ∧
      (p.ancestors n).getLast? = some .package

namespace Laid

variable {p : Package} {s t : SourceScopeId} {n m : ScopeId}

theorem length_scopes (h : p.Laid) (htop : (p.unit.scope? .package).isSome) :
    p.scopes.length = p.unit.walk.length := by
  have hlength := congrArg List.length h.scopes
  rw [List.length_map, List.length_map] at hlength
  rw [hlength, SourceUnit.walk, ← (SourceUnit.numbers_numbering htop).scopes, List.length_map]

theorem scopeFor?_package (h : p.Laid) (hnested : p.unit.Nested)
    (htop : (p.unit.scope? .package).isSome) : p.scopeFor? .package = some .package := by
  obtain ⟨scope, hscope⟩ := Option.isSome_iff_exists.1 htop
  obtain ⟨fuel, hfuel⟩ : ∃ fuel, p.unit.scopes.length = fuel + 1 := by
    have hlt := (List.getElem?_eq_some_iff.1 hscope).1
    exact ⟨p.unit.scopes.length - 1, by omega⟩
  rw [h.scopeFor?_iff_getElem? hnested htop, SourceUnit.walk, hfuel,
    SourceUnit.preorder_succ fuel hscope]
  rfl

/-- The scope around a scope is the one that lists it. -/
theorem parent_iff (h : p.Laid) (hnested : p.unit.Nested) (hsome : (p.unit.scope? s).isSome)
    (hn : p.scopeFor? s = some n) : ∃ scope, p.scope? n = some scope ∧
      ∀ m, scope.parent = some m ↔ ∃ t, p.unit.Encloses t s ∧ p.scopeFor? t = some m := by
  obtain ⟨scope, hscope, -, hparent⟩ := h.scope?_number hnested hsome hn
  refine ⟨scope, hscope, fun m => ?_⟩
  rcases hparent with ⟨rfl, hnone⟩ | ⟨t, m', hin, ht, hparent, -⟩
  · rw [hnone]
    constructor
    · intro hm
      cases hm
    · rintro ⟨t, hin, -⟩
      exact absurd hin hnested.not_encloses_package
  · rw [hparent]
    constructor
    · intro hm
      cases hm
      exact ⟨t, hin, ht⟩
    · rintro ⟨t', hin', hm⟩
      rw [hnested.outer_unique hin' hin, ht] at hm
      exact hm

/-- The scopes in a scope have the numbers that follow its own. -/
theorem contains_iff (h : p.Laid) (hnested : p.unit.Nested) (hs : p.unit.Contains .package s)
    (hn : p.scopeFor? s = some n) (hm : p.scopeFor? t = some m) : p.unit.Contains s t ↔
      n.index ≤ m.index ∧ m.index < n.index + Set.ncard { x | p.unit.Contains s x } := by
  obtain ⟨scope, hscope⟩ := Option.isSome_iff_exists.1 hs.inner_isSome
  obtain ⟨before, inner, after, hwalk, hinner, -⟩ := hnested.exists_stretch hs hscope
  have hnodup := hnested.nodup_walk
  rw [h.scopeFor?_iff_getElem? hnested hs.outer_isSome] at hn hm
  -- The stretch begins at the number of `s` and is as long as there are scopes in `s`.
  have hbegin : n.index = before.length := by
    have hfirst : p.unit.walk[before.length]? = some s := by
      rw [hwalk]
      simp
    have hlong := (List.getElem?_eq_some_iff.1 hfirst).1
    exact ((List.getElem?_inj hlong hnodup).1 (hfirst.trans hn.symm)).symm
  have hcount : Set.ncard { x | p.unit.Contains s x } = (s :: inner).length := by
    have hset : { x | p.unit.Contains s x } = ((s :: inner).toFinset : Set SourceScopeId) := by
      ext x
      rw [List.coe_toFinset]
      exact (hinner x).symm
    have hnodup' : (s :: inner).Nodup := by
      rw [hwalk] at hnodup
      exact hnodup.of_append_left.of_append_right
    rw [hset, Set.ncard_coe_finset, List.toFinset_card_of_nodup hnodup']
  rw [hcount, hbegin, ← hinner t]
  exact mem_stretch_iff hnodup hwalk hm

/-- The scopes inside a scope are numbered in the order in which they are listed. -/
theorem pairwise_children (h : p.Laid) (hnested : p.unit.Nested) (hs : p.unit.Contains .package s)
    {scope : SourceScope} (hscope : p.unit.scope? s = some scope) :
    scope.children.Pairwise fun c c' => ∀ m m', p.scopeFor? c = some m →
      p.scopeFor? c' = some m' → m.index < m'.index := by
  obtain ⟨before, inner, after, hwalk, -, hsub⟩ := hnested.exists_stretch hs hscope
  have hinner : inner.Sublist p.unit.walk := by
    rw [hwalk]
    exact ((List.sublist_cons_self s inner).trans (List.sublist_append_right before _)).trans
      (List.sublist_append_left _ after)
  have hpair := (h.pairwise_walk hnested hs.outer_isSome).sublist (hsub.trans hinner)
  refine (List.pairwise_filter.1 hpair).imp fun {c c'} hc m m' hm hm' => ?_
  have hsome : ∀ {x k}, p.scopeFor? x = some k → (p.unit.scope? x).isSome := by
    intro x k hk
    rw [h.scopeFor?_iff_getElem? hnested hs.outer_isSome] at hk
    exact (hnested.mem_walk.1 (List.mem_of_getElem? hk)).inner_isSome
  exact hc (hsome hm) (hsome hm') m m' hm hm'

/-- The walk outwards comes to the package scope by ever smaller numbers. -/
theorem outwards (h : p.Laid) (hnested : p.unit.Nested) (hs : p.unit.Contains .package s)
    (hn : p.scopeFor? s = some n) : p.Outwards n (p.ancestors n) ∧
      (p.ancestors n).Pairwise (fun m m' => m'.index < m.index) ∧
        (p.ancestors n).getLast? = some .package := by
  obtain ⟨d, hd⟩ := hs
  have htop := hd.outer_isSome
  -- The induction is on the depth of the scope.
  induction d generalizing s n with
  | zero =>
    obtain ⟨rfl, -⟩ := SourceUnit.below_zero_iff.1 hd
    have hpackage := h.scopeFor?_package hnested htop
    rw [hn, Option.some.injEq] at hpackage
    subst hpackage
    obtain ⟨scope, hscope, -, ⟨-, hparent⟩ | ⟨t, -, hin, -⟩⟩ := h.scope?_number hnested htop hn
    · rw [h.ancestors_package hnested htop hn]
      exact ⟨.top hscope hparent, List.pairwise_singleton _ _, rfl⟩
    · exact absurd hin hnested.not_encloses_package
  | succ d ih =>
    cases hd with
    | @down _ _ t _ hd step =>
      obtain ⟨scope, hscope, -, ⟨rfl, -⟩ | ⟨t', m, hin, hm, hparent, hlt⟩⟩ :=
        h.scope?_number hnested step.1 hn
      · exact absurd step hnested.not_encloses_package
      · rw [hnested.outer_unique hin step] at hm
        obtain ⟨hwalk, hpair, hlast⟩ := ih hm hd
        obtain ⟨rest, hrest⟩ := h.exists_ancestors hnested step.outer_isSome hm
        rw [h.ancestors_inner hnested step hm hn]
        refine ⟨.around hscope hparent hwalk, List.pairwise_cons.2 ⟨fun x hx => ?_, hpair⟩, ?_⟩
        · rw [hrest] at hx hpair
          rcases List.mem_cons.1 hx with rfl | hx
          · exact hlt
          · exact Nat.lt_trans ((List.pairwise_cons.1 hpair).1 x hx) hlt
        · rw [hrest] at hlast ⊢
          rw [List.getLast?_cons_cons]
          exact hlast

/-- The scopes of a package that is made of nested scopes are numbered in preorder. -/
theorem preordered (h : p.Laid) (hnested : p.unit.Nested) (hscopes : p.unit.scopes ≠ []) :
    p.Preordered := by
  have htop : (p.unit.scope? .package).isSome := by
    obtain ⟨scope, rest, hlist⟩ := List.exists_cons_of_ne_nil hscopes
    change (p.unit.scopes[0]?).isSome
    rw [hlist]
    rfl
  have hplace : ∀ s n, p.scopeFor? s = some n ↔ p.unit.walk[n.index]? = some s := fun s n =>
    h.scopeFor?_iff_getElem? hnested htop
  have hreached : ∀ {s n}, p.scopeFor? s = some n → p.unit.Contains .package s := fun hn =>
    hnested.mem_walk.1 (List.mem_of_getElem? ((hplace _ _).1 hn))
  have hdense : ∀ n : ScopeId, n.index < p.scopes.length ↔ ∃ s, p.scopeFor? s = some n := by
    intro n
    rw [h.length_scopes htop]
    constructor
    · intro hlt
      exact ⟨_, (hplace _ n).2 (List.getElem?_eq_getElem hlt)⟩
    · rintro ⟨s, hs⟩
      exact (List.getElem?_eq_some_iff.1 ((hplace s n).1 hs)).1
  refine ⟨fun i scope hi => ?_, fun s => ?_, hdense, fun s t n hs ht => ?_, fun s n hn => ?_,
    fun s n scope hn hscope => ?_, fun s n t m hn hm => ?_, fun n hlt => ?_⟩
  · obtain ⟨s, hs⟩ := (hdense ⟨i⟩).1 (List.getElem?_eq_some_iff.1 hi).1
    obtain ⟨scope', hscope', hid, -⟩ := h.scope?_number hnested (hreached hs).inner_isSome hs
    have heq : some scope = some scope' := hi.symm.trans hscope'
    cases heq
    exact hid
  · constructor
    · rintro ⟨n, hn⟩
      exact hreached hn
    · exact h.exists_number hnested
  · exact h.number_inj hnested (hreached hs).inner_isSome hs ht
  · exact h.parent_iff hnested (hreached hn).inner_isSome hn
  · exact h.pairwise_children hnested (hreached hn) hscope
  · exact h.contains_iff hnested (hreached hn) hn hm
  · obtain ⟨s, hs⟩ := (hdense n).1 hlt
    exact h.outwards hnested (hreached hs) hs

end Laid

end Package

namespace Program

/-- A package that is made of nested scopes has them numbered in preorder, whatever operations come
later. -/
theorem create_preordered {p : Program} {u : SourceUnit} {id : PackageId} (hnested : u.Nested)
    (hscopes : u.scopes ≠ []) (hnew : p.byIdentity.find? u.path = none)
    (hcreate : (p.create u).result = .ok id) (operations : List Operation) :
    ∃ pkg, ((p.create u).program.run operations).package? id = some pkg ∧ pkg.unit = u ∧
      pkg.Preordered := by
  obtain ⟨d, pkg, hb, hpkg, hgrows⟩ := exists_grown_of_create hnew hcreate operations
  have htracks := Draft.tracks_build (Draft.tracks_start id u) hb
  obtain ⟨rfl, hlaid⟩ := htracks.laid_grown hgrows
  exact ⟨pkg, hpkg, rfl, hlaid.preordered hnested hscopes⟩

theorem create_preordered_scattered :
    let p : Program := {}
    let u := SourceUnit.scattered
    (u.Nested ∧ u.scopes ≠ [] ∧ p.byIdentity.find? u.path = none ∧
      (p.create u).result = .ok ⟨0⟩) ∧
    ∃ pkg, ((p.create u).program.run []).package? ⟨0⟩ = some pkg ∧ pkg.unit = u ∧
      pkg.Preordered := by
  intro p u
  have hscopes : u.scopes ≠ [] := List.cons_ne_nil _ _
  have hcreate : (p.create u).result = .ok ⟨0⟩ := rfl
  exact ⟨⟨SourceUnit.nested_scattered, hscopes, rfl, hcreate⟩,
    create_preordered SourceUnit.nested_scattered hscopes rfl hcreate []⟩

end Program

end TraceDebugger
