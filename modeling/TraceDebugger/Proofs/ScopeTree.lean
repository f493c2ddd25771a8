import Mathlib.Data.Fintype.Card
import TraceDebugger.Source.Unit

/-!
# The scopes of a unit as a tree

A type checker leaves the scopes of a unit nested (`SourceUnit.Nested`), and as a tree with the
package scope on top if each scope is reached from it (`SourceUnit.IsTree`). In nested scopes the
scope around a scope is unique and the scopes around a scope form a chain; below the package scope
depth is well defined and less than the number of scopes.

A name means what the nearest scope binds it to (`SourceUnit.Nearest`).
-/

namespace TraceDebugger

namespace SourceUnit

/-- `inner` is a scope directly inside `outer`. -/
def Encloses (u : SourceUnit) (outer inner : SourceScopeId) : Prop :=
  (u.scope? inner).isSome ∧ ∃ scope, u.scope? outer = some scope ∧ inner ∈ scope.children

/-- `inner` is a scope so many levels below `outer`. -/
inductive Below (u : SourceUnit) : Nat → SourceScopeId → SourceScopeId → Prop where
  | here {s : SourceScopeId} (h : (u.scope? s).isSome) : Below u 0 s s
  | down {n : Nat} {outer s inner : SourceScopeId} (h : Below u n outer s)
    (step : u.Encloses s inner) : Below u (n + 1) outer inner

/-- `inner` is `outer` or a scope below it. -/
def Contains (u : SourceUnit) (outer inner : SourceScopeId) : Prop := ∃ n, u.Below n outer inner

/-- The scopes of a unit are nested: each is listed once at most as an inner scope, the package
scope never. Listed numbers of no scope do not count. -/
structure Nested (u : SourceUnit) : Prop where
  /-- No scope is listed as an inner scope twice. -/
  listedOnce : ((u.scopes.flatMap (·.children)).filter fun s => (u.scope? s).isSome).Nodup
  /-- The package scope is not an inner scope. -/
  topmost : SourceScopeId.package ∉ u.scopes.flatMap (·.children)

/-- The scopes of a unit are a tree with the package scope on top. -/
structure IsTree (u : SourceUnit) : Prop where
  /-- Each scope is reached from the package scope. -/
  rooted : ∀ s, (u.scope? s).isSome → u.Contains .package s
  /-- No scope is listed as an inner scope twice. -/
  listedOnce : (u.scopes.flatMap (·.children)).Nodup
  /-- The package scope is not an inner scope. -/
  topmost : SourceScopeId.package ∉ u.scopes.flatMap (·.children)

variable {u : SourceUnit}

/-! ## Levels -/

theorem Encloses.outer_isSome {a b : SourceScopeId} (h : u.Encloses a b) : (u.scope? a).isSome := by
  obtain ⟨-, scope, hscope, -⟩ := h
  rw [hscope]
  rfl

theorem Below.inner_isSome {n : Nat} {a b : SourceScopeId} (h : u.Below n a b) :
    (u.scope? b).isSome := by
  cases h with
  | here h => exact h
  | down _ step => exact step.1

theorem Below.outer_isSome {n : Nat} {a b : SourceScopeId} (h : u.Below n a b) :
    (u.scope? a).isSome := by
  induction h with
  | here h => exact h
  | down _ _ ih => exact ih

theorem Below.trans {n m : Nat} {a b c : SourceScopeId} (h : u.Below n a b) (h' : u.Below m b c) :
    u.Below (n + m) a c := by
  induction h' with
  | here _ => exact h
  | down _ step ih => exact .down (ih h) step

theorem Below.of_encloses {a b : SourceScopeId} (h : u.Encloses a b) : u.Below 1 a b :=
  .down (.here h.outer_isSome) h

theorem Below.split {n m : Nat} {a c : SourceScopeId} (h : u.Below (n + m) a c) :
    ∃ b, u.Below n a b ∧ u.Below m b c := by
  induction m generalizing c with
  | zero => exact ⟨c, h, .here h.inner_isSome⟩
  | succ m ih =>
    cases h with
    | down h step =>
      obtain ⟨b, hab, hbc⟩ := ih h
      exact ⟨b, hab, .down hbc step⟩

theorem below_zero_iff {a b : SourceScopeId} :
    u.Below 0 a b ↔ a = b ∧ (u.scope? a).isSome := by
  constructor
  · intro h
    cases h with
    | here h => exact ⟨rfl, h⟩
  · rintro ⟨rfl, h⟩
    exact .here h

/-- The first level on the way down. -/
theorem below_succ_iff {n : Nat} {a c : SourceScopeId} :
    u.Below (n + 1) a c ↔ ∃ b, u.Encloses a b ∧ u.Below n b c := by
  constructor
  · intro h
    rw [Nat.add_comm] at h
    obtain ⟨b, hab, hbc⟩ := h.split
    cases hab with
    | down h step =>
      obtain ⟨rfl, -⟩ := below_zero_iff.1 h
      exact ⟨b, step, hbc⟩
  · rintro ⟨b, hab, hbc⟩
    rw [Nat.add_comm]
    exact (Below.of_encloses hab).trans hbc

theorem Contains.refl {a : SourceScopeId} (h : (u.scope? a).isSome) : u.Contains a a := ⟨0, .here h⟩

theorem Contains.inner_isSome {a b : SourceScopeId} (h : u.Contains a b) :
    (u.scope? b).isSome := by
  obtain ⟨_, hn⟩ := h
  exact hn.inner_isSome

theorem Contains.outer_isSome {a b : SourceScopeId} (h : u.Contains a b) :
    (u.scope? a).isSome := by
  obtain ⟨_, hn⟩ := h
  exact hn.outer_isSome

theorem Contains.trans {a b c : SourceScopeId} (h : u.Contains a b) (h' : u.Contains b c) :
    u.Contains a c := by
  obtain ⟨n, hn⟩ := h
  obtain ⟨m, hm⟩ := h'
  exact ⟨n + m, hn.trans hm⟩

theorem Encloses.contains {a b : SourceScopeId} (h : u.Encloses a b) : u.Contains a b :=
  ⟨1, .of_encloses h⟩

/-! ## The number of levels -/

/-- The scopes on a way down, level by level. -/
theorem Below.exists_path {n : Nat} {a b : SourceScopeId} (h : u.Below n a b) :
    ∃ path : Nat → SourceScopeId, path 0 = a ∧ path n = b ∧
      ∀ i j, i ≤ j → j ≤ n → u.Below (j - i) (path i) (path j) := by
  induction h with
  | @here a h =>
    refine ⟨fun _ => a, rfl, rfl, fun i j hij hj => ?_⟩
    rw [Nat.sub_eq_zero_of_le (by omega)]
    exact .here h
  | @down n a s b h step ih =>
    obtain ⟨path, hfirst, hlast, hpath⟩ := ih
    refine ⟨fun k => if k ≤ n then path k else b, ?_, ?_, fun i j hij hj => ?_⟩
    · exact hfirst
    · exact if_neg (by omega)
    · dsimp only
      by_cases hjn : j ≤ n
      · rw [if_pos (by omega), if_pos hjn]
        exact hpath i j hij hjn
      · have hj' : j = n + 1 := by omega
        subst hj'
        rw [if_neg hjn]
        by_cases hin : i ≤ n
        · have hbelow := hpath i n hin (Nat.le_refl n)
          rw [hlast] at hbelow
          rw [if_pos hin, Nat.sub_add_comm hin]
          exact .down hbelow step
        · rw [if_neg hin, Nat.sub_eq_zero_of_le (by omega)]
          exact .here step.1

/-- Where no scope is below itself there are fewer levels than scopes. -/
theorem Below.lt_of_acyclic {n : Nat} {a b : SourceScopeId} (h : u.Below n a b)
    (hacyclic : ∀ s k, u.Contains a s → u.Below k s s → k = 0) : n < u.scopes.length := by
  obtain ⟨path, hfirst, -, hpath⟩ := h.exists_path
  have hrange : ∀ k : Fin (n + 1), (path k).index.toNat < u.scopes.length := by
    intro k
    have hlevel := hpath k k (Nat.le_refl _) (Nat.le_of_lt_succ k.isLt)
    obtain ⟨scope, hscope⟩ := Option.isSome_iff_exists.1 hlevel.inner_isSome
    exact (List.getElem?_eq_some_iff.1 hscope).1
  have hne : ∀ i j : Fin (n + 1), i < j → path i ≠ path j := by
    intro i j hlt heq
    have hdown := hpath 0 i (Nat.zero_le _) (Nat.le_of_lt_succ i.isLt)
    have hloop := hpath i j (Nat.le_of_lt hlt) (Nat.le_of_lt_succ j.isLt)
    rw [hfirst] at hdown
    rw [← heq] at hloop
    have hzero := hacyclic (path i) _ ⟨_, hdown⟩ hloop
    omega
  have hinj : Function.Injective fun k : Fin (n + 1) =>
      (⟨(path k).index.toNat, hrange k⟩ : Fin u.scopes.length) := by
    intro i j hij
    have hindex : (path i).index = (path j).index := UInt32.toNat_inj.1 (Fin.mk.inj hij)
    have hpaths : path i = path j := congrArg SourceScopeId.mk hindex
    rcases lt_trichotomy i j with hlt | heq | hlt
    · exact absurd hpaths (hne i j hlt)
    · exact heq
    · exact absurd hpaths.symm (hne j i hlt)
  have hcard := Fintype.card_le_of_injective _ hinj
  rw [Fintype.card_fin, Fintype.card_fin] at hcard
  omega

/-! ## Nested scopes -/

theorem Encloses.exists_mem {a b : SourceScopeId} (h : u.Encloses a b) :
    ∃ i scope, a.index.toNat = i ∧ u.scopes[i]? = some scope ∧ b ∈ scope.children := by
  obtain ⟨-, scope, hscope, hmem⟩ := h
  exact ⟨_, scope, rfl, hscope, hmem⟩

namespace Nested

/-- No scope is listed twice in one list or in two. -/
theorem nodup_children (h : u.Nested) :
    (∀ scope ∈ u.scopes, (scope.children.filter fun s => (u.scope? s).isSome).Nodup) ∧
    u.scopes.Pairwise fun scope scope' =>
      (scope.children.filter fun s => (u.scope? s).isSome).Disjoint
        (scope'.children.filter fun s => (u.scope? s).isSome) := by
  have hlisted := h.listedOnce
  rw [List.filter_flatMap] at hlisted
  exact List.nodup_flatMap.1 hlisted

/-- Two places of a list of inner scopes hold different scopes. -/
theorem pairwise_children (h : u.Nested) {a : SourceScopeId} {scope : SourceScope}
    (hscope : u.scope? a = some scope) : scope.children.Pairwise fun c c' =>
      (u.scope? c).isSome → (u.scope? c').isSome → c ≠ c' :=
  List.pairwise_filter.1 (h.nodup_children.1 scope (List.mem_of_getElem? hscope))

/-- The scope around a scope is unique. -/
theorem outer_unique (h : u.Nested) {a b c : SourceScopeId} (ha : u.Encloses a c)
    (hb : u.Encloses b c) : a = b := by
  obtain ⟨i, scope, hi, hscope, hmem⟩ := ha.exists_mem
  obtain ⟨j, scope', hj, hscope', hmem'⟩ := hb.exists_mem
  have hlisted : c ∈ scope.children.filter fun s => (u.scope? s).isSome :=
    List.mem_filter.2 ⟨hmem, ha.1⟩
  have hlisted' : c ∈ scope'.children.filter fun s => (u.scope? s).isSome :=
    List.mem_filter.2 ⟨hmem', hb.1⟩
  have hpair := h.nodup_children.2
  have hij : i = j := by
    rw [List.pairwise_iff_getElem] at hpair
    obtain ⟨hi, rfl⟩ := List.getElem?_eq_some_iff.1 hscope
    obtain ⟨hj, rfl⟩ := List.getElem?_eq_some_iff.1 hscope'
    rcases Nat.lt_trichotomy i j with hlt | heq | hlt
    · exact absurd hlisted' (hpair i j hi hj hlt hlisted)
    · exact heq
    · exact absurd hlisted (hpair j i hj hi hlt hlisted')
  have hindex : a.index = b.index := UInt32.toNat_inj.1 (by omega)
  cases a
  cases b
  cases hindex
  rfl

theorem not_encloses_package (h : u.Nested) {a : SourceScopeId} : ¬ u.Encloses a .package := by
  intro ha
  obtain ⟨i, scope, -, hscope, hmem⟩ := ha.exists_mem
  exact h.topmost (List.mem_flatMap.2 ⟨scope, List.mem_of_getElem? hscope, hmem⟩)

/-- The scope so many levels above a scope is unique. -/
theorem above_unique (h : u.Nested) {n : Nat} {a b c : SourceScopeId} (ha : u.Below n a c)
    (hb : u.Below n b c) : a = b := by
  induction ha generalizing b with
  | here _ => exact (below_zero_iff.1 hb).1.symm
  | down _ step ih =>
    cases hb with
    | down hb step' =>
      rw [h.outer_unique step' step] at hb
      exact ih hb

/-- The depth of a scope below the package scope is unique. -/
theorem depth_unique (h : u.Nested) {n m : Nat} {a : SourceScopeId} (hn : u.Below n .package a)
    (hm : u.Below m .package a) : n = m := by
  induction n generalizing m a with
  | zero =>
    obtain ⟨rfl, -⟩ := below_zero_iff.1 hn
    cases hm with
    | here _ => rfl
    | down _ step => exact absurd step h.not_encloses_package
  | succ n ih =>
    cases hn with
    | down hn step =>
      cases hm with
      | here _ => exact absurd step h.not_encloses_package
      | down hm step' =>
        rw [h.outer_unique step' step] at hm
        rw [ih hn hm]

/-- Of two scopes around a scope one contains the other. -/
theorem chain (h : u.Nested) {a b c : SourceScopeId} (ha : u.Contains a c) (hb : u.Contains b c) :
    u.Contains a b ∨ u.Contains b a := by
  obtain ⟨n, hn⟩ := ha
  obtain ⟨m, hm⟩ := hb
  rcases Nat.le_total n m with hle | hle
  · obtain ⟨k, rfl⟩ := Nat.exists_eq_add_of_le' hle
    obtain ⟨x, hbx, hxc⟩ := hm.split
    rw [← h.above_unique hn hxc] at hbx
    exact .inr ⟨k, hbx⟩
  · obtain ⟨k, rfl⟩ := Nat.exists_eq_add_of_le' hle
    obtain ⟨x, hax, hxc⟩ := hn.split
    rw [← h.above_unique hm hxc] at hax
    exact .inl ⟨k, hax⟩

/-! What follows holds of scopes that are reached from the package scope. -/

variable {a b : SourceScopeId}

theorem eq_of_below (h : u.Nested) (ha : u.Contains .package a) {n m : Nat} (hn : u.Below n a b)
    (hm : u.Below m a b) : n = m := by
  obtain ⟨d, hd⟩ := ha
  have heq := h.depth_unique (hd.trans hn) (hd.trans hm)
  omega

theorem antisymm (h : u.Nested) (ha : u.Contains .package a) (hab : u.Contains a b)
    (hba : u.Contains b a) : a = b := by
  obtain ⟨n, hn⟩ := hab
  obtain ⟨m, hm⟩ := hba
  have hzero : n + m = 0 := h.eq_of_below ha (hn.trans hm) (.here hn.outer_isSome)
  have hn0 : n = 0 := by omega
  subst hn0
  exact (below_zero_iff.1 hn).1

/-- There are fewer levels than scopes. -/
theorem depth_lt (h : u.Nested) (ha : u.Contains .package a) {n : Nat} (hn : u.Below n a b) :
    n < u.scopes.length := by
  refine hn.lt_of_acyclic fun s k hs hloop => ?_
  exact h.eq_of_below (ha.trans hs) hloop (.here hs.inner_isSome)

end Nested

/-! ## Trees -/

namespace IsTree

/-- The scopes of a tree are nested. -/
theorem nested (h : u.IsTree) : u.Nested := ⟨h.listedOnce.filter _, h.topmost⟩

theorem outer_unique (h : u.IsTree) {a b c : SourceScopeId} (ha : u.Encloses a c)
    (hb : u.Encloses b c) : a = b :=
  h.nested.outer_unique ha hb

theorem antisymm (h : u.IsTree) {a b : SourceScopeId} (hab : u.Contains a b)
    (hba : u.Contains b a) : a = b :=
  h.nested.antisymm (h.rooted a hab.outer_isSome) hab hba

end IsTree

/-! ## The nearest scope that binds a name -/

/-- A scope binds a name to an object. -/
def Binds (u : SourceUnit) (s : SourceScopeId) (name : String) (object : ObjectId) : Prop :=
  ∃ scope, u.scope? s = some scope ∧ scope.names.find? name = some object

/-- From the scope `s` outwards, the first scope that binds a name is `t`, which binds it to an
object. -/
inductive Nearest (u : SourceUnit) (name : String) (t : SourceScopeId) (object : ObjectId) :
    SourceScopeId → Prop where
  | here (binds : u.Binds t name object) : Nearest u name t object t
  | outer {s around : SourceScopeId} (unbound : ∀ o, ¬ u.Binds s name o)
    (step : u.Encloses around s) (rest : Nearest u name t object around) :
    Nearest u name t object s

theorem Binds.isSome {s : SourceScopeId} {name : String} {o : ObjectId} (h : u.Binds s name o) :
    (u.scope? s).isSome := by
  obtain ⟨scope, hscope, -⟩ := h
  rw [hscope]
  rfl

theorem Binds.unique {s : SourceScopeId} {name : String} {o o' : ObjectId} (h : u.Binds s name o)
    (h' : u.Binds s name o') : o = o' := by
  obtain ⟨scope, hscope, hfind⟩ := h
  obtain ⟨scope', hscope', hfind'⟩ := h'
  rw [hscope, Option.some.injEq] at hscope'
  subst hscope'
  rw [hfind, Option.some.injEq] at hfind'
  exact hfind'

namespace Nearest

variable {name : String} {s t : SourceScopeId} {o : ObjectId}

theorem binds (h : u.Nearest name t o s) : u.Binds t name o := by
  induction h with
  | here binds => exact binds
  | outer _ _ _ ih => exact ih

theorem contains (h : u.Nearest name t o s) : u.Contains t s := by
  induction h with
  | here binds => exact .refl binds.isSome
  | outer _ step _ ih => exact ih.trans step.contains

/-- Any scope around `s` that binds the name is around the nearest one. -/
theorem contains_of_binds (h : u.Nearest name t o s) (htree : u.IsTree) {x : SourceScopeId}
    {o' : ObjectId} (hx : u.Contains x s) (hbinds : u.Binds x name o') : u.Contains x t := by
  induction h with
  | here _ => exact hx
  | outer unbound step _ ih =>
    obtain ⟨n, hn⟩ := hx
    cases hn with
    | here _ => exact absurd hbinds (unbound o')
    | down hn step' =>
      rw [htree.outer_unique step' step] at hn
      exact ih ⟨_, hn⟩

/-- Only one scope is the nearest. -/
theorem unique (h : u.Nearest name t o s) {t' : SourceScopeId} {o' : ObjectId}
    (h' : u.Nearest name t' o' s) (htree : u.IsTree) : t = t' ∧ o = o' := by
  have heq : t = t' := htree.antisymm (h'.contains_of_binds htree h.contains h.binds)
    (h.contains_of_binds htree h'.contains h'.binds)
  subst heq
  exact ⟨rfl, h.binds.unique h'.binds⟩

end Nearest

theorem exists_nearest {name : String} {s x : SourceScopeId} {o : ObjectId} (hx : u.Contains x s)
    (hbinds : u.Binds x name o) : ∃ t o', u.Nearest name t o' s := by
  obtain ⟨n, hn⟩ := hx
  induction hn with
  | here _ => exact ⟨_, _, .here hbinds⟩
  | @down _ _ _ s _ step ih =>
    obtain ⟨t, o', hnearest⟩ := ih hbinds
    by_cases hs : ∃ o, u.Binds s name o
    · obtain ⟨o, ho⟩ := hs
      exact ⟨s, o, .here ho⟩
    · exact ⟨t, o', .outer (fun o ho => hs ⟨o, ho⟩) step hnearest⟩

end SourceUnit

end TraceDebugger
