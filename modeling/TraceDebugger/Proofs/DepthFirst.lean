import TraceDebugger.Proofs.Membership
import TraceDebugger.Proofs.Slots

/-!
# Depth-first walks

A depth-first walk takes the first of the scopes that are waiting and puts the scopes inside it in
front of the others (`SourceUnit.DepthFirst`). It need not come to an end. If it does from the
package scope, then no scope that it comes to is below itself, so there are fewer levels than
scopes, and the walks of the package, which stop after as many levels as there are scopes, go as far
(`SourceUnit.DepthFirst.eq_flatMap`). In particular the variables that get slots are those of the
scopes of such a walk (`Package.Laid.flatMap_localDecls`). Scopes need not be nested for this: one
that is listed twice is come to twice.
-/

namespace TraceDebugger

namespace SourceUnit

/-- From the scopes that are waiting, depth-first, the given ones are visited. Numbers of no scope
are passed over. -/
inductive DepthFirst (u : SourceUnit) : List SourceScopeId → List SourceScopeId → Prop where
  | done : DepthFirst u [] []
  | absent {s : SourceScopeId} {waiting visited : List SourceScopeId} (missing : u.scope? s = none)
    (rest : DepthFirst u waiting visited) : DepthFirst u (s :: waiting) visited
  | visit {s : SourceScopeId} {scope : SourceScope} {waiting visited : List SourceScopeId}
    (found : u.scope? s = some scope) (rest : DepthFirst u (scope.children ++ waiting) visited) :
    DepthFirst u (s :: waiting) (s :: visited)

namespace DepthFirst

variable {u : SourceUnit} {waiting waiting' visited visited' : List SourceScopeId}
  {a s : SourceScopeId}

theorem append (h : u.DepthFirst waiting visited) (h' : u.DepthFirst waiting' visited') :
    u.DepthFirst (waiting ++ waiting') (visited ++ visited') := by
  induction h with
  | done => exact h'
  | absent missing _ ih => exact .absent missing ih
  | visit found _ ih =>
    rw [List.append_assoc] at ih
    exact .visit found ih

/-- What waits in front is visited first. -/
theorem split (h : u.DepthFirst (waiting ++ waiting') visited) : ∃ first rest,
    visited = first ++ rest ∧ u.DepthFirst waiting first ∧ u.DepthFirst waiting' rest := by
  generalize hall : waiting ++ waiting' = all at h
  induction h generalizing waiting with
  | done =>
    obtain ⟨rfl, rfl⟩ := List.append_eq_nil_iff.1 hall
    exact ⟨[], [], rfl, .done, .done⟩
  | @absent s rest visited missing hrest ih =>
    cases waiting with
    | nil =>
      subst hall
      exact ⟨[], _, rfl, .done, .absent missing hrest⟩
    | cons t waiting =>
      cases hall
      obtain ⟨first, rest, rfl, hfirst, hsecond⟩ := ih rfl
      exact ⟨first, rest, rfl, .absent missing hfirst, hsecond⟩
  | @visit s scope rest visited found hrest ih =>
    cases waiting with
    | nil =>
      subst hall
      exact ⟨[], _, rfl, .done, .visit found hrest⟩
    | cons t waiting =>
      cases hall
      obtain ⟨first, rest, rfl, hfirst, hsecond⟩ := ih (List.append_assoc _ _ _)
      exact ⟨_ :: first, rest, rfl, .visit found hfirst, hsecond⟩

/-- There is only one walk. -/
theorem unique (h : u.DepthFirst waiting visited) (h' : u.DepthFirst waiting visited') :
    visited = visited' := by
  induction h generalizing visited' with
  | done =>
    cases h'
    rfl
  | absent missing _ ih =>
    cases h' with
    | absent _ rest => exact ih rest
    | visit found _ =>
      rw [missing] at found
      cases found
  | visit found _ ih =>
    cases h' with
    | absent missing _ =>
      rw [found] at missing
      cases missing
    | visit found' rest =>
      rw [found] at found'
      cases found'
      rw [ih rest]

/-! ## The bound on the levels -/

/-- The walk from a scope is part of that from the scope around it, and shorter. -/
theorem of_encloses (h : u.DepthFirst [a] visited) (hin : u.Encloses a s) :
    ∃ inner, u.DepthFirst [s] inner ∧ inner.length + 1 ≤ visited.length := by
  obtain ⟨-, scope, hscope, hmem⟩ := hin
  obtain ⟨before, after, hchildren⟩ := List.append_of_mem hmem
  cases h with
  | absent missing _ =>
    rw [hscope] at missing
    cases missing
  | @visit _ _ _ rest found hrest =>
    rw [hscope] at found
    cases found
    rw [hchildren, List.append_nil] at hrest
    obtain ⟨first, tail, rfl, -, htail⟩ := hrest.split
    change u.DepthFirst ([s] ++ after) tail at htail
    obtain ⟨inner, last, rfl, hinner, -⟩ := htail.split
    refine ⟨inner, hinner, ?_⟩
    simp only [List.length_cons, List.length_append]
    omega

theorem of_below (h : u.DepthFirst [a] visited) {n : Nat} (hn : u.Below n a s) :
    ∃ inner, u.DepthFirst [s] inner ∧ inner.length + n ≤ visited.length := by
  induction hn with
  | here _ => exact ⟨visited, h, Nat.le_refl _⟩
  | down _ step ih =>
    obtain ⟨outer, houter, hlength⟩ := ih h
    obtain ⟨inner, hinner, hlength'⟩ := houter.of_encloses step
    exact ⟨inner, hinner, by omega⟩

/-- Where the walk ends there are fewer levels than scopes. -/
theorem depth_lt (h : u.DepthFirst [a] visited) {n : Nat} (hn : u.Below n a s) :
    n < u.scopes.length := by
  refine hn.lt_of_acyclic fun t k ht hloop => ?_
  obtain ⟨_, ht⟩ := ht
  -- the walk from a scope below itself would be longer than itself
  obtain ⟨inner, hinner, -⟩ := h.of_below ht
  obtain ⟨inner', hinner', hlength⟩ := hinner.of_below hloop
  rw [hinner.unique hinner'] at hlength
  omega

/-- The walk from each of the waiting scopes ends. -/
theorem of_mem (h : u.DepthFirst waiting visited) (hmem : a ∈ waiting) :
    ∃ inner, u.DepthFirst [a] inner := by
  obtain ⟨before, after, rfl⟩ := List.append_of_mem hmem
  obtain ⟨-, rest, -, -, hrest⟩ := h.split
  change u.DepthFirst ([a] ++ after) rest at hrest
  obtain ⟨inner, -, -, hinner, -⟩ := hrest.split
  exact ⟨inner, hinner⟩

/-- A walk that ends visits what is visited within as many levels as there are scopes. -/
theorem eq_flatMap (h : u.DepthFirst waiting visited) :
    visited = waiting.flatMap (u.preorder u.scopes.length) := by
  induction h with
  | done => rfl
  | absent missing _ ih => rw [List.flatMap_cons, preorder_none _ missing, List.nil_append, ← ih]
  | @visit s scope waiting visited found rest ih =>
    obtain ⟨inner, hinner⟩ := of_mem (.visit found rest) (List.mem_cons_self (a := s))
    have hlt : ∀ n t, u.Below n s t → n < u.scopes.length := fun n t hn => hinner.depth_lt hn
    obtain ⟨fuel, hfuel⟩ := Nat.exists_eq_add_of_lt (hlt 0 s (.here (by rw [found]; rfl)))
    rw [Nat.zero_add] at hfuel
    -- what is below a child is a level deeper below the scope, so one level less is enough
    have hchildren : scope.children.flatMap (u.preorder fuel) =
        scope.children.flatMap (u.preorder u.scopes.length) := by
      refine List.flatMap_congr fun c hc => preorder_congr (fun n t hn => ?_) fun n t hn => ?_
      · have hdeep := hlt _ t (below_succ_iff.2 ⟨c, ⟨hn.outer_isSome, scope, found, hc⟩, hn⟩)
        omega
      · have hdeep := hlt _ t (below_succ_iff.2 ⟨c, ⟨hn.outer_isSome, scope, found, hc⟩, hn⟩)
        omega
    rw [ih, List.flatMap_append, List.flatMap_cons, ← hchildren, hfuel, preorder_succ fuel found,
      List.cons_append, ← hfuel]

/-- The scopes that are visited are those that a waiting scope contains. -/
theorem mem_iff (h : u.DepthFirst waiting visited) :
    s ∈ visited ↔ ∃ a ∈ waiting, u.Contains a s := by
  rw [h.eq_flatMap, List.mem_flatMap]
  constructor
  · rintro ⟨a, ha, hs⟩
    obtain ⟨n, -, hn⟩ := mem_preorder.1 hs
    exact ⟨a, ha, n, hn⟩
  · rintro ⟨a, ha, n, hn⟩
    obtain ⟨inner, hinner⟩ := h.of_mem ha
    exact ⟨a, ha, mem_preorder.2 ⟨n, hinner.depth_lt hn, hn⟩⟩

/-- From scopes that a walk visits there is a walk that ends. -/
theorem exists_of_subset (h : u.DepthFirst waiting visited) (roots : List SourceScopeId)
    (hroots : ∀ r ∈ roots, r ∈ visited) : ∃ visited', u.DepthFirst roots visited' := by
  induction roots with
  | nil => exact ⟨[], .done⟩
  | cons r rest ih =>
    obtain ⟨a, ha, n, hn⟩ := h.mem_iff.1 (hroots r List.mem_cons_self)
    obtain ⟨inner, hinner⟩ := h.of_mem ha
    obtain ⟨first, hfirst, -⟩ := hinner.of_below hn
    obtain ⟨second, hsecond⟩ := ih fun r' hr' => hroots r' (List.mem_cons_of_mem r hr')
    exact ⟨first ++ second, hfirst.append hsecond⟩

end DepthFirst

end SourceUnit

/-! ## The variables of a walk -/

/-- A table made of a list has a value for the keys of the list. -/
theorem Table.isSome_find?_ofList {α β : Type} [Ord α] [Std.TransOrd α] [Std.LawfulEqOrd α]
    [DecidableEq α] {l : List (α × β)} {key : α} :
    ((ofList l).find? key).isSome ↔ key ∈ l.map (·.1) := by
  unfold ofList
  rw [find?_foldl_insert, find?_empty, Option.or_none, Option.isSome_map, List.find?_isSome]
  constructor
  · rintro ⟨e, he, hkey⟩
    exact List.mem_map.2 ⟨e, List.mem_reverse.1 he, by simpa using hkey⟩
  · intro h
    obtain ⟨e, he, rfl⟩ := List.mem_map.1 h
    exact ⟨e, List.mem_reverse.2 he, by simp⟩

namespace Package

/-- The variables that are bound in a scope, by name. -/
def variablesOf (p : Package) (s : SourceScopeId) : List LocalDecl :=
  match p.unit.scope? s, p.scopeFor? s with
  | some scope, some n => scope.names.entries.filterMap fun (name, o) => p.localDecl? n name o
  | _, _ => []

variable {p : Package} {all : List SourceScopeId} {r s : SourceScopeId}

theorem mem_variablesOf {v : LocalDecl} : v ∈ p.variablesOf s ↔
    p.scopeFor? s = some v.scope ∧ ∃ o vname pos, p.unit.Binds s v.name o ∧
      p.unit.object? o = some (.var vname pos v.type) ∧ v.span = pos.elim {} Span.point := by
  unfold variablesOf SourceUnit.Binds
  cases p.unit.scope? s with
  | none => simp
  | some scope =>
    cases p.scopeFor? s with
    | none => simp
    | some n =>
      simp only [List.mem_filterMap, Prod.exists, Laid.localDecl?_eq_some,
        ← Table.find?_eq_some_iff]
      constructor
      · rintro ⟨name, o, hfound, hkey, vname, pos, hobject, hspan⟩
        cases hkey
        exact ⟨rfl, o, vname, pos, ⟨scope, rfl, hfound⟩, hobject, hspan⟩
      · rintro ⟨hn, o, vname, pos, ⟨_, hscope, hfound⟩, hobject, hspan⟩
        cases hn
        cases hscope
        exact ⟨v.name, o, hfound, rfl, vname, pos, hobject, hspan⟩

/-- The variables of a scope have increasing names. -/
theorem pairwise_variablesOf (p : Package) (s : SourceScopeId) :
    (p.variablesOf s).Pairwise fun v w => compare v.name w.name = .lt := by
  unfold variablesOf
  split
  · rename_i scope n _ _
    refine List.pairwise_filterMap.2 (scope.names.sorted.imp fun {a b} hlt v hv w hw => ?_)
    have hv : v.name = a.1 := congrArg LocalKey.name (Laid.localDecl?_eq_some.1 hv).1
    have hw : w.name = b.1 := congrArg LocalKey.name (Laid.localDecl?_eq_some.1 hw).1
    rw [hv, hw]
    exact hlt
  · exact .nil

/-- The scopes that have a number are those that the walk from the package scope visits. -/
theorem Laid.isSome_scopeFor?_iff (h : p.Laid) (hall : p.unit.DepthFirst [.package] all)
    (hs : (p.unit.scope? s).isSome) : (p.scopeFor? s).isSome ↔ s ∈ all := by
  have hwalk : p.unit.numbering.map (·.1) = all := by
    have hscopes := (SourceUnit.numbers_numbering hs).scopes
    rw [hscopes, hall.eq_flatMap, List.flatMap_singleton]
  unfold scopeFor?
  rw [h.numbers, Table.isSome_find?_ofList, List.map_map]
  change s ∈ p.unit.numbering.map (·.1) ↔ _
  rw [hwalk]

/-- Where all scopes have numbers, the variables of a walk are those of its scopes. -/
theorem flatMap_subtreeFrom (fuel : Nat)
    (h : ∀ s, p.unit.Contains r s → (p.scopeFor? s).isSome) :
    ((p.unit.subtreeFrom p.scopeNumbers fuel r).flatMap fun (_, n, scope) =>
        scope.names.entries.filterMap fun (name, o) => p.localDecl? n name o) =
      (p.unit.preorder fuel r).flatMap p.variablesOf := by
  induction fuel generalizing r with
  | zero => rfl
  | succ fuel ih =>
    cases hscope : p.unit.scope? r with
    | none => simp only [SourceUnit.subtreeFrom, SourceUnit.preorder, hscope, List.flatMap_nil]
    | some scope =>
      obtain ⟨n, hn⟩ := Option.isSome_iff_exists.1 (h r (.refl (by rw [hscope]; rfl)))
      have hfind : p.scopeNumbers.find? r = some n := hn
      have hvariables : p.variablesOf r =
          scope.names.entries.filterMap fun (name, o) => p.localDecl? n name o := by
        unfold variablesOf
        rw [hscope, hn]
      simp only [SourceUnit.subtreeFrom, SourceUnit.preorder, hscope, hfind, List.flatMap_cons,
        List.flatMap_assoc, hvariables]
      congr 1
      refine List.flatMap_congr fun c hc => ih fun s hs => ?_
      have hin : p.unit.Encloses r c := ⟨hs.outer_isSome, scope, hscope, hc⟩
      exact h s (hin.contains.trans hs)

/-- A scope that the walk of the package visits gives the variables of the walk from it, and any
other gives none. -/
theorem Laid.localDecls_eq (h : p.Laid) (hall : p.unit.DepthFirst [.package] all)
    (r : SourceScopeId) : p.localDecls r [] =
      if r ∈ all then (p.unit.preorder p.unit.scopes.length r).flatMap p.variablesOf else [] := by
  have hdecls : p.localDecls r [] = (p.unit.subtree p.scopeNumbers r).flatMap
      fun (_, n, scope) =>
        scope.names.entries.filterMap fun (name, o) => p.localDecl? n name o := by
    unfold localDecls
    simp
  rw [hdecls]
  unfold SourceUnit.subtree
  by_cases hr : r ∈ all
  · rw [if_pos hr]
    refine flatMap_subtreeFrom _ fun s hs => ?_
    rw [h.isSome_scopeFor?_iff hall hs.inner_isSome, hall.mem_iff]
    obtain ⟨a, ha, har⟩ := hall.mem_iff.1 hr
    exact ⟨a, ha, har.trans hs⟩
  · rw [if_neg hr]
    cases hlength : p.unit.scopes.length with
    | zero => rfl
    | succ fuel =>
      unfold SourceUnit.subtreeFrom
      cases hscope : p.unit.scope? r with
      | none => rfl
      | some scope =>
        have hnone : p.scopeNumbers.find? r = none := by
          have hsome : (p.unit.scope? r).isSome := by rw [hscope]; rfl
          have hiff := not_congr (h.isSome_scopeFor?_iff hall hsome)
          rw [Option.not_isSome_iff_eq_none] at hiff
          exact hiff.2 hr
        rw [hnone]
        rfl

/-- The variables of several scopes, one after the other, are those of the walk from the scopes that
the walk of the package visits. -/
theorem Laid.flatMap_localDecls (h : p.Laid) (hall : p.unit.DepthFirst [.package] all)
    (roots : List SourceScopeId) : ∃ visited,
      p.unit.DepthFirst (roots.filter (· ∈ all)) visited ∧
        (roots.flatMap fun r => p.localDecls r []) = visited.flatMap p.variablesOf := by
  obtain ⟨visited, hvisited⟩ := hall.exists_of_subset (roots.filter (· ∈ all))
    fun r hr => by simpa using (List.mem_filter.1 hr).2
  refine ⟨visited, hvisited, ?_⟩
  rw [hvisited.eq_flatMap, List.flatMap_assoc]
  clear hvisited
  induction roots with
  | nil => rfl
  | cons r rest ih =>
    rw [List.flatMap_cons, h.localDecls_eq hall, ih]
    by_cases hr : r ∈ all
    · rw [if_pos hr, List.filter_cons_of_pos (by simpa using hr), List.flatMap_cons]
    · rw [if_neg hr, List.filter_cons_of_neg (by simpa using hr), List.nil_append]

end Package

end TraceDebugger
