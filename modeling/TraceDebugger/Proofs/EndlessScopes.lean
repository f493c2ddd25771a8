import TraceDebugger.Program.Scope
import TraceDebugger.Proofs.ScopeTree

/-!
# Scopes without end

The scopes of a unit are numbered by working off a list of pending ones: the first of them gets the
next number, and the scopes directly inside it take its place (`SourceUnit.WorksOff`). This comes to
an end exactly if no scope that the package scope contains is inside itself (`SourceUnit.Acyclic`),
which a walk of bounded depth finds out (`SourceUnit.scopesEnd_iff`), and then the bounded walk
gives the scopes the numbers that they get in this way (`SourceUnit.worksOff_iff`). A scope may be
listed more than once; it is numbered as often.
-/

namespace TraceDebugger

namespace SourceUnit

/-- No scope that the package scope contains is inside itself. -/
def Acyclic (u : SourceUnit) : Prop :=
  ∀ s n, u.Contains .package s → u.Below n s s → n = 0

variable {u : SourceUnit}

/-! ## The bounded walk -/

/-- A walk does not end within some number of levels if there is a scope so many levels below. -/
theorem endsWithin_eq_false_iff {n : Nat} {a : SourceScopeId} :
    u.endsWithin n a = false ↔ ∃ b, u.Below n a b := by
  induction n generalizing a with
  | zero =>
    constructor
    · intro h
      exact ⟨a, .here (by simpa [endsWithin] using h)⟩
    · rintro ⟨b, hb⟩
      obtain ⟨rfl, ha⟩ := below_zero_iff.1 hb
      simpa [endsWithin] using ha
  | succ n ih =>
    unfold endsWithin
    cases hscope : u.scope? a with
    | none =>
      refine ⟨fun h => ?_, fun ⟨b, hb⟩ => ?_⟩
      · cases h
      · have ha := hb.outer_isSome
        rw [hscope] at ha
        cases ha
    | some scope =>
      have hall : scope.children.all (u.endsWithin n) = false ↔
          ∃ c ∈ scope.children, u.endsWithin n c = false := by
        rw [List.all_eq_false]
        simp only [Bool.not_eq_true]
      rw [Option.all_some, hall]
      constructor
      · rintro ⟨c, hc, hends⟩
        obtain ⟨b, hb⟩ := ih.1 hends
        exact ⟨b, below_succ_iff.2 ⟨c, ⟨hb.outer_isSome, scope, hscope, hc⟩, hb⟩⟩
      · rintro ⟨b, hb⟩
        obtain ⟨c, ⟨-, scope', hscope', hc⟩, hbelow⟩ := below_succ_iff.1 hb
        rw [hscope, Option.some.injEq] at hscope'
        subst hscope'
        exact ⟨c, hc, ih.2 ⟨b, hbelow⟩⟩

/-- From a scope inside itself there are ways down of any number of levels. -/
theorem Below.exists_below {n : Nat} {s : SourceScopeId} (h : u.Below (n + 1) s s) (k : Nat) :
    ∃ b, u.Below k s b := by
  induction k with
  | zero => exact ⟨s, .here h.inner_isSome⟩
  | succ k ih =>
    obtain ⟨b, hb⟩ := ih
    have hlonger : u.Below (k + 1 + n) s b := by
      rw [Nat.add_assoc, Nat.add_comm 1 n, Nat.add_comm]
      exact h.trans hb
    obtain ⟨c, hc, -⟩ := hlonger.split
    exact ⟨c, hc⟩

theorem scopesEnd_iff : u.scopesEnd = true ↔ u.Acyclic := by
  unfold scopesEnd
  rw [← Bool.not_eq_false, endsWithin_eq_false_iff]
  constructor
  · intro hends s n hs hloop
    cases n with
    | zero => rfl
    | succ n =>
      obtain ⟨m, hm⟩ := hs
      obtain ⟨b, hb⟩ := hloop.exists_below u.scopes.length
      have hlonger : u.Below (u.scopes.length + m) .package b := by
        rw [Nat.add_comm]
        exact hm.trans hb
      obtain ⟨c, hc, -⟩ := hlonger.split
      exact absurd ⟨c, hc⟩ hends
  · rintro hacyclic ⟨b, hb⟩
    exact absurd (hb.lt_of_acyclic hacyclic) (Nat.lt_irrefl _)

/-- Where scopes are nested, as in a tree, none is inside itself. -/
theorem Nested.acyclic (h : u.Nested) : u.Acyclic :=
  fun _ _ hs hloop => h.eq_of_below hs hloop (.here hs.inner_isSome)

/-! ## Working off the scopes -/

/-- Pending scopes, each with the scope around it, are worked off from the first on, until the
scopes that have been numbered before have become `result`. -/
inductive WorksOff (u : SourceUnit) : List (SourceScopeId × Option ScopeId) →
    List (SourceScopeId × Scope) → List (SourceScopeId × Scope) → Prop where
  /-- No scope is pending. -/
  | done {numbered : List (SourceScopeId × Scope)} : WorksOff u [] numbered numbered
  /-- There is no such scope. -/
  | missing {id : SourceScopeId} {parent : Option ScopeId}
      {pending : List (SourceScopeId × Option ScopeId)}
      {numbered result : List (SourceScopeId × Scope)} (unknown : u.scope? id = none)
      (rest : WorksOff u pending numbered result) :
      WorksOff u ((id, parent) :: pending) numbered result
  /-- The scope gets the next number, and the scopes inside it come before the others. -/
  | number {id : SourceScopeId} {parent : Option ScopeId}
      {pending : List (SourceScopeId × Option ScopeId)}
      {numbered result : List (SourceScopeId × Scope)} {scope : SourceScope}
      (known : u.scope? id = some scope)
      (rest : WorksOff u
        (scope.children.map (fun child => (child, some ⟨numbered.length⟩)) ++ pending)
        (numbered ++ [(id, ⟨⟨numbered.length⟩, parent,
          if parent.isNone then .package else .block, scope.span⟩)]) result) :
      WorksOff u ((id, parent) :: pending) numbered result

section worksOff

variable {id : SourceScopeId} {parent : Option ScopeId}
  {pending : List (SourceScopeId × Option ScopeId)}
  {numbered result result' : List (SourceScopeId × Scope)}

theorem WorksOff.unique (h : u.WorksOff pending numbered result)
    (h' : u.WorksOff pending numbered result') : result = result' := by
  induction h with
  | done =>
    cases h'
    rfl
  | missing unknown _ ih =>
    cases h' with
    | missing _ rest => exact ih rest
    | number known _ =>
      rw [unknown] at known
      cases known
  | number known _ ih =>
    cases h' with
    | missing unknown _ =>
      rw [known] at unknown
      cases unknown
    | number known' rest =>
      rw [known, Option.some.injEq] at known'
      subst known'
      exact ih rest

/-- Where pending scopes are worked off, none that they contain is inside itself. -/
theorem WorksOff.acyclic (h : u.WorksOff pending numbered result) :
    ∀ e ∈ pending, ∀ s n, u.Contains e.1 s → u.Below n s s → n = 0 := by
  induction h with
  | done => exact fun e he => nomatch he
  | missing unknown _ ih =>
    intro e he s n hs hloop
    rcases List.mem_cons.1 he with rfl | he
    · have hknown := hs.outer_isSome
      rw [unknown] at hknown
      cases hknown
    · exact ih e he s n hs hloop
  | @number id parent pending numbered result scope known _ ih =>
    -- a loop below the first scope, or through it, is a loop below one of the scopes inside it
    have hinside : ∀ c s k n, u.Encloses id c → u.Below k c s → u.Below n s s → n = 0 := by
      intro c s k n hc hk hloop
      obtain ⟨-, scope', hscope', hmem⟩ := hc
      rw [known, Option.some.injEq] at hscope'
      subst hscope'
      exact ih (c, _) (List.mem_append_left _ (List.mem_map_of_mem hmem)) s n ⟨k, hk⟩ hloop
    intro e he s n hs hloop
    rcases List.mem_cons.1 he with rfl | he
    · obtain ⟨k, hk⟩ := hs
      cases k with
      | succ k =>
        obtain ⟨c, hc, hcs⟩ := below_succ_iff.1 hk
        exact hinside c s k n hc hcs hloop
      | zero =>
        obtain ⟨rfl, -⟩ := below_zero_iff.1 hk
        cases n with
        | zero => rfl
        | succ n =>
          obtain ⟨c, hc, hcs⟩ := below_succ_iff.1 hloop
          exact hinside c id n (n + 1) hc hcs hloop
    · exact ih e (List.mem_append_right _ he) s n hs hloop

/-- A scope below which a walk ends is worked off as the walk numbers it. -/
theorem WorksOff.numberFrom {fuel : Nat} (hends : u.endsWithin fuel id = true)
    (h : u.WorksOff pending (numbered ++ u.numberFrom fuel parent numbered.length id) result) :
    u.WorksOff ((id, parent) :: pending) numbered result := by
  induction fuel generalizing id parent pending numbered with
  | zero =>
    rw [SourceUnit.numberFrom, List.append_nil] at h
    exact .missing (Option.isNone_iff_eq_none.1 hends) h
  | succ fuel ih =>
    unfold endsWithin at hends
    unfold SourceUnit.numberFrom at h
    cases hscope : u.scope? id with
    | none =>
      rw [hscope] at h
      dsimp only at h
      rw [List.append_nil] at h
      exact .missing hscope h
    | some scope =>
      rw [hscope, Option.all_some, List.all_eq_true] at hends
      rw [hscope] at h
      refine .number hscope ?_
      -- the scopes inside are worked off one by one, behind what has been numbered so far
      have hchildren : ∀ (children : List SourceScopeId) (before : List (SourceScopeId × Scope)),
          (∀ child ∈ children, u.endsWithin fuel child = true) →
          u.WorksOff pending (numbered ++ children.foldl (fun done child => done ++
            u.numberFrom fuel (some ⟨numbered.length⟩) (numbered.length + done.length) child)
              before) result →
          u.WorksOff (children.map (fun child => (child, some ⟨numbered.length⟩)) ++ pending)
            (numbered ++ before) result := by
        intro children
        induction children with
        | nil => exact fun before _ h => h
        | cons child rest ihrest =>
          intro before hends h
          refine ih (hends child List.mem_cons_self) ?_
          rw [List.append_assoc, List.length_append]
          exact ihrest _ (fun c hc => hends c (List.mem_cons_of_mem child hc)) h
      exact hchildren scope.children _ hends h

end worksOff

/-- The scopes of a unit are worked off if no scope of the package is inside itself, and only then,
and the numbers that they get are those of the bounded walk. -/
theorem worksOff_iff (hscopes : u.scopes ≠ []) {result : List (SourceScopeId × Scope)} :
    u.WorksOff [(.package, none)] [] result ↔ u.Acyclic ∧ result = u.numbering := by
  have hnumbering : u.numbering = u.numberFrom u.scopes.length none 0 .package := by
    unfold numbering
    rw [if_neg]
    rwa [List.isEmpty_iff]
  have hworks : u.Acyclic → u.WorksOff [(.package, none)] [] u.numbering := by
    intro hacyclic
    refine WorksOff.numberFrom (scopesEnd_iff.2 hacyclic) ?_
    rw [hnumbering]
    exact .done
  constructor
  · intro h
    have hacyclic : u.Acyclic := h.acyclic _ List.mem_cons_self
    exact ⟨hacyclic, h.unique (hworks hacyclic)⟩
  · rintro ⟨hacyclic, rfl⟩
    exact hworks hacyclic

end SourceUnit

end TraceDebugger
