import Mathlib.Data.List.Perm.Subperm
import TraceDebugger.Proofs.Consistency
import TraceDebugger.Proofs.Tables

/-!
# The check of local variables

The check looks up every local variable in the table of slots and compares the table and the list of
local variables in size. It does not look at the keys of the table. But variables that are found at
different places have different keys, so a table that is no longer than the list has no other keys
(`Function.keys_perm`), and is the inverse of the list (`Function.Indexed`). No problem of a local
variable or of the table is reported exactly if that is so (`Program.ofLocals_eq_false_iff`).
-/

namespace TraceDebugger

/-- Whether a problem is one of a local variable or of the table of slots. -/
def Problem.ofLocals : Problem → Bool
  | .wrongSlot .. => true
  | .missingSlot .. => true
  | .unknownLocalScope .. => true
  | .tableSize _ => true
  | _ => false

namespace Function

/-- The table of slots is the inverse of the list of local variables, which have their places as
slots and scopes that exist. -/
structure Indexed (f : Function) (pkg : Package) : Prop where
  /-- The table leads from the name and scope of each local variable to its place, and from nothing
  else to anything. -/
  inverse : ∀ key place,
    f.slots.find? key = some place ↔ ∃ l, f.locals[place]? = some l ∧ l.key = key
  slots : ∀ place (l : Local), f.locals[place]? = some l → l.slot = place
  scopes : ∀ l ∈ f.locals, (pkg.scope? l.scope).isSome

variable {f : Function} {pkg : Package}

/-- Local variables that are found at their places have different keys. -/
theorem nodup_keys (hfound : ∀ place l, f.locals[place]? = some l →
    f.slots.find? l.key = some place) : (f.locals.map Local.key).Nodup := by
  have hplaces : (f.locals.map Local.key).map f.slots.find? =
      (List.range f.locals.length).map some := by
    refine List.ext_getElem? fun place => ?_
    rw [List.getElem?_map, List.getElem?_map, List.getElem?_map]
    cases hl : f.locals[place]? with
    | none =>
      have hle : f.locals.length ≤ place := List.getElem?_eq_none_iff.1 hl
      rw [List.getElem?_eq_none (by rw [List.length_range]; exact hle)]
      rfl
    | some l =>
      have hlt : place < f.locals.length := (List.getElem?_eq_some_iff.1 hl).1
      rw [List.getElem?_range hlt, Option.map_some, Option.map_some, Option.map_some,
        hfound place l hl]
  refine List.Nodup.of_map f.slots.find? ?_
  rw [hplaces]
  exact List.nodup_range.map fun _ _ h => Option.some.inj h

/-- A table that finds every local variable at its place and is as long as the list of them has
their keys only. -/
theorem keys_perm (hfound : ∀ place l, f.locals[place]? = some l →
    f.slots.find? l.key = some place) (hsize : f.slots.size = f.locals.length) :
    f.slots.keys.Perm (f.locals.map Local.key) := by
  have hsubset : f.locals.map Local.key ⊆ f.slots.keys := by
    intro key hkey
    obtain ⟨l, hl, rfl⟩ := List.mem_map.1 hkey
    obtain ⟨place, hplace⟩ := List.mem_iff_getElem?.1 hl
    rw [Table.mem_keys_iff, hfound place l hplace]
    rfl
  have hlength : f.slots.keys.length ≤ (f.locals.map Local.key).length := by
    unfold Table.keys
    rw [List.length_map, List.length_map]
    exact Nat.le_of_eq hsize
  exact (((nodup_keys hfound).subperm hsubset).perm_of_length_le hlength).symm

theorem Indexed.found (h : f.Indexed pkg) {place : Nat} {l : Local}
    (hl : f.locals[place]? = some l) : f.slots.find? l.key = some place :=
  (h.inverse l.key place).2 ⟨l, hl, rfl⟩

theorem Indexed.size (h : f.Indexed pkg) : f.slots.size = f.locals.length := by
  have hperm : f.slots.keys.Perm (f.locals.map Local.key) := by
    refine (List.perm_ext_iff_of_nodup f.slots.nodup_keys (nodup_keys fun _ _ => h.found)).2 ?_
    intro key
    rw [Table.mem_keys_iff, Option.isSome_iff_exists, List.mem_map]
    constructor
    · rintro ⟨place, hplace⟩
      obtain ⟨l, hl, hkey⟩ := (h.inverse key place).1 hplace
      exact ⟨l, List.mem_of_getElem? hl, hkey⟩
    · rintro ⟨l, hl, rfl⟩
      obtain ⟨place, hplace⟩ := List.mem_iff_getElem?.1 hl
      exact ⟨place, h.found hplace⟩
  have hlength := hperm.length_eq
  rwa [Table.keys, List.length_map, List.length_map] at hlength

/-- What is looked up and counted comes to the table being the inverse of the list. -/
theorem indexed_iff : f.Indexed pkg ↔
    (∀ place l, f.locals[place]? = some l →
      l.slot = place ∧ f.slot? l.name l.scope = some place ∧ (pkg.scope? l.scope).isSome) ∧
    f.slots.size = f.locals.length := by
  constructor
  · intro h
    refine ⟨fun place l hl => ⟨h.slots place l hl, h.found hl, ?_⟩, h.size⟩
    exact h.scopes l (List.mem_of_getElem? hl)
  · rintro ⟨hlocals, hsize⟩
    have hfound : ∀ place l, f.locals[place]? = some l → f.slots.find? l.key = some place :=
      fun place l hl => (hlocals place l hl).2.1
    refine ⟨fun key place => ⟨fun hkey => ?_, ?_⟩, fun place l hl => (hlocals place l hl).1, ?_⟩
    · -- every key of the table is that of a local variable, and that is found at its own place
      have hmem : key ∈ f.slots.keys := by
        rw [Table.mem_keys_iff, hkey]
        rfl
      obtain ⟨l, hl, rfl⟩ := List.mem_map.1 ((keys_perm hfound hsize).mem_iff.1 hmem)
      obtain ⟨place', hplace'⟩ := List.mem_iff_getElem?.1 hl
      rw [hfound place' l hplace', Option.some.injEq] at hkey
      subst hkey
      exact ⟨l, hplace', rfl⟩
    · rintro ⟨l, hl, rfl⟩
      exact hfound place l hl
    · intro l hl
      obtain ⟨place, hplace⟩ := List.mem_iff_getElem?.1 hl
      exact (hlocals place l hplace).2.2

end Function

namespace Program

variable {p : Program} {pkg : Package} {f : Function}

theorem ofLocals_of_mem_localProblems {name : String} {l : Local} {place : Nat} {problem : Problem}
    (h : problem ∈ f.localProblems pkg name l place) : problem.ofLocals = true := by
  unfold Function.localProblems at h
  rw [List.mem_append, List.mem_append, List.mem_ite_nil_left, List.mem_ite_nil_left,
    List.mem_ite_nil_left, List.mem_singleton, List.mem_singleton, List.mem_singleton] at h
  rcases h with (⟨-, rfl⟩ | ⟨-, rfl⟩) | ⟨-, rfl⟩
  · rfl
  · rfl
  · rfl

/-- A finding of another kind is not one of local variables. -/
theorem filter_ite {c : Prop} [Decidable c] {problem : Problem} (h : problem.ofLocals = false) :
    (if c then [] else [problem]).filter Problem.ofLocals = [] := by
  refine List.filter_eq_nil_iff.2 fun other hother => ?_
  rw [(List.mem_singleton.1 (List.mem_ite_nil_left.1 hother).2), h]
  exact Bool.false_ne_true

/-- The problems of local variables and of the table are those that the check finds there. -/
theorem filter_functionProblems : (p.functionProblems pkg f).filter Problem.ofLocals =
    f.locals.zipIdx.flatMap (fun e => f.localProblems pkg (p.qualifiedName f) e.1 e.2) ++
      if f.slots.size = f.locals.length then [] else [.tableSize (p.qualifiedName f)] := by
  have hparams : ((repeatedNames [] f.paramNames).map
      (.duplicateParam (p.qualifiedName f))).filter Problem.ofLocals = [] := by
    refine List.filter_eq_nil_iff.2 fun problem h => ?_
    obtain ⟨param, -, rfl⟩ := List.mem_map.1 h
    exact Bool.false_ne_true
  have hlocals : (f.locals.zipIdx.flatMap fun e => f.localProblems pkg (p.qualifiedName f) e.1
      e.2).filter Problem.ofLocals =
        f.locals.zipIdx.flatMap fun e => f.localProblems pkg (p.qualifiedName f) e.1 e.2 := by
    refine List.filter_eq_self.2 fun problem h => ?_
    obtain ⟨e, -, he⟩ := List.mem_flatMap.1 h
    exact ofLocals_of_mem_localProblems he
  have hsize : (if f.slots.size = f.locals.length then []
      else [Problem.tableSize (p.qualifiedName f)]).filter Problem.ofLocals =
        if f.slots.size = f.locals.length then [] else [.tableSize (p.qualifiedName f)] := by
    split
    · rfl
    · rfl
  have hblocks : ((f.blocks.getD []).zipIdx.filterMap fun e : Block × Nat =>
      if e.1.index = e.2 then none
      else some (Problem.wrongBlock (p.qualifiedName f) e.2 e.1.index)).filter Problem.ofLocals =
        [] := by
    refine List.filter_eq_nil_iff.2 fun problem h => ?_
    obtain ⟨e, -, he⟩ := List.mem_filterMap.1 h
    obtain ⟨-, hproblem⟩ := Option.ite_none_left_eq_some.1 he
    rw [← Option.some.inj hproblem]
    exact Bool.false_ne_true
  have hscope : ∀ scope, (if (pkg.scope? scope).isSome then []
      else [Problem.unknownScope (p.qualifiedName f) scope]).filter Problem.ofLocals = [] :=
    fun scope => filter_ite rfl
  have henclosing : ∀ id, (if (p.function? id).isSome || (pkg.function? id).isSome then []
      else [Problem.unknownEnclosing (p.qualifiedName f)]).filter Problem.ofLocals = [] :=
    fun id => filter_ite rfl
  unfold functionProblems
  cases f.scope <;> cases f.enclosing <;>
    simp only [List.filter_append, hparams, hlocals, hsize, hscope, henclosing, hblocks,
      List.nil_append, List.append_nil]

/-- No problem of a local variable or of the table is found in a function exactly if its table is
the inverse of its list of local variables, and these have their places as slots and scopes that
exist. -/
theorem ofLocals_eq_false_iff :
    (∀ problem ∈ p.functionProblems pkg f, problem.ofLocals = false) ↔ f.Indexed pkg := by
  have hfilter : (∀ problem ∈ p.functionProblems pkg f, problem.ofLocals = false) ↔
      (p.functionProblems pkg f).filter Problem.ofLocals = [] := by
    simp only [List.filter_eq_nil_iff, Bool.not_eq_true]
  rw [hfilter, filter_functionProblems, List.append_eq_nil_iff, ite_nil_eq_nil_iff,
    Function.indexed_iff]
  simp only [List.flatMap_eq_nil_iff, Prod.forall, List.mem_zipIdx_iff_getElem?,
    localProblems_eq_nil_iff]
  exact and_congr_left' forall_comm

/-- If the check finds nothing wrong with a package, then in each of its functions the table of
slots is the inverse of the list of local variables, which have different keys, their places as
slots, and scopes that exist. Whatever the function, a table that is the inverse of such a list is
just what leaves no problem of a local variable or of the table. -/
theorem slots_certified (p : Program) (pkg : Package) :
    (p.problems pkg = [] →
      ∀ f ∈ pkg.functions, f.Indexed pkg ∧ (f.locals.map Local.key).Nodup) ∧
    ∀ f : Function,
      (∀ problem ∈ p.functionProblems pkg f, problem.ofLocals = false) ↔ f.Indexed pkg := by
  refine ⟨fun h f hf => ?_, fun f => ofLocals_eq_false_iff⟩
  have hnone : p.functionProblems pkg f = [] := List.flatMap_eq_nil_iff.1 h f hf
  have hindexed : f.Indexed pkg := by
    rw [← ofLocals_eq_false_iff (p := p), hnone]
    exact fun problem hproblem => nomatch hproblem
  exact ⟨hindexed, Function.nodup_keys fun _ _ => hindexed.found⟩

/-- A package of two scopes and one function, with this table for the local variables `x` of the
two scopes. -/
def doubling (slots : Table LocalKey Nat) : Package where
  id := ⟨0⟩
  unit := ⟨"m", "m", true, none, [], [], []⟩
  functions := [{
    name := "f", signature := default, origin := .synthetic "example", package := ⟨0⟩, slots
    locals := [⟨"x", .basic .int, ⟨0⟩, 0, {}⟩, ⟨"x", .basic .int, ⟨1⟩, 1, {}⟩] }]
  scopes := [⟨⟨0⟩, none, .package, {}⟩, ⟨⟨1⟩, some ⟨0⟩, .block, {}⟩]

theorem slots_certified_doubling :
    let pkg := doubling (.ofList [(⟨"x", ⟨0⟩⟩, 0), (⟨"x", ⟨1⟩⟩, 1)])
    problems {} pkg = [] ∧ ∀ f ∈ pkg.functions, f.Indexed pkg ∧ (f.locals.map Local.key).Nodup := by
  intro pkg
  have hnone : problems {} pkg = [] := rfl
  exact ⟨hnone, (slots_certified {} pkg).1 hnone⟩

/-- A key of no local variable is told by the size of the table only. -/
example : problems {} (doubling (.ofList [(⟨"x", ⟨0⟩⟩, 0), (⟨"x", ⟨1⟩⟩, 1), (⟨"y", ⟨0⟩⟩, 1)])) =
    [.tableSize "f"] := rfl

end Program

end TraceDebugger
