import Mathlib.Data.List.Nodup
import TraceDebugger.Proofs.HitCounts

/-!
# Histories of breakpoints

Breakpoints are set, taken away and counted on, in any order. The number that is given next only
grows, so no number is given twice (`Breakpoints.pairwise_given`), and the breakpoints that are
there stand in the order of their numbers (`Breakpoints.Ordered`). They are those that were set and
not taken away since, with a hit for each entry counted since (`Breakpoints.Current`).
-/

namespace TraceDebugger

namespace Breakpoints

/-- Something that is done with breakpoints. -/
inductive Act where
  /-- One is set. -/
  | add (function : FunctionId) (location : String)
  /-- The one of a number is taken away. -/
  | remove (id : Nat)
  /-- An entry of a function is counted. -/
  | hit (function : FunctionId)
  deriving DecidableEq

/-- What comes back when something is done. -/
inductive Answer where
  /-- The number of the new breakpoint. -/
  | number (id : Nat)
  /-- The breakpoint that was taken away, if there was one. -/
  | removed (point : Option Breakpoint)
  /-- Whether a breakpoint is on the function. -/
  | counted (any : Bool)

/-- The number that is given, if one is. -/
def Answer.number? : Answer → Option Nat
  | .number id => some id
  | _ => none

/-- The breakpoints after something is done. -/
def act (b : Breakpoints) : Act → Breakpoints
  | .add function location => b.add function location
  | .remove id => b.remove id
  | .hit function => b.hit function

/-- What comes back when something is done. -/
def answer (b : Breakpoints) : Act → Answer
  | .add _ _ => .number b.next
  | .remove id => .removed (b.find? id)
  | .hit function => .counted (b.stopsAt function)

/-- The breakpoints after several things are done in order. -/
def after (b : Breakpoints) (acts : List Act) : Breakpoints := acts.foldl act b

/-- What comes back when several things are done in order. -/
def answers (b : Breakpoints) : List Act → List Answer
  | [] => []
  | a :: rest => b.answer a :: (b.act a).answers rest

/-- The numbers that are given, in order. -/
def given (b : Breakpoints) (acts : List Act) : List Nat := (b.answers acts).filterMap Answer.number?

variable {b : Breakpoints} {acts later : List Act} {a : Act} {point : Breakpoint} {id : Nat}

theorem after_append (b : Breakpoints) (acts later : List Act) :
    b.after (acts ++ later) = (b.after acts).after later := List.foldl_append

theorem after_concat (b : Breakpoints) (acts : List Act) (a : Act) :
    b.after (acts ++ [a]) = (b.after acts).act a := b.after_append acts [a]

/-! ## Numbers -/

theorem next_le_act (b : Breakpoints) (a : Act) : b.next ≤ (b.act a).next := by
  cases a with
  | add function location => exact Nat.le_succ b.next
  | remove id => exact Nat.le_refl b.next
  | hit function => exact Nat.le_refl b.next

theorem given_cons (b : Breakpoints) (a : Act) (acts : List Act) :
    b.given (a :: acts) = (b.answer a).number?.toList ++ (b.act a).given acts := by
  cases a <;> rfl

/-- A number that is given is not below the one that was to be given next. -/
theorem next_le_of_mem_given (h : id ∈ b.given acts) : b.next ≤ id := by
  induction acts generalizing b with
  | nil => cases h
  | cons a rest ih =>
    rw [given_cons, List.mem_append, Option.mem_toList] at h
    rcases h with h | h
    · cases a with
      | add function location =>
        cases h
        exact Nat.le_refl b.next
      | remove id => cases h
      | hit function => cases h
    · exact Nat.le_trans (b.next_le_act a) (ih h)

/-- Every number that is given is greater than all before it. -/
theorem pairwise_given (b : Breakpoints) (acts : List Act) : (b.given acts).Pairwise (· < ·) := by
  induction acts generalizing b with
  | nil => exact .nil
  | cons a rest ih =>
    rw [given_cons]
    cases a with
    | add function location => exact .cons (fun id hid => next_le_of_mem_given hid) (ih _)
    | remove id => exact ih _
    | hit function => exact ih _

/-- The breakpoints stop, stand in the order of their numbers, and these have been given. -/
structure Ordered (b : Breakpoints) : Prop where
  numbered : b.Numbered
  increasing : b.points.Pairwise fun p q => p.id < q.id

theorem ordered_empty : Ordered {} := ⟨fun _ => nofun, .nil⟩

theorem Numbered.act (h : b.Numbered) (a : Act) : (b.act a).Numbered := by
  cases a with
  | add function location => exact h.edited (b.edited_add function location)
  | remove id => exact h.edited (b.edited_remove id)
  | hit function => exact h.hit function

theorem Ordered.act (h : b.Ordered) (a : Act) : (b.act a).Ordered := by
  refine ⟨h.numbered.act a, ?_⟩
  cases a with
  | add function location =>
    refine List.pairwise_append.2 ⟨h.increasing, List.pairwise_singleton _ _, fun p hp q hq => ?_⟩
    rw [List.mem_singleton.1 hq]
    exact (h.numbered p hp).2
  | remove id => exact h.increasing.sublist List.eraseP_sublist
  | hit function =>
    refine List.pairwise_map.2 (h.increasing.imp fun hlt => ?_)
    split <;> split <;> exact hlt

theorem Ordered.after (h : b.Ordered) (acts : List Act) : (b.after acts).Ordered := by
  induction acts generalizing b with
  | nil => exact h
  | cons a rest ih => exact ih (h.act a)

/-! ## Looking for a number -/

theorem Ordered.eq_of_id_eq (h : b.Ordered) {p q : Breakpoint} (hp : p ∈ b.points)
    (hq : q ∈ b.points) (hid : p.id = q.id) : p = q := by
  have hnodup : (b.points.map (·.id)).Nodup :=
    List.pairwise_map.2 (h.increasing.imp fun hlt => Nat.ne_of_lt hlt)
  exact List.inj_on_of_nodup_map hnodup hp hq hid

theorem Ordered.find?_eq_some_iff (h : b.Ordered) :
    b.find? id = some point ↔ point ∈ b.points ∧ point.id = id := by
  unfold find?
  constructor
  · intro hfind
    exact ⟨List.mem_of_find?_eq_some hfind, by simpa using List.find?_some hfind⟩
  · rintro ⟨hmem, hid⟩
    cases hfind : b.points.find? fun p => p.id = id with
    | none =>
      have hne := List.find?_eq_none.1 hfind point hmem
      exact absurd hid (by simpa using hne)
    | some q =>
      have hq : q.id = id := by simpa using List.find?_some hfind
      rw [h.eq_of_id_eq hmem (List.mem_of_find?_eq_some hfind) (hid.trans hq.symm)]

theorem find?_eq_none_iff : b.find? id = none ↔ ∀ p ∈ b.points, p.id ≠ id := by
  unfold find?
  simp [List.find?_eq_none]

/-- Where no number comes twice, all breakpoints of a number are taken away with the first. -/
theorem eraseP_eq_filter {points : List Breakpoint} (h : points.Pairwise fun p q => p.id < q.id)
    (id : Nat) : points.eraseP (fun p => p.id = id) = points.filter fun p => p.id ≠ id := by
  induction points with
  | nil => rfl
  | cons p rest ih =>
    obtain ⟨hfirst, hrest⟩ := List.pairwise_cons.1 h
    by_cases hid : p.id = id
    · have hkept : rest.filter (fun q => !decide (q.id = id)) = rest := by
        refine List.filter_eq_self.2 fun q hq => ?_
        have hlt := hfirst q hq
        simp only [Bool.not_eq_true', decide_eq_false_iff_not]
        omega
      simp [hid, hkept]
    · simp [hid, ih hrest]

theorem Ordered.remove_eq (h : b.Ordered) (id : Nat) :
    b.remove id = { b with points := b.points.filter fun p => p.id ≠ id } := by
  unfold remove
  rw [eraseP_eq_filter h.increasing]

theorem remove_eq_self (h : b.find? id = none) : b.remove id = b := by
  have hkept : b.points.eraseP (fun p => p.id = id) = b.points := by
    refine List.eraseP_of_forall_not fun p hp => ?_
    simpa using find?_eq_none_iff.1 h p hp
  unfold remove
  rw [hkept]

theorem Numbered.stopsAt_iff (h : b.Numbered) {function : FunctionId} :
    b.stopsAt function = true ↔ ∃ p ∈ b.points, p.function = function := by
  unfold stopsAt
  rw [List.any_eq_true]
  constructor
  · rintro ⟨p, hp, hstops⟩
    exact ⟨p, hp, of_decide_eq_true (Bool.and_eq_true_iff.1 hstops).2⟩
  · rintro ⟨p, hp, hfunction⟩
    exact ⟨p, hp, Bool.and_eq_true_iff.2 ⟨(h p hp).1, decide_eq_true hfunction⟩⟩

/-! ## Breakpoints that are there -/

/-- A breakpoint was set with this number and not taken away since, and its hits are the entries
of its function counted since. -/
def Current (acts : List Act) (point : Breakpoint) : Prop :=
  ∃ before later, acts = before ++ .add point.function point.location :: later ∧
    (after {} before).answer (.add point.function point.location) = .number point.id ∧
    .remove point.id ∉ later ∧ point.enabled = true ∧
    point.hits = later.count (.hit point.function)

/-- A breakpoint stays if an act does not take it away, and an entry of its function is counted. -/
theorem Numbered.mem_act (h : b.Numbered) (hpoint : point ∈ b.points)
    (hkept : a ≠ .remove point.id) :
    { point with hits := point.hits + if a = .hit point.function then 1 else 0 } ∈
      (b.act a).points := by
  cases a with
  | add function location => exact List.mem_append_left _ hpoint
  | remove id =>
    have hid : point.id ≠ id := fun heq => hkept (congrArg Act.remove heq.symm)
    exact (List.mem_eraseP_of_neg (by simp [hid])).2 hpoint
  | hit function =>
    change _ ∈ (b.hit function).points
    rw [h.hit_eq]
    refine List.mem_map.2 ⟨point, hpoint, ?_⟩
    by_cases hfunction : point.function = function
    · rw [if_pos hfunction, if_pos (congrArg Act.hit hfunction.symm)]
    · have hne : Act.hit function ≠ .hit point.function := by
        rintro ⟨⟩
        exact hfunction rfl
      rw [if_neg hfunction, if_neg hne]
      rfl

theorem Numbered.mem_after (h : b.Numbered) (hpoint : point ∈ b.points)
    (hkept : .remove point.id ∉ later) :
    { point with hits := point.hits + later.count (.hit point.function) } ∈
      (b.after later).points := by
  induction later generalizing b point with
  | nil => exact hpoint
  | cons a rest ih =>
    rw [List.mem_cons, not_or] at hkept
    have hstays := ih (h.act a) (h.mem_act hpoint (Ne.symm hkept.1)) hkept.2
    have hcount : (a :: rest).count (.hit point.function) =
        (if a = .hit point.function then 1 else 0) + rest.count (.hit point.function) := by
      simp [List.count_cons, Nat.add_comm]
    rw [hcount, ← Nat.add_assoc]
    exact hstays

/-- A breakpoint is current after one more act if that does not take it away. -/
theorem Current.concat (h : Current acts point) (hkept : a ≠ .remove point.id) :
    Current (acts ++ [a])
      { point with hits := point.hits + if a = .hit point.function then 1 else 0 } := by
  obtain ⟨before, later, rfl, hnumber, hstays, henabled, hhits⟩ := h
  refine ⟨before, later ++ [a], by simp, hnumber, ?_, henabled, ?_⟩
  · rw [List.mem_append, List.mem_singleton, not_or]
    exact ⟨hstays, hkept.symm⟩
  · rw [List.count_append, ← hhits, List.count_singleton]
    simp

/-- The breakpoints that are there are those that are current. -/
theorem mem_points_iff : point ∈ (after {} acts).points ↔ Current acts point := by
  constructor
  · intro h
    induction acts using List.reverseRecOn generalizing point with
    | nil => cases h
    | append_singleton acts a ih =>
      have hordered := ordered_empty.after acts
      rw [after_concat] at h
      cases a with
      | add function location =>
        rcases List.mem_append.1 h with hold | hnew
        · exact (ih hold).concat nofun
        · rw [List.mem_singleton.1 hnew]
          exact ⟨acts, [], rfl, rfl, List.not_mem_nil, rfl, rfl⟩
      | remove id =>
        change point ∈ ((after {} acts).remove id).points at h
        rw [hordered.remove_eq, List.mem_filter] at h
        have hid : point.id ≠ id := of_decide_eq_true h.2
        refine (ih h.1).concat ?_
        rintro ⟨⟩
        exact hid rfl
      | hit function =>
        change point ∈ ((after {} acts).hit function).points at h
        rw [hordered.numbered.hit_eq] at h
        obtain ⟨old, hold, rfl⟩ := List.mem_map.1 h
        have hlater := (ih hold).concat (a := .hit function) nofun
        by_cases hfunction : old.function = function
        · rw [if_pos hfunction]
          rw [if_pos (congrArg Act.hit hfunction.symm)] at hlater
          exact hlater
        · rw [if_neg hfunction]
          have hne : Act.hit function ≠ .hit old.function := by
            rintro ⟨⟩
            exact hfunction rfl
          rw [if_neg hne] at hlater
          exact hlater
  · rintro ⟨before, later, rfl, hnumber, hkept, henabled, hhits⟩
    obtain ⟨id, function, location, enabled, hits⟩ := point
    obtain rfl : enabled = true := henabled
    obtain rfl : hits = later.count (.hit function) := hhits
    cases hnumber
    have hnumbered := (ordered_empty.after before).act (.add function location) |>.numbered
    have hnew : (⟨(after {} before).next, function, location, true, 0⟩ : Breakpoint) ∈
        ((after {} before).act (.add function location)).points :=
      List.mem_append_right _ (List.mem_singleton_self _)
    have hstays := hnumbered.mem_after hnew hkept
    rw [Nat.zero_add] at hstays
    rw [after_append]
    exact hstays

/-- Whatever has been done with breakpoints from the first on, the numbers given are positive and
each is greater than all before it, and those that are there are the current ones in the order of
their numbers. The one of a number is given back and taken away alone, and of any other number none
is. An entry of a function is counted on its breakpoints only, and tells whether there is one. -/
theorem history_exact (acts : List Act) :
    let b := after {} acts
    (given {} acts).Pairwise (· < ·) ∧ (∀ id ∈ given {} acts, 0 < id) ∧
    b.points.Pairwise (fun p q => p.id < q.id) ∧
    (∀ point, point ∈ b.points ↔ Current acts point) ∧
    (∀ id,
      (∀ point ∈ b.points, point.id = id →
        b.answer (.remove id) = .removed (some point) ∧
          b.act (.remove id) = { b with points := b.points.filter fun p => p.id ≠ id }) ∧
      ((∀ point ∈ b.points, point.id ≠ id) →
        b.answer (.remove id) = .removed none ∧ b.act (.remove id) = b)) ∧
    ∀ function,
      (b.answer (.hit function) = .counted true ↔ ∃ point ∈ b.points, point.function = function) ∧
        b.act (.hit function) = { b with points := b.points.map fun p =>
          if p.function = function then { p with hits := p.hits + 1 } else p } := by
  intro b
  have hb : b.Ordered := ordered_empty.after acts
  refine ⟨pairwise_given {} acts, fun id hid => next_le_of_mem_given hid, hb.increasing,
    fun point => mem_points_iff, fun id => ⟨fun point hpoint hid => ?_, fun hnone => ?_⟩,
    fun function => ⟨?_, hb.numbered.hit_eq function⟩⟩
  · have hfind : b.find? id = some point := hb.find?_eq_some_iff.2 ⟨hpoint, hid⟩
    exact ⟨congrArg Answer.removed hfind, hb.remove_eq id⟩
  · have hfind : b.find? id = none := find?_eq_none_iff.2 hnone
    exact ⟨congrArg Answer.removed hfind, remove_eq_self hfind⟩
  · rw [← hb.numbered.stopsAt_iff]
    exact ⟨fun h => Answer.counted.inj h, fun h => congrArg Answer.counted h⟩

/-- The number of a breakpoint that was taken away is not given again. -/
example : given {} [.add ⟨⟨0⟩, 1⟩ "m.f", .add ⟨⟨0⟩, 2⟩ "m.g", .remove 2, .add ⟨⟨0⟩, 2⟩ "m.g"] =
    [1, 2, 3] := rfl

end Breakpoints

end TraceDebugger
