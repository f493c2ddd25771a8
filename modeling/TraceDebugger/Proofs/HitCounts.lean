import Mathlib.Data.List.Induction
import TraceDebugger.Proofs.BreakNames
import TraceDebugger.Proofs.SessionSteps
import TraceDebugger.Proofs.Stops

/-!
# Hits of breakpoints

A debugger is asked about events, it stops, its step mode changes, and breakpoints are set and taken
away, in any order. Of all this only the question about an entry changes a breakpoint that is there
(`Debugger.breakpoints_act`), and a number is given to one breakpoint only. So the hits of a
breakpoint are the entries of its function since it was set (`Debugger.hits_exact`).
-/

namespace TraceDebugger

/-! ## Setting breakpoints and taking them away -/

namespace Breakpoints

variable {b b' b'' : Breakpoints}

/-- Breakpoints were set and taken away. -/
structure Edited (b b' : Breakpoints) : Prop where
  next : b.next ≤ b'.next
  points : ∀ p ∈ b'.points, p ∈ b.points ∨
    (p.hits = 0 ∧ p.enabled = true ∧ b.next ≤ p.id ∧ p.id < b'.next)

theorem Edited.refl (b : Breakpoints) : b.Edited b := ⟨Nat.le_refl _, fun _ hp => .inl hp⟩

theorem Edited.trans (h : b.Edited b') (h' : b'.Edited b'') : b.Edited b'' := by
  have hnext := h.next
  have hnext' := h'.next
  refine ⟨by omega, ?_⟩
  intro p hp
  rcases h'.points p hp with hp | ⟨hhits, henabled, hlow, hhigh⟩
  · rcases h.points p hp with hp | ⟨hhits, henabled, hlow, hhigh⟩
    · exact .inl hp
    · exact .inr ⟨hhits, henabled, hlow, by omega⟩
  · exact .inr ⟨hhits, henabled, by omega, hhigh⟩

theorem edited_add (b : Breakpoints) (function : FunctionId) (location : String) :
    b.Edited (b.add function location) := by
  have hnext : (b.add function location).next = b.next + 1 := rfl
  refine ⟨by omega, ?_⟩
  intro p hp
  rcases List.mem_append.1 hp with hp | hp
  · exact .inl hp
  · have hid : p.id = b.next := by rw [List.mem_singleton.1 hp]
    refine .inr ⟨?_, ?_, by omega, by omega⟩
    · rw [List.mem_singleton.1 hp]
    · rw [List.mem_singleton.1 hp]

theorem edited_remove (b : Breakpoints) (id : Nat) : b.Edited (b.remove id) :=
  ⟨Nat.le_refl _, fun _ hp => .inl (List.mem_of_mem_eraseP hp)⟩

/-- Every breakpoint stops, and its number has been given. -/
def Numbered (b : Breakpoints) : Prop := ∀ p ∈ b.points, p.enabled = true ∧ p.id < b.next

theorem Numbered.edited (h : b.Numbered) (he : b.Edited b') : b'.Numbered := by
  intro p hp
  have hnext := he.next
  rcases he.points p hp with hp | ⟨-, henabled, -, hhigh⟩
  · obtain ⟨henabled, hlow⟩ := h p hp
    exact ⟨henabled, by omega⟩
  · exact ⟨henabled, hhigh⟩

/-- As all breakpoints stop, an entry is counted on all that are on the function. -/
theorem Numbered.hit_eq (h : b.Numbered) (f : FunctionId) : b.hit f = { b with
    points := b.points.map fun p => if p.function = f then { p with hits := p.hits + 1 } else p } := by
  have hmap : b.points.map (fun p => if p.enabled && p.function = f then
        { p with hits := p.hits + 1 } else p) =
      b.points.map fun p => if p.function = f then { p with hits := p.hits + 1 } else p := by
    refine List.map_congr_left ?_
    intro p hp
    rw [(h p hp).1]
    simp
  unfold hit
  rw [hmap]

theorem Numbered.hit (h : b.Numbered) (f : FunctionId) : (b.hit f).Numbered := by
  intro p hp
  rw [h.hit_eq] at hp
  obtain ⟨p₀, hp₀, rfl⟩ := List.mem_map.1 hp
  have hold := h p₀ hp₀
  by_cases hf : p₀.function = f
  · rw [if_pos hf]
    exact hold
  · rw [if_neg hf]
    exact hold

end Breakpoints

theorem Session.Leads.edited {s s' : Session} (h : s.Leads s') :
    s.breakpoints.Edited s'.breakpoints := by
  induction h with
  | refl s => exact .refl _
  | note _ ih => exact ih
  | @effect s s' _ e enacted _ ih =>
    refine Breakpoints.Edited.trans ?_ ih
    cases e with
    | write text =>
      rw [breakpoints_of_write? enacted]
      exact .refl _
    | select depth =>
      cases enacted
      exact .refl _
    | addBreakpoint function location =>
      cases enacted
      exact s.breakpoints.edited_add function location
    | removeBreakpoint id =>
      cases enacted
      exact s.breakpoints.edited_remove id
    | direct d =>
      cases enacted
      exact .refl _

/-! ## What happens to a debugger -/

namespace Debugger

/-- Something that happens to a debugger. -/
inductive Action where
  /-- It is asked about an event. -/
  | event (event : Event) (stack : CallStack)
  /-- The step mode is set. -/
  | mode (mode : StepMode)
  /-- A breakpoint is set. -/
  | add (function : FunctionId) (location : String)
  /-- A breakpoint is taken away. -/
  | remove (id : Nat)
  /-- The program stops, and commands are read. -/
  | pause (stack : CallStack) (instruction : Instruction) (event : Event) (engine : Engine)

/-- The function that is entered, if the debugger is asked about an entry. -/
def Action.entered? : Action → Option FunctionId
  | .event .callEnter stack => stack.top?.map (·.function)
  | _ => none

/-- The debugger afterwards. -/
def act (d : Debugger) : Action → Debugger
  | .event event stack => d.countHit event stack
  | .mode mode => { d with mode }
  | .add function location => { d with breakpoints := d.breakpoints.add function location }
  | .remove id => { d with breakpoints := d.breakpoints.remove id }
  | .pause stack instruction event engine => (d.pause stack instruction event engine).debugger

/-- The debugger after several actions in order. -/
def after (d : Debugger) (actions : List Action) : Debugger := actions.foldl act d

variable {d : Debugger} {actions before : List Action} {action : Action} {point : Breakpoint}

theorem after_append (d : Debugger) (actions later : List Action) :
    d.after (actions ++ later) = (d.after actions).after later := List.foldl_append

theorem after_append_singleton (d : Debugger) (actions : List Action) (action : Action) :
    d.after (actions ++ [action]) = (d.after actions).act action := d.after_append actions [action]

section event

variable {event : Event} {stack : CallStack}

theorem countHit_of_entered {f : FunctionId}
    (h : (Action.event event stack).entered? = some f) :
    d.countHit event stack = { d with breakpoints := d.breakpoints.hit f } := by
  cases event with
  | callEnter =>
    obtain ⟨top, htop, rfl⟩ := Option.map_eq_some_iff.1 h
    simp only [countHit, htop]
  | _ => cases h

theorem countHit_of_not_entered (h : (Action.event event stack).entered? = none) :
    d.countHit event stack = d := by
  cases event with
  | callEnter =>
    have htop : stack.top? = none := Option.map_eq_none_iff.1 h
    simp only [countHit, htop]
  | _ => rfl

end event

/-- An entry is counted, and anything else sets breakpoints and takes them away at most. -/
theorem breakpoints_act (d : Debugger) (action : Action) :
    (∃ f, action.entered? = some f ∧ (d.act action).breakpoints = d.breakpoints.hit f) ∨
      (action.entered? = none ∧ d.breakpoints.Edited (d.act action).breakpoints) := by
  cases action with
  | mode mode => exact .inr ⟨rfl, .refl _⟩
  | add function location => exact .inr ⟨rfl, d.breakpoints.edited_add function location⟩
  | remove id => exact .inr ⟨rfl, d.breakpoints.edited_remove id⟩
  | pause stack instruction event engine =>
    let stop : Stop := ⟨d, stack, instruction, event, engine⟩
    refine .inr ⟨rfl, ?_⟩
    change d.breakpoints.Edited stop.pause.debugger.breakpoints
    rw [stop.pause_eq_leave]
    exact stop.leads_dialogue.edited
  | event event stack =>
    change (∃ f, _ ∧ (d.countHit event stack).breakpoints = _) ∨
      (_ ∧ d.breakpoints.Edited (d.countHit event stack).breakpoints)
    cases hentered : (Action.event event stack).entered? with
    | none =>
      rw [countHit_of_not_entered hentered]
      exact .inr ⟨rfl, .refl _⟩
    | some f =>
      rw [countHit_of_entered hentered]
      exact .inl ⟨f, rfl, rfl⟩

theorem numbered_after (h : d.breakpoints.Numbered) (actions : List Action) :
    (d.after actions).breakpoints.Numbered := by
  induction actions using List.reverseRecOn with
  | nil => exact h
  | append_singleton actions action ih =>
    rw [after_append_singleton]
    rcases (d.after actions).breakpoints_act action with ⟨f, -, hhit⟩ | ⟨-, hedited⟩
    · rw [hhit]
      exact ih.hit f
    · exact ih.edited hedited

theorem next_le_after (d : Debugger) (actions : List Action) :
    d.breakpoints.next ≤ (d.after actions).breakpoints.next := by
  induction actions using List.reverseRecOn with
  | nil => exact Nat.le_refl _
  | append_singleton actions action ih =>
    rw [after_append_singleton]
    rcases (d.after actions).breakpoints_act action with ⟨f, -, hhit⟩ | ⟨-, hedited⟩
    · rw [hhit]
      exact ih
    · exact Nat.le_trans ih hedited.next

/-! ## Hits -/

/-- The action `action`, after the actions `before`, set the breakpoint: no breakpoint had its
number till then, and afterwards it is there without a hit. -/
structure Added (d : Debugger) (before : List Action) (action : Action) (point : Breakpoint) :
    Prop where
  fresh : ∀ done, done <+: before → ∀ p ∈ (d.after done).breakpoints.points, p.id ≠ point.id
  added : { point with hits := 0 } ∈ (d.after (before ++ [action])).breakpoints.points

/-- A number that has not been given was not that of a breakpoint at any time. -/
theorem fresh_of_next_le (h : d.breakpoints.Numbered) {id : Nat}
    (hid : (d.after actions).breakpoints.next ≤ id) :
    ∀ done, done <+: actions → ∀ p ∈ (d.after done).breakpoints.points, p.id ≠ id := by
  rintro done ⟨rest, rfl⟩ p hp heq
  have hgiven := (numbered_after h done p hp).2
  have hlater := (d.after done).next_le_after rest
  rw [← after_append] at hlater
  omega

/-- The hits of a breakpoint are the entries of its function since it was set. -/
theorem exists_added (h : d.breakpoints.Numbered) (hnew : d.breakpoints.points = [])
    (actions : List Action) : ∀ point ∈ (d.after actions).breakpoints.points,
      ∃ before action later, actions = before ++ action :: later ∧ d.Added before action point ∧
        point.hits = later.countP fun a => a.entered? = some point.function := by
  induction actions using List.reverseRecOn with
  | nil =>
    intro point hpoint
    change point ∈ d.breakpoints.points at hpoint
    rw [hnew] at hpoint
    cases hpoint
  | append_singleton actions last ih =>
    intro point hpoint
    have hnumbered := numbered_after h actions
    rw [after_append_singleton] at hpoint
    rcases (d.after actions).breakpoints_act last with ⟨f, hf, hhit⟩ | ⟨hnone, hedited⟩
    · rw [hhit, hnumbered.hit_eq] at hpoint
      obtain ⟨old, hold, rfl⟩ := List.mem_map.1 hpoint
      obtain ⟨before, action, later, rfl, hadded, hhits⟩ := ih old hold
      by_cases hfunction : old.function = f
      · rw [if_pos hfunction]
        refine ⟨before, action, later ++ [last], by simp, ⟨hadded.fresh, hadded.added⟩, ?_⟩
        simp [List.countP_append, hf, hfunction, hhits]
      · rw [if_neg hfunction]
        refine ⟨before, action, later ++ [last], by simp, hadded, ?_⟩
        simp [List.countP_append, hf, Ne.symm hfunction, hhits]
    · rcases hedited.points point hpoint with hold | ⟨hhits, -, hlow, -⟩
      · obtain ⟨before, action, later, rfl, hadded, hhits⟩ := ih point hold
        refine ⟨before, action, later ++ [last], by simp, hadded, ?_⟩
        simp [List.countP_append, hnone, hhits]
      · refine ⟨actions, last, [], rfl, ⟨fresh_of_next_le h hlow, ?_⟩, by simp [hhits]⟩
        have hsame : { point with hits := 0 } = point := by rw [← hhits]
        rw [hsame, after_append_singleton]
        exact hpoint

theorem stopsOn_of_entered (h : d.breakpoints.Numbered) {event : Event} {stack : CallStack}
    (hpoint : point ∈ d.breakpoints.points)
    (hentered : (Action.event event stack).entered? = some point.function) :
    d.stopsOn event stack = true := by
  cases event with
  | callEnter =>
    obtain ⟨top, htop, hfunction⟩ := Option.map_eq_some_iff.1 hentered
    exact stopsOn_iff.2 (.entry rfl htop hpoint (h point hpoint).1 hfunction.symm)
  | _ => cases hentered

theorem points_countHit (h : d.breakpoints.Numbered) (event : Event) (stack : CallStack) :
    (d.countHit event stack).breakpoints.points = d.breakpoints.points.map fun p =>
      if (Action.event event stack).entered? = some p.function then
        { p with hits := p.hits + 1 } else p := by
  cases hentered : (Action.event event stack).entered? with
  | none =>
    rw [countHit_of_not_entered hentered]
    simp
  | some f =>
    rw [countHit_of_entered hentered, h.hit_eq]
    simp only [Option.some.injEq, eq_comm]

/-- Whatever happens to a debugger, the hits of every breakpoint are the entries of its function
that the debugger was asked about since the breakpoint was set. On such an entry the program stops
in every step mode, and no other event changes a breakpoint. -/
theorem hits_exact (program : Program) (input : List Text.Line) (config : Config)
    (console : Console) (actions : List Action) :
    let start := Debugger.start program input config console
    let d := start.after actions
    (∀ point ∈ d.breakpoints.points, ∃ before action later,
      actions = before ++ action :: later ∧ start.Added before action point ∧
        point.hits = later.countP fun a => a.entered? = some point.function) ∧
    ∀ event stack,
      (∀ point ∈ d.breakpoints.points, (Action.event event stack).entered? = some point.function →
        ∀ mode, { d with mode }.stopsOn event stack = true) ∧
      (d.countHit event stack).breakpoints.points = d.breakpoints.points.map fun p =>
        if (Action.event event stack).entered? = some p.function then
          { p with hits := p.hits + 1 } else p := by
  intro start d
  have hstart : start.breakpoints.Numbered := fun _ hp => nomatch hp
  have hd : d.breakpoints.Numbered := numbered_after hstart actions
  refine ⟨exists_added hstart rfl actions, fun event stack => ⟨?_, points_countHit hd event stack⟩⟩
  intro point hpoint hentered mode
  exact stopsOn_of_entered (d := { d with mode }) hd hpoint hentered

end Debugger

end TraceDebugger
