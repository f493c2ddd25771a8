import TraceDebugger.Proofs.PartialWrites
import TraceDebugger.Proofs.Replies

/-!
# The call that a session looks at

A session selects one of the running calls and has one current scope. The two are changed together,
by the commands that select a call, and by nothing else: a call that is selected is a running one
(`Session.lt_of_select_mem_reply`), and its scope becomes the current one. So after any lines,
whatever comes of them, what is inspected is one call in its own scope
(`Session.settled_after_lines`).
-/

namespace TraceDebugger

namespace Session

/-- The session looks at one call, in the scope of that call. -/
structure Settled (s : Session) : Prop where
  /-- One of the running calls is selected. If there is none, depth zero is. -/
  cursor : s.cursor < s.stack.size ∨ s.cursor = 0 ∧ s.stack.size = 0
  /-- Without a call there is no current scope. -/
  unscoped : s.frame? = none → s.scope = none
  /-- The current scope is the one that is recorded for the call. -/
  recorded : ∀ frame n, s.frame? = some frame → frame.scope = some n → s.scope = some n
  /-- If none is recorded, it is that of the function, if the function is known and has one. -/
  unrecorded : ∀ frame, s.frame? = some frame → frame.scope = none →
    s.scope = s.function?.bind (·.scope)

variable {s s' s'' : Session}

theorem settled_iff : s.Settled ↔ (s.cursor < s.stack.size ∨ s.cursor = 0 ∧ s.stack.size = 0) ∧
    s.scope = s.frame?.bind (scopeOf s.program) := by
  constructor
  · intro h
    refine ⟨h.cursor, ?_⟩
    cases hframe : s.frame? with
    | none => exact h.unscoped hframe
    | some frame =>
      change s.scope = frame.scope.or _
      cases hscope : frame.scope with
      | some n => exact h.recorded frame n hframe hscope
      | none =>
        have hfunction : s.function? = s.program.function? frame.function := by
          unfold function?
          rw [hframe]
          rfl
        rw [h.unrecorded frame hframe hscope, hfunction]
        rfl
  · rintro ⟨hcursor, hscope⟩
    refine ⟨hcursor, fun hframe => ?_, fun frame n hframe hn => ?_, fun frame hframe hn => ?_⟩
    · rw [hscope, hframe]
      rfl
    · rw [hscope, hframe]
      change frame.scope.or _ = _
      rw [hn]
      rfl
    · unfold function?
      rw [hscope, hframe]
      change frame.scope.or _ = _
      rw [hn]
      rfl

theorem frameAndFunction?_eq_some {frame : Frame} {f : Function}
    (h : s.frameAndFunction? = some (frame, f)) :
    s.frame? = some frame ∧ s.program.function? frame.function = some f := by
  obtain ⟨frame', hframe, hrest⟩ := Option.bind_eq_some_iff.1 h
  obtain ⟨f', hf, heq⟩ := Option.bind_eq_some_iff.1 hrest
  cases heq
  exact ⟨hframe, hf⟩

/-- In a settled session what is inspected is a running call, its function and its scope. -/
theorem Settled.of_frameAndFunction? (h : s.Settled) {frame : Frame} {f : Function}
    (hpair : s.frameAndFunction? = some (frame, f)) :
    s.stack.frame? s.cursor = some frame ∧ s.program.function? frame.function = some f ∧
      s.scope = frame.scope.or f.scope := by
  obtain ⟨hframe, hf⟩ := frameAndFunction?_eq_some hpair
  refine ⟨hframe, hf, ?_⟩
  rw [(settled_iff.1 h).2, hframe]
  change frame.scope.or ((s.program.function? frame.function).bind (·.scope)) = _
  rw [hf]
  rfl

/-! ## What is selected -/

/-- A running call can be selected. -/
theorem settled_select {depth : Nat} (h : depth < s.stack.size) : (s.select depth).Settled :=
  settled_iff.2 ⟨.inl h, rfl⟩

theorem settled_start (program : Program) (stack : CallStack) (config : Config) (event : Event)
    (engine : Engine) (breakpoints : Breakpoints) (console : Console) :
    (start program stack config event engine breakpoints console).Settled := by
  refine settled_iff.2 ⟨?_, rfl⟩
  change 0 < stack.size ∨ 0 = 0 ∧ stack.size = 0
  omega

/-- Only the commands for that select a call. -/
theorem verb_of_select {verb : Verb} {r : Reply} {depth : Nat} (h : Reply.Way s (some verb) r)
    (hselect : .select depth ∈ r.effects) : verb = .frame ∨ verb = .up ∨ verb = .down := by
  have hwrites : ∀ texts : List String, .select depth ∉ texts.map Effect.write := by
    intro texts hmem
    obtain ⟨text, -, heq⟩ := List.mem_map.1 hmem
    cases heq
  cases h with
  | shows texts => exact absurd hselect (hwrites texts)
  | moves _ verbs => exact verbs
  -- the other replies have a fixed list of effects, or none
  | _ => exact absurd hselect (by simp [runOn, setTracing, quit.leave])

theorem lt_of_select_mem_moveTo {n : Int} {absolute : Bool} {depth : Nat}
    (h : .select depth ∈ (s.moveTo n absolute).effects) : depth < s.stack.size := by
  unfold moveTo at h
  split at h
  · cases h
  · dsimp only at h
    -- the target is checked before it is selected, however it was computed
    generalize (if absolute then n else FrameNumber.clamp (s.cursor + n)) = target at h
    split at h
    · rename_i hrange
      rcases List.mem_cons.1 h with heq | hwrites
      · cases heq
        omega
      · obtain ⟨f, -, hf⟩ := List.mem_map.1 hwrites
        cases hf
    · cases h

/-- Only running calls are selected. -/
theorem lt_of_select_mem_reply {request : Request} {depth : Nat}
    (h : .select depth ∈ (s.reply request).effects) : depth < s.stack.size := by
  by_cases hverb : request.verb = .frame ∨ request.verb = .up ∨ request.verb = .down
  · cases request with
    | frame number =>
      change _ ∈ (s.frame number).effects at h
      unfold frame at h
      split at h
      · exact lt_of_select_mem_moveTo h
      · cases h
    | up count =>
      change _ ∈ (s.up count).effects at h
      unfold up at h
      split at h
      · exact lt_of_select_mem_moveTo h
      · cases h
    | down count =>
      change _ ∈ (s.down count).effects at h
      unfold down at h
      split at h
      · exact lt_of_select_mem_moveTo h
      · cases h
    | trace on => cases on <;> exact absurd hverb (by decide)
    | _ => exact absurd hverb (by simp only [Request.verb]; decide)
  · exact absurd (verb_of_select (s.reply_way request) h) hverb

/-! ## What stays -/

/-- Nothing of which call a session looks at has changed. -/
structure Unmoved (s s' : Session) : Prop where
  program : s'.program = s.program
  stack : s'.stack = s.stack
  cursor : s'.cursor = s.cursor
  scope : s'.scope = s.scope

theorem Unmoved.trans (h : s.Unmoved s') (h' : s'.Unmoved s'') : s.Unmoved s'' :=
  ⟨h'.program.trans h.program, h'.stack.trans h.stack, h'.cursor.trans h.cursor,
    h'.scope.trans h.scope⟩

theorem unmoved_refl (s : Session) : s.Unmoved s := ⟨rfl, rfl, rfl, rfl⟩

theorem unmoved_write? {text : String} (h : s.write? text = some s') : s.Unmoved s' := by
  obtain ⟨console, -, rfl⟩ := Option.map_eq_some_iff.1 h
  exact ⟨rfl, rfl, rfl, rfl⟩

theorem unmoved_enactPartly (s : Session) (e : Effect) : s.Unmoved (s.enactPartly e) := by
  obtain ⟨part, hwrite⟩ := s.exists_part_of_effect e
  exact unmoved_write? hwrite

theorem unmoved_enact? {e : Effect} (hselect : ∀ depth, e ≠ .select depth)
    (h : s.enact? e = some s') : s.Unmoved s' := by
  cases e with
  | write text => exact unmoved_write? h
  | select depth => exact absurd rfl (hselect depth)
  | addBreakpoint function location =>
    cases h
    exact ⟨rfl, rfl, rfl, rfl⟩
  | removeBreakpoint id =>
    cases h
    exact ⟨rfl, rfl, rfl, rfl⟩
  | direct d =>
    cases h
    exact ⟨rfl, rfl, rfl, rfl⟩

theorem unmoved_perform {effects : List Effect} (hselect : ∀ depth, .select depth ∉ effects) :
    s.Unmoved (s.perform effects).1 := by
  induction effects generalizing s with
  | nil => exact s.unmoved_refl
  | cons e rest ih =>
    unfold perform
    split
    · rename_i s' henact
      have hfirst : s.Unmoved s' :=
        unmoved_enact? (fun depth he => hselect depth (by simp [he])) henact
      exact hfirst.trans (ih fun depth hrest => hselect depth (List.mem_cons_of_mem e hrest))
    · exact s.unmoved_enactPartly e

/-- The report of an error selects nothing. -/
theorem unmoved_report (s : Session) (r : Reply) :
    (s.perform r.effects).1.Unmoved (s.carryOut r).session := by
  unfold carryOut
  split
  · rename_i s' heq
    rw [heq]
    exact unmoved_refl _
  · rename_i s' heq
    rw [heq]
    split
    · exact unmoved_refl _
    · split
      · rename_i s'' hwrite
        exact unmoved_write? hwrite
      · exact s'.unmoved_enactPartly (.write _)

/-! ## Lines -/

/-- A session goes on with the same program and calls, and looks at one of these. -/
structure Follows (s s' : Session) : Prop where
  program : s'.program = s.program
  stack : s'.stack = s.stack
  settled : s'.Settled

theorem Follows.trans (h : s.Follows s') (h' : s'.Follows s'') : s.Follows s'' :=
  ⟨h'.program.trans h.program, h'.stack.trans h.stack, h'.settled⟩

theorem Settled.follows (h : s.Settled) (hsame : s.Unmoved s') : s.Follows s' := by
  refine ⟨hsame.program, hsame.stack, settled_iff.2 ?_⟩
  have h' := settled_iff.1 h
  unfold frame? at h' ⊢
  rw [hsame.program, hsame.stack, hsame.cursor, hsame.scope]
  exact h'

/-- An effect leaves the session settled if it selects a running call or none. -/
theorem Settled.follows_enact? (h : s.Settled) {e : Effect}
    (hselect : ∀ depth, e = .select depth → depth < s.stack.size) (henact : s.enact? e = some s') :
    s.Follows s' := by
  by_cases hmoves : ∃ depth, e = .select depth
  · obtain ⟨depth, rfl⟩ := hmoves
    cases henact
    exact ⟨rfl, rfl, settled_select (hselect depth rfl)⟩
  · exact h.follows (unmoved_enact? (fun depth he => hmoves ⟨depth, he⟩) henact)

/-- So do effects one after another, also if a write fails on the way. -/
theorem Settled.follows_perform (h : s.Settled) {effects : List Effect}
    (hselect : ∀ depth, .select depth ∈ effects → depth < s.stack.size) :
    s.Follows (s.perform effects).1 := by
  induction effects generalizing s with
  | nil => exact h.follows s.unmoved_refl
  | cons e rest ih =>
    unfold perform
    split
    · rename_i s' henact
      have hfirst : s.Follows s' :=
        h.follows_enact? (fun depth he => hselect depth (by simp [he])) henact
      refine hfirst.trans (ih hfirst.settled fun depth hrest => ?_)
      rw [hfirst.stack]
      exact hselect depth (List.mem_cons_of_mem e hrest)
    · exact h.follows (s.unmoved_enactPartly e)

theorem Settled.follows_carryOut (h : s.Settled) {r : Reply}
    (hselect : ∀ depth, .select depth ∈ r.effects → depth < s.stack.size) :
    s.Follows (s.carryOut r).session := by
  have hperform := h.follows_perform hselect
  exact hperform.trans (hperform.settled.follows (s.unmoved_report r))

/-- A line leaves a session settled, whatever comes of it. -/
theorem Settled.follows_execute (h : s.Settled) (line : String) :
    s.Follows (s.execute line).session := by
  refine h.follows_carryOut fun depth hselect => ?_
  unfold replyTo at hselect
  split at hselect
  · obtain ⟨l, -, hl⟩ := List.mem_map.1 hselect
    cases hl
  · split at hselect
    · exact lt_of_select_mem_reply hselect
    · cases hselect

/-- The session after lines, each of which is carried out as far as it goes. -/
def after (s : Session) (lines : List String) : Session :=
  lines.foldl (fun s line => (s.execute line).session) s

theorem Settled.follows_after (h : s.Settled) (lines : List String) :
    s.Follows (s.after lines) := by
  induction lines generalizing s with
  | nil => exact h.follows s.unmoved_refl
  | cons line rest ih =>
    have hfirst := h.follows_execute line
    exact hfirst.trans (ih hfirst.settled)

/-- After any lines, also such that report an error or are cut short, a session looks at one call of
the stack that it began with, in the scope of that call. So what is inspected, the call, its
function and its scope, belongs together. -/
theorem settled_after_lines (program : Program) (stack : CallStack) (config : Config)
    (event : Event) (engine : Engine) (breakpoints : Breakpoints) (console : Console)
    (lines : List String) :
    let s := (start program stack config event engine breakpoints console).after lines
    s.program = program ∧ s.stack = stack ∧ s.Settled ∧
      ∀ frame f, s.frameAndFunction? = some (frame, f) →
        stack.frame? s.cursor = some frame ∧ program.function? frame.function = some f ∧
          s.scope = frame.scope.or f.scope := by
  intro s
  have hstart : (start program stack config event engine breakpoints console).Settled :=
    settled_start program stack config event engine breakpoints console
  have hfollows := hstart.follows_after lines
  have hprogram : s.program = program := hfollows.program
  have hstack : s.stack = stack := hfollows.stack
  have hsettled : s.Settled := hfollows.settled
  refine ⟨hprogram, hstack, hsettled, fun frame f hpair => ?_⟩
  have hread := hsettled.of_frameAndFunction? hpair
  rw [hprogram, hstack] at hread
  exact hread

end Session

end TraceDebugger
