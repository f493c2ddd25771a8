import Mathlib.Data.List.Chain
import TraceDebugger.Proofs.ReplayRuns

/-!
# Where a program stops after `finish`

The command `finish` lets a program run on until a call returns that is as deep as the innermost
call or less deep. Calls are told apart by their depth only. In a recording whose calls are nested
the depth does not fall below that of the return that is awaited before the program stops
(`Replay.depth_after_finish`), so the program stops at the return of a call that was running when
`finish` was given, except that at the return of a call another call of the same depth may come
first (`Replay.finish_stops`).
-/

namespace TraceDebugger

namespace TraceStep

/-- The number of running calls. -/
def depth (s : TraceStep) : Nat := s.stack.length

/-- An event may follow another in a recording whose calls are nested: after a return there is one
call less, and otherwise there are the same calls or one more. -/
def Precedes (s t : TraceStep) : Prop :=
  (s.event = .callReturn → t.depth + 1 = s.depth) ∧
    (s.event ≠ .callReturn → t.depth = s.depth ∨ t.depth = s.depth + 1)

instance : DecidableRel Precedes := fun s t =>
  inferInstanceAs (Decidable ((s.event = .callReturn → t.depth + 1 = s.depth) ∧
    (s.event ≠ .callReturn → t.depth = s.depth ∨ t.depth = s.depth + 1)))

theorem size_callStack {p : Program} {step : TraceStep} {stack : CallStack}
    (h : step.callStack p = .ok stack) : stack.size = step.depth := by
  have hframes : ∀ (recorded : List RecordedFrame) (frames : List Frame),
      RecordedFrame.frames p recorded = .ok frames → frames.length = recorded.length := by
    intro recorded
    induction recorded with
    | nil =>
      intro frames hf
      cases hf
      rfl
    | cons r rest ih =>
      intro frames hf
      unfold RecordedFrame.frames at hf
      split at hf
      · cases hrest : RecordedFrame.frames p rest with
        | error name =>
          rw [hrest] at hf
          cases hf
        | ok frames' =>
          rw [hrest] at hf
          cases hf
          rw [List.length_cons, List.length_cons, ih frames' hrest]
      · cases hf
  unfold callStack at h
  cases hok : RecordedFrame.frames p step.stack with
  | error name =>
    rw [hok] at h
    cases h
  | ok frames =>
    rw [hok] at h
    cases h
    have hlength := hframes step.stack frames hok
    unfold CallStack.size CallStack.ofOutermost depth
    rw [List.length_reverse, hlength]

/-- The number of calls that are left when the program runs on. -/
def remaining (s : TraceStep) : Nat := if s.event = .callReturn then s.depth - 1 else s.depth

theorem remaining_le_depth (s : TraceStep) : s.remaining ≤ s.depth := by
  unfold remaining
  split
  · exact Nat.sub_le _ _
  · exact Nat.le_refl _

theorem le_remaining {s : TraceStep} {m : Nat} (h : m ≤ s.depth)
    (hreturn : s.event = .callReturn → m < s.depth) : m ≤ s.remaining := by
  unfold remaining
  split
  · rename_i hevent
    have hless := hreturn hevent
    omega
  · exact h

theorem Precedes.remaining_le {s t : TraceStep} (h : s.Precedes t) : s.remaining ≤ t.depth := by
  unfold remaining
  split
  · rename_i hreturn
    have hleft := h.1 hreturn
    omega
  · rename_i hother
    have hleft := h.2 hother
    omega

end TraceStep

/-- Consecutive events of a recording follow each other as nested calls do. -/
def WellNested (steps : List TraceStep) : Prop := steps.IsChain TraceStep.Precedes

instance (steps : List TraceStep) : Decidable (WellNested steps) :=
  inferInstanceAs (Decidable (steps.IsChain _))

theorem WellNested.precedes {steps : List TraceStep} (h : WellNested steps) {k : Nat}
    {s t : TraceStep} (hs : steps[k]? = some s) (ht : steps[k + 1]? = some t) : s.Precedes t := by
  obtain ⟨hlt, rfl⟩ := List.getElem?_eq_some_iff.1 ht
  obtain ⟨-, rfl⟩ := List.getElem?_eq_some_iff.1 hs
  exact List.IsChain.getElem h k hlt

namespace Session

/-- A line that lets the program run on carries out a reply that does. -/
theorem result_of_carryOut {s : Session} {r : Reply} {mode : StepMode}
    (h : (s.carryOut r).result = .ok (.resume mode)) : r.result = .ok (.resume mode) := by
  unfold carryOut at h
  split at h
  · cases h
  · split at h
    · rename_i flow hflow
      cases h
      exact hflow
    · split at h
      · cases h
      · cases h

/-- What is left of the input follows a line that lets a program with the running calls `stack` run
on in the mode `mode`. -/
def LastLine (input left : List Text.Line) (stack : CallStack) (mode : StepMode) : Prop :=
  ∃ (read : List Text.Line) (line : String) (s : Session),
    input = read ++ .text line :: left ∧ s.stack = stack ∧
      (s.execute line).result = .ok (.resume mode)

theorem lastLine_of_dialogue {s : Session} {prompts : Nat} {lines : List Text.Line}
    {mode : StepMode} (h : (s.dialogue prompts lines).result = .ok (.resume mode)) :
    LastLine lines (s.dialogue prompts lines).input s.stack mode := by
  induction lines generalizing s prompts with
  | nil =>
    simp only [dialogue] at h
    split at h
    · rename_i s' _
      obtain ⟨-, hmode⟩ := s'.endOfInput_issues (prompts + 1)
      rw [h] at hmode
      cases hmode
    · cases h
  | cons line rest ih =>
    cases hprompt : s.write? (s.promptText (prompts + 1)) with
    | none =>
      simp only [dialogue, hprompt] at h
      cases h
    | some s' =>
      have hstack : s'.stack = s.stack := (Issues.write hprompt).stack
      cases line with
      | malformed =>
        simp only [dialogue, hprompt] at h
        cases h
      | text content =>
        have hends := s'.execute_ends content
        cases hturn : (s'.execute content).result with
        | error e =>
          simp only [dialogue, hprompt, hturn] at h
          cases h
        | ok flow =>
          rw [hturn] at hends
          cases flow with
          | prompt =>
            -- a later line lets the program run on, and this one keeps the running calls
            simp only [dialogue, hprompt, hturn] at h ⊢
            obtain ⟨read, line, s'', hsplit, hsame, hexecute⟩ := ih h
            refine ⟨.text content :: read, line, s'', ?_, ?_, hexecute⟩
            · rw [List.cons_append]
              exact congrArg (_ :: ·) hsplit
            · exact (hsame.trans (Issues.stack hends)).trans hstack
          | resume mode' =>
            simp only [dialogue, hprompt, hturn] at h ⊢
            cases h
            exact ⟨[], content, s', rfl, hstack, hturn⟩
          | quit code =>
            simp only [dialogue, hprompt, hturn] at h
            cases h

/-- After `finish` the program runs on until a call returns that is at most as deep as the
innermost one. -/
theorem mode_of_finish {s : Session} {line word : String} {args : List String} {mode : StepMode}
    (hwords : Text.commandWords line = word :: args)
    (hword : Request.ofWords word args = .ok .finish)
    (h : (s.execute line).result = .ok (.resume mode)) : mode = .out s.stack.size := by
  have hresult := result_of_carryOut h
  rw [hwords] at hresult
  unfold replyTo at hresult
  dsimp only at hresult
  rw [hword] at hresult
  cases hresult
  rfl

end Session

namespace Debugger

/-- The program runs on after a stop in the mode of the last line that was read. -/
theorem lastLine_of_pause {d : Debugger} {stack : CallStack} {instruction : Instruction}
    {event : Event} {engine : Engine} {mode : StepMode}
    (h : (d.pause stack instruction event engine).result = .ok (.resume mode)) :
    (d.pause stack instruction event engine).debugger.mode = mode ∧
      Session.LastLine d.input (d.pause stack instruction event engine).debugger.input stack
        mode := by
  rw [pause_eq] at h ⊢
  have hmode :
      (d.leave event (d.dialogueAt stack instruction event engine)).debugger.mode = mode := by
    unfold leave at h ⊢
    dsimp only at h ⊢
    rw [h]
  refine ⟨hmode, ?_⟩
  unfold leave at h ⊢
  dsimp only at h ⊢
  unfold dialogueAt at h ⊢
  dsimp only at h ⊢
  generalize hstart : Session.start d.program stack d.config event engine d.breakpoints _ = s at h ⊢
  have hstack : s.stack = stack := by
    rw [← hstart]
    rfl
  have hshown := s.showLines_issues (s.location instruction)
  generalize s.showLines (s.location instruction) = shown at h hshown ⊢
  obtain ⟨s', _ | _⟩ := shown
  · cases h
  · obtain ⟨read, line, s'', hsplit, hsame, hexecute⟩ := Session.lastLine_of_dialogue h
    exact ⟨read, line, s'', hsplit, (hsame.trans hshown.stack).trans hstack, hexecute⟩

end Debugger

namespace Replay

variable {r r' : Replay}

/-- A stop after which the program runs on ends with the line that lets it. -/
theorem lastLine_of_stop {n : Nat} {stack : CallStack} {step : TraceStep} {mode : StepMode}
    (h : r.stop n stack step = (r', .resumed mode)) : r'.debugger.mode = mode ∧
      Session.LastLine r.debugger.input r'.debugger.input stack mode := by
  unfold stop at h
  dsimp only at h
  split at h
  · rename_i mode' hresult
    cases h
    exact Debugger.lastLine_of_pause hresult
  · cases h
  · cases h

end Replay

namespace Visit

variable {v w : Visit}

/-- What came of the event is what comes of showing it to the debugger. -/
def Shown (v : Visit) : Prop := ∃ n, v.before.advance n v.step = (v.after, v.progress)

/-- The debugger is asked whether the program stops on the event, and it does. -/
def Pauses (v : Visit) : Prop :=
  ∃ stack, v.step.callStack v.before.debugger.program = .ok stack ∧
    ((v.before.bind stack).echo? v.step).isSome ∧
    v.before.debugger.stopsOn v.step.event stack = true

/-- The program stops on the event whatever the mode is: it stops itself, it panics, or it enters a
function with a breakpoint. -/
def Forced (v : Visit) : Prop :=
  v.step.event = .breakpoint ∨ v.step.event = .panic ∨ ∃ stack,
    v.step.callStack v.before.debugger.program = .ok stack ∧
      v.before.debugger.atBreakpoint v.step.event stack = true

/-- The program runs on after a line with the command `finish`, which is the last that was read. -/
def Finishes (v : Visit) : Prop :=
  (∃ mode, v.progress = .resumed mode) ∧
    ∃ (read : List Text.Line) (line word : String) (args : List String),
      v.before.debugger.input = read ++ .text line :: v.after.debugger.input ∧
      Text.commandWords line = word :: args ∧ Request.ofWords word args = .ok .finish

/-- The three ways in which an event goes. -/
inductive Course (v : Visit) : Prop where
  /-- The replay breaks off before the debugger is asked. -/
  | broken (cause : ReplayError) (progress : v.progress = .failed cause) (free : ¬ v.Pauses)
  /-- The program does not stop. -/
  | passed (stack : CallStack) (progress : v.progress = .passed)
    (calls : v.step.callStack v.before.debugger.program = .ok stack)
    (free : v.before.debugger.stopsOn v.step.event stack = false)
    (mode : v.after.debugger.mode = v.before.debugger.mode)
  /-- The program stops. -/
  | stopped (n : Nat) (stack : CallStack) (r : Replay) (pauses : v.Pauses)
    (calls : v.step.callStack v.before.debugger.program = .ok stack)
    (input : r.debugger.input = v.before.debugger.input)
    (stop : r.stop n stack v.step = (v.after, v.progress))

theorem Shown.course (h : v.Shown) : v.Course := by
  obtain ⟨n, h⟩ := h
  have hmoves := v.before.moves n v.step
  rw [h] at hmoves
  generalize hnext : (v.after, v.progress) = next at hmoves
  generalize v.before.stop? n v.step = stop at hmoves
  have hafter : v.after = next.1 := congrArg Prod.fst hnext
  have hprogress : v.progress = next.2 := congrArg Prod.snd hnext
  cases hmoves with
  | unknown calls =>
    refine .broken _ hprogress ?_
    rintro ⟨stack, hstack, -⟩
    rw [calls] at hstack
    cases hstack
  | mute calls echo =>
    refine .broken _ hprogress ?_
    rintro ⟨stack, hstack, hsome, -⟩
    rw [calls] at hstack
    cases hstack
    rw [echo] at hsome
    cases hsome
  | passes calls echo passes =>
    obtain ⟨c, points, hcount, -⟩ := Replay.debugger_count echo
    -- neither binding the stack nor tracing bears on whether the program stops
    obtain ⟨console, rfl, -⟩ := Replay.echo?_eq_some echo
    refine .passed _ hprogress calls passes ?_
    rw [hafter, hcount]
  | stops calls echo stops =>
    obtain ⟨c, points, hcount, -⟩ := Replay.debugger_count echo
    have hsome := congrArg Option.isSome echo
    obtain ⟨console, rfl, -⟩ := Replay.echo?_eq_some echo
    refine .stopped n _ _ ⟨_, calls, hsome, stops⟩ calls ?_ hnext.symm
    rw [hcount]

theorem Shown.pauses_of_progress (h : v.Shown) (hasked : v.progress ≠ .passed)
    (hanswered : ∀ cause, v.progress ≠ .failed cause) : v.Pauses := by
  cases h.course with
  | broken cause progress free => exact absurd progress (hanswered cause)
  | passed stack progress calls free mode => exact absurd progress hasked
  | stopped n stack r pauses calls input stop => exact pauses

theorem Shown.not_pauses_of_passed (h : v.Shown) (hpassed : v.progress = .passed) :
    ¬ v.Pauses := by
  cases h.course with
  | broken cause progress free => exact free
  | passed stack progress calls free mode =>
    rintro ⟨stack', calls', -, hstops⟩
    rw [calls] at calls'
    cases calls'
    rw [free] at hstops
    cases hstops
  | stopped n stack r pauses calls input stop =>
    have hprogress := congrArg Prod.snd stop
    rw [hpassed] at hprogress
    unfold Replay.stop at hprogress
    dsimp only at hprogress
    split at hprogress
    · cases hprogress
    · cases hprogress
    · cases hprogress

/-- After `finish` the mode counts from all calls that are running. -/
theorem Shown.mode_of_finishes (h : v.Shown) (hfinishes : v.Finishes) :
    v.after.debugger.mode = .out v.step.depth := by
  obtain ⟨⟨mode, hmode⟩, read, line, word, args, hinput, hwords, hword⟩ := hfinishes
  cases h.course with
  | broken cause progress free =>
    rw [hmode] at progress
    cases progress
  | passed stack progress calls free mode =>
    rw [hmode] at progress
    cases progress
  | stopped n stack r pauses calls input stop =>
    rw [hmode] at stop
    obtain ⟨hafter, read', line', s, hinput', hstack, hexecute⟩ := Replay.lastLine_of_stop stop
    -- what is left unread tells which line was the last
    have hsame : line' = line := by
      rw [input, hinput, List.append_cons, List.append_cons read'] at hinput'
      have hread := List.append_cancel_right hinput'
      have hlast := congrArg List.getLast? hread
      simpa using hlast.symm
    subst hsame
    have hout := Session.mode_of_finish hwords hword hexecute
    rw [hafter, hout, hstack, TraceStep.size_callStack calls]

/-- A stop that nothing forces is one of the mode. -/
theorem Pauses.stopsOn_mode (h : v.Pauses) (hfree : ¬ v.Forced) :
    v.before.debugger.mode.stopsOn v.step.event v.step.depth = true := by
  obtain ⟨stack, calls, -, hstops⟩ := h
  unfold Debugger.stopsOn at hstops
  rw [Bool.or_eq_true, Bool.or_eq_true, Bool.or_eq_true, TraceStep.size_callStack calls] at hstops
  rcases hstops with ((hbreak | hpanic) | hpoint) | hmode
  · exact absurd (.inl (of_decide_eq_true hbreak)) hfree
  · exact absurd (.inr (.inl (of_decide_eq_true hpanic))) hfree
  · exact absurd (.inr (.inr ⟨stack, calls, hpoint⟩)) hfree
  · exact hmode

theorem not_forced_of_return (h : v.step.event = .callReturn) : ¬ v.Forced := by
  rintro (hbreak | hpanic | ⟨stack, -, hpoint⟩)
  · rw [h] at hbreak
    cases hbreak
  · rw [h] at hpanic
    cases hpanic
  · rw [Debugger.atBreakpoint_iff, h] at hpoint
    cases hpoint.1

/-- While the return of a call is awaited, an event that is passed leaves the mode alone and leaves
no fewer calls than those from which the mode counts. -/
theorem Shown.passes (h : v.Shown) (hgo : v.progress.goesOn = true) (hfree : ¬ v.Pauses)
    {depth : Nat} (hmode : v.before.debugger.mode = .out depth) :
    v.after.debugger.mode = .out depth ∧ (v.step.event = .callReturn → depth < v.step.depth) := by
  cases h.course with
  | broken cause progress free =>
    rw [progress] at hgo
    cases hgo
  | passed stack progress calls free mode =>
    refine ⟨mode.trans hmode, fun hreturn => ?_⟩
    refine Nat.lt_of_not_le fun hshallow => ?_
    -- otherwise this is the awaited return
    have hstops : v.before.debugger.stopsOn v.step.event stack = true := by
      refine Debugger.stopsOn_iff.2 (.out hmode hreturn ?_)
      rw [TraceStep.size_callStack calls]
      exact hshallow
    rw [free] at hstops
    cases hstops
  | stopped n stack r pauses calls input stop => exact absurd pauses hfree

end Visit

namespace Replay

variable {r : Replay} {n : Nat} {steps : List TraceStep} {k : Nat} {v w : Visit}

/-- The visits are of the events in order, each shown to the debugger. -/
theorem shown_of_visits (h : (r.visits n steps)[k]? = some v) :
    steps[k]? = some v.step ∧ v.Shown := by
  induction steps generalizing r n k with
  | nil => cases h
  | cons step rest ih =>
    rw [visits_cons] at h
    cases k with
    | zero =>
      cases h
      exact ⟨rfl, n, rfl⟩
    | succ k =>
      rw [List.getElem?_cons_succ] at h
      split at h
      · exact ih h
      · cases h

/-- The next event is shown to the replay as the one before has left it. -/
theorem next_of_visits (h : (r.visits n steps)[k]? = some v)
    (hnext : (r.visits n steps)[k + 1]? = some w) :
    w.before = v.after ∧ v.progress.goesOn = true := by
  induction steps generalizing r n k with
  | nil => cases h
  | cons step rest ih =>
    rw [visits_cons] at h hnext
    rw [List.getElem?_cons_succ] at hnext
    split at hnext
    · rename_i hgo
      cases k with
      | zero =>
        cases h
        cases rest with
        | nil => cases hnext
        | cons step' rest' =>
          rw [visits_cons] at hnext
          cases hnext
          exact ⟨rfl, hgo⟩
      | succ k =>
        rw [List.getElem?_cons_succ, if_pos hgo] at h
        exact ih h hnext
    · cases hnext

theorem exists_visit {j : Nat} (h : (r.visits n steps)[j]? = some w) (hk : k ≤ j) :
    ∃ v, (r.visits n steps)[k]? = some v := by
  have hlt := (List.getElem?_eq_some_iff.1 h).1
  exact ⟨_, List.getElem?_eq_getElem (Nat.lt_of_le_of_lt hk hlt)⟩

/-- Until the program stops, the return is awaited from which `finish` counts, and no call returns
that was running when the program ran on. -/
theorem depth_after_finish (hnested : WellNested steps) {i j : Nat} (hij : i < j)
    (hv : (r.visits n steps)[i]? = some v) (hw : (r.visits n steps)[j]? = some w)
    (hfinish : v.Finishes) (hfree : ∀ k u, i < k → k < j →
      (r.visits n steps)[k]? = some u → ¬ u.Pauses) :
    w.before.debugger.mode = .out v.step.depth ∧ v.step.remaining ≤ w.step.depth := by
  -- by induction on the number of events in between, none of which stops the program
  obtain ⟨m, rfl⟩ := Nat.exists_eq_add_of_lt hij
  clear hij
  induction m generalizing w with
  | zero =>
    obtain ⟨hvstep, hvshown⟩ := shown_of_visits hv
    obtain ⟨hwstep, -⟩ := shown_of_visits hw
    rw [(next_of_visits hv hw).1]
    exact ⟨hvshown.mode_of_finishes hfinish, (hnested.precedes hvstep hwstep).remaining_le⟩
  | succ m ih =>
    obtain ⟨u, hu⟩ := exists_visit hw (Nat.le_succ (i + m + 1))
    obtain ⟨hustep, hushown⟩ := shown_of_visits hu
    obtain ⟨hwstep, -⟩ := shown_of_visits hw
    obtain ⟨hmode, hdepth⟩ := ih hu fun k u' hk hkm hu' => hfree k u' hk (by omega) hu'
    obtain ⟨hbefore, hgo⟩ := next_of_visits hu hw
    have hufree : ¬ u.Pauses := hfree _ u (by omega) (by omega) hu
    obtain ⟨hafter, hdeep⟩ := hushown.passes hgo hufree hmode
    -- a return that leaves fewer calls would have been the awaited one
    have hleft : v.step.remaining ≤ u.step.remaining :=
      TraceStep.le_remaining hdepth fun hreturn =>
        Nat.lt_of_le_of_lt v.step.remaining_le_depth (hdeep hreturn)
    rw [hbefore]
    exact ⟨hafter, Nat.le_trans hleft (hnested.precedes hustep hwstep).remaining_le⟩

/-- If nothing else stops the program first after `finish`, it stops at a return that leaves no
fewer calls than are left then, of a call at most as deep as the innermost one. No event in between
has fewer calls, unless `finish` was given at a return and the program stops at one of the same
depth. -/
theorem finish_stops (d : Debugger) (trace : Trace) (hnested : WellNested trace.steps) {i j : Nat}
    {v w : Visit} (hij : i < j)
    (hv : ((start d trace.globals).visits 0 trace.steps)[i]? = some v)
    (hw : ((start d trace.globals).visits 0 trace.steps)[j]? = some w) (hfinish : v.Finishes)
    (hfree : ∀ k u, i < k → k < j →
      ((start d trace.globals).visits 0 trace.steps)[k]? = some u → ¬ u.Pauses)
    (hpauses : w.Pauses) (hmode : ¬ w.Forced) :
    w.step.event = .callReturn ∧ w.step.depth ≤ v.step.depth ∧
      ((∀ k u, i < k → k < j → ((start d trace.globals).visits 0 trace.steps)[k]? = some u →
          w.step.depth ≤ u.step.depth) ↔
        (v.step.event = .callReturn → w.step.depth < v.step.depth)) := by
  obtain ⟨hout, -⟩ := depth_after_finish hnested hij hv hw hfinish hfree
  have hstops := hpauses.stopsOn_mode hmode
  rw [hout, StepMode.stopsOn_iff] at hstops
  obtain ⟨hreturn, hshallow⟩ : w.step.event = .callReturn ∧ w.step.depth ≤ v.step.depth := by
    rcases hstops with hinto | ⟨depth, hover, -⟩ | ⟨depth, hsame, hreturn, hshallow⟩
    · cases hinto
    · cases hover
    · cases hsame
      exact ⟨hreturn, hshallow⟩
  refine ⟨hreturn, hshallow, fun hall hfirst => ?_, fun hfirst k u hik hkj hu => ?_⟩
  · -- the event after a return has one call less
    obtain ⟨u, hu⟩ := exists_visit hw hij
    have hless : u.step.depth + 1 = v.step.depth :=
      (hnested.precedes (shown_of_visits hv).1 (shown_of_visits hu).1).1 hfirst
    have hle : w.step.depth ≤ u.step.depth := by
      rcases Nat.lt_or_eq_of_le hij with hlt | heq
      · exact hall (i + 1) u (Nat.lt_succ_self i) hlt hu
      · subst heq
        rw [hw] at hu
        cases hu
        exact Nat.le_refl _
    omega
  · obtain ⟨-, hleft⟩ := depth_after_finish hnested hik hv hu hfinish
      fun k' u' hik' hk' hu' => hfree k' u' hik' (Nat.lt_trans hk' hkj) hu'
    unfold TraceStep.remaining at hleft
    by_cases hfinal : v.step.event = .callReturn
    · have hbelow := hfirst hfinal
      rw [if_pos hfinal] at hleft
      omega
    · rw [if_neg hfinal] at hleft
      omega

/-- A program of which one function calls another. -/
def calling : SourceUnit where
  path := "m"
  name := "m"
  importable := true
  error := none
  objects := [.func "main" none default, .func "f" none default]
  scopes := [⟨{}, .ofList [("main", ⟨0⟩), ("f", ⟨1⟩)], []⟩]
  files := [⟨"m.go", [.func ⟨⟨"main", some ⟨0⟩, none⟩, none, [], none, none, {}⟩,
    .func ⟨⟨"f", some ⟨1⟩, none⟩, none, [], none, none, {}⟩]⟩]

/-- The function `main` calls `f` twice. -/
def callingTwice : Trace :=
  let call (name : String) : RecordedFrame := ⟨name, [], [], .empty, 0, 0, none, {}, none⟩
  ⟨.empty, [⟨.callEnter, {}, [call "m.main"]⟩,
    ⟨.callEnter, {}, [call "m.main", call "m.f"]⟩,
    ⟨.callReturn, {}, [call "m.main", call "m.f"]⟩,
    ⟨.stmtInList, {}, [call "m.main"]⟩,
    ⟨.callEnter, {}, [call "m.main", call "m.f"]⟩,
    ⟨.callReturn, {}, [call "m.main", call "m.f"]⟩]⟩

/-- The user steps into the first call of `f` and to its return, and finishes there. -/
def finishing : Replay :=
  start (.start (Program.create {} calling).program
    [.text "step", .text "step", .text "finish", .text "quit"] {} {}) callingTwice.globals

theorem finishing_visits : ((finishing.visits 0 callingTwice.steps).map fun v =>
    (v.progress, v.before.debugger.input, v.after.debugger.input)) =
      [(.resumed .into, [.text "step", .text "step", .text "finish", .text "quit"],
        [.text "step", .text "finish", .text "quit"]),
      (.resumed .into, [.text "step", .text "finish", .text "quit"],
        [.text "finish", .text "quit"]),
      (.resumed (.out 2), [.text "finish", .text "quit"], [.text "quit"]),
      (.passed, [.text "quit"], [.text "quit"]), (.passed, [.text "quit"], [.text "quit"]),
      (.quit 0, [.text "quit"], [])] := by
  decide +kernel

/-- The program runs on at event two with two calls, and stops at event five with two, but there is
one call only in between. -/
theorem finishing_finishes :
    let visits := finishing.visits 0 callingTwice.steps
    ∃ v u w, visits[2]? = some v ∧ visits[3]? = some u ∧ visits[5]? = some w ∧ v.Finishes ∧
      (∀ k x, 2 < k → k < 5 → visits[k]? = some x → ¬ x.Pauses) ∧ w.Pauses ∧ ¬ w.Forced ∧
      u.step.depth < w.step.depth := by
  intro visits
  have hread := fun k : Nat => congrArg (·[k]?) finishing_visits
  simp only [List.getElem?_map] at hread
  obtain ⟨v, hv, hfinish⟩ := Option.map_eq_some_iff.1 (hread 2)
  obtain ⟨u, hu, hpassed⟩ := Option.map_eq_some_iff.1 (hread 3)
  obtain ⟨u', hu', hpassed'⟩ := Option.map_eq_some_iff.1 (hread 4)
  obtain ⟨w, hw, hanswer⟩ := Option.map_eq_some_iff.1 (hread 5)
  simp only [Prod.mk.injEq] at hfinish hpassed hpassed' hanswer
  obtain ⟨hustep, hushown⟩ := shown_of_visits hu
  obtain ⟨hwstep, hwshown⟩ := shown_of_visits hw
  refine ⟨v, u, w, hv, hu, hw, ⟨⟨_, hfinish.1⟩, [], "finish", "finish", [], ?_, ?_, ?_⟩,
    fun k x hk hk' hx => ?_, ?_, ?_, ?_⟩
  · rw [hfinish.2.1, hfinish.2.2]
    rfl
  · decide +kernel
  · decide +kernel
  · have hcases : k = 3 ∨ k = 4 := by omega
    rcases hcases with rfl | rfl
    · rw [hu] at hx
      cases hx
      exact hushown.not_pauses_of_passed hpassed.1
    · rw [hu'] at hx
      cases hx
      exact (shown_of_visits hu').2.not_pauses_of_passed hpassed'.1
  · refine hwshown.pauses_of_progress ?_ fun cause => ?_
    · rw [hanswer.1]
      exact nofun
    · rw [hanswer.1]
      exact nofun
  · refine Visit.not_forced_of_return ?_
    rw [← Option.some.inj hwstep]
  · rw [← Option.some.inj hustep, ← Option.some.inj hwstep]
    decide

theorem finish_stops_finishing :
    let visits := finishing.visits 0 callingTwice.steps
    ∃ v w, visits[2]? = some v ∧ visits[5]? = some w ∧ v.Finishes ∧ w.Pauses ∧ ¬ w.Forced ∧
      w.step.event = .callReturn ∧ w.step.depth ≤ v.step.depth := by
  intro visits
  obtain ⟨v, u, w, hv, -, hw, hfinish, hfree, hpauses, hmode, -⟩ := finishing_finishes
  obtain ⟨hreturn, hshallow, -⟩ := finish_stops _ callingTwice (by decide) (by decide) hv hw hfinish
    hfree hpauses hmode
  exact ⟨v, w, hv, hw, hfinish, hpauses, hmode, hreturn, hshallow⟩

/-- After `finish` at the return of the first call of `f` the program stops at the return of the
second, which was not running then. -/
theorem finish_stops_at_later_call :
    let visits := finishing.visits 0 callingTwice.steps
    WellNested callingTwice.steps ∧
      ∃ v u w, visits[2]? = some v ∧ visits[3]? = some u ∧ visits[5]? = some w ∧ v.Finishes ∧
        (∀ k x, 2 < k → k < 5 → visits[k]? = some x → ¬ x.Pauses) ∧ w.Pauses ∧ ¬ w.Forced ∧
        u.step.depth < w.step.depth :=
  ⟨by decide, finishing_finishes⟩

end Replay

end TraceDebugger
