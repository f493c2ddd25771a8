import TraceDebugger.Proofs.Dispatch
import TraceDebugger.Proofs.Transcripts

/-!
# Tracing of instructions

Two lines of input turn the tracing of instructions on and off (`Text.switch?`), and no other line
does (`Session.tracing_replyTo`). If nothing fails, instructions are traced on an event if the last
such line before turned tracing on (`Replay.tracing_visits`), and an event is processed unless the
debugger quits before (`Replay.exists_visit_iff`).
-/

namespace TraceDebugger

/-! ## Switches -/

/-- Whether words turn the tracing of instructions on or off, if they do. -/
def Command.switch? : List String → Option Bool
  | ["+"] => some true
  | ["-"] => some false
  | _ => none

/-- Whether a line turns the tracing of instructions on or off, if it does. -/
def Text.switch? (line : String) : Option Bool := Command.switch? (Text.commandWords line)

namespace Command

/-- The commands that turn tracing on and off are selected by their names only and take no
arguments. -/
theorem switch?_of_selects {word : String} {args : List String} {c : Command} {on : Bool}
    (hselects : Selects word c) (htakes : c.Takes args.length) (hverb : c.verb = .tracing on) :
    switch? (word :: args) = some on := by
  have hc : ∀ c ∈ all, ∀ on, c.verb = .tracing on →
      c.name = (if on then "+" else "-") ∧ c.aliases = [] ∧ c.maxArgs = some 0 := by decide
  obtain ⟨hname, haliases, hmax⟩ := hc c hselects.mem on hverb
  have hword : word = c.name := by
    cases hselects with
    | name _ named =>
      rcases named with hnamed | halias
      · exact hnamed.symm
      · rw [haliases] at halias
        cases halias
    | start _ only =>
      have hprefix : word.toList <+: c.name.toList :=
        List.isPrefixOf_iff_prefix.1 ((only c).2 rfl).2
      -- the empty word begins every name
      have hne : word.toList ≠ [] := by
        intro hnil
        have hall : ∀ other ∈ all, other = c := fun other hother =>
          (only other).1 ⟨hother, List.isPrefixOf_iff_prefix.2 (hnil ▸ List.nil_prefix)⟩
        have hverbs : ∀ other ∈ all, other.verb = .tracing on := fun other hother =>
          hall other hother ▸ hverb
        exact absurd (hverbs all[0] (List.getElem_mem _)) (by cases on <;> decide)
      have hsingle : ∃ char, c.name.toList = [char] := by
        rw [hname]
        cases on
        · exact ⟨'-', rfl⟩
        · exact ⟨'+', rfl⟩
      obtain ⟨char, hchar⟩ := hsingle
      rw [hchar, List.prefix_cons_iff] at hprefix
      rcases hprefix with hnil | ⟨rest, hrest, hprefix⟩
      · exact absurd hnil hne
      · rw [List.prefix_nil.1 hprefix, ← hchar] at hrest
        exact String.toList_inj.1 hrest
  have hargs : args = [] := List.length_eq_zero_iff.1 (Nat.le_zero.1 (htakes.bounded 0 hmax))
  rw [hword, hname, hargs]
  cases on <;> rfl

end Command

theorem Request.switch?_of_ofWords {word : String} {args : List String} {on : Bool}
    (h : ofWords word args = .ok (.trace on)) : Command.switch? (word :: args) = some on := by
  obtain ⟨c, hselects, htakes, hrequest⟩ := ofWords_eq_ok_iff.1 h
  exact Command.switch?_of_selects hselects htakes (Verb.verb_of_request? hrequest).symm

theorem Request.eq_trace_of_verb {request : Request}
    (h : some request.verb = some Verb.traceOn ∨ some request.verb = some Verb.traceOff) :
    ∃ on, request = .trace on := by
  cases request with
  | trace on => exact ⟨on, rfl⟩
  | _ => rcases h with h | h <;> cases h

namespace Session

variable {s : Session}

theorem replyTo_of_switch {words : List String} {on : Bool}
    (h : Command.switch? words = some on) : s.replyTo words = setTracing on := by
  unfold Command.switch? at h
  split at h
  · cases h
    rfl
  · cases h
    rfl
  · cases h

/-- Words turn tracing on or off if they are for that, and leave it alone else. -/
theorem tracing_replyTo (s : Session) (words : List String) :
    ((s.replyTo words).effects.foldl act s).engine.tracing =
      (Command.switch? words).getD s.engine.tracing := by
  cases hswitch : Command.switch? words with
  | some on =>
    rw [replyTo_of_switch hswitch]
    rfl
  | none =>
    cases words with
    | nil => rfl
    | cons word args =>
      unfold replyTo
      dsimp only
      cases hrequest : Request.ofWords word args with
      | error e => rfl
      | ok request =>
        by_contra hchanged
        have hconfined := confined_of_way (s.reply_way request)
        obtain ⟨on, rfl⟩ := Request.eq_trace_of_verb (hconfined.traces (.inl hchanged))
        rw [Request.switch?_of_ofWords hrequest] at hswitch
        cases hswitch

end Session

/-! ## Tracing in the course of a run -/

namespace Exchange

/-- Whether the line that was read turns tracing on or off, if it does. -/
def switch? (e : Exchange) : Option Bool :=
  match e.line with
  | some (.text content) => Text.switch? content
  | _ => none

/-- Whether instructions are traced after lines, if they were before or not. -/
def tracingAfter (on : Bool) (es : List Exchange) : Bool :=
  es.foldl (fun on e => e.switch?.getD on) on

/-- The last switch counts. -/
theorem tracingAfter_eq (on : Bool) (es : List Exchange) :
    tracingAfter on es = (es.filterMap switch?).getLast?.getD on := by
  unfold tracingAfter
  induction es generalizing on with
  | nil => rfl
  | cons e es ih =>
    rw [List.foldl_cons, ih]
    cases hswitch : e.switch? with
    | none =>
      rw [List.filterMap_cons_none hswitch]
      rfl
    | some on' =>
      rw [List.filterMap_cons_some hswitch, List.getLast?_cons]
      rfl

theorem tracingAfter_append (on : Bool) (es es' : List Exchange) :
    tracingAfter on (es ++ es') = tracingAfter (tracingAfter on es) es' := List.foldl_append

theorem tracing_turn {e : Exchange} {flow : Flow} (h : e.turn.result = .ok flow) :
    e.turn.session.engine.tracing = e.switch?.getD e.session.engine.tracing := by
  obtain ⟨number, line, s⟩ := e
  cases line with
  | none =>
    unfold turn Session.endOfInput
    dsimp only
    split
    · rename_i s' hwrite
      rw [(Session.write?_eq_some hwrite).1]
      rfl
    · rfl
  | some line =>
    cases line with
    | malformed => cases h
    | text content =>
      have hsession := (Session.carryOut_eq_ok h).1
      change (s.execute content).session.engine.tracing = _
      unfold Session.execute
      rw [hsession]
      exact s.tracing_replyTo (Text.commandWords content)

end Exchange

open Exchange (tracingAfter tracingAfter_append)

theorem Session.Talk.tracing {s : Session} {prompts : Nat} {lines : List Text.Line}
    {es : List Exchange} {d : Dialogue} (h : Talk s prompts lines es d) {outcome : Outcome}
    (hok : d.result = .ok outcome) :
    d.session.engine.tracing = tracingAfter s.engine.tracing es := by
  have hexchange : ∀ {s : Session} {prompts : Nat} {line : Option Text.Line} {e : Exchange}
      {flow : Flow}, s.ask? prompts line = some e → e.turn.result = .ok flow →
      e.turn.session.engine.tracing = e.switch?.getD s.engine.tracing := by
    intro s prompts line e flow asked hturn
    obtain ⟨s', hwrite, rfl⟩ := ask?_eq_some_iff.1 asked
    rw [Exchange.tracing_turn hturn]
    dsimp only
    rw [(write?_eq_some hwrite).1]
    rfl
  induction h with
  | mute _ => cases hok
  | last asked ends =>
    cases hok
    exact hexchange asked (Turn.result_of_ends ends)
  | more asked goes _ ih =>
    rw [ih hok, hexchange asked (Turn.result_of_goes goes)]
    rfl

theorem Stop.tracing_pause {stop : Stop} {outcome : Outcome} (h : stop.pause.result = .ok outcome) :
    stop.pause.engine.tracing = tracingAfter stop.engine.tracing stop.exchanges := by
  obtain ⟨hopened, hok⟩ := opened_of_pause h
  rw [pause_eq_leave]
  change stop.dialogue.session.engine.tracing = _
  rw [(talk hopened).tracing hok, (opened_eq hopened).1]
  rfl

theorem Pause.engine_next (pause : Pause) : pause.next.1.engine = pause.engine := by
  unfold next
  dsimp only
  split
  · rfl
  · rfl
  · rfl

/-- A replay that does not break off goes on until the debugger quits. -/
theorem Progress.isSome_exitCode?_iff {progress : Progress}
    (h : ∀ cause, progress ≠ .failed cause) :
    progress.exitCode?.isSome ↔ ¬ progress.goesOn = true := by
  cases progress with
  | failed cause => exact absurd rfl (h cause)
  | _ => simp [exitCode?, goesOn]

namespace Replay

theorem Moves.tracing {r : Replay} {n : Nat} {step : TraceStep} {stop : Option Stop}
    {next : Replay × Progress} (h : Moves r n step stop next)
    (hok : ∀ cause, next.2 ≠ .failed cause) :
    next.1.engine.tracing =
      tracingAfter r.engine.tracing (stop.toList.flatMap Stop.exchanges) := by
  cases h with
  | unknown _ => exact absurd rfl (hok _)
  | mute _ _ => exact absurd rfl (hok _)
  | passes _ echo _ =>
    obtain ⟨c, rfl, -⟩ := echo?_eq_some echo
    rfl
  | @stops stack r' _ echo _ =>
    let stop := (r'.count stack step).halt n stack step
    obtain ⟨outcome, hresult⟩ := Pause.result_of_next hok
    have hengine : stop.engine.tracing = r.engine.tracing := by
      obtain ⟨c, rfl, -⟩ := echo?_eq_some echo
      rfl
    rw [Pause.engine_next, Stop.tracing_pause hresult, hengine, Option.toList_some,
      List.flatMap_singleton]

/-- Before an event, instructions are traced if the last line before that switches tracing turned it
on. -/
theorem tracing_visits {r : Replay} {n : Nat} {steps : List TraceStep}
    (hok : ∀ v ∈ r.visits n steps, ∀ cause, v.progress ≠ .failed cause) {j : Nat} {v : Visit}
    (hv : (r.visits n steps)[j]? = some v) :
    v.before.engine.tracing = tracingAfter r.engine.tracing (r.exchanges n (steps.take j)) := by
  induction steps generalizing r n j with
  | nil => cases hv
  | cons step rest ih =>
    rw [visits_cons] at hok hv
    cases j with
    | zero =>
      cases hv
      rfl
    | succ j =>
      have htracing := (r.moves n step).tracing (hok _ List.mem_cons_self)
      rw [List.getElem?_cons_succ] at hv
      rw [List.take_succ_cons, exchanges_cons, tracingAfter_append, ← htracing]
      split at hv
      · rename_i hgo
        rw [if_pos hgo] at hok
        rw [if_pos hgo]
        exact ih (fun v hv => hok v (List.mem_cons_of_mem _ hv)) hv
      · cases hv

/-! ## Events that are processed -/

/-- Without a limit on the output nothing fails. -/
theorem Follows.not_failed {program : Program} {config : Config} {mode : StepMode}
    {points : Breakpoints} {r : Replay} {steps : List TraceStep}
    (h : Follows program config mode points r) (n : Nat) (hknown : Knows program steps) :
    ∀ v ∈ r.visits n steps, ∀ cause, v.progress ≠ .failed cause := by
  induction steps generalizing r n mode points with
  | nil => exact fun v hv => nomatch hv
  | cons step rest ih =>
    obtain ⟨stack, hstack⟩ := exists_callStack (hknown step List.mem_cons_self)
    obtain ⟨-, -, hfailed, hnext⟩ := h.advance n hstack
    intro v hv
    rw [visits_cons] at hv
    rcases List.mem_cons.1 hv with rfl | hv
    · exact hfailed
    · split at hv
      · exact ih hnext (n + 1) (fun s hs => hknown s (List.mem_cons_of_mem step hs)) v hv
      · cases hv

theorem quitsAt_zero {v : Visit} {visits : List Visit} :
    QuitsAt (v :: visits) 0 ↔ v.progress.exitCode?.isSome := by
  unfold QuitsAt
  rw [List.getElem?_cons_zero]
  exact ⟨fun ⟨_, hv, hquit⟩ => Option.some.inj hv ▸ hquit, fun hquit => ⟨v, rfl, hquit⟩⟩

/-- If nothing fails, an event is processed unless the debugger quits before. -/
theorem exists_visit_iff {r : Replay} {n : Nat} {steps : List TraceStep}
    (hok : ∀ v ∈ r.visits n steps, ∀ cause, v.progress ≠ .failed cause) {j : Nat}
    {step : TraceStep} (hstep : steps[j]? = some step) :
    (∃ v, (r.visits n steps)[j]? = some v ∧ v.step = step) ↔
      ∀ i < j, ¬ QuitsAt (r.visits n steps) i := by
  induction steps generalizing r n j with
  | nil => cases hstep
  | cons first rest ih =>
    rw [visits_cons] at hok ⊢
    have hends := Progress.isSome_exitCode?_iff (hok _ List.mem_cons_self)
    cases j with
    | zero =>
      cases hstep
      exact ⟨fun _ i hi => absurd hi (Nat.not_lt_zero i), fun _ => ⟨_, rfl, rfl⟩⟩
    | succ j =>
      rw [List.getElem?_cons_succ]
      split
      · rename_i hgo
        rw [if_pos hgo] at hok
        rw [ih (fun v hv => hok v (List.mem_cons_of_mem _ hv)) hstep]
        refine ⟨fun hno i hi => ?_, fun hno i hi => hno (i + 1) (by omega)⟩
        cases i with
        | zero => exact fun hquit => absurd hgo (hends.1 (quitsAt_zero.1 hquit))
        | succ i => exact hno i (by omega)
      · rename_i hend
        exact ⟨fun ⟨v, hv, _⟩ => (nomatch hv),
          fun hno => absurd (quitsAt_zero.2 (hends.2 hend)) (hno 0 (by omega))⟩

end Replay

end TraceDebugger
