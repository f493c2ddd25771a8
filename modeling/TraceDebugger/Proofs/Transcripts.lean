import TraceDebugger.Proofs.OutputGrowth

/-!
# What is shown

As long as nothing fails, the texts that are shown are known from the stops. A stop shows the place
and then, for each line that is read, the prompt and the reply (`Stop.texts`). Before an event
anything else is shown of it, its instruction is, if instructions are traced (`Replay.echoes`). One
event shows just these texts (`Replay.shown_advance`), and so does a run (`Replay.shown_runFrom`).
-/

namespace TraceDebugger

/-! ## Lines -/

namespace Turn

variable {turn : Turn}

theorem result_of_goes (h : turn.outcome? = none) : turn.result = .ok .prompt := by
  unfold outcome? at h
  split at h
  · cases h
  · assumption
  · cases h
  · cases h

theorem result_of_ends {outcome : Outcome} (h : turn.outcome? = some (.ok outcome)) :
    turn.result = .ok outcome.flow := by
  unfold outcome? at h
  split at h
  · cases h
  · cases h
  · cases h
    assumption
  · cases h
    assumption

end Turn

namespace Exchange

variable {e : Exchange}

/-- What is shown in reply to the line; the end of input ends the line of the prompt. -/
def answers (e : Exchange) : List String :=
  match e.line with
  | none => ["\n"]
  | some .malformed => []
  | some (.text content) => (e.session.replyTo (Text.commandWords content)).texts

/-- The prompt and what is shown in reply. -/
def texts (e : Exchange) : List String := e.session.promptText e.number :: e.answers

theorem shown_turn {flow : Flow} (h : e.turn.result = .ok flow) :
    e.turn.session.console.shown = e.session.console.shown ++ String.join e.answers := by
  obtain ⟨number, line, s⟩ := e
  cases line with
  | none =>
    unfold turn Session.endOfInput at h ⊢
    dsimp only at h ⊢
    cases hwrite : (s.note [⟨.debug, "end of command input"⟩]).write? "\n" with
    | none =>
      rw [hwrite] at h
      cases h
    | some s' => exact (Session.write?_eq_some hwrite).2
  | some line =>
    cases line with
    | malformed => cases h
    | text content => exact (Session.carryOut_eq_ok h).2.1

end Exchange

namespace Session

variable {s : Session}

theorem shown_of_ask? {prompts : Nat} {line : Option Text.Line} {e : Exchange}
    (h : s.ask? prompts line = some e) :
    e.session.console.shown = s.console.shown ++ e.session.promptText e.number := by
  obtain ⟨s', hwrite, rfl⟩ := ask?_eq_some_iff.1 h
  obtain ⟨hsame, hshown⟩ := write?_eq_some hwrite
  have hprompt : s'.promptText (prompts + 1) = s.promptText (prompts + 1) := by
    rw [hsame]
    rfl
  exact hshown.trans (congrArg _ hprompt.symm)

theorem Talk.shown {prompts : Nat} {lines : List Text.Line} {es : List Exchange} {d : Dialogue}
    (h : Talk s prompts lines es d) {outcome : Outcome} (hok : d.result = .ok outcome) :
    d.session.console.shown = s.console.shown ++ String.join (es.flatMap Exchange.texts) := by
  have hexchange : ∀ {s : Session} {prompts : Nat} {line : Option Text.Line} {e : Exchange}
      {flow : Flow}, s.ask? prompts line = some e → e.turn.result = .ok flow →
      e.turn.session.console.shown = s.console.shown ++ String.join e.texts := by
    intro s prompts line e flow asked hturn
    rw [Exchange.shown_turn hturn, shown_of_ask? asked, String.append_assoc, Exchange.texts,
      String.join_cons]
  induction h with
  | mute _ => cases hok
  | last asked ends =>
    cases hok
    rw [List.flatMap_singleton]
    exact hexchange asked (Turn.result_of_ends ends)
  | more asked goes _ ih =>
    rw [ih hok, hexchange asked (Turn.result_of_goes goes), List.flatMap_cons, String.join_append,
      String.append_assoc]

end Session

/-! ## Stops -/

namespace Stop

/-- The place, and the prompts and replies. -/
def texts (stop : Stop) : List String :=
  (stop.session.location stop.instruction).map (· ++ "\n") ++ stop.exchanges.flatMap Exchange.texts

/-- If the stop does not fail, the place has been shown and no command fails. -/
theorem opened_of_pause {stop : Stop} {outcome : Outcome} (h : stop.pause.result = .ok outcome) :
    stop.opened.2 = true ∧ stop.dialogue.result = .ok outcome := by
  rw [pause_eq_leave] at h
  have hok : stop.dialogue.result = .ok outcome := h
  refine ⟨?_, hok⟩
  cases hopened : stop.opened.2 with
  | true => rfl
  | false =>
    unfold dialogue at hok
    rw [hopened] at hok
    cases hok

/-- To show the place writes its lines and does nothing else. -/
theorem opened_eq {stop : Stop} (h : stop.opened.2 = true) :
    stop.opened.1 = stop.session.withConsole stop.opened.1.console ∧
      stop.opened.1.console.shown = stop.debugger.console.shown ++
        String.join ((stop.session.location stop.instruction).map (· ++ "\n")) := by
  have hlines : (stop.session.location stop.instruction).map (fun l => Effect.write (l ++ "\n")) =
      ((stop.session.location stop.instruction).map (· ++ "\n")).map .write := List.map_map.symm
  obtain ⟨hsame, hshown⟩ := Session.perform_eq_true (Prod.ext rfl h : stop.opened = (_, true))
  rw [hlines, Reply.filterMap_text?_writes] at hshown
  rw [hlines, Session.foldl_act_writes] at hsame
  exact ⟨hsame, hshown⟩

theorem shown_pause {stop : Stop} {outcome : Outcome} (h : stop.pause.result = .ok outcome) :
    stop.pause.debugger.console.shown =
      stop.debugger.console.shown ++ String.join stop.texts := by
  obtain ⟨hopened, hok⟩ := opened_of_pause h
  rw [pause_eq_leave]
  change stop.dialogue.session.console.shown = _
  rw [(talk hopened).shown hok, (opened_eq hopened).2, texts, String.join_append,
    String.append_assoc]

end Stop

theorem Pause.shown_next (pause : Pause) :
    pause.next.1.console.shown = pause.debugger.console.shown := by
  obtain ⟨records, hnext⟩ := pause.debugger_next
  unfold Replay.console
  rw [hnext]
  rfl

theorem Pause.result_of_next {pause : Pause} (h : ∀ cause, pause.next.2 ≠ .failed cause) :
    ∃ outcome, pause.result = .ok outcome := by
  cases hresult : pause.result with
  | ok outcome => exact ⟨outcome, rfl⟩
  | error cause =>
    refine absurd ?_ (h (.output cause))
    unfold next
    rw [hresult]

/-! ## Events -/

namespace Replay

/-- The line of the instruction, if instructions are traced. -/
def echoes (r : Replay) (step : TraceStep) : List String :=
  if r.engine.tracing ∧ step.event = .stepInstruction then [step.instruction.echo] else []

theorem shown_echo? {r r' : Replay} {step : TraceStep} (h : r.echo? step = some r') :
    r'.console.shown = r.console.shown ++ String.join (r.echoes step) := by
  unfold echoes
  by_cases htraced : r.engine.tracing ∧ step.event = .stepInstruction
  · rw [echo?_of_traced htraced] at h
    obtain ⟨c, hwrite, rfl⟩ := Option.map_eq_some_iff.1 h
    rw [if_pos htraced, String.join_cons, String.join_nil, String.append_empty]
    exact congrArg Console.shown (Console.write?_eq_some hwrite)
  · rw [echo?_of_untraced htraced] at h
    cases h
    rw [if_neg htraced]
    exact String.append_empty.symm

/-- The texts of event number `n`. -/
def texts (r : Replay) (n : Nat) (step : TraceStep) : List String :=
  r.echoes step ++ (r.stop? n step).toList.flatMap Stop.texts

theorem Moves.shown {r : Replay} {n : Nat} {step : TraceStep} {stop : Option Stop}
    {next : Replay × Progress} (h : Moves r n step stop next)
    (hok : ∀ cause, next.2 ≠ .failed cause) :
    next.1.console.shown =
      r.console.shown ++ String.join (r.echoes step ++ stop.toList.flatMap Stop.texts) := by
  cases h with
  | unknown _ => exact absurd rfl (hok _)
  | mute _ _ => exact absurd rfl (hok _)
  | @passes stack r' _ echo _ =>
    rw [console_count, shown_echo? echo]
    exact congrArg (fun texts => r.console.shown ++ String.join texts) (List.append_nil _).symm
  | @stops stack r' _ echo _ =>
    let stop := (r'.count stack step).halt n stack step
    obtain ⟨outcome, hresult⟩ := Pause.result_of_next hok
    have hhalt : stop.debugger.console.shown = r'.console.shown := by
      rw [← r'.console_count stack step]
      rfl
    rw [Pause.shown_next, Stop.shown_pause hresult, hhalt, shown_echo? echo, String.append_assoc,
      ← String.join_append, Option.toList_some, List.flatMap_singleton]
    rfl

theorem shown_advance {r : Replay} {n : Nat} {step : TraceStep}
    (hok : ∀ cause, (r.advance n step).2 ≠ .failed cause) :
    (r.advance n step).1.console.shown = r.console.shown ++ String.join (r.texts n step) :=
  (r.moves n step).shown hok

/-- Visit `j` is of the event whose number is `j` past the first. -/
theorem advance_of_visits {r : Replay} {n j : Nat} {steps : List TraceStep} {v : Visit}
    (hv : (r.visits n steps)[j]? = some v) :
    v.before.advance (n + j) v.step = (v.after, v.progress) := by
  induction steps generalizing r n j with
  | nil => cases hv
  | cons step rest ih =>
    rw [visits_cons] at hv
    cases j with
    | zero =>
      cases hv
      rfl
    | succ j =>
      rw [List.getElem?_cons_succ] at hv
      split at hv
      · rw [← ih hv, Nat.add_assoc, Nat.add_comm 1 j]
      · cases hv

/-- The texts of a run that does not fail are those of its events. -/
theorem shown_runFrom {r : Replay} {n : Nat} {steps : List TraceStep}
    (hok : ∀ v ∈ r.visits n steps, ∀ cause, v.progress ≠ .failed cause) :
    (r.runFrom n steps).1.console.shown = r.console.shown ++
      String.join (((r.visits n steps).zipIdx n).flatMap fun e => e.1.before.texts e.2 e.1.step) := by
  induction steps generalizing r n with
  | nil => exact String.append_empty.symm
  | cons step rest ih =>
    rw [visits_cons] at hok ⊢
    rw [runFrom_cons, List.zipIdx_cons, List.flatMap_cons, String.join_append, ← String.append_assoc,
      ← shown_advance (hok _ List.mem_cons_self)]
    split
    · rename_i hgo
      rw [if_pos hgo] at hok
      exact ih fun v hv => hok v (List.mem_cons_of_mem _ hv)
    · exact String.append_empty.symm

end Replay

end TraceDebugger
