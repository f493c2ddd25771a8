import TraceDebugger.Proofs.CommandEffects
import TraceDebugger.Proofs.ReplayRuns
import TraceDebugger.Proofs.SessionSteps

/-!
# Output only grows

What has been shown stays, and the limit of the console stays (`Console.GrowsTo`): during a command,
a dialogue, a stop and a replay. The prompts of a dialogue and the events of a replay come one after
the other on a console that grows.
-/

namespace TraceDebugger

/-- A console later on. -/
structure Console.GrowsTo (c c' : Console) : Prop where
  limit : c'.limit = c.limit
  shown : ∃ text, c'.shown = c.shown ++ text

namespace Console.GrowsTo

variable {c c' c'' : Console}

theorem refl (c : Console) : c.GrowsTo c := ⟨rfl, "", String.append_empty.symm⟩

theorem trans (h : c.GrowsTo c') (h' : c'.GrowsTo c'') : c.GrowsTo c'' := by
  obtain ⟨hlimit, text, hshown⟩ := h
  obtain ⟨hlimit', text', hshown'⟩ := h'
  refine ⟨hlimit'.trans hlimit, text ++ text', ?_⟩
  rw [hshown', hshown, String.append_assoc]

theorem note (h : c.GrowsTo c') (records : List Record) : c.GrowsTo (c'.note records) :=
  ⟨h.limit, h.shown⟩

theorem of_note {records : List Record} (h : (c.note records).GrowsTo c') : c.GrowsTo c' :=
  ⟨h.limit, h.shown⟩

theorem of_write? {text : String} (h : c.write? text = some c') : c.GrowsTo c' := by
  rw [write?_eq_some h]
  exact ⟨rfl, text, rfl⟩

theorem writePartly (c : Console) (text : String) : c.GrowsTo (c.writePartly text) := by
  obtain ⟨part, -, -, hwrite⟩ := c.exists_part text
  exact of_write? hwrite

theorem size_le (h : c.GrowsTo c') : c.shown.utf8ByteSize ≤ c'.shown.utf8ByteSize := by
  obtain ⟨text, hshown⟩ := h.shown
  rw [hshown, String.utf8ByteSize_append]
  omega

end Console.GrowsTo

/-! ## Commands -/

namespace Session

theorem grows_of_write? {s s' : Session} {text : String} (h : s.write? text = some s') :
    s.console.GrowsTo s'.console := by
  obtain ⟨c, hwrite, rfl⟩ := Option.map_eq_some_iff.1 h
  exact .of_write? hwrite

theorem grows_of_enact? {s s' : Session} {e : Effect} (h : s.enact? e = some s') :
    s.console.GrowsTo s'.console := by
  cases e with
  | write text => exact grows_of_write? h
  | select depth =>
    cases h
    exact .refl _
  | addBreakpoint function location =>
    cases h
    exact (Console.GrowsTo.refl _).note _
  | removeBreakpoint id =>
    cases h
    exact (Console.GrowsTo.refl _).note _
  | direct d =>
    cases h
    exact (Console.GrowsTo.refl _).note _

theorem Leads.grows {s s' : Session} (h : s.Leads s') : s.console.GrowsTo s'.console := by
  induction h with
  | refl s => exact .refl _
  | effect enacted _ ih => exact (grows_of_enact? enacted).trans ih
  | note _ ih => exact .of_note ih

theorem perform_grows (s : Session) (effects : List Effect) :
    s.console.GrowsTo (s.perform effects).1.console :=
  (s.leads_perform effects).grows

theorem carryOut_of_perform_fails {s : Session} {r : Reply} (h : (s.perform r.effects).2 = false) :
    s.carryOut r = ⟨(s.perform r.effects).1, .error .outputFull⟩ := by
  unfold carryOut
  split
  · rename_i s' hperform
    rw [hperform]
  · rename_i s' hperform
    rw [hperform] at h
    cases h

theorem carryOut_grows_of_perform {s s' : Session} {r : Reply} {done : Bool}
    (h : s.perform r.effects = (s', done)) :
    s'.console.GrowsTo (s.carryOut r).session.console :=
  (leads_carryOut_of_perform h).grows

/-! ## Dialogues -/

theorem grows_of_ask? {s : Session} {prompts : Nat} {line : Option Text.Line} {e : Exchange}
    (h : s.ask? prompts line = some e) : s.console.GrowsTo e.session.console :=
  (leads_of_ask? h).grows

end Session

theorem Exchange.turn_grows (e : Exchange) :
    e.session.console.GrowsTo e.turn.session.console :=
  e.leads_turn.grows

theorem Session.Talk.grows {s : Session} {prompts : Nat} {lines : List Text.Line}
    {es : List Exchange} {d : Dialogue} (h : Talk s prompts lines es d) :
    s.console.GrowsTo d.session.console ∧ ∀ e ∈ es, s.console.GrowsTo e.session.console :=
  ⟨h.leads.1.grows, fun e he => (h.leads.2 e he).grows⟩

/-- The first exchange, and what comes after its line. -/
theorem Session.Talk.grows_cons {s : Session} {prompts : Nat} {lines : List Text.Line}
    {e : Exchange} {es : List Exchange} {d : Dialogue} (h : Talk s prompts lines (e :: es) d) :
    s.ask? prompts lines.head? = some e ∧ e.turn.session.console.GrowsTo d.session.console ∧
      ∀ e' ∈ es, e.turn.session.console.GrowsTo e'.session.console := by
  cases h with
  | last asked _ => exact ⟨asked, .refl _, fun e' he => nomatch he⟩
  | more asked _ rest => exact ⟨asked, rest.grows⟩

/-! ## Stops -/

namespace Stop

theorem opened_grows (stop : Stop) : stop.debugger.console.GrowsTo stop.opened.1.console :=
  .of_note stop.leads_opened.grows

theorem exchanges_grow (stop : Stop) :
    ∀ e ∈ stop.exchanges, stop.debugger.console.GrowsTo e.session.console :=
  fun e he => .of_note (stop.leads_exchanges e he).grows

theorem pause_grows (stop : Stop) :
    stop.debugger.console.GrowsTo stop.pause.debugger.console := by
  rw [pause_eq_leave]
  exact .of_note stop.leads_dialogue.grows

end Stop

/-! ## Replays -/

/-- The console of the debugger. -/
def Replay.console (r : Replay) : Console := r.debugger.console

theorem Pause.next_grows (pause : Pause) : pause.debugger.console.GrowsTo pause.next.1.console := by
  obtain ⟨records, hnext⟩ := pause.debugger_next
  unfold Replay.console
  rw [hnext]
  exact (Console.GrowsTo.refl _).note records

namespace Replay

theorem grows_of_echo? {r r' : Replay} {step : TraceStep} (h : r.echo? step = some r') :
    r.console.GrowsTo r'.console := by
  obtain ⟨c, rfl, rfl | hwrite⟩ := echo?_eq_some h
  · exact .refl _
  · exact .of_write? hwrite

theorem console_count (r : Replay) (stack : CallStack) (step : TraceStep) :
    (r.count stack step).console = r.console := by
  unfold console count
  rw [Debugger.countHit_eq]

/-- From the echo of an event on, its output grows. -/
theorem advance_grows_of_echo? {r r' : Replay} {step : TraceStep} {stack : CallStack} (n : Nat)
    (calls : step.callStack r.debugger.program = .ok stack)
    (echo : (r.bind stack).echo? step = some r') :
    r'.console.GrowsTo (r.advance n step).1.console ∧
      ∀ e ∈ (r.stop? n step).toList.flatMap Stop.exchanges,
        r'.console.GrowsTo e.session.console := by
  cases hstops : r'.debugger.stopsOn step.event stack with
  | false =>
    obtain ⟨hstop, hnext⟩ := (Moves.passes (n := n) calls echo hstops).eq
    rw [hstop, hnext, console_count]
    exact ⟨.refl _, fun e he => nomatch he⟩
  | true =>
    obtain ⟨hstop, hnext⟩ := (Moves.stops (n := n) calls echo hstops).eq
    rw [hstop, hnext, Option.toList_some, List.flatMap_singleton, ← r'.console_count stack step]
    let stop := (r'.count stack step).halt n stack step
    have hstop : (r'.count stack step).console.GrowsTo stop.debugger.console :=
      (Console.GrowsTo.refl _).note _
    exact ⟨(hstop.trans stop.pause_grows).trans stop.pause.next_grows,
      fun e he => hstop.trans (stop.exchanges_grow e he)⟩

theorem advance_grows (r : Replay) (n : Nat) (step : TraceStep) :
    r.console.GrowsTo (r.advance n step).1.console ∧
      ∀ e ∈ (r.stop? n step).toList.flatMap Stop.exchanges,
        r.console.GrowsTo e.session.console := by
  cases hcalls : step.callStack r.debugger.program with
  | error name =>
    obtain ⟨hstop, hnext⟩ := (Moves.unknown (n := n) hcalls).eq
    rw [hstop, hnext]
    exact ⟨.refl _, fun e he => nomatch he⟩
  | ok stack =>
    cases hecho : (r.bind stack).echo? step with
    | none =>
      obtain ⟨hstop, hnext⟩ := (Moves.mute (n := n) hcalls hecho).eq
      rw [hstop, hnext]
      exact ⟨.writePartly _ _, fun e he => nomatch he⟩
    | some r' =>
      have hshown : r.console.GrowsTo r'.console :=
        grows_of_echo? (r := r.bind stack) hecho
      obtain ⟨hnext, hexchanges⟩ := advance_grows_of_echo? n hcalls hecho
      exact ⟨hshown.trans hnext, fun e he => hshown.trans (hexchanges e he)⟩

section run

variable (r : Replay) (n : Nat) (steps : List TraceStep)

theorem runFrom_grows : r.console.GrowsTo (r.runFrom n steps).1.console := by
  induction steps generalizing r n with
  | nil => exact (Console.GrowsTo.refl _).note _
  | cons step rest ih =>
    have hstep := (r.advance_grows n step).1
    rw [runFrom_cons]
    split
    · exact hstep.trans (ih _ _)
    · exact hstep

theorem exchanges_grow : ∀ e ∈ r.exchanges n steps, r.console.GrowsTo e.session.console := by
  induction steps generalizing r n with
  | nil => exact fun e he => nomatch he
  | cons step rest ih =>
    obtain ⟨hstep, hexchanges⟩ := r.advance_grows n step
    intro e he
    rw [exchanges_cons] at he
    rcases List.mem_append.1 he with he | he
    · exact hexchanges e he
    · split at he
      · exact hstep.trans (ih _ _ e he)
      · cases he

theorem visits_grow : ∀ v ∈ r.visits n steps, r.console.GrowsTo v.before.console := by
  induction steps generalizing r n with
  | nil => exact fun v hv => nomatch hv
  | cons step rest ih =>
    intro v hv
    rw [visits_cons] at hv
    rcases List.mem_cons.1 hv with rfl | hv
    · exact .refl _
    · split at hv
      · exact (r.advance_grows n step).1.trans (ih _ _ v hv)
      · cases hv

end run

end Replay

end TraceDebugger
