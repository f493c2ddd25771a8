import TraceDebugger.Proofs.OutputGrowth

/-!
# Limited output

A replay on an output with a limit goes as on one without until a text does not fit; there it breaks
off, and a beginning of that text may have been shown (`Replay.run_limited`). Each part of a replay is
run on both: as long as all that is shown without a limit fits, the limited part is the same, and else
it fails with what fits (`Console.Limited`). For a console or anything that has one, `upTo L` is the
same with the limit `L`. All this holds wherever texts are cut (`Cutting`).
-/

namespace TraceDebugger

namespace Console

/-- A console has shown at most `L` bytes. -/
def Fits (L : Nat) (c : Console) : Prop := c.shown.utf8ByteSize ≤ L

instance (L : Nat) (c : Console) : Decidable (c.Fits L) :=
  inferInstanceAs (Decidable (c.shown.utf8ByteSize ≤ L))

/-- The console with the limit `L`. -/
def upTo (L : Nat) (c : Console) : Console := { c with limit := some L }

/-- A console with no limit that has shown at most `L` bytes. -/
structure Roomy (L : Nat) (c : Console) : Prop where
  limit : c.limit = none
  fits : c.Fits L

/-- What is shown with the limit `L` when more was to be shown. -/
structure CutShort (L : Nat) (full cut : Console) : Prop where
  past : ¬ full.Fits L
  within : cut.Fits L
  rest : ∃ text, full.shown = cut.shown ++ text

/-- Something is done with no limit and with the limit `L`. -/
inductive Limited (L : Nat) (full cut : Console) (same failed : Prop) : Prop where
  /-- All that is shown fits, and the same is done. -/
  | whole (fits : full.Fits L) (same : same)
  /-- Not all fits, and it fails. -/
  | short (cut : full.CutShort L cut) (failed : failed)

variable {L : Nat} {c c' full cut : Console} {text : String}

theorem GrowsTo.fits (h : c.GrowsTo c') (hfits : c'.Fits L) : c.Fits L :=
  Nat.le_trans h.size_le hfits

theorem GrowsTo.roomy (h : c.GrowsTo c') (hroomy : c.Roomy L) (hfits : c'.Fits L) : c'.Roomy L :=
  ⟨h.limit.trans hroomy.limit, hfits⟩

/-- Nothing later on a console fits if what was cut short does not. -/
theorem CutShort.grow (h : full.CutShort L cut) (hgrows : full.GrowsTo c) : c.CutShort L cut := by
  refine ⟨fun hfits => h.past (hgrows.fits hfits), h.within, ?_⟩
  obtain ⟨text, hrest⟩ := h.rest
  obtain ⟨text', hshown⟩ := hgrows.shown
  exact ⟨text ++ text', by rw [hshown, hrest, String.append_assoc]⟩

theorem Limited.imp {same same' failed failed' : Prop} (h : Limited L full cut same failed)
    (hsame : same → same') (hfailed : failed → failed') : Limited L full cut same' failed' := by
  cases h with
  | whole fits same => exact .whole fits (hsame same)
  | short cut failed => exact .short cut (hfailed failed)

/-- A text fits if the console has shown no more than the limit after it. -/
theorem admits_upTo (h : c.Fits L) : (c.upTo L).admits text = true ↔ (c.showing text).Fits L := by
  have hsize : (c.showing text).shown.utf8ByteSize = c.shown.utf8ByteSize + text.utf8ByteSize :=
    String.utf8ByteSize_append
  unfold Fits at *
  rw [admits_iff, hsize]
  constructor
  · intro hadmits
    have hroom : text.utf8ByteSize = 0 ∨ c.shown.utf8ByteSize + text.utf8ByteSize ≤ L :=
      hadmits L rfl
    omega
  · rintro hfits limit ⟨⟩
    exact .inr hfits

theorem write?_limited (h : c.Roomy L) (text : String) : ∃ c', c.write? text = some c' ∧
    Limited L c' ((c.upTo L).writePartly text) ((c.upTo L).write? text = some (c'.upTo L))
      ((c.upTo L).write? text = none) := by
  obtain ⟨c', -, hwrite⟩ := write?_unlimited h.limit text
  have hshown := write?_eq_some hwrite
  subst hshown
  refine ⟨_, hwrite, ?_⟩
  by_cases hfits : (c.showing text).Fits L
  · exact .whole hfits (write?_of_admits ((admits_upTo h.fits).2 hfits))
  · have hfull : (c.upTo L).write? text = none := by
      rw [write?_eq_none_iff, ← Bool.not_eq_true, admits_upTo h.fits]
      exact hfits
    -- what is shown in part is within the limit because that part of the text went through
    obtain ⟨part, rest, rfl, hpart⟩ := (c.upTo L).exists_part text
    have hadmits : (c.upTo L).admits part = true := by
      rw [← Bool.not_eq_false, ← write?_eq_none_iff, hpart]
      exact nofun
    rw [write?_eq_some hpart]
    refine .short ⟨hfits, (admits_upTo h.fits).1 hadmits, rest, ?_⟩ hfull
    exact congrArg Console.shown showing_append

end Console

open Console (Limited)

/-! ## Commands -/

/-- The session with the limit `L`. -/
def Session.upTo (L : Nat) (s : Session) : Session := s.withConsole (s.console.upTo L)

/-- The turn with the limit `L` at its end. -/
def Turn.upTo (L : Nat) (turn : Turn) : Turn := ⟨turn.session.upTo L, turn.result⟩

/-- The exchange with the limit `L`. -/
def Exchange.upTo (L : Nat) (e : Exchange) : Exchange := { e with session := e.session.upTo L }

/-- The dialogue with the limit `L` at its end. -/
def Dialogue.upTo (L : Nat) (d : Dialogue) : Dialogue := { d with session := d.session.upTo L }

namespace Session

variable {L : Nat} {s : Session}

theorem write?_limited (h : s.console.Roomy L) (text : String) :
    ∃ s', s.write? text = some s' ∧ Limited L s'.console ((s.upTo L).writePartly text).console
      ((s.upTo L).write? text = some (s'.upTo L)) ((s.upTo L).write? text = none) := by
  obtain ⟨c, hwrite, hlimited⟩ := Console.write?_limited h text
  refine ⟨s.withConsole c, congrArg (Option.map _) hwrite, hlimited.imp (fun hsame => ?_)
    fun hfailed => ?_⟩
  · exact congrArg (Option.map _) hsame
  · exact congrArg (Option.map _) hfailed

theorem enact?_limited (h : s.console.Roomy L) (e : Effect) :
    ∃ s', s.enact? e = some s' ∧ Limited L s'.console ((s.upTo L).enactPartly e).console
      ((s.upTo L).enact? e = some (s'.upTo L)) ((s.upTo L).enact? e = none) := by
  cases e with
  | write text => exact write?_limited h text
  | select depth => exact ⟨_, rfl, .whole h.fits rfl⟩
  | addBreakpoint function location => exact ⟨_, rfl, .whole h.fits rfl⟩
  | removeBreakpoint id => exact ⟨_, rfl, .whole h.fits rfl⟩
  | direct d => exact ⟨_, rfl, .whole h.fits rfl⟩

theorem perform_limited (h : s.console.Roomy L) (effects : List Effect) :
    Limited L (s.perform effects).1.console ((s.upTo L).perform effects).1.console
      ((s.upTo L).perform effects = ((s.perform effects).1.upTo L, true))
      (((s.upTo L).perform effects).2 = false) := by
  induction effects generalizing s with
  | nil => exact .whole h.fits rfl
  | cons e rest ih =>
    obtain ⟨s₁, henact, hlimited⟩ := enact?_limited h e
    simp only [perform, henact]
    cases hlimited with
    | whole fits same =>
      rw [same]
      exact ih ((grows_of_enact? henact).roomy h fits)
    | short cut failed =>
      rw [failed]
      exact .short (cut.grow (s₁.perform_grows rest)) rfl

theorem carryOut_limited (h : s.console.Roomy L) (r : Reply) :
    Limited L (s.carryOut r).session.console ((s.upTo L).carryOut r).session.console
      ((s.upTo L).carryOut r = (s.carryOut r).upTo L)
      (((s.upTo L).carryOut r).result = .error .outputFull) := by
  obtain ⟨c, hc, hperform⟩ := perform_unlimited h.limit r.effects
  have hlimited := perform_limited h r.effects
  have hperformed := s.perform_grows r.effects
  have hreported := carryOut_grows_of_perform hperform
  rw [hperform] at hlimited hperformed
  generalize (r.effects.foldl act s).withConsole c = s₁ at hperform hlimited hperformed hreported
  cases hlimited with
  | short cut failed =>
    rw [carryOut_of_perform_fails failed]
    exact .short (cut.grow hreported) rfl
  | whole fits same =>
    unfold carryOut
    rw [hperform, same]
    cases hresult : r.result with
    | ok flow => exact .whole fits rfl
    | error e =>
      obtain ⟨s₂, hwrite, hreport⟩ := write?_limited (hperformed.roomy h fits) (reportText e)
      dsimp only
      rw [hwrite]
      cases hreport with
      | whole fits same =>
        rw [same]
        exact .whole fits rfl
      | short cut failed =>
        rw [failed]
        exact .short cut rfl

theorem endOfInput_limited (h : s.console.Roomy L) (prompts : Nat) :
    Limited L (s.endOfInput prompts).session.console
      ((s.upTo L).endOfInput prompts).session.console
      ((s.upTo L).endOfInput prompts = (s.endOfInput prompts).upTo L)
      (((s.upTo L).endOfInput prompts).result = .error .outputFull) := by
  let noted := s.note [⟨.debug, "end of command input"⟩]
  have hnoted : noted.console.Roomy L := ⟨h.limit, h.fits⟩
  obtain ⟨s₁, hwrite, hlimited⟩ := write?_limited hnoted "\n"
  have hupTo : (s.upTo L).note [⟨.debug, "end of command input"⟩] = noted.upTo L := rfl
  unfold endOfInput
  dsimp only
  rw [hwrite, hupTo]
  cases hlimited with
  | whole fits same =>
    rw [same]
    exact .whole fits rfl
  | short cut failed =>
    rw [failed]
    exact .short cut rfl

end Session

theorem Exchange.turn_limited {L : Nat} {e : Exchange} (h : e.session.console.Roomy L) :
    Limited L e.turn.session.console (e.upTo L).turn.session.console
      ((e.upTo L).turn = e.turn.upTo L) ((e.upTo L).turn.result = .error .outputFull) := by
  obtain ⟨number, line, s⟩ := e
  cases line with
  | none =>
    refine (Session.endOfInput_limited h number).imp (fun hsame => ?_) (fun hfailed => ?_)
    · unfold turn upTo Turn.upTo
      dsimp only
      rw [hsame]
      rfl
    · unfold turn upTo
      dsimp only
      rw [hfailed]
      rfl
  | some line =>
    cases line with
    | malformed => exact .whole h.fits rfl
    | text content => exact Session.carryOut_limited h (s.replyTo (Text.commandWords content))

/-! ## Dialogues -/

namespace Session

variable {L : Nat} {s : Session}

theorem ask?_limited (h : s.console.Roomy L) (prompts : Nat) (line : Option Text.Line) :
    ∃ e, s.ask? prompts line = some e ∧
      Limited L e.session.console ((s.upTo L).writePartly (s.promptText (prompts + 1))).console
        ((s.upTo L).ask? prompts line = some (e.upTo L)) ((s.upTo L).ask? prompts line = none) := by
  obtain ⟨s', hwrite, hlimited⟩ := write?_limited h (s.promptText (prompts + 1))
  refine ⟨⟨prompts + 1, line, s'⟩, ?_, hlimited.imp (fun hsame => ?_) (fun hfailed => ?_)⟩
  · exact ask?_eq_some_iff.2 ⟨s', hwrite, rfl⟩
  · exact ask?_eq_some_iff.2 ⟨s'.upTo L, hsame, rfl⟩
  · exact ask?_eq_none_iff.2 hfailed

end Session

/-- The exchanges that begin within the limit `L`, with that limit. -/
def Exchange.allUpTo (L : Nat) (es : List Exchange) : List Exchange :=
  (es.filter fun e => e.session.console.Fits L).map (upTo L)

namespace Exchange

variable {L : Nat}

theorem allUpTo_append (es es' : List Exchange) :
    allUpTo L (es ++ es') = allUpTo L es ++ allUpTo L es' := by
  unfold allUpTo
  rw [List.filter_append, List.map_append]

theorem allUpTo_cons_of_fits {e : Exchange} (h : e.session.console.Fits L) (es : List Exchange) :
    allUpTo L (e :: es) = e.upTo L :: allUpTo L es := by
  have hkept : (e :: es).filter (fun e => e.session.console.Fits L) =
      e :: es.filter fun e => e.session.console.Fits L :=
    List.filter_cons_of_pos (decide_eq_true h)
  unfold allUpTo
  rw [hkept, List.map_cons]

/-- No exchange begins within the limit on a console that has passed it. -/
theorem allUpTo_eq_nil {c : Console} {es : List Exchange} (hpast : ¬ c.Fits L)
    (h : ∀ e ∈ es, c.GrowsTo e.session.console) : allUpTo L es = [] := by
  unfold allUpTo
  rw [List.map_eq_nil_iff, List.filter_eq_nil_iff]
  intro e he hfits
  exact hpast ((h e he).fits (of_decide_eq_true hfits))

end Exchange

open Exchange (allUpTo)

namespace Session

variable {L : Nat} {s : Session} {prompts : Nat} {lines : List Text.Line} {e : Exchange}
  {es : List Exchange} {d : Dialogue}

/-- With the limit `L`, the dialogue has the exchanges `es` instead. -/
def TalksUpTo (L : Nat) (s : Session) (prompts : Nat) (lines : List Text.Line)
    (es : List Exchange) (d : Dialogue) : Prop :=
  ∃ d', Talk (s.upTo L) prompts lines es d' ∧
    Limited L d.session.console d'.session.console (d' = d.upTo L) (d'.result = .error .outputFull)

/-- Unless the first exchange fits whole, the dialogue ends with its prompt or its line. -/
theorem Talk.limited_cons (h : Talk s prompts lines (e :: es) d) (hs : s.console.Roomy L)
    (hwhole : e.turn.session.console.Roomy L →
      (s.upTo L).ask? prompts lines.head? = some (e.upTo L) → (e.upTo L).turn = e.turn.upTo L →
      TalksUpTo L s prompts lines (e.upTo L :: allUpTo L es) d) :
    TalksUpTo L s prompts lines (allUpTo L (e :: es)) d := by
  obtain ⟨asked, hdialogue, hrest⟩ := h.grows_cons
  obtain ⟨e', hasked, hprompt⟩ := ask?_limited hs prompts lines.head?
  rw [asked, Option.some.injEq] at hasked
  subst hasked
  cases hprompt with
  | short cut failed =>
    have hnone : allUpTo L (e :: es) = [] := by
      refine Exchange.allUpTo_eq_nil cut.past fun e' he => ?_
      rcases List.mem_cons.1 he with rfl | he
      · exact .refl _
      · exact e.turn_grows.trans (hrest e' he)
    rw [hnone]
    exact ⟨_, .mute failed, .short (cut.grow (e.turn_grows.trans hdialogue)) rfl⟩
  | whole fits same =>
    have hprompted : e.session.console.Roomy L := (grows_of_ask? asked).roomy hs fits
    rw [Exchange.allUpTo_cons_of_fits fits]
    cases Exchange.turn_limited hprompted with
    | whole fits sameTurn => exact hwhole (e.turn_grows.roomy hprompted fits) same sameTurn
    | short cut failed =>
      have hends : (e.upTo L).turn.outcome? = some (.error .outputFull) := by
        unfold Turn.outcome?
        rw [failed]
      rw [Exchange.allUpTo_eq_nil cut.past hrest]
      exact ⟨_, .last same hends, .short (cut.grow hdialogue) rfl⟩

/-- With a limit, a dialogue has the exchanges that begin within it. -/
theorem Talk.limited (h : Talk s prompts lines es d) (hs : s.console.Roomy L) :
    TalksUpTo L s prompts lines (allUpTo L es) d := by
  induction h with
  | @mute s prompts lines asked =>
    obtain ⟨e, hasked, -⟩ := ask?_limited hs prompts lines.head?
    rw [asked] at hasked
    cases hasked
  | @last s prompts lines e result asked ends =>
    refine (Talk.last asked ends).limited_cons hs fun hroomy hasked hturn => ?_
    have hends : (e.upTo L).turn.outcome? = some result := by
      rw [hturn]
      exact ends
    have hlast := Talk.last hasked hends
    rw [hturn] at hlast
    exact ⟨_, hlast, .whole hroomy.fits rfl⟩
  | more asked goes rest ih =>
    refine (Talk.more asked goes rest).limited_cons hs fun hroomy hasked hturn => ?_
    obtain ⟨d', hrest, hlimited⟩ := ih hroomy
    refine ⟨d', .more hasked (hturn ▸ goes) ?_, hlimited⟩
    rw [hturn]
    exact hrest

end Session

/-! ## Stops -/

/-- The debugger with the limit `L`. -/
def Debugger.upTo (L : Nat) (d : Debugger) : Debugger := { d with console := d.console.upTo L }

/-- What comes of a stop, with the limit `L` at its end. -/
def Pause.upTo (L : Nat) (pause : Pause) : Pause := { pause with debugger := pause.debugger.upTo L }

/-- The stop with the limit `L`. -/
def Stop.upTo (L : Nat) (stop : Stop) : Stop := { stop with debugger := stop.debugger.upTo L }

namespace Stop

variable {L : Nat} (stop : Stop)

theorem opened_limited (h : stop.debugger.console.Roomy L) :
    stop.opened.2 = true ∧ Limited L stop.opened.1.console (stop.upTo L).opened.1.console
      ((stop.upTo L).opened = (stop.opened.1.upTo L, true)) ((stop.upTo L).opened.2 = false) := by
  obtain ⟨c, -, hshown⟩ := Session.showLines_unlimited (s := stop.session) h.limit
    (stop.session.location stop.instruction)
  have hopened : stop.opened.2 = true := congrArg Prod.snd hshown
  exact ⟨hopened, Session.perform_limited (s := stop.session) ⟨h.limit, h.fits⟩ _⟩

/-- With a limit, a stop has the exchanges that begin within it. -/
theorem limited (h : stop.debugger.console.Roomy L) :
    (stop.upTo L).exchanges = allUpTo L stop.exchanges ∧
      Limited L stop.pause.debugger.console (stop.upTo L).pause.debugger.console
        ((stop.upTo L).pause = stop.pause.upTo L)
        ((stop.upTo L).pause.result = .error .outputFull) := by
  obtain ⟨hopened, hlimited⟩ := stop.opened_limited h
  have htalk := talk hopened
  rw [pause_eq_leave, pause_eq_leave]
  cases hlimited with
  | short cut failed =>
    have hfailed : ¬ (stop.upTo L).opened.2 = true := by
      rw [failed]
      exact Bool.false_ne_true
    have hexchanges : (stop.upTo L).exchanges = [] := if_neg hfailed
    have hdialogue : (stop.upTo L).dialogue = ⟨(stop.upTo L).opened.1, stop.debugger.input,
        stop.debugger.prompts, .error .outputFull⟩ := if_neg hfailed
    rw [hexchanges, hdialogue, Exchange.allUpTo_eq_nil cut.past htalk.grows.2]
    exact ⟨rfl, .short (cut.grow htalk.grows.1) rfl⟩
  | whole fits same =>
    obtain ⟨d', htalk', hlimited⟩ := htalk.limited (stop.opened_grows.roomy h fits)
    obtain ⟨hexchanges, hdialogue⟩ := (stop.upTo L).eq_of_talk same htalk'
    rw [hexchanges, hdialogue]
    refine ⟨rfl, hlimited.imp (fun hsame => ?_) (fun hfailed => hfailed)⟩
    rw [hsame]
    rfl

end Stop

/-! ## Replays -/

/-- The replay with the limit `L`. -/
def Replay.upTo (L : Nat) (r : Replay) : Replay := { r with debugger := r.debugger.upTo L }

theorem Pause.next_upTo (L : Nat) (pause : Pause) :
    (pause.upTo L).next = (pause.next.1.upTo L, pause.next.2) := by
  unfold next
  dsimp only [upTo]
  split
  · rfl
  · rfl
  · rfl

theorem Pause.next_limited {L : Nat} {pause cut : Pause}
    (h : Limited L pause.debugger.console cut.debugger.console (cut = pause.upTo L)
      (cut.result = .error .outputFull)) :
    Limited L pause.next.1.console cut.next.1.console
      (cut.next = (pause.next.1.upTo L, pause.next.2))
      (cut.next.2 = .failed (.output .outputFull)) := by
  cases h with
  | whole fits same =>
    have hfits : pause.next.1.console.Fits L := by
      obtain ⟨records, hnext⟩ := pause.debugger_next
      unfold Replay.console
      rw [hnext]
      exact fits
    rw [same, next_upTo]
    exact .whole hfits rfl
  | short short failed =>
    have hnext : cut.next = (⟨cut.debugger, cut.engine⟩, .failed (.output .outputFull)) := by
      unfold next
      rw [failed]
    rw [hnext]
    exact .short (short.grow pause.next_grows) rfl

namespace Replay

variable {L : Nat} {r : Replay}

theorem echo?_limited (h : r.console.Roomy L) (step : TraceStep) :
    ∃ r', r.echo? step = some r' ∧ Limited L r'.console ((r.upTo L).echoPartly step).console
      ((r.upTo L).echo? step = some (r'.upTo L)) ((r.upTo L).echo? step = none) := by
  by_cases htraced : r.engine.tracing ∧ step.event = .stepInstruction
  · obtain ⟨c, hwrite, hlimited⟩ := Console.write?_limited h step.instruction.echo
    rw [echo?_of_traced htraced, echo?_of_traced (r := r.upTo L) htraced]
    refine ⟨_, congrArg (Option.map _) hwrite, hlimited.imp (fun hsame => ?_) fun hfailed => ?_⟩
    · exact congrArg (Option.map _) hsame
    · exact congrArg (Option.map _) hfailed
  · rw [echo?_of_untraced htraced, echo?_of_untraced (r := r.upTo L) htraced]
    exact ⟨r, rfl, .whole h.fits rfl⟩

theorem count_upTo (L : Nat) (r : Replay) (stack : CallStack) (step : TraceStep) :
    (r.upTo L).count stack step = (r.count stack step).upTo L := by
  unfold count upTo Debugger.upTo
  rw [Debugger.countHit_withConsole, Debugger.countHit_eq]

/-- One event with no limit and with the limit `L`. -/
theorem advance_limited (h : r.console.Roomy L) (n : Nat) (step : TraceStep) :
    ((r.upTo L).stop? n step).toList.flatMap Stop.exchanges =
        allUpTo L ((r.stop? n step).toList.flatMap Stop.exchanges) ∧
      Limited L (r.advance n step).1.console ((r.upTo L).advance n step).1.console
        ((r.upTo L).advance n step = ((r.advance n step).1.upTo L, (r.advance n step).2))
        (((r.upTo L).advance n step).2 = .failed (.output .outputFull)) := by
  cases hcalls : step.callStack r.debugger.program with
  | error name =>
    obtain ⟨hstop, hnext⟩ := (Moves.unknown (n := n) hcalls).eq
    obtain ⟨hstop', hnext'⟩ := (Moves.unknown (r := r.upTo L) (n := n) hcalls).eq
    rw [hstop, hstop', hnext, hnext']
    exact ⟨rfl, .whole h.fits rfl⟩
  | ok stack =>
    have hcalls' : step.callStack (r.upTo L).debugger.program = .ok stack := hcalls
    obtain ⟨r', hecho, hlimited⟩ := echo?_limited (r := r.bind stack) ⟨h.limit, h.fits⟩ step
    cases hlimited with
    | short cut failed =>
      obtain ⟨hgrows, hexchanges⟩ := advance_grows_of_echo? n hcalls hecho
      obtain ⟨hstop', hnext'⟩ := (Moves.mute (n := n) hcalls' failed).eq
      rw [hstop', hnext', Exchange.allUpTo_eq_nil cut.past hexchanges]
      exact ⟨rfl, .short (cut.grow hgrows) rfl⟩
    | whole fits same =>
      have hroomy : r'.console.Roomy L := (grows_of_echo? hecho).roomy ⟨h.limit, h.fits⟩ fits
      cases hstops : r'.debugger.stopsOn step.event stack with
      | false =>
        obtain ⟨hstop, hnext⟩ := (Moves.passes (n := n) hcalls hecho hstops).eq
        obtain ⟨hstop', hnext'⟩ := (Moves.passes (n := n) hcalls' same hstops).eq
        rw [hstop, hstop', hnext, hnext', count_upTo]
        refine ⟨rfl, .whole ?_ rfl⟩
        rw [console_count]
        exact fits
      | true =>
        obtain ⟨hstop, hnext⟩ := (Moves.stops (n := n) hcalls hecho hstops).eq
        obtain ⟨hstop', hnext'⟩ := (Moves.stops (n := n) hcalls' same hstops).eq
        let stop := (r'.count stack step).halt n stack step
        have hcount : (r'.count stack step).console.Roomy L := by
          rw [console_count]
          exact hroomy
        have hhalt : ((r'.count stack step).upTo L).halt n stack step = stop.upTo L := rfl
        obtain ⟨hexchanges, hlimited⟩ := stop.limited ⟨hcount.limit, hcount.fits⟩
        rw [hstop, hstop', hnext, hnext', count_upTo, hhalt, Option.toList_some,
          List.flatMap_singleton, Option.toList_some, List.flatMap_singleton]
        exact ⟨hexchanges, Pause.next_limited hlimited⟩

/-- A replay with no limit and with the limit `L`. -/
theorem runFrom_limited (h : r.console.Roomy L) (n : Nat) (steps : List TraceStep) :
    (r.upTo L).exchanges n steps = allUpTo L (r.exchanges n steps) ∧
      ((r.upTo L).visits n steps).map (fun v => (v.step, v.before)) =
        ((r.visits n steps).filter fun v => v.before.console.Fits L).map
          (fun v => (v.step, v.before.upTo L)) ∧
      Limited L (r.runFrom n steps).1.console ((r.upTo L).runFrom n steps).1.console
        ((r.upTo L).runFrom n steps = ((r.runFrom n steps).1.upTo L, (r.runFrom n steps).2))
        (((r.upTo L).runFrom n steps).2 = .error (.output .outputFull)) := by
  induction steps generalizing r n with
  | nil => exact ⟨rfl, rfl, .whole h.fits rfl⟩
  | cons step rest ih =>
    obtain ⟨hexchanges, hlimited⟩ := advance_limited h n step
    have hvisit : (r.visits n (step :: rest)).filter (fun v => v.before.console.Fits L) =
        ⟨step, r, (r.advance n step).1, (r.advance n step).2⟩ ::
          (if (r.advance n step).2.goesOn then (r.advance n step).1.visits (n + 1) rest
            else []).filter fun v => v.before.console.Fits L := by
      rw [visits_cons]
      exact List.filter_cons_of_pos (decide_eq_true h.fits)
    rw [hvisit, visits_cons, exchanges_cons, exchanges_cons, Exchange.allUpTo_append, hexchanges,
      runFrom_cons, runFrom_cons]
    generalize hnext : r.advance n step = next at hlimited
    cases hlimited with
    | short cut failed =>
      -- all that comes after the event with no limit begins on a console that has passed it
      have hbreaks : ((r.upTo L).advance n step).2.goesOn = false := by
        rw [failed]
        rfl
      have hexchanges' : ∀ e ∈ (if next.2.goesOn then next.1.exchanges (n + 1) rest else []),
          next.1.console.GrowsTo e.session.console := by
        intro e he
        split at he
        · exact next.1.exchanges_grow (n + 1) rest e he
        · cases he
      have hvisits : (if next.2.goesOn then next.1.visits (n + 1) rest else []).filter
          (fun v => v.before.console.Fits L) = [] := by
        rw [List.filter_eq_nil_iff]
        intro v hv hfits
        split at hv
        · exact cut.past ((next.1.visits_grow (n + 1) rest v hv).fits (of_decide_eq_true hfits))
        · cases hv
      have hrun : next.1.console.GrowsTo (if next.2.goesOn then next.1.runFrom (n + 1) rest
          else (next.1, next.2.answer)).1.console := by
        split
        · exact next.1.runFrom_grows (n + 1) rest
        · exact .refl _
      simp only [hbreaks, Bool.false_eq_true, if_false]
      rw [hvisits, Exchange.allUpTo_eq_nil cut.past hexchanges', List.append_nil, failed]
      exact ⟨rfl, rfl, .short (cut.grow hrun) rfl⟩
    | whole fits same =>
      have hgrows : r.console.GrowsTo next.1.console := hnext ▸ (r.advance_grows n step).1
      rw [same]
      by_cases hgo : next.2.goesOn = true
      · simp only [if_pos hgo]
        obtain ⟨hexchanges', hvisits, hrun⟩ := ih (hgrows.roomy h fits) (n + 1)
        rw [hexchanges', List.map_cons, hvisits]
        exact ⟨rfl, rfl, hrun⟩
      · simp only [hgo]
        exact ⟨rfl, rfl, .whole fits rfl⟩

/-- With the limit `L` on its output a replay does the same as with none if that shows at most `L`
bytes. Otherwise it breaks off because the output is full, having shown a beginning of what is shown
with no limit. Either way it reads those commands, and it shows the debugger those events, before
which no more than `L` bytes are shown with no limit: none after the write that fails. It makes no
difference where texts are cut into the pieces in which they are written. -/
theorem run_limited (program : Program) (input : List Text.Line) (config : Config) (trace : Trace)
    (L : Nat) (cutting : Cutting) :
    let first := start (.start program input config { cutting }) trace.globals
    let full := run (.start program input config { cutting }) trace
    let cut := run (.start program input config { limit := some L, cutting }) trace
    let firstCut := start (.start program input config { limit := some L, cutting }) trace.globals
    let read := (first.exchanges 0 trace.steps).filter fun e => e.session.console.Fits L
    let visited := (first.visits 0 trace.steps).filter fun v => v.before.console.Fits L
    (full.1.console.Fits L → cut = (full.1.upTo L, full.2)) ∧
      (¬ full.1.console.Fits L → cut.2 = .error (.output .outputFull) ∧
        full.1.console.CutShort L cut.1.console) ∧
      firstCut.exchanges 0 trace.steps = read.map (·.upTo L) ∧
      cut.1.debugger.input = input.drop read.length ∧
      (firstCut.visits 0 trace.steps).map (fun v => (v.step, v.before)) =
        visited.map fun v => (v.step, v.before.upTo L) := by
  intro first full cut firstCut read visited
  have hroomy : first.console.Roomy L := ⟨rfl, Nat.zero_le L⟩
  have hfirst : firstCut = first.upTo L := rfl
  obtain ⟨hread, hvisited, hlimited⟩ := runFrom_limited hroomy 0 trace.steps
  have hinput : cut.1.debugger.input = input.drop read.length := by
    have hdrop := firstCut.input_runFrom 0 trace.steps
    rw [hfirst, hread] at hdrop
    change cut.1.debugger.input = input.drop (allUpTo L (first.exchanges 0 trace.steps)).length
      at hdrop
    rw [hdrop]
    exact congrArg (input.drop ·) (List.length_map _)
  refine ⟨fun hfits => ?_, fun hpast => ?_, hread, hinput, hvisited⟩
  · cases hlimited with
    | whole fits same => exact same
    | short cut failed => exact absurd hfits cut.past
  · cases hlimited with
    | whole fits same => exact absurd fits hpast
    | short cut failed => exact ⟨failed, cut⟩

example :
    let r := (run (.start {} [.text "backtrace", .text "step"] {} { limit := some 14 })
      ⟨.empty, [⟨.callEnter, {}, []⟩]⟩).1
    r.console.shown = "->  <no frame>" ∧ r.debugger.input = [.text "backtrace", .text "step"] := by
  decide +kernel

end Replay

end TraceDebugger
