import TraceDebugger.Program.Creation
import TraceDebugger.Proofs.Conversations
import TraceDebugger.Proofs.Replies

/-!
# What a line changes

Each part of a session is changed by the commands for it only (`Session.Confined`): which call is
selected, the breakpoints, the tracing of instructions and how far the program runs. A line whose
last text is the report of an error has changed nothing. The statements are case analyses over the
ways to reply (`Reply.Way`), read through what a line does when no write fails (`Session.act`).
-/

namespace TraceDebugger

/-! ## What a reply shows and tells -/

/-- The text that an effect shows. -/
def Effect.text? : Effect → Option String
  | .write text => some text
  | _ => none

/-- What an effect tells the engine. -/
def Effect.directive? : Effect → Option Directive
  | .direct d => some d
  | _ => none

namespace Reply

/-- The report of the error, if there is one. -/
def reports (r : Reply) : List String :=
  match r.result with
  | .ok _ => []
  | .error e => [Session.reportText e]

/-- The texts that a reply shows, in order. -/
def texts (r : Reply) : List String := r.effects.filterMap Effect.text? ++ r.reports

/-- What a reply tells the engine, in order. -/
def told (r : Reply) : List Directive := r.effects.filterMap Effect.directive?

/-- What follows a reply. After the report of an error the next command is read. -/
def flow (r : Reply) : Flow :=
  match r.result with
  | .ok flow => flow
  | .error _ => .prompt

theorem getLast?_texts_of_error {r : Reply} {e : CommandError} (h : r.result = .error e) :
    r.texts.getLast? = some (Session.reportText e) := by
  unfold texts reports
  rw [h]
  exact List.getLast?_concat

theorem filterMap_text?_writes (texts : List String) :
    (texts.map Effect.write).filterMap Effect.text? = texts := by
  rw [List.filterMap_map]
  exact List.filterMap_some

theorem filterMap_directive?_writes (texts : List String) :
    (texts.map Effect.write).filterMap Effect.directive? = [] := by
  rw [List.filterMap_map, List.filterMap_eq_nil_iff]
  exact fun text _ => rfl

/-- A reply whose texts do not begin as reports do does not end in a report. -/
theorem getLast?_texts_ne {r : Reply} (h : ∀ text ∈ r.texts, Session.Plain text)
    (e : CommandError) : r.texts.getLast? ≠ some (Session.reportText e) :=
  fun hlast => Session.not_plain_reportText e (h _ (List.mem_of_getLast? hlast))

end Reply

/-! ## Lines that are carried out whole -/

namespace Session

theorem write?_eq_some {s s' : Session} {text : String} (h : s.write? text = some s') :
    s' = s.withConsole s'.console ∧ s'.console.shown = s.console.shown ++ text := by
  unfold write? at h
  obtain ⟨c, hc, rfl⟩ := Option.map_eq_some_iff.1 h
  exact ⟨rfl, congrArg Console.shown (Console.write?_eq_some hc)⟩

theorem enact?_eq_some {s s' : Session} {e : Effect} (h : s.enact? e = some s') :
    s' = (s.act e).withConsole s'.console ∧
      s'.console.shown = s.console.shown ++ String.join e.text?.toList := by
  cases e with
  | write text =>
    obtain ⟨hsame, hshown⟩ := write?_eq_some h
    refine ⟨hsame, hshown.trans ?_⟩
    rw [Effect.text?, Option.toList_some, String.join_cons, String.join_nil, String.append_empty]
  | _ =>
    cases h
    exact ⟨rfl, String.append_empty.symm⟩

theorem perform_eq_true {s s' : Session} {effects : List Effect}
    (h : s.perform effects = (s', true)) :
    s' = (effects.foldl act s).withConsole s'.console ∧
      s'.console.shown = s.console.shown ++ String.join (effects.filterMap Effect.text?) := by
  induction effects generalizing s with
  | nil =>
    cases h
    exact ⟨rfl, String.append_empty.symm⟩
  | cons e rest ih =>
    unfold perform at h
    split at h
    · rename_i s₁ hfirst
      obtain ⟨hsame, hshown⟩ := enact?_eq_some hfirst
      obtain ⟨hsame', hshown'⟩ := ih h
      constructor
      · rw [hsame, foldl_act_withConsole] at hsame'
        exact hsame'
      · rw [hshown', hshown, String.append_assoc, ← String.join_append]
        cases e <;> rfl
    · cases h

/-- A reply that is carried out whole: what it does, shows and leads to. -/
theorem carryOut_eq_ok {s : Session} {r : Reply} {flow : Flow}
    (h : (s.carryOut r).result = .ok flow) :
    (s.carryOut r).session = (r.effects.foldl act s).withConsole (s.carryOut r).session.console ∧
      (s.carryOut r).session.console.shown = s.console.shown ++ String.join r.texts ∧
      flow = r.flow := by
  unfold carryOut Reply.texts Reply.reports Reply.flow at *
  split at h
  · cases h
  · rename_i s₁ hperform
    obtain ⟨hsame, hshown⟩ := perform_eq_true hperform
    cases hresult : r.result with
    | ok flow' =>
      rw [hresult] at h
      cases h
      dsimp only
      rw [List.append_nil]
      exact ⟨hsame, hshown, rfl⟩
    | error e =>
      rw [hresult] at h
      dsimp only at h ⊢
      split at h
      · rename_i s₂ hwrite
        cases h
        obtain ⟨hsame', hshown'⟩ := write?_eq_some hwrite
        refine ⟨?_, ?_, rfl⟩
        · rw [hsame] at hsame'
          exact hsame'
        · rw [hshown', hshown, String.join_append, String.append_assoc, String.join_cons,
            String.join_nil, String.append_empty]
      · cases h

theorem directives_foldl_act (s : Session) (effects : List Effect) :
    (effects.foldl act s).engine.directives =
      s.engine.directives ++ effects.filterMap Effect.directive? := by
  induction effects generalizing s with
  | nil => exact (List.append_nil _).symm
  | cons e rest ih =>
    rw [List.foldl_cons, ih]
    cases e with
    | direct d => exact List.append_assoc _ [d] _
    | _ => rfl

/-! ## What a line changes -/

/-- The parts of a session that commands can change are the same. -/
structure Same (s s' : Session) : Prop where
  cursor : s'.cursor = s.cursor
  scope : s'.scope = s.scope
  breakpoints : s'.breakpoints = s.breakpoints
  engine : s'.engine = s.engine

/-- What a command of a verb may change of a session, what it may tell the engine, and what may
follow it. -/
structure Confined (s s' : Session) (verb : Option Verb) (told : List Directive) (flow : Flow) :
    Prop where
  /-- What the program and its calls are is not changed. -/
  fixed : s'.program = s.program ∧ s'.stack = s.stack ∧ s'.config = s.config ∧ s'.event = s.event
  /-- Another call or scope is selected only by the commands for that. -/
  selects : s'.cursor ≠ s.cursor ∨ s'.scope ≠ s.scope →
    verb = some .frame ∨ verb = some .up ∨ verb = some .down
  /-- Breakpoints are changed only by the commands for that. -/
  points : s'.breakpoints ≠ s.breakpoints → verb = some .setBreak ∨ verb = some .deleteBreak
  /-- Tracing is switched only by the commands for that. -/
  traces : s'.engine.tracing ≠ s.engine.tracing ∨ (∃ on, .trace on ∈ told) →
    verb = some .traceOn ∨ verb = some .traceOff
  /-- The program runs on in the mode of the verb, and the engine is told so once. -/
  runs : ∀ mode, flow = .resume mode →
    verb = some mode.verb ∧ told = [mode.directive] ∧ mode.CountsFrom s.stack.size
  /-- If the program does not run on, the engine is not told to run. -/
  waits : (∀ mode, flow ≠ .resume mode) → told.filter Directive.isStep = []
  /-- The debugger quits only by the command for that. -/
  quits : ∀ code, flow = .quit code → verb = some .quit

theorem Confined.withConsole {s s' : Session} {verb : Option Verb} {told : List Directive}
    {flow : Flow} (h : s.Confined s' verb told flow) (c : Console) :
    s.Confined (s'.withConsole c) verb told flow :=
  ⟨h.fixed, h.selects, h.points, h.traces, h.runs, h.waits, h.quits⟩

/-- What a reply does stays within what its verb may change. -/
theorem confined_of_way {s : Session} {verb : Option Verb} {r : Reply} (h : Reply.Way s verb r) :
    s.Confined (r.effects.foldl act s) verb r.told r.flow := by
  cases h with
  | @shows _ texts result prompts =>
    have hflow : Reply.flow ⟨texts.map .write, result⟩ = .prompt := by
      cases result with
      | ok flow => exact prompts flow rfl
      | error e => rfl
    have htold : Reply.told ⟨texts.map .write, result⟩ = [] :=
      Reply.filterMap_directive?_writes texts
    rw [hflow, htold, foldl_act_writes]
    exact ⟨⟨rfl, rfl, rfl, rfl⟩, by simp, by simp, by simp, nofun, fun _ => rfl, nofun⟩
  | @runs mode text counts plain =>
    have htraces : ∀ on, .trace on ≠ mode.directive := by
      intro on
      cases mode <;> exact nofun
    have hsame : (s.engine.direct mode.directive).tracing = s.engine.tracing := by
      cases mode <;> rfl
    refine ⟨⟨rfl, rfl, rfl, rfl⟩, fun h => h.elim (absurd rfl) (absurd rfl), absurd rfl, ?_, ?_, ?_,
      nofun⟩
    · rintro (h | ⟨on, h⟩)
      · exact absurd hsame h
      · exact absurd (List.mem_singleton.1 h) (htraces on)
    · intro mode' h
      cases h
      exact ⟨rfl, rfl, counts⟩
    · exact fun h => absurd rfl (h mode)
  | traces on =>
    refine ⟨⟨rfl, rfl, rfl, rfl⟩, fun h => h.elim (absurd rfl) (absurd rfl), absurd rfl,
      fun _ => ?_, nofun, fun _ => rfl, nofun⟩
    cases on
    · exact .inr rfl
    · exact .inl rfl
  | @moves verb depth texts verbs plain =>
    have htold : Reply.told ⟨.select depth :: texts.map .write, .ok .prompt⟩ = [] :=
      Reply.filterMap_directive?_writes texts
    rw [htold, List.foldl_cons, foldl_act_writes]
    refine ⟨⟨rfl, rfl, rfl, rfl⟩, fun _ => ?_, absurd rfl, ?_, nofun, fun _ => rfl, nofun⟩
    · rcases verbs with rfl | rfl | rfl
      · exact .inl rfl
      · exact .inr (.inl rfl)
      · exact .inr (.inr rfl)
    · rintro (h | ⟨on, h⟩)
      · exact absurd rfl h
      · cases h
  | sets function location plain =>
    refine ⟨⟨rfl, rfl, rfl, rfl⟩, fun h => h.elim (absurd rfl) (absurd rfl), fun _ => .inl rfl, ?_,
      nofun, fun _ => rfl, nofun⟩
    rintro (h | ⟨on, h⟩)
    · exact absurd rfl h
    · cases h
  | deletes id plain =>
    refine ⟨⟨rfl, rfl, rfl, rfl⟩, fun h => h.elim (absurd rfl) (absurd rfl), fun _ => .inr rfl, ?_,
      nofun, fun _ => rfl, nofun⟩
    rintro (h | ⟨on, h⟩)
    · exact absurd rfl h
    · cases h
  | quits code =>
    refine ⟨⟨rfl, rfl, rfl, rfl⟩, fun h => h.elim (absurd rfl) (absurd rfl), absurd rfl, ?_, nofun,
      fun _ => rfl, fun _ _ => rfl⟩
    rintro (h | ⟨on, h⟩)
    · exact absurd rfl h
    · cases h

/-- A reply that ends in a report has done nothing but show texts. -/
theorem same_of_report {s : Session} {verb : Option Verb} {r : Reply} (h : Reply.Way s verb r)
    {e : CommandError} (hlast : r.texts.getLast? = some (reportText e)) :
    r.flow = .prompt ∧ r.effects.foldl act s = s ∧ r.told = [] := by
  cases h with
  | @shows _ texts result prompts =>
    refine ⟨?_, s.foldl_act_writes texts, Reply.filterMap_directive?_writes texts⟩
    cases result with
    | ok flow => exact prompts flow rfl
    | error e => rfl
  | @runs mode text counts plain =>
    refine absurd hlast (Reply.getLast?_texts_ne (fun t ht => ?_) e)
    rw [List.mem_singleton.1 ht]
    exact plain
  | traces on =>
    refine absurd hlast (Reply.getLast?_texts_ne (fun t ht => ?_) e)
    rw [List.mem_singleton.1 ht]
    cases on <;> exact nofun
  | @moves verb depth texts verbs plain =>
    refine absurd hlast (Reply.getLast?_texts_ne (fun t ht => plain t ?_) e)
    have htexts : Reply.texts ⟨.select depth :: texts.map .write, .ok .prompt⟩ = texts :=
      (List.append_nil _).trans (Reply.filterMap_text?_writes texts)
    rw [htexts] at ht
    exact ht
  | sets function location plain =>
    refine absurd hlast (Reply.getLast?_texts_ne (fun t ht => ?_) e)
    rw [List.mem_singleton.1 ht]
    exact plain
  | deletes id plain =>
    refine absurd hlast (Reply.getLast?_texts_ne (fun t ht => ?_) e)
    rw [List.mem_singleton.1 ht]
    exact plain
  | quits code =>
    refine absurd hlast (Reply.getLast?_texts_ne (fun t ht => ?_) e)
    rw [List.mem_singleton.1 ht]
    exact nofun

/-- A line that is carried out whole changes only what the command is for that its first word
selects. If it reports an error, the report is the last text shown; and if the last text shown is
the report of an error, the next command is read and the line has changed nothing. -/
theorem execute_confined {s : Session} {line : String} {flow : Flow}
    (h : (s.execute line).result = .ok flow) :
    let words := Text.commandWords line
    let r := s.replyTo words
    let s' := (s.execute line).session
    s'.console.shown = s.console.shown ++ String.join r.texts ∧
      s'.engine.directives = s.engine.directives ++ r.told ∧
      s.Confined s' (Command.verbOf? words) r.told flow ∧
      (∀ e, r.result = .error e → r.texts.getLast? = some (reportText e)) ∧
      ∀ e, r.texts.getLast? = some (reportText e) → flow = .prompt ∧ s.Same s' ∧ r.told = [] := by
  intro words r s'
  have hway : Reply.Way s (Command.verbOf? words) r := s.replyTo_way words
  obtain ⟨hsame, hshown, rfl⟩ := carryOut_eq_ok (r := r) h
  have hs' : s' = (r.effects.foldl act s).withConsole s'.console := hsame
  refine ⟨hshown, ?_, ?_, fun e => Reply.getLast?_texts_of_error, fun e hlast => ?_⟩
  · rw [hs']
    exact s.directives_foldl_act r.effects
  · rw [hs']
    exact (confined_of_way hway).withConsole _
  · obtain ⟨hflow, hacts, htold⟩ := same_of_report hway hlast
    rw [hacts] at hs'
    rw [hs']
    exact ⟨hflow, ⟨rfl, rfl, rfl, rfl⟩, htold⟩

/-- A session in the initializer of a package, with the value of one variable. -/
def inInitializer : Session :=
  .start (Program.create {} ⟨"m", "m", true, none, [], [⟨{}, .empty, []⟩], []⟩).program
    ⟨[{ function := ⟨⟨0⟩, 0⟩ }]⟩ {} .stepInstruction
    { globals := .ofList [("m.x", .int 1)] } {} {}

/-- One variable is shown before the other is reported as unknown. -/
theorem execute_confined_inInitializer :
    let s := inInitializer
    let line := "globals x y"
    let r := s.replyTo (Text.commandWords line)
    let s' := (s.execute line).session
    (s.execute line).result = .ok .prompt ∧
      r.texts = ["x: 1\n", reportText (.noSuchGlobal "y")] ∧
      s'.console.shown = s.console.shown ++ String.join r.texts ∧ s.Same s' := by
  intro s line r s'
  have hanswer : (s.execute line).result.toOption = some .prompt := by decide +kernel
  have hresult : (s.execute line).result = .ok .prompt := by
    cases hcase : (s.execute line).result with
    | error cause =>
      rw [hcase] at hanswer
      cases hanswer
    | ok flow =>
      rw [hcase] at hanswer
      exact congrArg Except.ok (Option.some.inj hanswer)
  have htexts : r.texts = ["x: 1\n", reportText (.noSuchGlobal "y")] := by decide +kernel
  obtain ⟨hshown, -, -, -, hreport⟩ := execute_confined hresult
  obtain ⟨-, hsame, -⟩ := hreport (.noSuchGlobal "y") (by rw [htexts]; rfl)
  exact ⟨hresult, htexts, hshown, hsame⟩

end Session

end TraceDebugger
