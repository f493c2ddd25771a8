import TraceDebugger.Proofs.Exchanges

/-!
# Sessions in the course of a stop

A session is changed by effects and by notes, and by nothing else. The session at the end of a
command, of a dialogue and of a stop comes from the one at its beginning by such steps
(`Session.Leads`), so what each step keeps is kept all along.
-/

namespace TraceDebugger

namespace Session

/-- A session comes from another by effects and notes. -/
inductive Leads : Session → Session → Prop where
  | refl (s : Session) : Leads s s
  | effect {s s' s'' : Session} {e : Effect} (enacted : s.enact? e = some s')
    (rest : Leads s' s'') : Leads s s''
  | note {s s' : Session} {records : List Record} (rest : Leads (s.note records) s') : Leads s s'

variable {s s' s'' : Session}

theorem Leads.trans (h : s.Leads s') (h' : s'.Leads s'') : s.Leads s'' := by
  induction h with
  | refl => exact h'
  | effect enacted _ ih => exact .effect enacted (ih h')
  | note _ ih => exact .note (ih h')

theorem leads_of_write? {text : String} (h : s.write? text = some s') : s.Leads s' :=
  .effect (e := .write text) h (.refl s')

/-- A text that is shown in part is one effect, the showing of a shorter text. -/
theorem leads_writePartly (s : Session) (text : String) : s.Leads (s.writePartly text) := by
  obtain ⟨part, -, -, hwrite⟩ := s.exists_part text
  exact leads_of_write? hwrite

theorem leads_perform (s : Session) (effects : List Effect) :
    s.Leads (s.perform effects).1 := by
  induction effects generalizing s with
  | nil => exact .refl s
  | cons e rest ih =>
    unfold perform
    split
    · rename_i s' enacted
      exact .effect enacted (ih s')
    · obtain ⟨part, hwrite⟩ := s.exists_part_of_effect e
      exact leads_of_write? hwrite

theorem leads_carryOut_of_perform {r : Reply} {done : Bool}
    (h : s.perform r.effects = (s', done)) : s'.Leads (s.carryOut r).session := by
  unfold carryOut
  rw [h]
  cases done with
  | false => exact .refl s'
  | true =>
    dsimp only
    split
    · exact .refl s'
    · split
      · rename_i s'' hwrite
        exact leads_of_write? hwrite
      · exact s'.leads_writePartly _

theorem leads_carryOut (s : Session) (r : Reply) : s.Leads (s.carryOut r).session :=
  (s.leads_perform r.effects).trans (leads_carryOut_of_perform rfl)

theorem leads_endOfInput (s : Session) (prompts : Nat) :
    s.Leads (s.endOfInput prompts).session := by
  unfold endOfInput
  dsimp only
  split
  · rename_i s' hwrite
    exact .note (leads_of_write? hwrite)
  · exact .note (leads_writePartly _ _)

theorem leads_of_ask? {prompts : Nat} {line : Option Text.Line} {e : Exchange}
    (h : s.ask? prompts line = some e) : s.Leads e.session := by
  obtain ⟨s', hwrite, rfl⟩ := ask?_eq_some_iff.1 h
  exact leads_of_write? hwrite

end Session

theorem Exchange.leads_turn (e : Exchange) : e.session.Leads e.turn.session := by
  unfold turn
  split
  · exact e.session.leads_endOfInput e.number
  · exact .refl _
  · exact e.session.leads_carryOut _

/-- A dialogue leads to each of its prompts and to its end. -/
theorem Session.Talk.leads {s : Session} {prompts : Nat} {lines : List Text.Line}
    {es : List Exchange} {d : Dialogue} (h : Talk s prompts lines es d) :
    s.Leads d.session ∧ ∀ e ∈ es, s.Leads e.session := by
  induction h with
  | mute _ => exact ⟨leads_writePartly _ _, fun e he => nomatch he⟩
  | @last _ _ _ e _ asked _ =>
    have hasked := leads_of_ask? asked
    refine ⟨hasked.trans e.leads_turn, fun e' he => ?_⟩
    rw [List.mem_singleton.1 he]
    exact hasked
  | @more _ _ _ e _ _ asked _ _ ih =>
    have hasked := leads_of_ask? asked
    have hturn := hasked.trans e.leads_turn
    refine ⟨hturn.trans ih.1, fun e' he => ?_⟩
    rcases List.mem_cons.1 he with rfl | he
    · exact hasked
    · exact hturn.trans (ih.2 e' he)

namespace Stop

theorem leads_opened (stop : Stop) : stop.session.Leads stop.opened.1 :=
  stop.session.leads_perform _

theorem leads_exchanges (stop : Stop) : ∀ e ∈ stop.exchanges, stop.session.Leads e.session := by
  intro e he
  unfold exchanges at he
  split at he
  · exact stop.leads_opened.trans ((stop.opened.1.talk_dialogue _ _).leads.2 e he)
  · cases he

theorem leads_dialogue (stop : Stop) : stop.session.Leads stop.dialogue.session := by
  unfold dialogue
  split
  · exact stop.leads_opened.trans (stop.opened.1.talk_dialogue _ _).leads.1
  · exact stop.leads_opened

end Stop

end TraceDebugger
