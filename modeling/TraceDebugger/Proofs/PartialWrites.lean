import TraceDebugger.Debugger.Basic

/-!
# Texts that are shown in part

A text goes through whole exactly if it fits as a whole, wherever it is cut (`Console.write?_eq`).
If it does not, then what is left is as though only a beginning of it had been written
(`Console.exists_part`). So whatever is known of a text that is shown is known of one that fails.
-/

namespace TraceDebugger

namespace Console

variable {c : Console} {text rest : String}

/-- The console after a text. -/
def showing (c : Console) (text : String) : Console := { c with shown := c.shown ++ text }

theorem admits_iff : c.admits text = true ↔ ∀ limit, c.limit = some limit →
    text.utf8ByteSize = 0 ∨ c.shown.utf8ByteSize + text.utf8ByteSize ≤ limit := by
  unfold admits
  simp only [Option.all_eq_true, decide_eq_true_eq]

/-- A text in two parts fits if the first part does, and the second one after it. -/
theorem admits_append :
    c.admits (text ++ rest) = true ↔ c.admits text = true ∧ (c.showing text).admits rest = true := by
  have hsize : (c.shown ++ text).utf8ByteSize = c.shown.utf8ByteSize + text.utf8ByteSize :=
    String.utf8ByteSize_append
  simp only [admits_iff, showing, String.utf8ByteSize_append]
  constructor
  · intro h
    refine ⟨fun limit hlimit => ?_, fun limit hlimit => ?_⟩
    · have := h limit hlimit
      omega
    · have := h limit hlimit
      omega
  · rintro ⟨hfirst, hrest⟩ limit hlimit
    have := hfirst limit hlimit
    have := hrest limit hlimit
    omega

theorem admits_empty : c.admits "" = true := admits_iff.2 fun _ _ => .inl rfl

theorem showing_empty : c.showing "" = c := by
  unfold showing
  rw [String.append_empty]

theorem showing_append : c.showing (text ++ rest) = (c.showing text).showing rest := by
  unfold showing
  rw [String.append_assoc]

/-- Pieces that fit together are all shown. Of others those before the first that does not fit. -/
theorem writePieces_eq (c : Console) (pieces : List String) :
    ∃ before after, pieces = before ++ after ∧ c.admits (String.join before) = true ∧
      c.writePieces pieces = (c.showing (String.join before), after.isEmpty) ∧
      (after ≠ [] → c.admits (String.join pieces) = false) := by
  induction pieces generalizing c with
  | nil => exact ⟨[], [], rfl, admits_empty, congrArg (·, true) showing_empty.symm, absurd rfl⟩
  | cons piece rest ih =>
    unfold writePieces
    rw [String.join_cons]
    cases hpiece : c.admits piece with
    | true =>
      -- the other pieces go to the console that has shown this one
      obtain ⟨before, after, rfl, hfits, hwrites, hfull⟩ := ih (c.showing piece)
      refine ⟨piece :: before, after, rfl, ?_, ?_, fun hafter => ?_⟩
      · rw [String.join_cons]
        exact admits_append.2 ⟨hpiece, hfits⟩
      · rw [String.join_cons, showing_append, if_pos rfl]
        exact hwrites
      · rw [← Bool.not_eq_true, admits_append]
        exact fun h => Bool.false_ne_true ((hfull hafter).symm.trans h.2)
    | false =>
      refine ⟨[], piece :: rest, rfl, admits_empty, ?_, fun _ => ?_⟩
      · rw [String.join_nil, showing_empty]
        rfl
      · rw [← Bool.not_eq_true, admits_append, hpiece]
        exact fun h => Bool.false_ne_true h.1

/-- A text goes through exactly if it fits. -/
theorem write?_eq (c : Console) (text : String) :
    c.write? text = if c.admits text then some (c.showing text) else none := by
  obtain ⟨before, after, hpieces, hfits, hwrites, hfull⟩ :=
    c.writePieces_eq (c.cutting.pieces c.shown text)
  have hjoin := c.cutting.join_pieces c.shown text
  unfold write?
  rw [hwrites]
  rw [hjoin] at hfull
  cases after with
  | nil =>
    rw [hpieces, List.append_nil] at hjoin
    rw [hjoin] at hfits ⊢
    rw [if_pos hfits]
    rfl
  | cons piece rest =>
    rw [hfull (List.cons_ne_nil _ _)]
    rfl

theorem write?_of_admits (h : c.admits text = true) : c.write? text = some (c.showing text) := by
  rw [write?_eq, if_pos h]

theorem write?_eq_none_iff : c.write? text = none ↔ c.admits text = false := by
  rw [write?_eq]
  cases c.admits text <;> simp

theorem write?_eq_some {c' : Console} (h : c.write? text = some c') : c' = c.showing text := by
  rw [write?_eq] at h
  split at h
  · exact (Option.some.inj h).symm
  · cases h

/-- What a text leaves that is shown in part is what a beginning of it leaves. -/
theorem exists_part (c : Console) (text : String) :
    ∃ part rest, text = part ++ rest ∧ c.write? part = some (c.writePartly text) := by
  obtain ⟨before, after, hpieces, hfits, hwrites, -⟩ :=
    c.writePieces_eq (c.cutting.pieces c.shown text)
  refine ⟨String.join before, String.join after, ?_, ?_⟩
  · rw [← String.join_append, ← hpieces]
    exact (c.cutting.join_pieces c.shown text).symm
  · unfold writePartly
    rw [write?_of_admits hfits, hwrites]

example : ({ limit := some 3 } : Console).writePartly "abc\n" =
    { limit := some 3, shown := "abc" } := rfl

end Console

namespace Session

variable {s : Session} {text : String}

theorem write?_of_admits (h : s.console.admits text = true) :
    s.write? text = some { s with console := s.console.showing text } :=
  congrArg (Option.map _) (Console.write?_of_admits h)

theorem write?_of_not_admits (h : s.console.admits text = false) : s.write? text = none :=
  congrArg (Option.map _) (Console.write?_eq_none_iff.2 h)

theorem exists_part (s : Session) (text : String) :
    ∃ part rest, text = part ++ rest ∧ s.write? part = some (s.writePartly text) := by
  obtain ⟨part, rest, htext, hwrite⟩ := s.console.exists_part text
  exact ⟨part, rest, htext, congrArg (Option.map _) hwrite⟩

/-- An effect that fails leaves what the showing of some text leaves. -/
theorem exists_part_of_effect (s : Session) (e : Effect) :
    ∃ part, s.write? part = some (s.enactPartly e) := by
  have hnone : s.write? "" = some s := by
    rw [write?_of_admits Console.admits_empty, Console.showing_empty]
  cases e with
  | write text =>
    obtain ⟨part, -, -, hwrite⟩ := s.exists_part text
    exact ⟨part, hwrite⟩
  | _ => exact ⟨"", hnone⟩

end Session

end TraceDebugger
