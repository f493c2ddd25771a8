import TraceDebugger.Data.Log

/-!
# The console

Where the debugger writes: the text shown to the user, which may be limited in length, and the notes
about its own work. A text is written in pieces, one after the other. A piece goes through whole or
fails and leaves nothing behind; the first piece that fails ends the writing of its text, and the
pieces before it have been shown. Where a text is cut (`Cutting`) is up to what puts it together, and
makes no difference as long as the output has room.
-/

namespace TraceDebugger

/-- Why reading a command or writing to the user fails. -/
inductive ConsoleFailure where
  /-- A write would pass the limit of the output. -/
  | outputFull
  /-- A line of input is no text. -/
  | malformedInput
  deriving DecidableEq

/-- The cause in words. -/
def ConsoleFailure.message : ConsoleFailure → String
  | .outputFull => "output limit reached"
  | .malformedInput => "stream did not contain valid UTF-8"

/-- Where texts are cut into the pieces in which they are written. -/
structure Cutting where
  /-- The pieces of a text, which may depend on what has been shown before. -/
  pieces (shown text : String) : List String
  /-- Together the pieces are the text. -/
  join_pieces (shown text : String) : String.join (pieces shown text) = text

/-- The end of a line is a piece of its own. -/
def Cutting.lineEnds : Cutting where
  pieces _ text :=
    if text.toList.getLast? = some '\n' then [String.ofList text.toList.dropLast, "\n"] else [text]
  join_pieces _ text := by
    split
    · rename_i hlast
      obtain ⟨line, hline⟩ := List.getLast?_eq_some_iff.1 hlast
      rw [hline, List.dropLast_concat, String.join_cons, String.join_cons, String.join_nil,
        String.append_empty]
      exact (String.ofList_append.symm.trans (congrArg String.ofList hline.symm)).trans
        String.ofList_toList
    · rw [String.join_cons, String.join_nil, String.append_empty]

/-- What the debugger has written. -/
structure Console where
  /-- The number of bytes that may be shown. -/
  limit : Option Nat := none
  /-- The text shown. -/
  shown : String := ""
  /-- The notes taken. -/
  log : List Record := []
  /-- Where texts are cut. -/
  cutting : Cutting := .lineEnds

namespace Console

/-- Whether a text still fits. Without any bytes it always does. -/
def admits (c : Console) (text : String) : Bool :=
  c.limit.all fun limit =>
    text.utf8ByteSize = 0 ∨ c.shown.utf8ByteSize + text.utf8ByteSize ≤ limit

/-- Shows pieces up to the first that does not fit, and tells whether all fit. -/
def writePieces (c : Console) : List String → Console × Bool
  | [] => (c, true)
  | piece :: rest =>
    if c.admits piece then { c with shown := c.shown ++ piece }.writePieces rest else (c, false)

/-- Shows a text; fails when a piece of it would pass the limit. -/
def write? (c : Console) (text : String) : Option Console :=
  match c.writePieces (c.cutting.pieces c.shown text) with
  | (c, true) => some c
  | (_, false) => none

/-- What is left by a text of which a piece fails: those before it have been shown. -/
def writePartly (c : Console) (text : String) : Console :=
  (c.writePieces (c.cutting.pieces c.shown text)).1

/-- Takes notes. -/
def note (c : Console) (records : List Record) : Console := { c with log := c.log ++ records }

end Console

end TraceDebugger
