/-!
# Lines of input

Command input comes as bytes and is read a line at a time: the bytes up to and including the next
line feed, the last line with or without one. A line is a text only if its bytes are well-formed
UTF-8, and the carriage returns and line feeds at its end are not part of the command.
-/

namespace TraceDebugger.Text

/-- A line of input. -/
inductive Line where
  /-- A line that is text, without the line ends after it. -/
  | text (content : String)
  /-- A line whose bytes are not well-formed UTF-8. -/
  | malformed
  deriving DecidableEq

/-- The pieces of a list that end in `stop`, each with its `stop`; a rest without one comes last. -/
def pieces {α : Type} [DecidableEq α] (stop : α) : List α → List (List α)
  | [] => []
  | a :: as =>
    if a = stop then [a] :: pieces stop as
    else match pieces stop as with
      | [] => [[a]]
      | p :: ps => (a :: p) :: ps

/-- The text without the carriage returns and line feeds at its end. -/
def dropLineEnd (cs : List Char) : List Char :=
  (cs.reverse.dropWhile fun c => c = '\r' || c = '\n').reverse

/-- The lines of a text. -/
def linesOfString (s : String) : List Line :=
  (pieces '\n' s.toList).map fun cs => .text (String.ofList (dropLineEnd cs))

/-- The line that a piece of input is. -/
def lineOfBytes (bytes : List UInt8) : Line :=
  match String.fromUTF8? ⟨bytes.toArray⟩ with
  | some s => .text (String.ofList (dropLineEnd s.toList))
  | none => .malformed

/-- The lines of an input of bytes. -/
def linesOfBytes (bytes : List UInt8) : List Line :=
  (pieces 10 bytes).map lineOfBytes

end TraceDebugger.Text
