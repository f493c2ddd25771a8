import TraceDebugger.Json.Decode

/-!
# Positions and spans

Where things stand in the source files: a position is a place in a file, and a span the stretch
from one position to another, either of which may be unknown.
-/

namespace TraceDebugger

/-- A place in a source file. -/
structure Position where
  /-- The name of the file. -/
  file : String
  /-- The line. -/
  line : UInt32
  /-- The column. -/
  column : UInt32
  deriving DecidableEq

namespace Position

/-- The place as text. -/
def text (p : Position) : String :=
  s!"{p.file}:{p.line.toNat}:{p.column.toNat}"

/-- Reads a position. -/
def decode? (j : Json) : Option Position := do
  let fields ← j.record? ["file", "line", "column"]
  some {
    file := ← fields.required "file" Json.string?
    line := ← fields.required "line" Json.uint32?
    column := ← fields.required "column" Json.uint32? }

/-- Writes a position. -/
def encode (p : Position) : Json :=
  .obj [("file", .str p.file), ("line", .int p.line.toNat), ("column", .int p.column.toNat)]

end Position

/-- A stretch of source text. -/
structure Span where
  /-- Where it begins. -/
  start : Option Position := none
  /-- Where it ends. -/
  stop : Option Position := none
  deriving DecidableEq

namespace Span

/-- The span of a single place. -/
def point (p : Position) : Span := ⟨some p, some p⟩

/-- Whether the beginning is known. -/
def isKnown (s : Span) : Bool := s.start.isSome

/-- The file in which the span begins. -/
def file? (s : Span) : Option String := s.start.map (·.file)

/-- What is written after the beginning: as much of the end as differs from it. -/
def stopText (start stop : Position) : String :=
  if stop = start then ""
  else if stop.file ≠ start.file then "-" ++ stop.text
  else if stop.line = start.line then s!"-{stop.column.toNat}"
  else s!"-{stop.line.toNat}:{stop.column.toNat}"

/-- The span as text; a dash when the beginning is unknown. -/
def text (s : Span) : String :=
  match s.start, s.stop with
  | none, _ => "-"
  | some start, none => start.text
  | some start, some stop => start.text ++ stopText start stop

/-- Reads a span. -/
def decode? (j : Json) : Option Span := do
  let fields ← j.record? ["start", "end"]
  some {
    start := ← fields.optional "start" Position.decode?
    stop := ← fields.optional "end" Position.decode? }

/-- Writes a span. -/
def encode (s : Span) : Json :=
  .obj [("start", s.start.elim .null Position.encode), ("end", s.stop.elim .null Position.encode)]

end Span

end TraceDebugger
