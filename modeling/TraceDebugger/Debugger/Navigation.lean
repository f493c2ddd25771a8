import TraceDebugger.Debugger.Location
import TraceDebugger.Text.Numeral

/-!
# Moving along the call stack

Frame numbers are whole numbers of 64 bits. A sum that leaves their range stops at its end, which is
far from any frame.
-/

namespace TraceDebugger

namespace FrameNumber

/-- The smallest frame number that can be asked for. -/
def min : Int := -9223372036854775808

/-- The largest frame number that can be asked for. -/
def max : Int := 9223372036854775807

/-- The nearest frame number. -/
def clamp (n : Int) : Int := if n < min then min else if max < n then max else n

/-- Reads a frame number; one is meant when none is given. -/
def read (what : String) : Option String → Except CommandError Int
  | none => .ok 1
  | some s =>
    match Text.readInt? min max s with
    | some n => .ok n
    | none => .error (.notAnInteger what s)

end FrameNumber

namespace Session

/-- The line of a call in a backtrace, marked if it is the selected one. -/
def frameLine (s : Session) (selected depth : Nat) (frame : Frame) : String :=
  (if depth = selected then "=> " else "   ") ++ s!"#{depth} {s.program.frameText frame}"

/-- The lines of the calls at depths below `count`. -/
def frameLines (s : Session) (count : Nat) : List String :=
  (s.stack.frames.take count).zipIdx.map fun e => s.frameLine s.cursor e.2 e.1

/-- Selects the call that is asked for, by depth or by the distance from the selected one. -/
def moveTo (s : Session) (n : Int) (absolute : Bool) : Reply :=
  if s.stack.size = 0 then .fail .noFrame else
  let target := if absolute then n else FrameNumber.clamp (s.cursor + n)
  if 0 ≤ target ∧ target < s.stack.size then
    let depth := target.toNat
    { effects := .select depth ::
        (s.stack.frame? depth).toList.map fun f => .write (s.frameLine depth depth f ++ "\n")
      result := .ok .prompt }
  else .fail (.frameOutOfRange target (s.stack.size - 1))

/-- Shows the call stack, or as many innermost calls as are asked for. -/
def backtrace (s : Session) (count : Option String) : Reply :=
  match count with
  | none => .lines (s.frameLines s.stack.size)
  | some _ =>
    match FrameNumber.read "frame count" count with
    | .ok n => .lines (s.frameLines n.toNat)
    | .error e => .fail e

/-- Selects a call by its depth. -/
def frame (s : Session) (number : String) : Reply :=
  match FrameNumber.read "frame number" (some number) with
  | .ok n => s.moveTo n true
  | .error e => .fail e

/-- Selects a call further out. -/
def up (s : Session) (count : Option String) : Reply :=
  match FrameNumber.read "frame number" count with
  | .ok n => s.moveTo n false
  | .error e => .fail e

/-- Selects a call further in. -/
def down (s : Session) (count : Option String) : Reply :=
  match FrameNumber.read "frame number" count with
  | .ok n => s.moveTo (FrameNumber.clamp (-n)) false
  | .error e => .fail e

end Session

end TraceDebugger
