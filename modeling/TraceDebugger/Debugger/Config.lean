import TraceDebugger.Json.Decode

/-!
# Settings of the debugger
-/

namespace TraceDebugger

/-- The settings of a debugger. -/
structure Config where
  /-- Whether the place of the instruction is left out where execution stops. -/
  terse : Bool := false
  /-- The word before the number of a prompt. -/
  prompt : String := "dbg"
  /-- The width of listings in columns. -/
  width : UInt64 := 80
  /-- Whether to stop at the first event. -/
  stopOnEntry : Bool := true

namespace Config

/-- Reads settings; those that are not given have their default. -/
def decode? (j : Json) : Option Config := do
  let fields ← j.record? ["terse", "prompt", "width", "stop_on_entry"]
  some {
    terse := ← fields.withDefault "terse" false Json.bool?
    prompt := ← fields.withDefault "prompt" "dbg" Json.string?
    width := ← fields.withDefault "width" 80 Json.uint64?
    stopOnEntry := ← fields.withDefault "stop_on_entry" true Json.bool? }

/-- Writes settings. -/
def encode (c : Config) : Json :=
  .obj [("terse", .bool c.terse), ("prompt", .str c.prompt), ("width", .int c.width.toNat),
    ("stop_on_entry", .bool c.stopOnEntry)]

end Config

end TraceDebugger
