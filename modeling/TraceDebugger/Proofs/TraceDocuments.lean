import TraceDebugger.Debugger.Config
import TraceDebugger.Execution.Trace
import TraceDebugger.Proofs.SourceDocuments

/-!
# Recorded executions read back

Values, events and calls are decoded from their own encoding, up to the whole record of an execution
(`Trace.decode?_encode`), and so are the settings of the debugger.
-/

namespace TraceDebugger

open Json

/-! ## Values -/

namespace Value

theorem encode_ne_null (v : Value) : v.encode ≠ .null := by
  cases v <;> simp [encode]

theorem encodeAll_eq (vs : List Value) : encodeAll vs = vs.map encode := by
  induction vs with
  | nil => rfl
  | cons v vs ih => rw [encodeAll, ih, List.map_cons]

mutual

theorem held_encode : ∀ v : Value, v.encode.Every Held
  | .nil => by simp [encode]
  | .bool _ => by simp [encode]
  | .int _ => by simp [encode]
  | .float _ => by simp [encode]
  | .string _ => by simp [encode]
  | .pointer target => by simp [encode, target.held_encode]
  | .tuple items => by
    have hitems := held_encodeAll items
    simpa [encode] using hitems
  | .slice items => by
    have hitems := held_encodeAll items
    simpa [encode] using hitems
  | .other _ => by simp [encode]

theorem held_encodeAll : ∀ vs : List Value, ∀ j ∈ encodeAll vs, j.Every Held
  | [] => List.forall_mem_nil _
  | v :: vs => List.forall_mem_cons.2 ⟨v.held_encode, held_encodeAll vs⟩

end

/-- A tag with its content after it. -/
theorem beside?_obj {reading : Reading} {t : String} (ht : t ∈ tags) (j : Json) :
    (obj [("kind", .str t), ("value", j)]).beside? reading "kind" "value" tags =
      some (t, some j, reading) := by
  simp [beside?, choice?, ht]

mutual

theorem read?_encode : ∀ (v : Value) (fuel : Nat) (reading : Reading), v.encode.depth < fuel →
    read? fuel reading v.encode = some v
  | _, 0, _, h => absurd h (Nat.not_lt_zero _)
  | .nil, fuel + 1, reading, _ => rfl
  | .bool b, fuel + 1, reading, _ => by
    rw [encode, read?, beside?_obj (by decide)]
    rfl
  | .int n, fuel + 1, reading, _ => by
    rw [encode, read?, beside?_obj (by decide)]
    simp
  | .float x, fuel + 1, reading, _ => by
    rw [encode, read?, beside?_obj (by decide)]
    rfl
  | .string s, fuel + 1, reading, _ => by
    rw [encode, read?, beside?_obj (by decide)]
    rfl
  | .pointer target, fuel + 1, reading, h => by
    simp only [encode, depth, depthEntries] at h
    have htarget := target.read?_encode fuel reading (by omega)
    rw [encode, read?, beside?_obj (by decide)]
    simp [htarget]
  | .tuple items, fuel + 1, reading, h => by
    simp only [encode, depth, depthEntries] at h
    have hitems := read?_encodeAll items fuel reading (by omega)
    rw [encode, read?, beside?_obj (by decide)]
    simp [hitems]
  | .slice items, fuel + 1, reading, h => by
    simp only [encode, depth, depthEntries] at h
    have hitems := read?_encodeAll items fuel reading (by omega)
    rw [encode, read?, beside?_obj (by decide)]
    simp [hitems]
  | .other s, fuel + 1, reading, _ => by
    rw [encode, read?, beside?_obj (by decide)]
    rfl

theorem read?_encodeAll : ∀ (vs : List Value) (fuel : Nat) (reading : Reading),
    depthItems (encodeAll vs) < fuel →
    list? (read? fuel reading) (.arr (encodeAll vs)) = some vs
  | [], _, _, _ => rfl
  | v :: vs, fuel, reading, h => by
    simp only [encodeAll, depthItems] at h
    have hv := v.read?_encode fuel reading (by omega)
    have hvs := read?_encodeAll vs fuel reading (by omega)
    simp only [list?] at hvs
    simp [encodeAll, list?, hv, hvs]

end

@[simp] theorem decode?_encode (v : Value) (reading : Reading) : decode? reading v.encode = some v :=
  v.read?_encode _ reading (Nat.lt_succ_self _)

end Value

/-! ## Events and instructions -/

@[simp] theorem Event.held_encode (e : Event) : e.encode.Every Held := held_str e.tag

@[simp] theorem Event.decode?_encode (e : Event) : decode? e.encode = some e :=
  choice?_name e.mem_all (by decide)

@[simp] theorem Instruction.held_encode (i : Instruction) : i.encode.Every Held := by
  simp [encode]

@[simp] theorem Instruction.decode?_encode (i : Instruction) : decode? i.encode = some i := by
  unfold decode? encode
  rw [record?_bind (by rfl) (by decide)]
  simp

/-! ## Traces -/

@[simp] theorem RecordedFrame.held_encode (f : RecordedFrame) : f.encode.Every Held := by
  have haliases : (obj (f.aliases.entries.map fun e => (e.1, .str e.2))).Every Held :=
    held_table fun e _ => held_str e.2
  have hlocals := Value.held_encodeAll f.locals
  have hparams := Value.held_encodeAll f.params
  simp only [encode, every_obj, List.forall_mem_cons, every_arr] at haliases ⊢
  refine ⟨held_str _, hlocals, hparams, haliases, held_uint64 _, held_uint64 _, ?_,
    f.span.held_encode, ?_, List.forall_mem_nil _⟩
  · exact held_elim fun n _ => held_uint32 n
  · exact held_elim fun v _ => v.held_encode

@[simp] theorem RecordedFrame.decode?_encode (f : RecordedFrame) : decode? f.encode = some f := by
  have haliases : table? string? (.obj (f.aliases.entries.map fun e => (e.1, .str e.2))) =
      some f.aliases :=
    table?_map fun _ _ => rfl
  have hscope : optional? uint32? (f.scope.elim .null fun n => .int n.toNat) = some f.scope :=
    optional?_elim (fun _ _ => nofun) fun n _ => uint32?_toNat n
  have hresult : optional? (Value.decode? .direct) (f.result.elim .null Value.encode) =
      some f.result :=
    optional?_elim (fun v _ => v.encode_ne_null) fun v _ => v.decode?_encode .direct
  unfold decode? encode
  rw [record?_bind (by rfl) (by decide)]
  simp [haliases, hscope, hresult, Value.encodeAll_eq]

@[simp] theorem TraceStep.held_encode (s : TraceStep) : s.encode.Every Held := by
  simp [encode]

@[simp] theorem TraceStep.decode?_encode (s : TraceStep) : decode? s.encode = some s := by
  unfold decode? encode
  rw [record?_bind (by rfl) (by decide)]
  simp

theorem Trace.held_encode (t : Trace) : t.encode.Every Held := by
  have hglobals : (obj (t.globals.entries.map fun e => (e.1, e.2.encode))).Every Held :=
    held_table fun e _ => e.2.held_encode
  simp only [encode, every_obj, List.forall_mem_cons] at hglobals ⊢
  exact ⟨hglobals, by simp, List.forall_mem_nil _⟩

theorem Trace.decode?_encode (t : Trace) : decode? t.encode = some t := by
  have hglobals : table? (Value.decode? .direct)
      (.obj (t.globals.entries.map fun e => (e.1, e.2.encode))) = some t.globals :=
    table?_map fun e _ => e.2.decode?_encode .direct
  unfold decode? encode
  rw [record?_bind (by rfl) (by decide)]
  simp [hglobals]

/-! ## Settings -/

theorem Config.held_encode (c : Config) : c.encode.Every Held := by
  simp [encode]

theorem Config.decode?_encode (c : Config) : decode? c.encode = some c := by
  unfold decode? encode
  rw [record?_bind (by rfl) (by decide)]
  simp

end TraceDebugger
