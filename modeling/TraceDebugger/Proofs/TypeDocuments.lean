import TraceDebugger.Proofs.DecodedFields
import TraceDebugger.Source.TyJson

/-!
# Types read back

A type, a variable and a signature are decoded from their own encoding (`Ty.decode?_encode`). The
decoders follow the nesting of the document, so the induction is over the nesting of the type, with
any number of levels that the encoding stays below.
-/

namespace TraceDebugger

open Json

@[simp] theorem BasicKind.decode?_tag (kind : BasicKind) : decode? (.str kind.tag) = some kind :=
  choice?_name kind.mem_all (by decide)

theorem Var.encode_ne_null (v : Var) : v.encode ≠ .null := by
  cases v
  simp [Var.encode]

/-! ## What is written -/

mutual

theorem Ty.held_encode : ∀ t : Ty, t.encode.Every Held
  | .basic _ => by simp [Ty.encode]
  | .named _ _ => by simp [Ty.encode]
  | .pointer elem => by simp [Ty.encode, elem.held_encode]
  | .slice elem => by simp [Ty.encode, elem.held_encode]
  | .map key value => by simp [Ty.encode, key.held_encode, value.held_encode]
  | .func signature => by simp [Ty.encode, signature.held_encode]
  | .tuple vars => by
    have hvars := Var.held_encodeAll vars
    simpa [Ty.encode] using hvars
  | .struct fields => by
    have hfields := Var.held_encodeAll fields
    simpa [Ty.encode] using hfields
  | .interface _ => by simp [Ty.encode]

theorem Var.held_encode : ∀ v : Var, v.encode.Every Held
  | ⟨_, type⟩ => by simp [Var.encode, type.held_encode]

theorem Var.held_encodeAll : ∀ vs : List Var, ∀ j ∈ Var.encodeAll vs, j.Every Held
  | [] => List.forall_mem_nil _
  | v :: vs => List.forall_mem_cons.2 ⟨v.held_encode, Var.held_encodeAll vs⟩

theorem Var.held_encodeReceiver : ∀ recv : Option Var, (Var.encodeReceiver recv).Every Held
  | none => held_null
  | some v => v.held_encode

theorem Signature.held_encode : ∀ s : Signature, s.encode.Every Held
  | ⟨recv, params, results, _⟩ => by
    have hrecv := Var.held_encodeReceiver recv
    have hparams := Var.held_encodeAll params
    have hresults := Var.held_encodeAll results
    simp only [Signature.encode, every_obj, List.forall_mem_cons, every_arr]
    exact ⟨hrecv, hparams, hresults, held_bool _, List.forall_mem_nil _⟩

end

/-! ## What is read back -/

mutual

theorem Ty.read?_encode : ∀ (t : Ty) (fuel : Nat) (reading : Reading), t.encode.depth < fuel →
    Ty.read? fuel reading t.encode = some t
  | _, 0, _, h => absurd h (Nat.not_lt_zero _)
  | .basic kind, fuel + 1, reading, _ => by
    -- in every case the tag leads to the record of its own alternative
    rw [Ty.encode, Ty.read?, tagged?_obj (by decide) (by simp) (Ty.basic kind).held_encode]
    simp only []
    rw [record?_bind (by rfl) (by decide)]
    simp
  | .named package name, fuel + 1, reading, _ => by
    rw [Ty.encode, Ty.read?, tagged?_obj (by decide) (by simp) (Ty.named package name).held_encode]
    simp only []
    rw [record?_bind (by rfl) (by decide)]
    simp
  | .pointer elem, fuel + 1, reading, h => by
    simp only [Ty.encode, depth, depthEntries] at h
    have helem := elem.read?_encode fuel .setAside (by omega)
    rw [Ty.encode, Ty.read?, tagged?_obj (by decide) (by simp) (Ty.pointer elem).held_encode]
    simp only []
    rw [record?_bind (by rfl) (by decide)]
    simp [helem]
  | .slice elem, fuel + 1, reading, h => by
    simp only [Ty.encode, depth, depthEntries] at h
    have helem := elem.read?_encode fuel .setAside (by omega)
    rw [Ty.encode, Ty.read?, tagged?_obj (by decide) (by simp) (Ty.slice elem).held_encode]
    simp only []
    rw [record?_bind (by rfl) (by decide)]
    simp [helem]
  | .map key value, fuel + 1, reading, h => by
    simp only [Ty.encode, depth, depthEntries] at h
    have hkey := key.read?_encode fuel .setAside (by omega)
    have hvalue := value.read?_encode fuel .setAside (by omega)
    rw [Ty.encode, Ty.read?, tagged?_obj (by decide) (by simp) (Ty.map key value).held_encode]
    simp only []
    rw [record?_bind (by rfl) (by decide)]
    simp [hkey, hvalue]
  | .func signature, fuel + 1, reading, h => by
    simp only [Ty.encode, depth, depthEntries] at h
    have hsig := signature.read?_encode fuel .setAside (by omega)
    rw [Ty.encode, Ty.read?, tagged?_obj (by decide) (by simp) (Ty.func signature).held_encode]
    simp only []
    rw [record?_bind (by rfl) (by decide)]
    simp [hsig]
  | .tuple vars, fuel + 1, reading, h => by
    simp only [Ty.encode, depth, depthEntries] at h
    have hvars := Var.read?_encodeAll vars fuel .setAside (by omega)
    rw [Ty.encode, Ty.read?, tagged?_obj (by decide) (by simp) (Ty.tuple vars).held_encode]
    simp only []
    rw [record?_bind (by rfl) (by decide)]
    simp [hvars]
  | .struct fields, fuel + 1, reading, h => by
    simp only [Ty.encode, depth, depthEntries] at h
    have hfields := Var.read?_encodeAll fields fuel .setAside (by omega)
    rw [Ty.encode, Ty.read?, tagged?_obj (by decide) (by simp) (Ty.struct fields).held_encode]
    simp only []
    rw [record?_bind (by rfl) (by decide)]
    simp [hfields]
  | .interface methods, fuel + 1, reading, _ => by
    have hmethods : list? string? (.arr (methods.map .str)) = some methods :=
      list?_map fun _ _ => rfl
    rw [Ty.encode, Ty.read?, tagged?_obj (by decide) (by simp) (Ty.interface methods).held_encode]
    simp only []
    rw [record?_bind (by rfl) (by decide)]
    simp [hmethods]

theorem Var.read?_encode : ∀ (v : Var) (fuel : Nat) (reading : Reading), v.encode.depth < fuel →
    Var.read? fuel reading v.encode = some v
  | _, 0, _, h => absurd h (Nat.not_lt_zero _)
  | ⟨name, type⟩, fuel + 1, reading, h => by
    simp only [Var.encode, depth, depthEntries] at h
    have htype := type.read?_encode fuel reading (by omega)
    rw [Var.encode, Var.read?, record?_bind (by rfl) (by decide)]
    simp [htype]

theorem Var.read?_encodeAll : ∀ (vs : List Var) (fuel : Nat) (reading : Reading),
    depthItems (Var.encodeAll vs) < fuel →
    list? (Var.read? fuel reading) (.arr (Var.encodeAll vs)) = some vs
  | [], _, _, _ => rfl
  | v :: vs, fuel, reading, h => by
    simp only [Var.encodeAll, depthItems] at h
    have hv := v.read?_encode fuel reading (by omega)
    have hvs := Var.read?_encodeAll vs fuel reading (by omega)
    simp only [list?] at hvs
    simp [Var.encodeAll, list?, hv, hvs]

theorem Var.read?_encodeReceiver : ∀ (recv : Option Var) (fuel : Nat) (reading : Reading),
    (Var.encodeReceiver recv).depth < fuel →
    optional? (Var.read? fuel reading) (Var.encodeReceiver recv) = some recv
  | none, _, _, _ => rfl
  | some v, fuel, reading, h => by
    have hv := v.read?_encode fuel reading h
    rw [Var.encodeReceiver, optional?_of_ne_null v.encode_ne_null, hv, Option.map_some]

theorem Signature.read?_encode : ∀ (s : Signature) (fuel : Nat) (reading : Reading),
    s.encode.depth < fuel → Signature.read? fuel reading s.encode = some s
  | _, 0, _, h => absurd h (Nat.not_lt_zero _)
  | ⟨recv, params, results, variadic⟩, fuel + 1, reading, h => by
    simp only [Signature.encode, depth, depthEntries] at h
    have hrecv := Var.read?_encodeReceiver recv fuel reading (by omega)
    have hparams := Var.read?_encodeAll params fuel reading (by omega)
    have hresults := Var.read?_encodeAll results fuel reading (by omega)
    rw [Signature.encode, Signature.read?, record?_bind (by rfl) (by decide)]
    simp [hrecv, hparams, hresults]

end

@[simp] theorem Ty.decode?_encode (t : Ty) (reading : Reading) : decode? reading t.encode = some t :=
  t.read?_encode _ reading (Nat.lt_succ_self _)

@[simp] theorem Signature.decode?_encode (s : Signature) (reading : Reading) :
    decode? reading s.encode = some s :=
  s.read?_encode _ reading (Nat.lt_succ_self _)

end TraceDebugger
