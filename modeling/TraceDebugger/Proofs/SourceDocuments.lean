import TraceDebugger.Proofs.TypeDocuments
import TraceDebugger.Source.Unit

/-!
# Compilation units read back

What a compilation unit is made of is decoded from its own encoding, up to the unit itself
(`SourceUnit.decode?_encode`). The only part that is carried along without being looked at is the
body of a function, so it has to be one that a document can hold (`FuncDecl.Sound`); the bodies that
come from a document are.
-/

namespace TraceDebugger

open Json

/-! ## Places -/

theorem Position.encode_ne_null (p : Position) : p.encode ≠ .null := nofun

@[simp] theorem Position.held_encode (p : Position) : p.encode.Every Held := by
  simp [encode]

@[simp] theorem Position.decode?_encode (p : Position) : decode? p.encode = some p := by
  unfold decode? encode
  rw [record?_bind (by rfl) (by decide)]
  simp

@[simp] theorem Position.optional?_encode (p : Option Position) :
    optional? decode? (p.elim .null encode) = some p :=
  optional?_elim (fun p _ => p.encode_ne_null) fun p _ => p.decode?_encode

@[simp] theorem Span.held_encode (s : Span) : s.encode.Every Held := by
  simp [encode]

@[simp] theorem Span.decode?_encode (s : Span) : decode? s.encode = some s := by
  unfold decode? encode
  rw [record?_bind (by rfl) (by decide)]
  simp

/-! ## Identifiers -/

@[simp] theorem ObjectId.held_encode (id : ObjectId) : id.encode.Every Held := held_uint32 id.index

@[simp] theorem ObjectId.decode?_encode (id : ObjectId) : decode? id.encode = some id := by
  rw [decode?, encode, uint32?_toNat, Option.map_some]

@[simp] theorem ObjectId.optional?_encode (id : Option ObjectId) :
    optional? decode? (id.elim .null encode) = some id :=
  optional?_elim (fun _ _ => nofun) fun id _ => id.decode?_encode

@[simp] theorem SourceScopeId.held_encode (id : SourceScopeId) : id.encode.Every Held :=
  held_uint32 id.index

@[simp] theorem SourceScopeId.decode?_encode (id : SourceScopeId) :
    decode? id.encode = some id := by
  rw [decode?, encode, uint32?_toNat, Option.map_some]

@[simp] theorem SourceScopeId.optional?_encode (id : Option SourceScopeId) :
    optional? decode? (id.elim .null encode) = some id :=
  optional?_elim (fun _ _ => nofun) fun id _ => id.decode?_encode

@[simp] theorem Ident.held_encode (i : Ident) : i.encode.Every Held := by
  simp [encode]

@[simp] theorem Ident.decode?_encode (i : Ident) : decode? i.encode = some i := by
  unfold decode? encode
  rw [record?_bind (by rfl) (by decide)]
  simp

/-! ## Objects -/

@[simp] theorem Constant.held_encode (c : Constant) : c.encode.Every Held := by
  cases c <;> simp [encode]

@[simp] theorem Constant.decode?_encode (c : Constant) : decode? c.encode = some c := by
  cases c with
  | int n => rw [encode, decode?, int64?_toInt]
  | _ => rfl

@[simp] theorem Object.held_encode (o : Object) : o.encode.Every Held := by
  cases o <;> simp [encode, Ty.held_encode, Signature.held_encode]

@[simp] theorem Object.decode?_encode (o : Object) : decode? o.encode = some o := by
  have hheld := o.held_encode
  -- the tag leads to the record of its own alternative
  cases o with
  | _ =>
    rw [encode, decode?, tagged?_obj (by decide) (by simp) hheld]
    simp only []
    rw [record?_bind (by rfl) (by decide)]
    simp

/-! ## Declarations -/

@[simp] theorem DeclKind.decode?_text (kind : DeclKind) : decode? (.str kind.text) = some kind :=
  choice?_name (by cases kind <;> decide) (by decide)

@[simp] theorem Spec.held_encode (s : Spec) : s.encode.Every Held := by
  cases s <;> simp [encode]

@[simp] theorem Spec.decode?_encode (s : Spec) : decode? s.encode = some s := by
  have hheld := s.held_encode
  cases s with
  | _ =>
    rw [encode, decode?, tagged?_obj (by decide) (by simp) hheld]
    simp only []
    rw [record?_bind (by rfl) (by decide)]
    simp

@[simp] theorem ParamField.held_encode (f : ParamField) : f.encode.Every Held := by
  simp [encode, Ty.held_encode]

@[simp] theorem ParamField.decode?_encode (f : ParamField) : decode? f.encode = some f := by
  unfold decode? encode
  rw [record?_bind (by rfl) (by decide)]
  simp

namespace FuncDecl

/-- The body, if there is one, can be held by a document, and reads the same there. -/
def Sound (d : FuncDecl) : Prop := ∀ b ∈ d.body, b ≠ .null ∧ b.canonical = b ∧ b.Every Held

variable {d : FuncDecl}

theorem held_encodeFields (h : d.Sound) : (obj d.encodeFields).Every Held := by
  have hbody : (d.body.getD .null).Every Held := by
    cases hb : d.body with
    | none => exact held_null
    | some b => exact (h b hb).2.2
  simp [encodeFields, hbody]

theorem decode?_encode (h : d.Sound) : decode? (.obj d.encodeFields) = some d := by
  have hbody : optional? (fun j => some j.canonical) (d.body.getD .null) = some d.body := by
    cases hb : d.body with
    | none => rfl
    | some b =>
      obtain ⟨hnull, hcanonical, -⟩ := h b hb
      rw [Option.getD_some, optional?_of_ne_null hnull, hcanonical, Option.map_some]
  have hrecv : optional? (list? ParamField.decode?)
      (d.recv.elim .null fun fs => .arr (fs.map ParamField.encode)) = some d.recv :=
    optional?_elim (fun _ _ => nofun) fun fs _ => list?_map fun f _ => f.decode?_encode
  unfold decode? encodeFields
  rw [record?_bind (by rfl) (by decide)]
  simp [hbody, hrecv]

theorem sound_of_decode? {j : Json} (h : decode? j = some d) (hj : j.Every Held) : d.Sound := by
  simp only [decode?, Option.bind_eq_bind, Option.bind_eq_some_iff] at h
  obtain ⟨fields, hfields, name, -, recv, -, params, -, scope, -, body, hbody, span, -, h⟩ := h
  cases h
  intro b hb
  cases hb
  rcases Fields.mem_of_withDefault hbody with hnone | ⟨e, he, hdecoded⟩
  · cases hnone
  · have hnull : e.2 ≠ .null := by
      intro hnull
      rw [hnull] at hdecoded
      cases hdecoded
    rw [optional?_of_ne_null hnull] at hdecoded
    cases hdecoded
    exact ⟨canonical_ne_null hnull, canonical_canonical e.2,
      (every_record? hfields hj e he).canonical⟩

end FuncDecl

namespace Decl

/-- If a function is declared, its body can be held by a document. -/
def Sound : Decl → Prop
  | .gen .. => True
  | .func decl => decl.Sound

variable {d : Decl}

theorem held_encode (h : d.Sound) : d.encode.Every Held := by
  cases d with
  | gen kind specs span => simp [encode]
  | func decl =>
    have hfields := FuncDecl.held_encodeFields h
    rw [every_obj] at hfields
    rw [encode, every_obj]
    exact List.forall_mem_cons.2 ⟨held_str _, hfields⟩

theorem decode?_encode (h : d.Sound) : decode? d.encode = some d := by
  have hheld := held_encode h
  cases d with
  | gen kind specs span =>
    rw [encode, decode?, tagged?_obj (by decide) (by simp) hheld]
    simp only []
    rw [record?_bind (by rfl) (by decide)]
    simp
  | func decl =>
    rw [encode, decode?, tagged?_obj (by decide) (by simp [FuncDecl.encodeFields]) hheld]
    simp only []
    rw [FuncDecl.decode?_encode h]
    rfl

theorem sound_of_decode? {j : Json} (h : decode? j = some d) (hj : j.Every InRange) : d.Sound := by
  unfold decode? at h
  split at h
  · obtain ⟨fields, -, h⟩ := Option.bind_eq_some_iff.1 h
    simp only [Option.bind_eq_bind, Option.bind_eq_some_iff] at h
    obtain ⟨kind, -, specs, -, span, -, h⟩ := h
    cases h
    exact trivial
  · rename_i rest htagged
    obtain ⟨decl, hdecl, h⟩ := Option.bind_eq_some_iff.1 h
    cases h
    exact FuncDecl.sound_of_decode? hdecl (held_tagged? htagged hj)
  · cases h

end Decl

namespace File

/-- All declarations can be held by a document. -/
def Sound (f : File) : Prop := ∀ d ∈ f.decls, d.Sound

variable {f : File}

theorem held_encode (h : f.Sound) : f.encode.Every Held := by
  have hdecls : ∀ d ∈ f.decls, d.encode.Every Held := fun d hd => Decl.held_encode (h d hd)
  simpa [encode] using hdecls

theorem decode?_encode (h : f.Sound) : decode? f.encode = some f := by
  have hdecls : list? Decl.decode? (.arr (f.decls.map Decl.encode)) = some f.decls :=
    list?_map fun d hd => Decl.decode?_encode (h d hd)
  unfold decode? encode
  rw [record?_bind (by rfl) (by decide)]
  simp [hdecls]

theorem sound_of_decode? {j : Json} (h : decode? j = some f) (hj : j.Every InRange) : f.Sound := by
  simp only [decode?, Option.bind_eq_bind, Option.bind_eq_some_iff] at h
  obtain ⟨fields, hfields, name, -, decls, hdecls, h⟩ := h
  cases h
  rcases Fields.mem_of_withDefault hdecls with rfl | ⟨e, he, hlist⟩
  · exact nofun
  · intro d hd
    obtain ⟨i, hi, hdecoded⟩ := every_list? hlist (every_record? hfields hj e he) d hd
    exact Decl.sound_of_decode? hdecoded hi

end File

/-! ## Units -/

@[simp] theorem SourceScope.held_encode (s : SourceScope) : s.encode.Every Held := by
  have hnames : (obj (s.names.entries.map fun e => (e.1, e.2.encode))).Every Held :=
    held_table fun e _ => e.2.held_encode
  simp only [encode, every_obj, List.forall_mem_cons] at hnames ⊢
  exact ⟨s.span.held_encode, hnames, by simp, List.forall_mem_nil _⟩

@[simp] theorem SourceScope.decode?_encode (s : SourceScope) : decode? s.encode = some s := by
  have hnames : table? ObjectId.decode? (.obj (s.names.entries.map fun e => (e.1, e.2.encode))) =
      some s.names :=
    table?_map fun e _ => e.2.decode?_encode
  unfold decode? encode
  rw [record?_bind (by rfl) (by decide)]
  simp [hnames]

namespace SourceUnit

/-- All files can be held by a document. -/
def Sound (u : SourceUnit) : Prop := ∀ f ∈ u.files, f.Sound

variable {u : SourceUnit}

theorem held_encode (h : u.Sound) : u.encode.Every Held := by
  have hfiles : ∀ f ∈ u.files, f.encode.Every Held := fun f hf => File.held_encode (h f hf)
  simpa [encode] using hfiles

theorem decode?_encode (h : u.Sound) : decode? u.encode = some u := by
  have hfiles : list? File.decode? (.arr (u.files.map File.encode)) = some u.files :=
    list?_map fun f hf => File.decode?_encode (h f hf)
  have herror : optional? string? (u.error.elim .null .str) = some u.error :=
    optional?_elim (fun _ _ => nofun) fun _ _ => rfl
  unfold decode? encode
  rw [record?_bind (by rfl) (by decide)]
  simp [hfiles, herror]

theorem sound_of_decode? {j : Json} (h : decode? j = some u) (hj : j.Every InRange) : u.Sound := by
  simp only [decode?, Option.bind_eq_bind, Option.bind_eq_some_iff] at h
  obtain ⟨fields, hfields, path, -, name, -, importable, -, error, -, objects, -, scopes, -, files,
    hfiles, h⟩ := h
  cases h
  rcases Fields.mem_of_withDefault hfiles with rfl | ⟨e, he, hlist⟩
  · exact nofun
  · intro f hf
    obtain ⟨i, hi, hdecoded⟩ := every_list? hlist (every_record? hfields hj e he) f hf
    exact File.sound_of_decode? hdecoded hi

end SourceUnit

end TraceDebugger
