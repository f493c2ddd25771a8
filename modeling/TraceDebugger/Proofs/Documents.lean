import TraceDebugger.Proofs.JsonText
import TraceDebugger.Proofs.TraceDocuments

/-!
# Documents read back

A document of any kind is read back from what is written for it (`DocumentKind.roundtrip`). What is
written need not be the text that was read: fields in another order, defaults that were left out,
records given as arrays and repeated keys in a body are all written in one way. So it may also have
more levels than that text, and it is read back as long as these are within the limit.
-/

namespace TraceDebugger

open Json

/-- What a document can hold. -/
inductive DocumentKind where
  | unit | trace | frame | type | signature | value | const | object | decl | span | event
  | instruction | config
  deriving DecidableEq

namespace DocumentKind

/-- What is read from a document of a kind. -/
def Content : DocumentKind → Type
  | .unit => SourceUnit
  | .trace => Trace
  | .frame => RecordedFrame
  | .type => Ty
  | .signature => Signature
  | .value => Value
  | .const => Constant
  | .object => Object
  | .decl => Decl
  | .span => Span
  | .event => Event
  | .instruction => Instruction
  | .config => Config

/-- Decodes the content of a document. -/
def decode? : (kind : DocumentKind) → Json → Option kind.Content
  | .unit => SourceUnit.decode?
  | .trace => Trace.decode?
  | .frame => RecordedFrame.decode?
  | .type => Ty.decode? .direct
  | .signature => Signature.decode? .direct
  | .value => Value.decode? .direct
  | .const => Constant.decode?
  | .object => Object.decode?
  | .decl => Decl.decode?
  | .span => Span.decode?
  | .event => Event.decode?
  | .instruction => Instruction.decode?
  | .config => Config.decode?

/-- Encodes the content of a document. -/
def encode : (kind : DocumentKind) → kind.Content → Json
  | .unit => SourceUnit.encode
  | .trace => Trace.encode
  | .frame => RecordedFrame.encode
  | .type => Ty.encode
  | .signature => Signature.encode
  | .value => Value.encode
  | .const => Constant.encode
  | .object => Object.encode
  | .decl => Decl.encode
  | .span => Span.encode
  | .event => Event.encode
  | .instruction => Instruction.encode
  | .config => Config.encode

/-- Reads a document from its text. -/
def read? (kind : DocumentKind) (text : String) : Option kind.Content :=
  (Json.read? text).bind kind.decode?

/-- Writes a document. -/
def write (kind : DocumentKind) (content : kind.Content) : String := (kind.encode content).render

/-- All function bodies in the content can be held by a document. -/
def Sound : (kind : DocumentKind) → kind.Content → Prop
  | .unit => SourceUnit.Sound
  | .decl => Decl.Sound
  | _ => fun _ => True

variable {kind : DocumentKind} {content : kind.Content}

theorem sound_of_decode? {j : Json} (h : kind.decode? j = some content) (hj : j.Every InRange) :
    kind.Sound content := by
  cases kind with
  | unit => exact SourceUnit.sound_of_decode? h hj
  | decl => exact Decl.sound_of_decode? h hj
  | _ => exact trivial

theorem held_encode (h : kind.Sound content) : (kind.encode content).Every Held := by
  cases kind with
  | unit => exact SourceUnit.held_encode h
  | trace => exact Trace.held_encode content
  | frame => exact RecordedFrame.held_encode content
  | type => exact Ty.held_encode content
  | signature => exact Signature.held_encode content
  | value => exact Value.held_encode content
  | const => exact Constant.held_encode content
  | object => exact Object.held_encode content
  | decl => exact Decl.held_encode h
  | span => exact Span.held_encode content
  | event => exact Event.held_encode content
  | instruction => exact Instruction.held_encode content
  | config => exact Config.held_encode content

theorem decode?_encode (h : kind.Sound content) :
    kind.decode? (kind.encode content) = some content := by
  cases kind with
  | unit => exact SourceUnit.decode?_encode h
  | trace => exact Trace.decode?_encode content
  | frame => exact RecordedFrame.decode?_encode content
  | type => exact Ty.decode?_encode content .direct
  | signature => exact Signature.decode?_encode content .direct
  | value => exact Value.decode?_encode content .direct
  | const => exact Constant.decode?_encode content
  | object => exact Object.decode?_encode content
  | decl => exact Decl.decode?_encode h
  | span => exact Span.decode?_encode content
  | event => exact Event.decode?_encode content
  | instruction => exact Instruction.decode?_encode content
  | config => exact Config.decode?_encode content

/-- Whatever is read from a text, of any kind, is read again from what is written for it, if there
is no floating-point number in it and what is written stays within the limit of levels. -/
theorem roundtrip {text : String} (h : kind.read? text = some content)
    (hfloat : (kind.encode content).floatFree = true)
    (hdepth : (kind.encode content).depth ≤ maxDepth) :
    kind.read? (kind.write content) = some content := by
  obtain ⟨j, hread, hdecode⟩ := Option.bind_eq_some_iff.1 h
  have hsound := sound_of_decode? hdecode (inRange_of_read? hread)
  have hexact := every_exact (held_encode hsound) hfloat
  rw [read?, write, read?_render hexact hdepth, Option.bind_some, decode?_encode hsound]

/-- The declaration of a function in short: records are given as arrays of their first fields, and
the body has its keys out of order and one of them twice. -/
def shortDecl : Json :=
  .arr [.str "func", .arr [.str "f"], .null, .arr [], .int 7,
    .obj [("b", .arr [.bool true, .null]), ("a", .str "x"), ("b", .int (-2))]]

/-- The same as text. -/
def shortText : String :=
  "[\"func\",[\"f\"],null,[],7,\x7b\"b\":[true,null],\"a\":\"x\",\"b\":-2\x7d]"

/-- What it declares. -/
def declared : DocumentKind.decl.Content :=
  Decl.func { name := ⟨"f", none, none⟩, recv := none, params := [], scope := some ⟨7⟩,
              body := some (.obj [("a", .str "x"), ("b", .int (-2))]), span := {} }

theorem roundtrip_shortText :
    DocumentKind.decl.read? shortText = some declared ∧
      DocumentKind.decl.read? (DocumentKind.decl.write declared) = some declared := by
  have hexact : shortDecl.Every Exact := by
    simp [shortDecl, Every, EveryItem, EveryEntry, Exact, Held, InRange]
  have h : DocumentKind.decl.read? shortDecl.render = some declared := by
    rw [read?, read?_render hexact (by decide), Option.bind_some]
    rfl
  have htext : shortDecl.render = shortText := by decide +kernel
  rw [htext] at h
  exact ⟨h, roundtrip h (by decide) (by decide)⟩

end DocumentKind

end TraceDebugger
