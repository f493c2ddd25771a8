import Mathlib.Data.List.Nodup
import TraceDebugger.Json.Decode
import TraceDebugger.Proofs.JsonParts

/-!
# Decoding what was encoded

What the building blocks of the decoders answer for the values that the encoders write: a record
with all its fields in order (`Json.record?_bind`), a record behind a tag (`Json.tagged?_obj`), a
list, a table, a value that may be missing. Each of them asks of its parts only that these are
decoded from their own encoding.
-/

namespace TraceDebugger

namespace Json

variable {α β : Type} {decode : Json → Option α} {encode : α → Json}

/-! ## Parts that can be written -/

@[simp] theorem held_null : null.Every Held := ⟨trivial, nofun⟩

@[simp] theorem held_bool (b : Bool) : (bool b).Every Held := ⟨trivial, nofun⟩

@[simp] theorem held_str (s : String) : (str s).Every Held := ⟨trivial, nofun⟩

@[simp] theorem held_float (x : Binary64) : (float x).Every Held := ⟨trivial, nofun⟩

theorem held_int {n : Int} (hlow : -9223372036854775808 ≤ n) (hhigh : n ≤ 18446744073709551615) :
    (int n).Every Held :=
  ⟨⟨hlow, hhigh⟩, nofun⟩

@[simp] theorem held_uint32 (n : UInt32) : (int n.toNat).Every Held := by
  have hlt := n.toNat_lt
  exact held_int (by omega) (by omega)

@[simp] theorem held_uint64 (n : UInt64) : (int n.toNat).Every Held := by
  have hlt := n.toNat_lt
  exact held_int (by omega) (by omega)

@[simp] theorem held_int64 (n : Int64) : (int n.toInt).Every Held := by
  have hlow := n.le_toInt
  have hhigh := n.toInt_lt
  exact held_int (by omega) (by omega)

@[simp] theorem held_elim {o : Option α} (h : ∀ a ∈ o, (encode a).Every Held) :
    (o.elim .null encode).Every Held := by
  cases o with
  | none => exact held_null
  | some a => exact h a rfl

theorem held_table {t : Table String α} (h : ∀ e ∈ t.entries, (encode e.2).Every Held) :
    (obj (t.entries.map fun e => (e.1, encode e.2))).Every Held := by
  rw [every_obj]
  intro e he
  obtain ⟨e', he', rfl⟩ := List.mem_map.1 he
  exact h e' he'

/-! ## Single values -/

@[simp] theorem string?_str (s : String) : string? (.str s) = some s := rfl

@[simp] theorem bool?_bool (b : Bool) : bool? (.bool b) = some b := rfl

@[simp] theorem uint32?_toNat (n : UInt32) : uint32? (.int n.toNat) = some n := by
  have hlt := n.toNat_lt
  simp [uint32?]
  omega

@[simp] theorem uint64?_toNat (n : UInt64) : uint64? (.int n.toNat) = some n := by
  have hlt := n.toNat_lt
  simp [uint64?]
  omega

@[simp] theorem int64?_toInt (n : Int64) : int64? (.int n.toInt) = some n := by
  have hlow := n.le_toInt
  have hhigh := n.toInt_lt
  simp [int64?]
  omega

/-- An alternative is decoded from its name, if it is listed and all names are different. -/
theorem choice?_name {all : List α} {name : α → String} {a : α} {reading : Reading} (ha : a ∈ all)
    (hnodup : (all.map name).Nodup) :
    ((str (name a)).choice? reading (all.map name)).bind (fun s => all.find? fun b => name b = s) =
      some a := by
  have hmem : name a ∈ all.map name := List.mem_map_of_mem ha
  have hfind : (all.find? fun b => name b = name a) = some a := by
    cases h : all.find? fun b => name b = name a with
    | none =>
      have hne := List.find?_eq_none.1 h a ha
      simp at hne
    | some b =>
      have hb := List.find?_some h
      have heq := List.inj_on_of_nodup_map hnodup (List.mem_of_find?_eq_some h) ha
        (of_decide_eq_true hb)
      rw [heq]
  rw [choice?, if_pos hmem, Option.bind_some, hfind]

theorem optional?_of_ne_null {j : Json} (h : j ≠ .null) :
    optional? decode j = (decode j).map some := by
  cases j with
  | null => exact absurd rfl h
  | _ => rfl

@[simp] theorem optional?_elim {o : Option α} (hne : ∀ a ∈ o, encode a ≠ .null)
    (h : ∀ a ∈ o, decode (encode a) = some a) :
    optional? decode (o.elim .null encode) = some o := by
  cases o with
  | none => rfl
  | some a => rw [Option.elim_some, optional?_of_ne_null (hne a rfl), h a rfl, Option.map_some]

theorem mapM_eq_some {γ : Type} {f : γ → Option α} {g : α → γ} {as : List α}
    (h : ∀ a ∈ as, f (g a) = some a) : (as.map g).mapM f = some as := by
  induction as with
  | nil => rfl
  | cons a as ih =>
    rw [List.map_cons, List.mapM_cons, h a List.mem_cons_self,
      ih fun a ha => h a (List.mem_cons_of_mem _ ha)]
    rfl

@[simp] theorem list?_map {as : List α} (h : ∀ a ∈ as, decode (encode a) = some a) :
    list? decode (.arr (as.map encode)) = some as :=
  mapM_eq_some h

@[simp] theorem table?_map {t : Table String α}
    (h : ∀ e ∈ t.entries, decode (encode e.2) = some e.2) :
    table? decode (.obj (t.entries.map fun e => (e.1, encode e.2))) = some t := by
  have hentries := mapM_eq_some (f := fun e => (decode e.2).map (e.1, ·))
    (g := fun e : String × α => (e.1, encode e.2)) fun e he => by rw [h e he]; rfl
  rw [table?, hentries, Option.map_some, Table.ofList_entries]

/-! ## Records -/

/-- A record with all its fields in order is taken as it stands. -/
theorem record?_obj {names : List String} {entries : List (String × Json)}
    (h : entries.map (·.1) = names) (hnodup : names.Nodup) :
    record? names (.obj entries) = some entries := by
  have hall : (entries.filter fun e => names.contains e.1) = entries := by
    refine List.filter_eq_self.2 fun e he => ?_
    rw [List.contains_iff_mem, ← h]
    exact List.mem_map_of_mem he
  simp only [record?]
  rw [hall, h, if_pos hnodup]

/-- The same in front of what is done with the fields. The record is put in by rewriting, as nothing
of the fields can be computed while their contents are open. -/
theorem record?_bind {names : List String} {entries : List (String × Json)} {f : Fields → Option β}
    (h : entries.map (·.1) = names) (hnodup : names.Nodup) :
    (record? names (.obj entries) >>= f) = f entries := by
  rw [record?_obj h hnodup, Option.bind_eq_bind, Option.bind_some]

/-- A record behind a tag is set aside, and the tag names its alternative. -/
theorem tagged?_obj {reading : Reading} {tag t : String} {names : List String}
    {entries : List (String × Json)} (ht : t ∈ names) (htag : tag ∉ entries.map (·.1))
    (hheld : (obj ((tag, .str t) :: entries)).Every Held) :
    tagged? reading tag names (.obj ((tag, .str t) :: entries)) = some (t, .obj entries) := by
  have hrest : (entries.filter fun e => e.1 = tag) = [] := by
    refine List.filter_eq_nil_iff.2 fun e he heq => htag ?_
    rw [← of_decide_eq_true heq]
    exact List.mem_map_of_mem he
  have hall : (entries.filter fun e => e.1 ≠ tag) = entries := by
    refine List.filter_eq_self.2 fun e he => decide_eq_true ?_
    rintro rfl
    exact htag (List.mem_map_of_mem he)
  have huntag : untag? tag (.obj ((tag, .str t) :: entries)) = some (.str t, .obj entries) := by
    simp [untag?, hrest]
    simpa using hall
  have husable : (obj entries).usable = true :=
    usable_of_every (every_obj.2 (List.forall_mem_cons.1 (every_obj.1 hheld)).2)
  simp [tagged?, huntag, husable, alternative?, ht]

/-! ## Where decoded values come from -/

theorem every_record? {p : Json → Prop} {names : List String} {j : Json} {fields : Fields}
    (h : record? names j = some fields) (hj : j.Every p) : ∀ e ∈ fields, e.2.Every p := by
  cases j with
  | arr items =>
    simp only [record?] at h
    split at h
    · cases h
      rw [every_arr] at hj
      exact fun e he => hj e.2 (List.of_mem_zip he).2
    · cases h
  | obj entries =>
    simp only [record?] at h
    split at h
    · cases h
      rw [every_obj] at hj
      exact fun e he => hj e (List.mem_filter.1 he).1
    · cases h
  | _ => cases h

theorem every_list? {p : Json → Prop} {j : Json} {as : List α} (h : list? decode j = some as)
    (hj : j.Every p) : ∀ a ∈ as, ∃ i : Json, i.Every p ∧ decode i = some a := by
  cases j with
  | arr items =>
    rw [every_arr] at hj
    change items.mapM decode = some as at h
    induction items generalizing as with
    | nil =>
      cases h
      exact nofun
    | cons i items ih =>
      obtain ⟨hi, hitems⟩ := List.forall_mem_cons.1 hj
      rw [List.mapM_cons] at h
      obtain ⟨a, ha, h⟩ := Option.bind_eq_some_iff.1 h
      obtain ⟨rest, hrest, h⟩ := Option.bind_eq_some_iff.1 h
      cases h
      exact List.forall_mem_cons.2 ⟨⟨i, hi, ha⟩, ih hitems hrest⟩
  | _ => cases h

/-- What is set aside at a tag can be held. -/
theorem held_tagged? {tag t : String} {names : List String} {j rest : Json}
    (h : tagged? .direct tag names j = some (t, rest)) (hj : j.Every InRange) :
    rest.Every Held := by
  obtain ⟨⟨tagged, rest'⟩, huntag, h⟩ := Option.bind_eq_some_iff.1 h
  simp only [reduceCtorEq, false_or] at h
  split at h
  · rename_i husable
    obtain ⟨t', -, h⟩ := Option.bind_eq_some_iff.1 h
    cases h
    refine every_held ?_ husable
    unfold untag? at huntag
    split at huntag
    · cases huntag
      exact every_arr.2 (List.forall_mem_cons.1 (every_arr.1 hj)).2
    · split at huntag
      · cases huntag
        rw [every_obj] at hj ⊢
        exact fun e he => hj e (List.mem_filter.1 he).1
      · cases huntag
    · cases huntag
  · cases h

end Json

/-! ## Fields -/

namespace Fields

variable {α : Type} {decode : Json → Option α} {name k : String} {j : Json} {rest : Fields}
  {default : α}

theorem get?_cons_self : get? ((name, j) :: rest) name = some j := by
  simp [get?]

theorem get?_cons_of_ne (h : k ≠ name) : get? ((k, j) :: rest) name = get? rest name := by
  simp [get?, h]

@[simp] theorem required_cons_self : required ((name, j) :: rest) name decode = decode j := by
  rw [required, get?_cons_self, Option.bind_some]

@[simp] theorem required_cons_of_ne (h : k ≠ name) :
    required ((k, j) :: rest) name decode = required rest name decode := by
  rw [required, required, get?_cons_of_ne h]

@[simp] theorem withDefault_cons_self :
    withDefault ((name, j) :: rest) name default decode = decode j := by
  rw [withDefault, get?_cons_self]

@[simp] theorem withDefault_cons_of_ne (h : k ≠ name) :
    withDefault ((k, j) :: rest) name default decode = withDefault rest name default decode := by
  rw [withDefault, withDefault, get?_cons_of_ne h]

@[simp] theorem optional_cons_self :
    optional ((name, j) :: rest) name decode = Json.optional? decode j :=
  withDefault_cons_self

@[simp] theorem optional_cons_of_ne (h : k ≠ name) :
    optional ((k, j) :: rest) name decode = optional rest name decode :=
  withDefault_cons_of_ne h

/-- A field that is given was decoded from one of the fields. -/
theorem mem_of_get? (h : get? rest name = some j) : ∃ e ∈ rest, e.2 = j := by
  obtain ⟨e, he, hj⟩ := Option.map_eq_some_iff.1 h
  exact ⟨e, List.mem_of_find?_eq_some he, hj⟩

theorem mem_of_withDefault {a : α} (h : withDefault rest name default decode = some a) :
    a = default ∨ ∃ e ∈ rest, decode e.2 = some a := by
  unfold withDefault at h
  split at h
  · cases h
    exact .inl rfl
  · rename_i j hj
    obtain ⟨e, he, rfl⟩ := mem_of_get? hj
    exact .inr ⟨e, he, h⟩

end Fields

end TraceDebugger
