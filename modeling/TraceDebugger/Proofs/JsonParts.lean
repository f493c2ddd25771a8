import TraceDebugger.Json.Basic
import TraceDebugger.Proofs.Tables

/-!
# The parts of a value

Properties that all parts of a value have (`Json.Every`): what a text can write, and what is read
from its text without loss. A value within the limit of levels loses nothing to it
(`Json.limited_of_depth_le`), and a value in canonical form is its own canonical form
(`Json.canonical_canonical`).
-/

namespace TraceDebugger.Json

/-! ## Values by their nesting -/

/-- Induction over values, with one case for each kind of value. -/
theorem nested {P : Json → Prop} (null : P .null) (bool : ∀ b, P (.bool b)) (int : ∀ n, P (.int n))
    (float : ∀ x, P (.float x)) (str : ∀ s, P (.str s)) (unusable : P .unusable)
    (arr : ∀ items, (∀ j ∈ items, P j) → P (.arr items))
    (obj : ∀ entries, (∀ e ∈ entries, P e.2) → P (.obj entries)) : ∀ j, P j
  | .null => null
  | .bool b => bool b
  | .int n => int n
  | .float x => float x
  | .str s => str s
  | .unusable => unusable
  | .arr items => arr items fun j _ => nested null bool int float str unusable arr obj j
  | .obj entries => obj entries fun e _ => nested null bool int float str unusable arr obj e.2
termination_by j => sizeOf j
decreasing_by
  · have hlt := List.sizeOf_lt_of_mem ‹j ∈ items›
    simp only [Json.arr.sizeOf_spec]
    omega
  · have hlt := List.sizeOf_lt_of_mem ‹e ∈ entries›
    obtain ⟨k, j⟩ := e
    simp only [Json.obj.sizeOf_spec, Prod.mk.sizeOf_spec] at hlt ⊢
    omega

mutual

/-- All parts of a value that are no arrays or objects are as `p` says. -/
def Every (p : Json → Prop) : Json → Prop
  | .arr items => EveryItem p items
  | .obj entries => EveryEntry p entries
  | j => p j

/-- The same for the items of an array. -/
def EveryItem (p : Json → Prop) : List Json → Prop
  | [] => True
  | j :: rest => j.Every p ∧ EveryItem p rest

/-- The same for the entries of an object. -/
def EveryEntry (p : Json → Prop) : List (String × Json) → Prop
  | [] => True
  | (_, j) :: rest => j.Every p ∧ EveryEntry p rest

end

section Every

variable {p q : Json → Prop} {items : List Json} {entries : List (String × Json)} {j : Json}

@[simp] theorem every_arr : (arr items).Every p ↔ ∀ j ∈ items, j.Every p := by
  change EveryItem p items ↔ _
  induction items with
  | nil => simp [EveryItem]
  | cons j rest ih => simp [EveryItem, ih]

@[simp] theorem every_obj : (obj entries).Every p ↔ ∀ e ∈ entries, e.2.Every p := by
  change EveryEntry p entries ↔ _
  induction entries with
  | nil => simp [EveryEntry]
  | cons e rest ih =>
    obtain ⟨k, j⟩ := e
    simp [EveryEntry, ih]

theorem Every.mp (h : ∀ j, p j → q j) (hj : j.Every p) : j.Every q := by
  induction j using nested with
  | arr items ih =>
    rw [every_arr] at hj ⊢
    exact fun j hmem => ih j hmem (hj j hmem)
  | obj entries ih =>
    rw [every_obj] at hj ⊢
    exact fun e hmem => ih e hmem (hj e hmem)
  | _ => exact h _ hj

theorem Every.and (hp : j.Every p) (hq : j.Every q) : j.Every fun j => p j ∧ q j := by
  induction j using nested with
  | arr items ih =>
    rw [every_arr] at hp hq ⊢
    exact fun j hmem => ih j hmem (hp j hmem) (hq j hmem)
  | obj entries ih =>
    rw [every_obj] at hp hq ⊢
    exact fun e hmem => ih e hmem (hp e hmem) (hq e hmem)
  | _ => exact ⟨hp, hq⟩

end Every

/-! ## What a text can write -/

/-- A whole number is one that a text can write. -/
def InRange : Json → Prop
  | .int n => -9223372036854775808 ≤ n ∧ n ≤ 18446744073709551615
  | _ => True

/-- A part of a document: in range and usable. -/
def Held (j : Json) : Prop := j.InRange ∧ j ≠ .unusable

/-- A part that is read back from its text as it was: no floating-point number. -/
def Exact (j : Json) : Prop := j.Held ∧ ∀ x, j ≠ .float x

theorem not_exact_float (x : Binary64) : ¬ (float x).Every Exact := fun h => h.2 x rfl

theorem not_exact_unusable : ¬ unusable.Every Exact := fun h => h.1.2 rfl

theorem usableItems_iff {items : List Json} :
    usableItems items = true ↔ ∀ j ∈ items, j.usable = true := by
  induction items with
  | nil => simp [usableItems]
  | cons j items ih => simp [usableItems, ih]

theorem usableEntries_iff {entries : List (String × Json)} :
    usableEntries entries = true ↔ ∀ e ∈ entries, e.2.usable = true := by
  induction entries with
  | nil => simp [usableEntries]
  | cons e entries ih =>
    obtain ⟨k, j⟩ := e
    simp [usableEntries, ih]

theorem usable_iff {j : Json} : j.usable = true ↔ j.Every (· ≠ .unusable) := by
  induction j using nested with
  | arr items ih =>
    rw [usable, usableItems_iff, every_arr]
    exact forall₂_congr ih
  | obj entries ih =>
    rw [usable, usableEntries_iff, every_obj]
    exact forall₂_congr ih
  | _ => simp [usable, Every]

theorem floatFreeItems_iff {items : List Json} :
    floatFreeItems items = true ↔ ∀ j ∈ items, j.floatFree = true := by
  induction items with
  | nil => simp [floatFreeItems]
  | cons j items ih => simp [floatFreeItems, ih]

theorem floatFreeEntries_iff {entries : List (String × Json)} :
    floatFreeEntries entries = true ↔ ∀ e ∈ entries, e.2.floatFree = true := by
  induction entries with
  | nil => simp [floatFreeEntries]
  | cons e entries ih =>
    obtain ⟨k, j⟩ := e
    simp [floatFreeEntries, ih]

theorem floatFree_iff {j : Json} : j.floatFree = true ↔ j.Every fun j => ∀ x, j ≠ .float x := by
  induction j using nested with
  | arr items ih =>
    rw [floatFree, floatFreeItems_iff, every_arr]
    exact forall₂_congr ih
  | obj entries ih =>
    rw [floatFree, floatFreeEntries_iff, every_obj]
    exact forall₂_congr ih
  | _ => simp [floatFree, Every]

theorem usable_of_every {j : Json} (h : j.Every Held) : j.usable = true :=
  usable_iff.2 (h.mp fun _ hj => hj.2)

theorem every_held {j : Json} (hrange : j.Every InRange) (husable : j.usable = true) :
    j.Every Held :=
  hrange.and (usable_iff.1 husable)

theorem every_exact {j : Json} (h : j.Every Held) (hfloat : j.floatFree = true) : j.Every Exact :=
  h.and (floatFree_iff.1 hfloat)

/-! ## Depth -/

theorem depth_le_of_mem_items {items : List Json} {j : Json} (h : j ∈ items) :
    j.depth ≤ depthItems items := by
  induction items with
  | nil => cases h
  | cons i items ih =>
    rw [depthItems]
    rcases List.mem_cons.1 h with rfl | h
    · omega
    · have hle := ih h
      omega

theorem depth_le_of_mem_entries {entries : List (String × Json)} {e : String × Json}
    (h : e ∈ entries) : e.2.depth ≤ depthEntries entries := by
  induction entries with
  | nil => cases h
  | cons i entries ih =>
    rw [depthEntries]
    rcases List.mem_cons.1 h with rfl | h
    · omega
    · have hle := ih h
      omega

theorem limitedItems_eq (levels : Nat) (items : List Json) :
    limitedItems levels items = items.map (limited levels) := by
  induction items with
  | nil => rfl
  | cons j items ih => rw [limitedItems, ih, List.map_cons]

theorem limitedEntries_eq (levels : Nat) (entries : List (String × Json)) :
    limitedEntries levels entries = entries.map fun e => (e.1, e.2.limited levels) := by
  induction entries with
  | nil => rfl
  | cons e entries ih =>
    obtain ⟨k, j⟩ := e
    rw [limitedEntries, ih, List.map_cons]

/-- A value within the levels loses nothing. -/
theorem limited_of_depth_le {j : Json} : ∀ {levels : Nat}, j.depth ≤ levels → j.limited levels = j := by
  induction j using nested with
  | arr items ih =>
    intro levels h
    rw [depth] at h
    have hitems : items.map (limited (levels - 1)) = items.map id := by
      refine List.map_congr_left fun j hj => ih j hj ?_
      have hle := depth_le_of_mem_items hj
      omega
    rw [limited, if_neg (by omega), limitedItems_eq, hitems, List.map_id]
  | obj entries ih =>
    intro levels h
    rw [depth] at h
    have hentries : entries.map (fun e => (e.1, e.2.limited (levels - 1))) = entries.map id := by
      refine List.map_congr_left fun e he => ?_
      have hle := depth_le_of_mem_entries he
      rw [ih e he (by omega)]
      rfl
    rw [limited, if_neg (by omega), limitedEntries_eq, hentries, List.map_id]
  | _ => intro levels _; rfl

/-- The limit of levels takes parts away, and puts only unusable ones in their place. -/
theorem Every.limited {p : Json → Prop} (hunusable : p .unusable) {j : Json} (h : j.Every p) :
    ∀ levels, (j.limited levels).Every p := by
  induction j using nested with
  | arr items ih =>
    intro levels
    rw [every_arr] at h
    rw [Json.limited]
    split
    · exact hunusable
    · rw [limitedItems_eq, every_arr]
      intro j hj
      obtain ⟨i, hi, rfl⟩ := List.mem_map.1 hj
      exact ih i hi (h i hi) _
  | obj entries ih =>
    intro levels
    rw [every_obj] at h
    rw [Json.limited]
    split
    · exact hunusable
    · rw [limitedEntries_eq, every_obj]
      intro e he
      obtain ⟨i, hi, rfl⟩ := List.mem_map.1 he
      exact ih i hi (h i hi) _
  | _ => exact fun _ => h

/-! ## Canonical form -/

theorem canonicalItems_eq (items : List Json) : canonicalItems items = items.map canonical := by
  induction items with
  | nil => rfl
  | cons j items ih => rw [canonicalItems, ih, List.map_cons]

theorem canonicalEntries_eq (entries : List (String × Json)) :
    canonicalEntries entries = entries.map fun e => (e.1, e.2.canonical) := by
  induction entries with
  | nil => rfl
  | cons e entries ih =>
    obtain ⟨k, j⟩ := e
    rw [canonicalEntries, ih, List.map_cons]

theorem Every.canonical {p : Json → Prop} {j : Json} (h : j.Every p) : j.canonical.Every p := by
  induction j using nested with
  | arr items ih =>
    rw [every_arr] at h
    rw [Json.canonical, canonicalItems_eq, every_arr]
    intro j hj
    obtain ⟨i, hi, rfl⟩ := List.mem_map.1 hj
    exact ih i hi (h i hi)
  | obj entries ih =>
    rw [every_obj] at h
    rw [Json.canonical, canonicalEntries_eq, every_obj]
    intro e he
    obtain ⟨i, hi, rfl⟩ := List.mem_map.1 (Table.mem_of_mem_ofList he)
    exact ih i hi (h i hi)
  | _ => exact h

theorem canonical_ne_null {j : Json} (h : j ≠ .null) : j.canonical ≠ .null := by
  cases j with
  | null => exact absurd rfl h
  | _ => nofun

theorem canonical_canonical (j : Json) : j.canonical.canonical = j.canonical := by
  induction j using nested with
  | arr items ih =>
    rw [canonical, canonicalItems_eq, canonical, canonicalItems_eq, List.map_map]
    exact congrArg arr (List.map_congr_left ih)
  | obj entries ih =>
    rw [canonical, canonicalEntries_eq]
    generalize htable : Table.ofList (entries.map fun e => (e.1, e.2.canonical)) = t
    have hentries : t.entries.map (fun e => (e.1, e.2.canonical)) = t.entries.map id := by
      refine List.map_congr_left fun e he => ?_
      rw [← htable] at he
      obtain ⟨i, hi, rfl⟩ := List.mem_map.1 (Table.mem_of_mem_ofList he)
      exact congrArg (Prod.mk i.1) (ih i hi)
    rw [canonical, canonicalEntries_eq, hentries, List.map_id, Table.ofList_entries]
  | _ => rfl

end TraceDebugger.Json
