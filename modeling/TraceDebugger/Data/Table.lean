/-!
# Tables

A table is a finite map kept as a list of entries in strictly increasing key order. The order is
part of the type, so a table has one representation only: two tables that answer every look-up in
the same way are equal (`Table.ext_find?`), and its listing is the one a reader expects to see.

The main statements are the look-up laws of `insert`: `find?_insert` for all keys, and
`find?_insert_self` and `find?_insert_of_ne` for the two cases.
-/

namespace TraceDebugger

/-- A finite map from `α` to `β`, listed in increasing key order. -/
structure Table (α : Type) (β : Type) [Ord α] where
  /-- The entries, smallest key first. -/
  entries : List (α × β)
  /-- Every key is smaller than the keys after it. -/
  sorted : entries.Pairwise fun a b => compare a.1 b.1 = .lt

namespace Table

variable {α : Type} {β : Type} {γ : Type} [Ord α]

/-- The table without entries. -/
def empty : Table α β := ⟨[], .nil⟩

instance : Inhabited (Table α β) := ⟨empty⟩

/-- The value that a list of entries gives to `key`. -/
def findIn? (key : α) : List (α × β) → Option β
  | [] => none
  | (k, v) :: rest => if compare key k = .eq then some v else findIn? key rest

/-- The value stored under `key`. -/
def find? (t : Table α β) (key : α) : Option β := findIn? key t.entries

/-- Whether `key` has a value. -/
def contains (t : Table α β) (key : α) : Bool := (t.find? key).isSome

/-- The number of keys. -/
def size (t : Table α β) : Nat := t.entries.length

/-- The keys in increasing order. -/
def keys (t : Table α β) : List α := t.entries.map (·.1)

/-- The values in the order of their keys. -/
def values (t : Table α β) : List β := t.entries.map (·.2)

/-- Puts an entry at its place in a sorted list, in place of an entry of equal key. -/
def insertEntry (key : α) (value : β) : List (α × β) → List (α × β)
  | [] => [(key, value)]
  | (k, v) :: rest =>
    match compare key k with
    | .lt => (key, value) :: (k, v) :: rest
    | .eq => (key, value) :: rest
    | .gt => (k, v) :: insertEntry key value rest

theorem mem_insertEntry {key : α} {value : β} {a : α × β} {l : List (α × β)}
    (h : a ∈ insertEntry key value l) : a = (key, value) ∨ a ∈ l := by
  induction l with
  | nil => simpa [insertEntry] using h
  | cons hd tl ih =>
    obtain ⟨k, v⟩ := hd
    simp only [insertEntry] at h
    split at h <;> simp only [List.mem_cons] at h ⊢
    · exact h
    · exact h.elim .inl fun h => .inr (.inr h)
    · exact h.elim (fun h => .inr (.inl h)) fun h => (ih h).elim .inl fun h => .inr (.inr h)

section Lawful

variable [Std.TransOrd α] [Std.LawfulEqOrd α]

theorem insertEntry_pairwise {key : α} {value : β} {l : List (α × β)}
    (h : l.Pairwise fun a b => compare a.1 b.1 = .lt) :
    (insertEntry key value l).Pairwise fun a b => compare a.1 b.1 = .lt := by
  induction l with
  | nil => simp [insertEntry]
  | cons hd tl ih =>
    obtain ⟨k, v⟩ := hd
    obtain ⟨hhd, htl⟩ := List.pairwise_cons.1 h
    simp only [insertEntry]
    split
    · next hlt =>
      refine List.pairwise_cons.2 ⟨fun a ha => ?_, h⟩
      rcases List.mem_cons.1 ha with rfl | ha
      · exact hlt
      · exact Std.TransCmp.lt_trans hlt (hhd a ha)
    · next heq =>
      obtain rfl := Std.LawfulEqOrd.eq_of_compare heq
      exact List.pairwise_cons.2 ⟨hhd, htl⟩
    · next hgt =>
      refine List.pairwise_cons.2 ⟨fun a ha => ?_, ih htl⟩
      rcases mem_insertEntry ha with rfl | ha
      · exact Std.OrientedCmp.lt_of_gt hgt
      · exact hhd a ha

/-- Gives `key` the value `value`, whether or not it had one. -/
def insert (t : Table α β) (key : α) (value : β) : Table α β :=
  ⟨insertEntry key value t.entries, insertEntry_pairwise t.sorted⟩

/-- The table of a list of entries; the last entry of a key counts. -/
def ofList (l : List (α × β)) : Table α β :=
  l.foldl (fun t e => t.insert e.1 e.2) empty

omit [Std.TransOrd α] in
theorem findIn?_insertEntry (key key' : α) (value : β) (l : List (α × β)) :
    findIn? key' (insertEntry key value l) =
      if compare key' key = .eq then some value else findIn? key' l := by
  induction l with
  | nil => simp [insertEntry, findIn?]
  | cons hd tl ih =>
    obtain ⟨k, v⟩ := hd
    simp only [insertEntry]
    split
    · simp [findIn?]
    · next heq =>
      obtain rfl := Std.LawfulEqOrd.eq_of_compare heq
      by_cases h : compare key' key = .eq <;> simp [findIn?, h]
    · next hgt =>
      simp only [findIn?, ih]
      by_cases h : compare key' k = .eq
      · obtain rfl := Std.LawfulEqOrd.eq_of_compare h
        have : compare key' key ≠ .eq := fun h' => by
          rw [Std.LawfulEqOrd.eq_of_compare h'] at hgt
          simp at hgt
        simp [this]
      · simp [h]

omit [Std.TransOrd α] [Std.LawfulEqOrd α] in
@[simp] theorem find?_empty (key : α) : (empty : Table α β).find? key = none := rfl

theorem find?_insert (t : Table α β) (key key' : α) (value : β) :
    (t.insert key value).find? key' =
      if compare key' key = .eq then some value else t.find? key' :=
  findIn?_insertEntry key key' value t.entries

@[simp] theorem find?_insert_self (t : Table α β) (key : α) (value : β) :
    (t.insert key value).find? key = some value := by
  simp [find?_insert]

theorem find?_insert_of_ne (t : Table α β) {key key' : α} (value : β) (h : key' ≠ key) :
    (t.insert key value).find? key' = t.find? key' := by
  have : compare key' key ≠ .eq := fun h' => h (Std.LawfulEqOrd.eq_of_compare h')
  simp [find?_insert, this]

omit [Std.TransOrd α] in
theorem findIn?_eq_some_iff {l : List (α × β)} {key : α} {value : β}
    (h : l.Pairwise fun a b => compare a.1 b.1 = .lt) :
    findIn? key l = some value ↔ (key, value) ∈ l := by
  induction l with
  | nil => simp [findIn?]
  | cons hd tl ih =>
    obtain ⟨k, v⟩ := hd
    obtain ⟨hhd, htl⟩ := List.pairwise_cons.1 h
    simp only [findIn?, List.mem_cons, Prod.mk.injEq]
    by_cases hk : compare key k = .eq
    · obtain rfl := Std.LawfulEqOrd.eq_of_compare hk
      simp only [Std.ReflCmp.compare_self, if_true, Option.some.injEq, true_and]
      refine ⟨fun h => .inl h.symm, fun h => h.elim Eq.symm fun h => ?_⟩
      have := hhd _ h
      simp at this
    · have hne : key ≠ k := fun h => hk (by simp [h])
      simp [hk, hne, ih htl]

omit [Std.TransOrd α] in
/-- A table lists exactly what it answers. -/
theorem find?_eq_some_iff (t : Table α β) {key : α} {value : β} :
    t.find? key = some value ↔ (key, value) ∈ t.entries :=
  findIn?_eq_some_iff t.sorted

theorem entries_eq_of_mem_iff {l l' : List (α × β)}
    (h : l.Pairwise fun a b => compare a.1 b.1 = .lt)
    (h' : l'.Pairwise fun a b => compare a.1 b.1 = .lt) (hmem : ∀ a, a ∈ l ↔ a ∈ l') : l = l' := by
  have irrefl : ∀ a : α × β, compare a.1 a.1 ≠ .lt := fun a => by simp
  have asymm : ∀ a b : α × β, compare a.1 b.1 = .lt → compare b.1 a.1 ≠ .lt := fun a b hab hba =>
    irrefl a (Std.TransCmp.lt_trans hab hba)
  induction l generalizing l' with
  | nil =>
    cases l' with
    | nil => rfl
    | cons a t => exact absurd ((hmem a).2 List.mem_cons_self) (by simp)
  | cons a t ih =>
    cases l' with
    | nil => exact absurd ((hmem a).1 List.mem_cons_self) (by simp)
    | cons b t' =>
      obtain ⟨ha, ht⟩ := List.pairwise_cons.1 h
      obtain ⟨hb, ht'⟩ := List.pairwise_cons.1 h'
      have hab : a = b := by
        rcases List.mem_cons.1 ((hmem a).1 List.mem_cons_self) with hab | hab
        · exact hab
        · rcases List.mem_cons.1 ((hmem b).2 List.mem_cons_self) with hba | hba
          · exact hba.symm
          · exact absurd (hb a hab) (asymm _ _ (ha b hba))
      subst hab
      refine congrArg (a :: ·) (ih ht ht' fun c => ?_)
      constructor
      · intro hc
        rcases List.mem_cons.1 ((hmem c).1 (List.mem_cons_of_mem _ hc)) with rfl | hc'
        · exact absurd (ha c hc) (irrefl c)
        · exact hc'
      · intro hc
        rcases List.mem_cons.1 ((hmem c).2 (List.mem_cons_of_mem _ hc)) with rfl | hc'
        · exact absurd (hb c hc) (irrefl c)
        · exact hc'

/-- Tables that answer every look-up in the same way are equal. -/
theorem ext_find? {t t' : Table α β} (h : ∀ key, t.find? key = t'.find? key) : t = t' := by
  have : t.entries = t'.entries := entries_eq_of_mem_iff t.sorted t'.sorted fun ⟨k, v⟩ => by
    rw [← find?_eq_some_iff, ← find?_eq_some_iff, h]
  cases t
  cases t'
  simpa using this

end Lawful

end Table

end TraceDebugger
