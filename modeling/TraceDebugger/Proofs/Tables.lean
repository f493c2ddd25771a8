import Mathlib.Data.List.Nodup
import TraceDebugger.Data.Table

/-!
# Tables made entry by entry

What a table answers after a list of entries has been put into it: the last entry of a key counts
(`Table.find?_foldl_insert`), and when no key comes twice the table answers exactly the entries
(`Table.find?_ofList`).
-/

namespace TraceDebugger.Table

variable {α β γ : Type} [Ord α]

theorem contains_eq_false_iff {t : Table α β} {key : α} :
    t.contains key = false ↔ t.find? key = none := by
  unfold contains
  simp

variable [Std.LawfulEqOrd α]

theorem nodup_keys (t : Table α β) : t.keys.Nodup := by
  refine List.pairwise_map.2 (t.sorted.imp ?_)
  rintro ⟨k, v⟩ ⟨k', v'⟩ hlt rfl
  simp at hlt

theorem mem_keys_iff {t : Table α β} {key : α} : key ∈ t.keys ↔ (t.find? key).isSome := by
  unfold keys
  rw [Option.isSome_iff_exists, List.mem_map]
  constructor
  · rintro ⟨⟨k, v⟩, hmem, rfl⟩
    exact ⟨v, t.find?_eq_some_iff.2 hmem⟩
  · rintro ⟨v, hv⟩
    exact ⟨(key, v), t.find?_eq_some_iff.1 hv, rfl⟩

variable [Std.TransOrd α]

/-- A new key makes a table longer by one. -/
theorem size_insert {t : Table α β} {key : α} (hnew : t.find? key = none) (value : β) :
    (t.insert key value).size = t.size + 1 := by
  have hlength : ∀ l : List (α × β), findIn? key l = none →
      (insertEntry key value l).length = l.length + 1 := by
    intro l hnone
    induction l with
    | nil => rfl
    | cons e rest ih =>
      obtain ⟨k, v⟩ := e
      unfold findIn? at hnone
      unfold insertEntry
      by_cases hkey : compare key k = .eq
      · rw [if_pos hkey] at hnone
        cases hnone
      · rw [if_neg hkey] at hnone
        split
        · rfl
        · exact absurd ‹_› hkey
        · exact congrArg Nat.succ (ih hnone)
  exact hlength t.entries hnew

variable [DecidableEq α]

theorem find?_insert_eq (t : Table α β) (key key' : α) (value : β) :
    (t.insert key value).find? key' = if key' = key then some value else t.find? key' := by
  by_cases h : key' = key
  · rw [if_pos h, h, find?_insert_self]
  · rw [if_neg h, find?_insert_of_ne t value h]

/-- After several entries the last one of a key counts. -/
theorem find?_foldl_insert (l : List γ) (k : γ → α) (v : γ → β) (t : Table α β) (key : α) :
    (l.foldl (fun t e => t.insert (k e) (v e)) t).find? key =
      ((l.reverse.find? fun e => k e = key).map v).or (t.find? key) := by
  induction l generalizing t with
  | nil => simp
  | cons e rest ih =>
    rw [List.foldl_cons, ih, List.reverse_cons, List.find?_append, find?_insert_eq]
    cases hrest : rest.reverse.find? fun e => k e = key with
    | some e' => simp
    | none =>
      by_cases h : k e = key
      · simp [h]
      · simp [h, Ne.symm h]

/-- What a table answers after several entries is one of them, or was there before. -/
theorem find?_foldl_insert_cases {l : List γ} {k : γ → α} {v : γ → β} {t : Table α β} {key : α}
    {value : β} (h : (l.foldl (fun t e => t.insert (k e) (v e)) t).find? key = some value) :
    (∃ e ∈ l, k e = key ∧ v e = value) ∨ t.find? key = some value := by
  rw [find?_foldl_insert] at h
  cases hfind : l.reverse.find? fun e => k e = key with
  | none =>
    rw [hfind] at h
    exact .inr h
  | some e =>
    rw [hfind] at h
    have hmem := List.mem_reverse.1 (List.mem_of_find?_eq_some hfind)
    have hkey := List.find?_some hfind
    exact .inl ⟨e, hmem, by simpa using hkey, by simpa using h⟩

/-- If entries of the same key have the same value, the table answers all of them, and what was
there before for the other keys. -/
theorem find?_foldl_insert_of_agree {l : List γ} {k : γ → α} {v : γ → β} {t : Table α β}
    (hagree : ∀ e ∈ l, ∀ e' ∈ l, k e = k e' → v e = v e') {key : α} {value : β} :
    (l.foldl (fun t e => t.insert (k e) (v e)) t).find? key = some value ↔
      (∃ e ∈ l, k e = key ∧ v e = value) ∨
        ((∀ e ∈ l, k e ≠ key) ∧ t.find? key = some value) := by
  rw [find?_foldl_insert]
  cases hfind : l.reverse.find? fun e => k e = key with
  | none =>
    have hnone : ∀ e ∈ l, k e ≠ key := fun e he => by
      simpa using List.find?_eq_none.1 hfind e (List.mem_reverse.2 he)
    constructor
    · intro h
      exact .inr ⟨hnone, h⟩
    · rintro (⟨e, he, hkey, -⟩ | ⟨-, h⟩)
      · exact absurd hkey (hnone e he)
      · exact h
  | some e' =>
    have hmem : e' ∈ l := List.mem_reverse.1 (List.mem_of_find?_eq_some hfind)
    have hkey : k e' = key := by simpa using List.find?_some hfind
    constructor
    · intro h
      exact .inl ⟨e', hmem, hkey, Option.some.inj h⟩
    · rintro (⟨e, he, hkey', rfl⟩ | ⟨hnone, -⟩)
      · exact congrArg some (hagree e' hmem e he (hkey.trans hkey'.symm))
      · exact absurd hkey (hnone e' hmem)

/-- A table made of entries without a repeated key answers exactly those entries. -/
theorem find?_foldl_insert_of_nodup {l : List γ} {k : γ → α} {v : γ → β}
    (hnodup : (l.map k).Nodup) {key : α} {value : β} :
    (l.foldl (fun t e => t.insert (k e) (v e)) (empty : Table α β)).find? key = some value ↔
      ∃ e ∈ l, k e = key ∧ v e = value := by
  have hagree : ∀ e ∈ l, ∀ e' ∈ l, k e = k e' → v e = v e' := fun e he e' he' hkey => by
    rw [List.inj_on_of_nodup_map hnodup he he' hkey]
  rw [find?_foldl_insert_of_agree hagree, find?_empty]
  simp

/-- A table made of a list without a repeated key answers exactly the entries of the list. -/
theorem find?_ofList {l : List (α × β)} (hnodup : (l.map (·.1)).Nodup) {key : α} {value : β} :
    (ofList l).find? key = some value ↔ (key, value) ∈ l := by
  refine (find?_foldl_insert_of_nodup (k := Prod.fst) (v := Prod.snd) hnodup).trans ?_
  constructor
  · rintro ⟨⟨k, v⟩, h, rfl, rfl⟩
    exact h
  · intro h
    exact ⟨_, h, rfl, rfl⟩

/-- A table is made again from what it lists. -/
theorem ofList_entries (t : Table α β) : ofList t.entries = t := by
  refine ext_find? fun key => Option.ext fun value => ?_
  rw [find?_ofList t.nodup_keys, find?_eq_some_iff]

theorem mem_of_mem_ofList {l : List (α × β)} {e : α × β} (h : e ∈ (ofList l).entries) : e ∈ l := by
  have hfind := (ofList l).find?_eq_some_iff.2 h
  rcases find?_foldl_insert_cases hfind with ⟨e', hmem, hkey, hvalue⟩ | hnone
  · obtain ⟨k, v⟩ := e
    obtain ⟨k', v'⟩ := e'
    subst hkey hvalue
    exact hmem
  · cases hnone

end TraceDebugger.Table
