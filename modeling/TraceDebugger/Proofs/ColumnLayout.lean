import Mathlib.Algebra.Order.Floor.Div
import TraceDebugger.Text.Columns

/-!
# Columns are read back

A layout in columns loses nothing: when its lines are cut into cells of the width of a column
(`Text.cells`) and the cells are read column by column (`Text.byColumns`), they are the items in
their order, if no item is empty or has white space in it (`Text.columnize_read_back`). The lines
are as many as the columns need, and none is longer than the width unless an item alone is.
-/

namespace TraceDebugger.Text

/-! ## Reading a layout -/

/-- The text without the blanks at both ends. -/
def trim (cs : List Char) : List Char := dropEndWhile isBlank (cs.dropWhile isBlank)

/-- The pieces of `w` characters of which a text consists; the last one may be shorter. -/
def cut (w : Nat) (cs : List Char) : List (List Char) :=
  if w = 0 ∨ cs = [] then [] else cs.take w :: cut w (cs.drop w)
termination_by cs.length
decreasing_by
  rename_i h
  rw [not_or, ← List.length_eq_zero_iff] at h
  rw [List.length_drop]
  omega

/-- The cells of `w` characters in a line, without the blanks at their ends. -/
def cells (w : Nat) (line : String) : List String :=
  (cut w line.toList).map fun cell => String.ofList (trim cell)

/-- The largest value that a measure has on the items; `0` if there is no item. -/
def largest (measure : String → Nat) (items : List String) : Nat :=
  (items.map measure).max?.getD 0

/-- The entries of a table, column by column and each column from top to bottom. A row may end
before a column. -/
def byColumns {α : Type} (table : List (List α)) : List α :=
  (List.range ((table.map List.length).foldr max 0)).flatMap fun column =>
    table.filterMap (·[column]?)

section tables

variable {α : Type}

theorem byColumns_eq {table : List (List α)} {k : Nat} (h : ∀ row ∈ table, row.length ≤ k) :
    byColumns table = (List.range k).flatMap fun column => table.filterMap (·[column]?) := by
  let longest := (table.map List.length).foldr max 0
  have hlongest : longest ≤ k ∧ ∀ row ∈ table, row.length ≤ longest := by
    dsimp only [longest]
    induction table with
    | nil => exact ⟨Nat.zero_le k, fun row hrow => nomatch hrow⟩
    | cons row table ih =>
      obtain ⟨hle, hrows⟩ := ih fun row' hrow' => h row' (List.mem_cons_of_mem row hrow')
      rw [List.map_cons, List.foldr_cons]
      refine ⟨Nat.max_le.2 ⟨h row List.mem_cons_self, hle⟩, fun row' hrow' => ?_⟩
      rcases List.mem_cons.1 hrow' with rfl | hrow'
      · exact Nat.le_max_left _ _
      · exact Nat.le_trans (hrows row' hrow') (Nat.le_max_right _ _)
  obtain ⟨hle, hrows⟩ := hlongest
  obtain ⟨d, rfl⟩ := Nat.exists_eq_add_of_le hle
  -- past the end of the longest row the columns are empty
  have hempty : ((List.range d).map (longest + ·)).flatMap
      (fun column => table.filterMap (·[column]?)) = [] := by
    rw [List.flatMap_eq_nil_iff]
    intro column hcolumn
    obtain ⟨i, -, rfl⟩ := List.mem_map.1 hcolumn
    rw [List.filterMap_eq_nil_iff]
    intro row hrow
    exact List.getElem?_eq_none (Nat.le_add_right_of_le (hrows row hrow))
  rw [List.range_add, List.flatMap_append, hempty, List.append_nil]
  rfl

/-- Entries that stop at some place do not begin again. -/
theorem eq_none_of_zero {f : Nat → Option α} (h : ∀ i, f i = none → f (i + 1) = none)
    (h0 : f 0 = none) (i : Nat) : f i = none := by
  induction i with
  | zero => exact h0
  | succ i ih => exact h i ih

/-- A row whose entries are given up to a place where they stop. -/
theorem getElem?_filterMap_range {f : Nat → Option α} (h : ∀ i, f i = none → f (i + 1) = none)
    {k c : Nat} (hc : c < k) : ((List.range k).filterMap f)[c]? = f c := by
  induction k generalizing f c with
  | zero => exact absurd hc (Nat.not_lt_zero c)
  | succ k ih =>
    rw [List.range_succ_eq_map, List.filterMap_cons, List.filterMap_map]
    cases h0 : f 0 with
    | none =>
      have hrest : (List.range k).filterMap (f ∘ Nat.succ) = [] :=
        List.filterMap_eq_nil_iff.2 fun i _ => eq_none_of_zero h h0 (i + 1)
      rw [hrest, eq_none_of_zero h h0 c]
      rfl
    | some a =>
      cases c with
      | zero => exact h0.symm
      | succ c => exact ih (f := f ∘ Nat.succ) (fun i => h (i + 1)) (Nat.lt_of_succ_lt_succ hc)

theorem filterMap_range_getElem? (l : List α) (m : Nat) :
    (List.range m).filterMap (l[·]?) = l.take m := by
  induction m with
  | zero => rfl
  | succ m ih =>
    rw [List.range_succ, List.filterMap_append, ih, List.take_add_one]
    cases hentry : l[m]? with
    | none => simp [hentry]
    | some a => simp [hentry]

/-- A list in stretches of `m`. -/
theorem flatMap_stretches (l : List α) (m k : Nat) :
    ((List.range k).flatMap fun i => (l.drop (i * m)).take m) = l.take (k * m) := by
  induction k with
  | zero => simp
  | succ k ih =>
    rw [List.range_succ, List.flatMap_append, ih, Nat.succ_mul, List.take_add,
      List.flatMap_singleton]

end tables

/-! ## One line -/

/-- A text that has something in it and no white space. -/
def Solid (cs : List Char) : Prop := cs ≠ [] ∧ ∀ c ∈ cs, isBlank c = false

/-- A text does not end in a blank. -/
def EndsSolid (cs : List Char) : Prop := ∀ c, cs.getLast? = some c → isBlank c = false

theorem Solid.endsSolid {cs : List Char} (h : Solid cs) : EndsSolid cs :=
  fun c hc => h.2 c (List.mem_of_getLast? hc)

theorem dropEndWhile_blanks {cs : List Char} (h : EndsSolid cs) (n : Nat) :
    dropEndWhile isBlank (cs ++ List.replicate n ' ') = cs := by
  have hblanks : ∀ c ∈ (List.replicate n ' ').reverse, isBlank c = true := by
    intro c hc
    rw [List.mem_reverse, List.mem_replicate] at hc
    rw [hc.2]
    rfl
  have hkept : cs.reverse.dropWhile isBlank = cs.reverse := by
    rcases List.eq_nil_or_concat' cs with rfl | ⟨init, c, rfl⟩
    · rfl
    · have hlast : ¬ isBlank c = true := by
        rw [h c List.getLast?_concat]
        exact Bool.false_ne_true
      rw [List.reverse_concat, List.dropWhile_cons_of_neg hlast]
  unfold dropEndWhile
  rw [List.reverse_append, List.dropWhile_append_of_pos hblanks, hkept, List.reverse_reverse]

/-- An item is what is left of its cell. -/
theorem trim_padded {cs : List Char} (h : Solid cs) (n : Nat) :
    trim (cs ++ List.replicate n ' ') = cs := by
  obtain ⟨hne, hsolid⟩ := h
  obtain ⟨c, rest, rfl⟩ := List.exists_cons_of_ne_nil hne
  have hfirst : ((c :: rest) ++ List.replicate n ' ').dropWhile isBlank =
      (c :: rest) ++ List.replicate n ' ' := by
    rw [List.cons_append, List.dropWhile_cons_of_neg]
    rw [hsolid c List.mem_cons_self]
    exact Bool.false_ne_true
  unfold trim
  rw [hfirst]
  exact dropEndWhile_blanks (Solid.endsSolid ⟨hne, hsolid⟩) n

/-- Items in a line, all but the last as wide as a column. -/
def rowLine (w : Nat) : List (List Char) → List Char
  | [] => []
  | [item] => item
  | item :: next :: rest =>
    item ++ List.replicate (w - item.length) ' ' ++ rowLine w (next :: rest)

section lines

variable {w : Nat} {items : List (List Char)}

theorem rowLine_ne_nil (hne : items ≠ []) (h : ∀ item ∈ items, Solid item) :
    rowLine w items ≠ [] := by
  obtain ⟨item, rest, rfl⟩ := List.exists_cons_of_ne_nil hne
  have hitem := (h item List.mem_cons_self).1
  cases rest with
  | nil => exact hitem
  | cons next rest => exact fun hnil => hitem (List.append_eq_nil_iff.1
      (List.append_eq_nil_iff.1 hnil).1).1

theorem endsSolid_rowLine (hne : items ≠ []) (h : ∀ item ∈ items, Solid item) :
    EndsSolid (rowLine w items) := by
  induction items with
  | nil => exact absurd rfl hne
  | cons item items ih =>
    cases items with
    | nil => exact (h item List.mem_cons_self).endsSolid
    | cons next rest =>
      have hrest : ∀ item ∈ next :: rest, Solid item :=
        fun i hi => h i (List.mem_cons_of_mem item hi)
      intro c hc
      rw [rowLine, List.getLast?_append_of_ne_nil _
        (rowLine_ne_nil (List.cons_ne_nil next rest) hrest)] at hc
      exact ih (List.cons_ne_nil next rest) hrest c hc

/-- What a line is before the blanks at its end are taken away. -/
theorem exists_padded (items : List (List Char)) :
    ∃ n, items.flatMap (fun item => item ++ List.replicate (w - item.length) ' ') =
      rowLine w items ++ List.replicate n ' ' := by
  induction items with
  | nil => exact ⟨0, rfl⟩
  | cons item items ih =>
    cases items with
    | nil => exact ⟨w - item.length, List.flatMap_singleton _ item⟩
    | cons next rest =>
      obtain ⟨n, hn⟩ := ih
      refine ⟨n, ?_⟩
      rw [List.flatMap_cons, hn, rowLine, List.append_assoc _ (rowLine w _)]

/-- The cells of a line are its items. -/
theorem cut_rowLine (h : ∀ item ∈ items, Solid item) (hw : ∀ item ∈ items, item.length ≤ w) :
    (cut w (rowLine w items)).map trim = items := by
  induction items with
  | nil =>
    rw [rowLine, cut, if_pos (.inr rfl)]
    rfl
  | cons item items ih =>
    have hitem := h item List.mem_cons_self
    have hlength := hw item List.mem_cons_self
    have hpositive : 0 < item.length := List.length_pos_iff.2 hitem.1
    have hne : ¬ (w = 0 ∨ rowLine w (item :: items) = []) := by
      rw [not_or]
      exact ⟨by omega, rowLine_ne_nil (List.cons_ne_nil item items) h⟩
    have hcell := trim_padded hitem 0
    rw [cut, if_neg hne, List.map_cons]
    cases items with
    | nil =>
      have hnone : cut w (item.drop w) = [] := by
        rw [cut, if_pos (.inr (List.drop_eq_nil_of_le hlength))]
      rw [List.replicate_zero, List.append_nil] at hcell
      rw [rowLine, hnone, List.take_of_length_le hlength, hcell]
      rfl
    | cons next rest =>
      have hpadded : (item ++ List.replicate (w - item.length) ' ').length = w := by
        rw [List.length_append, List.length_replicate]
        omega
      rw [rowLine, List.take_left' hpadded, List.drop_left' hpadded, trim_padded hitem,
        ih (fun i hi => h i (List.mem_cons_of_mem item hi))
          (fun i hi => hw i (List.mem_cons_of_mem item hi))]

theorem length_rowLine_le (hw : ∀ item ∈ items, item.length ≤ w) :
    (rowLine w items).length ≤ items.length * w := by
  induction items with
  | nil => exact Nat.zero_le _
  | cons item items ih =>
    have hlength := hw item List.mem_cons_self
    cases items with
    | nil =>
      rw [rowLine, List.length_singleton, Nat.one_mul]
      exact hlength
    | cons next rest =>
      have hrest := ih fun i hi => hw i (List.mem_cons_of_mem item hi)
      rw [rowLine, List.length_append, List.length_append, List.length_replicate, List.length_cons,
        Nat.succ_mul]
      omega

/-- A character of a line pads an item or is in one. -/
theorem mem_rowLine {c : Char} (h : c ∈ rowLine w items) : c = ' ' ∨ ∃ item ∈ items, c ∈ item := by
  obtain ⟨n, hpadded⟩ := exists_padded (w := w) items
  have hc : c ∈ items.flatMap fun item => item ++ List.replicate (w - item.length) ' ' :=
    hpadded ▸ List.mem_append_left _ h
  obtain ⟨item, hitem, hc⟩ := List.mem_flatMap.1 hc
  rcases List.mem_append.1 hc with hc | hc
  · exact .inr ⟨item, hitem, hc⟩
  · exact .inl (List.mem_replicate.1 hc).2

end lines

/-! ## The layout -/

theorem length_le_utf8ByteSize (s : String) : s.length ≤ s.utf8ByteSize := by
  induction s using String.push_induction with
  | empty => exact Nat.le_refl 0
  | push s c ih =>
    have hc := c.utf8Size_pos
    rw [String.length_push, String.utf8ByteSize_push]
    omega

theorem toList_padRight (w : Nat) (s : String) :
    (padRight w s).toList = s.toList ++ List.replicate (w - s.toList.length) ' ' := by
  unfold padRight
  rw [String.toList_append, String.toList_ofList, String.length_toList]

section layout

variable {items : List String} {width : Nat}

theorem le_largest (measure : String → Nat) {item : String} (h : item ∈ items) :
    measure item ≤ largest measure items := by
  unfold largest
  cases hmax : (items.map measure).max? with
  | none =>
    rw [List.max?_eq_none_iff, List.map_eq_nil_iff] at hmax
    rw [hmax] at h
    cases h
  | some most =>
    exact (List.max?_eq_some_iff.1 hmax).2 (measure item) (List.mem_map_of_mem h)

theorem columnWidth_eq (items : List String) :
    columnWidth items = largest String.utf8ByteSize items + 2 := by
  unfold columnWidth largest
  rw [List.foldl_max, Nat.zero_max]

theorem length_le_columnWidth {item : String} (h : item ∈ items) :
    item.toList.length ≤ columnWidth items := by
  have hbytes := le_largest String.utf8ByteSize h
  have hchars := length_le_utf8ByteSize item
  rw [columnWidth_eq, String.length_toList]
  omega

theorem columnCount_pos (items : List String) (width : Nat) : 0 < columnCount items width :=
  Nat.le_max_right _ 1

theorem rowCount_pos (width : Nat) (hne : items ≠ []) : 0 < rowCount items width := by
  have hlength := List.length_pos_iff.2 hne
  exact Nat.div_pos (by omega) (columnCount_pos items width)

theorem rowCount_le : rowCount items width ≤ items.length := by
  have hcount := columnCount_pos items width
  refine Nat.le_of_lt_succ ((Nat.div_lt_iff_lt_mul hcount).2 ?_)
  rw [Nat.succ_mul]
  have hmul := Nat.le_mul_of_pos_right items.length hcount
  omega

/-- There is room for all items. -/
theorem length_le_room :
    items.length ≤ min (columnCount items width) items.length * rowCount items width := by
  by_cases hne : items = []
  · rw [hne]
    exact Nat.zero_le _
  · have hrows := rowCount_pos width hne
    rcases Nat.le_total (columnCount items width) items.length with hle | hle
    · rw [Nat.min_eq_left hle]
      have hcount := columnCount_pos items width
      have hlast := Nat.lt_div_mul_add hcount (a := items.length + columnCount items width - 1)
      unfold rowCount
      rw [Nat.mul_comm]
      omega
    · rw [Nat.min_eq_right hle]
      exact Nat.le_mul_of_pos_right _ hrows

theorem mem_of_mem_rowItems {row : Nat} {item : String} (h : item ∈ rowItems items width row) :
    item ∈ items := by
  obtain ⟨column, -, hitem⟩ := List.mem_filterMap.1 h
  exact List.mem_of_getElem? hitem

theorem length_rowItems_le (row : Nat) :
    (rowItems items width row).length ≤ min (columnCount items width) items.length := by
  have hle := List.length_filterMap_le
    (fun column => items[column * rowCount items width + row]?)
    (List.range (min (columnCount items width) items.length))
  rw [List.length_range] at hle
  exact hle

/-- If a line has more than one item, there is room for them in the width. -/
theorem length_rowItems_mul_le {row : Nat} (h : 2 ≤ (rowItems items width row).length) :
    (rowItems items width row).length * columnWidth items ≤ width := by
  have hle := Nat.le_trans (length_rowItems_le row) (Nat.min_le_left (columnCount items width) _)
  have hcount : columnCount items width = width / columnWidth items := by
    unfold columnCount at hle ⊢
    omega
  rw [hcount] at hle
  exact Nat.le_trans (Nat.mul_le_mul_right _ hle) (Nat.div_mul_le_self width (columnWidth items))

/-- The place of an item in the table. -/
theorem getElem?_rowItems {row column : Nat}
    (h : column < min (columnCount items width) items.length) :
    (rowItems items width row)[column]? = items[column * rowCount items width + row]? := by
  refine getElem?_filterMap_range
    (f := fun column => items[column * rowCount items width + row]?) (fun i hnone => ?_) h
  rw [List.getElem?_eq_none_iff] at hnone ⊢
  rw [Nat.succ_mul]
  omega

theorem rowItems_ne_nil {row : Nat} (h : row < rowCount items width) :
    rowItems items width row ≠ [] := by
  have hrow : row < items.length := Nat.lt_of_lt_of_le h rowCount_le
  have hfirst : (rowItems items width row)[0]? = some items[row] := by
    have hcount := columnCount_pos items width
    rw [getElem?_rowItems (Nat.lt_min.2 ⟨hcount, by omega⟩), Nat.zero_mul, Nat.zero_add,
      List.getElem?_eq_getElem hrow]
  intro hnil
  rw [hnil] at hfirst
  cases hfirst

/-- Column by column the table is the list of items. -/
theorem byColumns_rowItems :
    byColumns ((List.range (rowCount items width)).map (rowItems items width)) = items := by
  have hlengths : ∀ row ∈ (List.range (rowCount items width)).map (rowItems items width),
      row.length ≤ min (columnCount items width) items.length := by
    intro row hrow
    obtain ⟨n, -, rfl⟩ := List.mem_map.1 hrow
    exact length_rowItems_le n
  have hcolumn : ∀ column ∈ List.range (min (columnCount items width) items.length),
      ((List.range (rowCount items width)).map (rowItems items width)).filterMap (·[column]?) =
        (items.drop (column * rowCount items width)).take (rowCount items width) := by
    intro column hcolumn
    rw [List.filterMap_map, ← filterMap_range_getElem?]
    refine List.filterMap_congr fun row _ => ?_
    rw [List.getElem?_drop]
    exact getElem?_rowItems (List.mem_range.1 hcolumn)
  rw [byColumns_eq hlengths, List.flatMap_congr hcolumn, flatMap_stretches,
    List.take_of_length_le length_le_room]

section solid

variable (hsolid : ∀ item ∈ items, Solid item.toList)
include hsolid

theorem solid_of_mem_rowItems (width row : Nat) :
    ∀ cs ∈ (rowItems items width row).map String.toList, Solid cs := by
  intro cs hcs
  obtain ⟨item, hitem, rfl⟩ := List.mem_map.1 hcs
  exact hsolid item (mem_of_mem_rowItems hitem)

theorem toList_rowText {row : Nat} (hrow : row < rowCount items width) :
    (rowText items width row).toList =
      rowLine (columnWidth items) ((rowItems items width row).map String.toList) := by
  have hne : (rowItems items width row).map String.toList ≠ [] :=
    fun hnil => rowItems_ne_nil hrow (List.map_eq_nil_iff.1 hnil)
  obtain ⟨n, hpadded⟩ := exists_padded (w := columnWidth items)
    ((rowItems items width row).map String.toList)
  have hjoin : (String.join ((rowItems items width row).map (padRight (columnWidth items)))).toList
      = rowLine (columnWidth items) ((rowItems items width row).map String.toList) ++
        List.replicate n ' ' := by
    rw [← hpadded, String.toList_join, List.flatMap_map, List.flatMap_map]
    exact List.flatMap_congr fun item _ => toList_padRight _ item
  unfold rowText trimEnd
  rw [String.toList_ofList, hjoin]
  exact dropEndWhile_blanks (endsSolid_rowLine hne (solid_of_mem_rowItems hsolid width row)) n

theorem cells_rowText {row : Nat} (hrow : row < rowCount items width) :
    cells (columnWidth items) (rowText items width row) = rowItems items width row := by
  have hwidth : ∀ cs ∈ (rowItems items width row).map String.toList,
      cs.length ≤ columnWidth items := by
    intro cs hcs
    obtain ⟨item, hitem, rfl⟩ := List.mem_map.1 hcs
    exact length_le_columnWidth (mem_of_mem_rowItems hitem)
  have hcut := cut_rowLine (solid_of_mem_rowItems hsolid width row) hwidth
  unfold cells
  rw [toList_rowText hsolid hrow, ← Function.comp_def, ← List.map_map, hcut, List.map_map]
  exact List.map_id'' (fun item => String.ofList_toList) _

/-- A line is not empty and has no line feed, since no item has one. -/
theorem rowText_ne_empty_and {row : Nat} (hrow : row < rowCount items width) :
    rowText items width row ≠ "" ∧ '\n' ∉ (rowText items width row).toList := by
  have hrowItems := solid_of_mem_rowItems hsolid width row
  constructor
  · intro hempty
    have hne : (rowItems items width row).map String.toList ≠ [] :=
      fun hnil => rowItems_ne_nil hrow (List.map_eq_nil_iff.1 hnil)
    refine rowLine_ne_nil (w := columnWidth items) hne hrowItems ?_
    rw [← toList_rowText hsolid hrow, hempty]
    rfl
  · rw [toList_rowText hsolid hrow]
    intro hmem
    rcases mem_rowLine hmem with hblank | ⟨item, hitem, hchar⟩
    · exact absurd hblank (by decide)
    · exact absurd ((hrowItems item hitem).2 '\n' hchar) (by decide)

/-- A line with one item is as long as the item, and a line with more is within the width. -/
theorem length_rowText_le {row : Nat} (hrow : row < rowCount items width) :
    (rowText items width row).length ≤ max width (largest String.length items) := by
  have hwidths : ∀ cs ∈ (rowItems items width row).map String.toList,
      cs.length ≤ columnWidth items := by
    intro cs hcs
    obtain ⟨item, hitem, rfl⟩ := List.mem_map.1 hcs
    exact length_le_columnWidth (mem_of_mem_rowItems hitem)
  rw [← String.length_toList, toList_rowText hsolid hrow]
  by_cases hseveral : 2 ≤ (rowItems items width row).length
  · have hline := length_rowLine_le hwidths
    rw [List.length_map] at hline
    exact Nat.le_trans (Nat.le_trans hline (length_rowItems_mul_le hseveral)) (Nat.le_max_left _ _)
  · have hpositive := List.length_pos_iff.2 (rowItems_ne_nil hrow)
    obtain ⟨item, hone⟩ := List.length_eq_one_iff.1 (by omega : (rowItems items width row).length = 1)
    have hmem : item ∈ rowItems items width row := hone ▸ List.mem_singleton_self item
    have hitem := mem_of_mem_rowItems hmem
    rw [hone, List.map_singleton, rowLine, String.length_toList]
    exact Nat.le_trans (le_largest String.length hitem) (Nat.le_max_right _ _)

end solid

end layout

/-- A layout in columns has as many lines as its columns need for the items; no line is empty, and
none is longer than the width unless an item is. The cells of the lines are the items, each in its
place. -/
theorem columnize_read_back (items : List String) (width : Nat) (hne : items ≠ [])
    (hsolid : ∀ item ∈ items, item ≠ "" ∧ ∀ c ∈ item.toList, isBlank c = false) :
    let w := largest String.utf8ByteSize items + 2
    let cols := max 1 (width / w)
    ∃ lines : List String,
      columnize items width = String.join (lines.map (· ++ "\n")) ∧
      lines.length = items.length ⌈/⌉ cols ∧
      (∀ line ∈ lines, line ≠ "" ∧ '\n' ∉ line.toList ∧
        line.length ≤ max width (largest String.length items)) ∧
      byColumns (lines.map (cells w)) = items := by
  intro w cols
  have hw : columnWidth items = w := columnWidth_eq items
  have hcols : columnCount items width = cols := by
    unfold columnCount
    rw [hw, Nat.max_comm]
  have hitems : ∀ item ∈ items, Solid item.toList := fun item hitem =>
    ⟨fun hnil => (hsolid item hitem).1 (String.toList_eq_nil_iff.1 hnil), (hsolid item hitem).2⟩
  refine ⟨(List.range (rowCount items width)).map (rowText items width), ?_, ?_, ?_, ?_⟩
  · have hempty : ¬ items.isEmpty = true := fun h => hne (List.isEmpty_iff.1 h)
    unfold columnize
    rw [if_neg hempty, List.map_map]
    rfl
  · rw [List.length_map, List.length_range, Nat.ceilDiv_eq_add_pred_div, ← hcols]
    rfl
  · intro line hline
    obtain ⟨row, hrow, rfl⟩ := List.mem_map.1 hline
    rw [List.mem_range] at hrow
    exact ⟨(rowText_ne_empty_and hitems hrow).1, (rowText_ne_empty_and hitems hrow).2,
      length_rowText_le hitems hrow⟩
  · have hcells : ((List.range (rowCount items width)).map (rowText items width)).map (cells w) =
        (List.range (rowCount items width)).map (rowItems items width) := by
      rw [List.map_map]
      refine List.map_congr_left fun row hrow => ?_
      rw [Function.comp_apply, ← hw]
      exact cells_rowText hitems (List.mem_range.1 hrow)
    rw [hcells, byColumns_rowItems]

/-- `é` has as many bytes as `bc`, so that a column is four characters wide. The second column ends
before the first one does. -/
theorem columnize_read_back_fiveItems :
    let items := ["é", "bc", "d", "ef", "g"]
    columnize items 9 = "é   ef\nbc  g\nd\n" ∧
      ∃ lines : List String,
        columnize items 9 = String.join (lines.map (· ++ "\n")) ∧ lines.length = 3 ∧
        (∀ line ∈ lines, line ≠ "" ∧ '\n' ∉ line.toList ∧ line.length ≤ 9) ∧
        byColumns (lines.map (cells 4)) = items := by
  intro items
  have hchecked : (items.all fun item => item ≠ "" && item.toList.all fun c => !isBlank c) = true := by
    decide +kernel
  have hsolid : ∀ item ∈ items, item ≠ "" ∧ ∀ c ∈ item.toList, isBlank c = false := by
    intro item hitem
    have hitem := List.all_eq_true.1 hchecked item hitem
    rw [Bool.and_eq_true, decide_eq_true_iff, List.all_eq_true] at hitem
    refine ⟨hitem.1, fun c hc => ?_⟩
    have hc := hitem.2 c hc
    rwa [Bool.not_eq_true'] at hc
  have hbytes : largest String.utf8ByteSize items = 2 := by decide +kernel
  have hchars : largest String.length items = 2 := by decide +kernel
  obtain ⟨lines, hlayout, hcount, hlines, hback⟩ :=
    columnize_read_back items 9 (List.cons_ne_nil _ _) hsolid
  rw [hchars] at hlines
  rw [hbytes] at hback
  rw [hbytes, Nat.ceilDiv_eq_add_pred_div] at hcount
  exact ⟨by decide +kernel, lines, hlayout, hcount.trans (by decide +kernel), hlines, hback⟩

end TraceDebugger.Text
