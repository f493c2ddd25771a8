import TraceDebugger.Text.Blank
import TraceDebugger.Text.Layout

/-!
# Columns

Lays items out in columns of one width, filled from top to bottom. The width of a column is two
more than the longest item has bytes, and there are as many columns as the given width admits, but
at least one.
-/

namespace TraceDebugger.Text

/-- The width of a column: two more than the bytes of the longest item. -/
def columnWidth (items : List String) : Nat :=
  (items.map String.utf8ByteSize).foldl max 0 + 2

/-- The number of columns in a line of `width`. -/
def columnCount (items : List String) (width : Nat) : Nat :=
  max (width / columnWidth items) 1

/-- The number of lines, enough for all items. -/
def rowCount (items : List String) (width : Nat) : Nat :=
  (items.length + columnCount items width - 1) / columnCount items width

/-- The items of line `row`; no item lies in a column past the number of items. -/
def rowItems (items : List String) (width row : Nat) : List String :=
  (List.range (min (columnCount items width) items.length)).filterMap fun column =>
    items[column * rowCount items width + row]?

/-- Line `row` without the blanks at its end. -/
def rowText (items : List String) (width row : Nat) : String :=
  trimEnd (String.join ((rowItems items width row).map (padRight (columnWidth items))))

/-- The items in columns, each line ended by a line feed. -/
def columnize (items : List String) (width : Nat) : String :=
  if items.isEmpty then "" else
  String.join ((List.range (rowCount items width)).map fun row => rowText items width row ++ "\n")

end TraceDebugger.Text
