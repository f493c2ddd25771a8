/-!
# Layout

Padding to a width that is counted in characters, and the cutting of a text at a character.
-/

namespace TraceDebugger.Text

/-- The text with blanks after it, to at least `width` characters. -/
def padRight (width : Nat) (s : String) : String :=
  s ++ String.ofList (List.replicate (width - s.length) ' ')

/-- The text with blanks before it, to at least `width` characters. -/
def padLeft (width : Nat) (s : String) : String :=
  String.ofList (List.replicate (width - s.length) ' ') ++ s

/-- The characters before the first `sep` and those after it; nothing when there is no `sep`. -/
def splitChars? (sep : Char) : List Char → Option (List Char × List Char)
  | [] => none
  | c :: cs => if c = sep then some ([], cs) else (splitChars? sep cs).map fun p => (c :: p.1, p.2)

/-- The text before the first `sep` and the text after it; nothing when there is no `sep`. -/
def splitAt? (sep : Char) (s : String) : Option (String × String) :=
  (splitChars? sep s.toList).map fun p => (String.ofList p.1, String.ofList p.2)

/-- Whether `s` begins with `start`. -/
def startsWith (start s : String) : Bool :=
  start.toList.isPrefixOf s.toList

/-- The texts with `sep` between neighbours. -/
def joinWith (sep : String) : List String → String
  | [] => ""
  | [s] => s
  | s :: rest => s ++ sep ++ joinWith sep rest

/-- A truth value as text. -/
def ofBool (b : Bool) : String := if b then "true" else "false"

end TraceDebugger.Text
