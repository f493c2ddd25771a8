/-!
# Blanks

White space in the sense of the Unicode property `White_Space`, trimming at the end of a text, and
the cutting of a text into the words between separators.
-/

namespace TraceDebugger.Text

/-- The twenty-five characters with the property `White_Space`. -/
def isBlank (c : Char) : Bool :=
  let n := c.toNat
  (9 ≤ n && n ≤ 13) || n == 0x20 || n == 0x85 || n == 0xa0 || n == 0x1680
    || (0x2000 ≤ n && n ≤ 0x200a) || n == 0x2028 || n == 0x2029 || n == 0x202f || n == 0x205f
    || n == 0x3000

/-- The text without the characters at its end that satisfy `p`. -/
def dropEndWhile (p : Char → Bool) (cs : List Char) : List Char :=
  (cs.reverse.dropWhile p).reverse

/-- The text without the blanks at its end. -/
def trimEnd (s : String) : String :=
  String.ofList (dropEndWhile isBlank s.toList)

/-- Reads on with the word begun so far, and lists it when a separator or the end comes. -/
def runsFrom (sep : Char → Bool) : List Char → List Char → List (List Char)
  | [], [] => []
  | word, [] => [word]
  | word, c :: cs =>
    if sep c then
      if word.isEmpty then runsFrom sep [] cs else word :: runsFrom sep [] cs
    else
      runsFrom sep (word ++ [c]) cs

/-- The maximal runs of characters that are no separators, in order. -/
def runs (sep : Char → Bool) (cs : List Char) : List (List Char) :=
  runsFrom sep [] cs

end TraceDebugger.Text
