import TraceDebugger.Text.Blank

/-!
# Words of a command line

A command line is cut at blanks, tabs and line feeds. Quotes keep such characters in a word: single
quotes keep all that stands between them, double quotes too, except that a backslash there still
speaks for a dollar sign, a backquote, a double quote, a backslash and a line feed. Outside quotes a
backslash keeps the next character, and drops a line feed. A number sign at the start of a word
hides the rest of the line. A line that ends inside quotes or after a backslash cannot be cut this
way (`shellWords?` has no answer), and is cut at white space instead (`commandWords`).
-/

namespace TraceDebugger.Text

/-- Where the reading of a command line stands. -/
inductive Place where
  /-- Between words. -/
  | between
  /-- After a number sign, up to the next line feed. -/
  | comment
  /-- In a word, outside quotes. -/
  | word
  /-- After a backslash outside quotes. -/
  | escaped
  /-- Inside double quotes. -/
  | double
  /-- After a backslash inside double quotes. -/
  | doubleEscaped
  /-- Inside single quotes. -/
  | single
  deriving DecidableEq

/-- A blank, a tab or a line feed. -/
def isWordEnd (c : Char) : Bool := c = ' ' || c = '\t' || c = '\n'

/-- Where reading goes on after a character of a word, and what the character adds to the word. -/
def enter (c : Char) : Place × List Char :=
  if c = '"' then (.double, [])
  else if c = '\'' then (.single, [])
  else if c = '\\' then (.escaped, [])
  else (.word, [c])

/-- What a backslash and the next character stand for inside double quotes. -/
def doubleEscape (c : Char) : List Char :=
  if c = '$' ∨ c = '\x60' ∨ c = '"' ∨ c = '\\' then [c]
  else if c = '\n' then []
  else ['\\', c]

/-- Reads on from a place with the word begun so far; no answer if the text ends inside quotes or
after a backslash. -/
def wordsFrom : Place → List Char → List Char → Option (List (List Char))
  | .between, _, [] => some []
  | .between, _, c :: cs =>
    if isWordEnd c then wordsFrom .between [] cs
    else if c = '#' then wordsFrom .comment [] cs
    else wordsFrom (enter c).1 (enter c).2 cs
  | .comment, _, [] => some []
  | .comment, _, c :: cs => wordsFrom (if c = '\n' then .between else .comment) [] cs
  | .word, acc, [] => some [acc]
  | .word, acc, c :: cs =>
    if isWordEnd c then (wordsFrom .between [] cs).map (acc :: ·)
    else wordsFrom (enter c).1 (acc ++ (enter c).2) cs
  | .escaped, _, [] => none
  | .escaped, acc, c :: cs => wordsFrom .word (if c = '\n' then acc else acc ++ [c]) cs
  | .double, _, [] => none
  | .double, acc, c :: cs =>
    if c = '"' then wordsFrom .word acc cs
    else if c = '\\' then wordsFrom .doubleEscaped acc cs
    else wordsFrom .double (acc ++ [c]) cs
  | .doubleEscaped, _, [] => none
  | .doubleEscaped, acc, c :: cs => wordsFrom .double (acc ++ doubleEscape c) cs
  | .single, _, [] => none
  | .single, acc, c :: cs =>
    if c = '\'' then wordsFrom .word acc cs else wordsFrom .single (acc ++ [c]) cs

/-- The words of a line by the rules of quoting. -/
def shellWords? (cs : List Char) : Option (List (List Char)) :=
  wordsFrom .between [] cs

/-- The text with one blank between its words and no other white space. -/
def normalizeBlanks (cs : List Char) : List Char := [' '].intercalate (runs isBlank cs)

/-- The words of a line without regard to quotes: what stands between the blanks of the normalized
text. -/
def bareWords (cs : List Char) : List (List Char) :=
  ((normalizeBlanks cs).splitOn ' ').filter fun word => !word.isEmpty

/-- The words of a command line: by the rules of quoting, or else without regard to quotes. -/
def commandWords (line : String) : List String :=
  ((shellWords? line.toList).getD (bareWords line.toList)).map String.ofList

end TraceDebugger.Text
