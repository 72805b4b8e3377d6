/-!
# Lines of a text

A line ends at a line feed, and a carriage return directly before the line feed
belongs to the ending. A final line ending adds no empty line, and a carriage
return with no line feed after it stays in its line.
-/

namespace BasicToSharp.Text

/-- Drop one carriage return at the end of a line that a line feed has ended. -/
def dropReturn (line : List Char) : List Char :=
  if line.getLast? = some '\r' then line.dropLast else line

/-- The lines of a character list. `current` holds the characters of the unfinished
line, last one first. -/
def splitLines (current : List Char) : List Char → List (List Char)
  | [] => if current.isEmpty then [] else [current.reverse]
  | c :: rest =>
    if c = '\n' then dropReturn current.reverse :: splitLines [] rest
    else splitLines (c :: current) rest

/-- The lines of a text, without their endings. -/
def lines (text : String) : List String :=
  (splitLines [] text.toList).map String.ofList

example : lines "a\r\nb\n\nc\r" = ["a", "b", "", "c\r"] := by decide
example : lines "" = [] := by decide

end BasicToSharp.Text
