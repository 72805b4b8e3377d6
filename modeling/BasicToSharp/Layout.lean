import BasicToSharp.Vocabulary

/-!
# Layout of the finished lines

Two passes run over the lines of a converted file. The first moves `static` behind the
visibility word it stands before. The second indents by braces: a line that starts with
a closing brace steps out before it is written, a line that starts with an opening brace
steps in after it. Blank lines are not indented, a run of them becomes one, and none is
left at either end.
-/

namespace BasicToSharp.Layout

/-- The characters up to the first space, and those behind it if there is a space. -/
def cutAtSpace : List Char → List Char × Option (List Char)
  | [] => ([], none)
  | c :: rest =>
    if c = ' ' then ([], some rest)
    else
      let (word, after) := cutAtSpace rest
      (c :: word, after)

/-- Exchange the first two words of a line that starts with `static` and a visibility
word. -/
def reorderLine (line : String) : String :=
  match cutAtSpace line.toList with
  | (first, some rest) =>
    let (second, after) := cutAtSpace rest
    if String.ofList first = "static" ∧ Vocabulary.isVisibility (String.ofList second) then
      match after with
      | some tail => String.ofList second ++ " static " ++ String.ofList tail
      | none => String.ofList second ++ " static"
    else line
  | (_, none) => line

/-- Move `static` behind the visibility word in every line. -/
def reorderStatic (lines : List String) : List String := lines.map reorderLine

/-- True of a line whose first character is the given one. -/
def startsWith (line : String) (c : Char) : Bool := line.toList.head? == some c

/-- The indentation unit repeated. -/
def indentation (unit : String) (depth : Nat) : String :=
  String.join (List.replicate depth unit)

/-- Indent lines from a depth on; `gap` says that blank lines wait to be written as one
before the next line that is not blank. -/
def indentFrom (unit : String) (depth : Nat) (gap : Bool) : List String → List String
  | [] => []
  | line :: rest =>
    if line.isEmpty then indentFrom unit depth true rest
    else
      let depth := if startsWith line '\x7d' then depth - 1 else depth
      let written := indentation unit depth ++ line
      let next := if startsWith line '\x7b' then depth + 1 else depth
      let tail := indentFrom unit next false rest
      if gap then "" :: written :: tail else written :: tail

/-- Indent by braces and tidy the blank lines. -/
def indent (lines : List String) (unit : String) : List String :=
  indentFrom unit 0 false (lines.dropWhile String.isEmpty)

example : reorderLine "static public int Count;" = "public static int Count;" := by decide
example : indent ["", "a;", "", "", "\x7b", "b;", "\x7d", ""] "  " =
    ["a;", "", "\x7b", "  b;", "\x7d"] := by decide

end BasicToSharp.Layout
