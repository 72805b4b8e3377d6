/-!
# Blank characters

A blank is a character with the Unicode property White_Space. Trimming and cutting
at blanks work on the character list of a text, so that their laws are laws of
lists.
-/

namespace BasicToSharp.Text

/-- True of a character with the White_Space property: the space, the line and page
controls, the no-break space and the wider spaces. -/
def isBlank (c : Char) : Bool :=
  let n := c.toNat
  (9 ≤ n && n ≤ 13) || n == 0x20 || n == 0x85 || n == 0xA0 || n == 0x1680 ||
    (0x2000 ≤ n && n ≤ 0x200A) || n == 0x2028 || n == 0x2029 || n == 0x202F ||
    n == 0x205F || n == 0x3000

/-- Drop the blanks at the end of a character list. -/
def dropTrailingBlanks (chars : List Char) : List Char :=
  (chars.reverse.dropWhile isBlank).reverse

/-- Drop the blanks at both ends of a character list. -/
def trimBlanks (chars : List Char) : List Char :=
  dropTrailingBlanks (chars.dropWhile isBlank)

/-- A text without the blanks at either end. -/
def trim (text : String) : String := String.ofList (trimBlanks text.toList)

/-- The characters up to the first blank and those after it; nothing when there is no
blank. -/
def cutAtBlank : List Char → Option (List Char × List Char)
  | [] => none
  | c :: rest =>
    if isBlank c then some ([], rest)
    else (cutAtBlank rest).map fun (word, after) => (c :: word, after)

/-- The first run of characters that are not blank; empty when all are. -/
def firstWord (text : String) : String :=
  String.ofList ((text.toList.dropWhile isBlank).takeWhile (!isBlank ·))

/-- The cut gives the text back once a blank is put between its two parts. -/
theorem cutAtBlank_eq_some {chars word after : List Char}
    (cut : cutAtBlank chars = some (word, after)) :
    ∃ blank, isBlank blank = true ∧ chars = word ++ blank :: after := by
  induction chars generalizing word with
  | nil => simp [cutAtBlank] at cut
  | cons c rest inductionHypothesis =>
    by_cases stop : isBlank c = true
    · simp only [cutAtBlank, stop, if_true, Option.some.injEq, Prod.mk.injEq] at cut
      exact ⟨c, stop, by simp [← cut.1, cut.2]⟩
    · simp only [cutAtBlank, stop, Bool.false_eq_true, if_false, Option.map_eq_some_iff,
        Prod.mk.injEq, Prod.exists] at cut
      obtain ⟨inner, tail, found, rfl, rfl⟩ := cut
      obtain ⟨blank, isBlank, same⟩ := inductionHypothesis found
      exact ⟨blank, isBlank, by simp [same]⟩

end BasicToSharp.Text
