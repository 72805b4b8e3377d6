/-!
# Letter case

Two comparisons are in use. Keywords are compared by basic Latin letters alone.
Words are looked up in the vocabulary by their lower-case form, and since every
vocabulary word is basic Latin, only the letters whose lower-case form is basic
Latin need to be folded: `A` to `Z` and the Kelvin sign.
-/

namespace BasicToSharp.Text

/-- True when two texts differ at most in the case of basic Latin letters. -/
def sameIgnoringCase (left right : String) : Bool :=
  left.toList.map Char.toLower == right.toList.map Char.toLower

/-- The lower-case form of a character, as far as that form is basic Latin. Every
other character is left alone and so matches no vocabulary word. -/
def lowerLatin (c : Char) : Char :=
  if c == '\u212A' then 'k' else c.toLower

/-- The form under which a word is looked up in the vocabulary. -/
def lookupForm (word : String) : String :=
  String.ofList (word.toList.map lowerLatin)

end BasicToSharp.Text
