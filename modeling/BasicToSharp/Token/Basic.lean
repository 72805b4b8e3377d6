import BasicToSharp.Text.Blank
import BasicToSharp.Text.Case
import BasicToSharp.Text.Letter

/-!
# Tokens

A token is a piece of one source line: a word or number, a run of operator
characters, a grouping symbol, a quote, or the text of a string literal. Outside
literals every character belongs to one of four classes, and the class decides
whether it joins a run, stands alone or is dropped.
-/

namespace BasicToSharp

/-- A piece of one source line. -/
abbrev Token := String

namespace Token

/-- The double quote character. -/
def quoteChar : Char := '\x22'

/-- The apostrophe, which starts a comment. -/
def apostrophe : Char := '\x27'

/-- The token that opens and closes a string literal. -/
def quote : Token := "\""

/-- Characters that end the current run and stand as tokens of their own. -/
def groupingChars : List Char := " ()[]\x7b\x7d,".toList

/-- Characters that gather into operator runs. The quote counts as one of them when a
character is classified on its own; in a line it always stands alone. -/
def operatorChars : List Char := ";'\".&|@<>=*/+-!#$%^\\:?~".toList

/-- True of a grouping symbol. -/
def isGroupingChar (c : Char) : Bool := groupingChars.contains c

/-- True of an operator character. -/
def isOperatorChar (c : Char) : Bool := operatorChars.contains c

/-- True of a letter, a basic digit or the underscore. -/
def isWordChar (c : Char) : Bool := Text.isLetter c || c.isDigit || c == '_'

/-- What a character does to the line it stands in, outside string literals. -/
inductive CharClass
  /-- Joins the current operator run. -/
  | operator
  /-- Joins the current word. -/
  | word
  /-- Ends the current run and stands alone. -/
  | grouping
  /-- Is dropped without ending a run. -/
  | stray
  deriving DecidableEq, Repr

/-- The class of a character. -/
def CharClass.of (c : Char) : CharClass :=
  if isOperatorChar c then .operator
  else if isWordChar c then .word
  else if isGroupingChar c then .grouping
  else .stray

/-- True of a token that can name something: a letter or underscore, then word
characters. -/
def isIdentifier (token : Token) : Bool :=
  match token.toList with
  | [] => false
  | first :: rest => (Text.isLetter first || first == '_') && rest.all isWordChar

/-- True of a non-empty run of basic digits. -/
def isNumeric (token : Token) : Bool :=
  !token.toList.isEmpty && token.toList.all Char.isDigit

/-- True of a single operator character. -/
def isOperator (token : Token) : Bool :=
  match token.toList with
  | [c] => isOperatorChar c
  | _ => false

/-- True of a single grouping symbol. -/
def isGrouping (token : Token) : Bool :=
  match token.toList with
  | [c] => isGroupingChar c
  | _ => false

/-- True when the token is the keyword, in any case of basic Latin letters. -/
def isKeyword (token : Token) (keyword : String) : Bool :=
  Text.sameIgnoringCase token keyword

/-- No grouping symbol is an operator or a word character. -/
theorem groupingChars_classes :
    groupingChars.all (fun c => CharClass.of c == .grouping) = true := by decide

/-- Every operator character has the operator class and is no word character. -/
theorem operatorChars_classes :
    operatorChars.all (fun c => CharClass.of c == .operator && !isWordChar c) = true := by
  decide

end Token

/-- The token at a position, or the empty token past the end. -/
def tokenAt (tokens : List Token) (index : Nat) : Token := tokens.getD index ""

end BasicToSharp
