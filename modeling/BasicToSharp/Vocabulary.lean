import BasicToSharp.Token.Basic

/-!
# Vocabulary

The words of VB that have a fixed counterpart in C#, table by table. Every table is
consulted by the lower-case form of a word, except the type characters, which are
symbols. A word that no table knows is unregistered.
-/

namespace BasicToSharp.Vocabulary

/-- Words with their counterparts. -/
abbrev WordTable := List (String × String)

/-- Modifiers that stand before a declaration. -/
def modifiers : WordTable := [
  ("const", "const"), ("readonly", "readonly"), ("static", "static"), ("shared", "static"),
  ("friend", "internal"), ("private", "private"), ("protected", "protected"),
  ("public", "public"), ("overrides", "override"), ("overridable", "virtual"),
  ("mustoverride", "abstract"), ("mustinherit", "abstract"), ("notinheritable", "sealed"),
  ("partial", "partial")]

/-- Modifiers of C# that control visibility. -/
def visibilities : List String := ["public", "private", "protected", "internal"]

/-- Names of primitive and collection types. -/
def dataTypes : WordTable := [
  ("boolean", "bool"), ("byte", "byte"), ("char", "char"), ("date", "DateTime"),
  ("decimal", "decimal"), ("dictionary", "Dictionary"), ("double", "double"), ("int", "int"),
  ("integer", "int"), ("list", "List"), ("long", "long"), ("object", "object"),
  ("short", "short"), ("single", "float"), ("string", "string")]

/-- Words that introduce a type. -/
def typeWords : WordTable := [("as", "as")]

/-- Words without a counterpart. -/
def excludedWords : WordTable := [("byval", ""), ("dim", "")]

/-- Words of declarations and control flow, single and compound. -/
def flowWords : WordTable := [
  ("and", "&&"), ("byref", "ref"), ("class", "class"), ("do", "do"), ("each", "foreach"),
  ("else", "else"), ("elseif", "else if"), ("end", "\x7d"), ("end class", "\x7d"),
  ("end enum", "\x7d"), ("end function", "\x7d"), ("end if", "\x7d"), ("end sub", "\x7d"),
  ("end while", "\x7d"), ("enum", "enum"), ("exit", "return"), ("for", "for"),
  ("function", ""), ("get", "get"), ("if", "if"), ("in", "in"), ("inherits", ":"),
  ("implements", ":"), ("loop", "\x7d"), ("loop until", "\x7d"), ("loop while", "\x7d"),
  ("module", "static class"), ("namespace", "namespace"), ("new", "new"), ("next", "\x7d"),
  ("of", "of"), ("optional", ""), ("or", "||"), ("paramarray", "params"), ("property", ""),
  ("rem", "//"), ("return", "return"), ("set", "set"), ("step", "+="), ("sub", "void"),
  ("sub new", "sub new"), ("then", "then"), ("to", "to"), ("until", "while"),
  ("wend", "\x7d"), ("while", "while")]

/-- Operators and constants that change wherever an expression is written. -/
def expressionWords : WordTable := [
  ("<>", "!="), ("andalso", "&&"), ("false", "false"), ("me", "this"), ("mod", "%"),
  ("new", "new"), ("not", "!"), ("nothing", "null"), ("orelse", "||"), ("true", "true")]

/-- Symbols that give the type of the name before them. -/
def typeChars : WordTable := [
  ("%", "int"), ("&", "long"), ("@", "decimal"), ("!", "float"), ("#", "double"),
  ("$", "string")]

/-- Words that form compound keywords, with the words that may follow them. -/
def companionWords : List (String × List String) := [
  ("if", ["then"]),
  ("loop", ["until", "while"]),
  ("end", ["class", "enum", "function", "if", "module", "property", "sub", "while", "get",
    "set"]),
  ("exit", ["do", "for", "function", "property", "sub", "while"]),
  ("sub", ["new", "main"])]

/-- The counterpart of a word in a table. -/
def find (table : WordTable) (word : String) : Option String :=
  table.lookup (Text.lookupForm word)

/-- The C# modifier for a modifier word. -/
def modifier? (word : String) : Option String := find modifiers word

/-- True of a modifier word. -/
def isModifier (word : String) : Bool := (modifier? word).isSome

/-- True of a C# modifier that controls visibility. -/
def isVisibility (modifier : String) : Bool := visibilities.contains modifier

/-- The C# name of a type in the type table. -/
def dataType? (word : String) : Option String := find dataTypes word

/-- True of a type in the type table. -/
def isDataType (word : String) : Bool := (dataType? word).isSome

/-- The type that a type character stands for. -/
def typeChar? (symbol : String) : Option String := typeChars.lookup symbol

/-- True of a word without a counterpart. -/
def isExcluded (word : String) : Bool := (find excludedWords word).isSome

/-- The counterpart of a word of declarations or control flow. -/
def flow? (word : String) : Option String := find flowWords word

/-- The counterpart of an operator or constant. -/
def expression? (word : String) : Option String := find expressionWords word

/-- The words that may follow a word to form a compound keyword. -/
def companions? (word : String) : Option (List String) :=
  companionWords.lookup (Text.lookupForm word)

/-- True of a word that is neither a number, an operator run or a grouping symbol nor in
any table. The empty word is a run of no operators. -/
def isUnregistered (word : String) : Bool :=
  !Token.isNumeric word && !Token.isOperator word && !Token.isGrouping word &&
    !word.toList.all Token.isOperatorChar && !isModifier word && !isDataType word &&
    !isExcluded word && (flow? word).isNone && (expression? word).isNone &&
    (companions? word).isNone && (find typeWords word).isNone

example : modifier? "FRIEND" = some "internal" := by decide
example : isUnregistered "Console" = true := by decide
example : isUnregistered "<=" = false := by decide

end BasicToSharp.Vocabulary
