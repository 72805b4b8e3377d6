import BasicToSharp.Toml.Lexeme
import BasicToSharp.Toml.Scalar

/-!
# TOML documents

A document is read statement by statement: a header opens a table, and a setting enters a
value into the table that is open. A statement ends with its line, except that line breaks
and comments may stand between the values of a list. Lists and tables in braces are nested
at most 79 deep, and a key has at most 79 names.
-/

namespace BasicToSharp.Toml

/-- The greatest depth of nested values, and the greatest number of names in a key. -/
def deepest : Nat := 79

/-- A piece of a dotted key. -/
inductive KeyPiece
  | name (text : String)
  | point
  deriving DecidableEq, Repr

/-- The pieces of a word that is part of a key; `current` holds the current name, last
character first. -/
def wordPieces (current : List Char) : List Char → List KeyPiece
  | [] => if current.isEmpty then [] else [.name (String.ofList current.reverse)]
  | c :: rest =>
    if c = '.' then
      if current.isEmpty then .point :: wordPieces [] rest
      else .name (String.ofList current.reverse) :: .point :: wordPieces [] rest
    else wordPieces (c :: current) rest

/-- True of a lexeme that may be part of a key. -/
def Lexeme.isKeyPart : Lexeme → Bool
  | .word _ => true
  | .quoted _ => true
  | .blank _ => true
  | _ => false

/-- The pieces that a lexeme adds to a key. -/
def Lexeme.pieces : Lexeme → Option (List KeyPiece)
  | .word text =>
    if text.toList.all fun c => isBare c || c = '.' then some (wordPieces [] text.toList)
    else none
  | .quoted text => some [.name text]
  | .blank _ => some []
  | _ => none

/-- The names of a key, with one point between any two of them. -/
def keyNames : List KeyPiece → Option (List String)
  | [.name text] => some [text]
  | .name text :: .point :: rest => (keyNames rest).map (text :: ·)
  | _ => none

/-- Read a dotted key. -/
def keyPath (lexemes : List Lexeme) : Option (List String × List Lexeme) := do
  let pieces ← (lexemes.takeWhile Lexeme.isKeyPart).mapM Lexeme.pieces
  let names ← keyNames pieces.flatten
  if names.length ≤ deepest then return (names, lexemes.dropWhile Lexeme.isKeyPart) else none

/-- What follows blanks. -/
def skipBlanks : List Lexeme → List Lexeme
  | .blank _ :: rest => skipBlanks rest
  | lexemes => lexemes

/-- What follows blanks and line breaks. -/
def skipBreaks : List Lexeme → List Lexeme
  | .blank _ :: rest => skipBreaks rest
  | .newline :: rest => skipBreaks rest
  | lexemes => lexemes

mutual

/-- Read a value that may hold others to a given depth. The fuel bounds the steps; twice the
number of lexemes is enough, because of two steps one takes a lexeme away. -/
def readValue : Nat → Nat → List Lexeme → Option (Value × List Lexeme)
  | _, _, .word date :: .blank " " :: .word time :: rest =>
    (scalar (date ++ " " ++ time)).map fun value => (value, rest)
  | _, _, .word word :: rest => (scalar word).map fun value => (value, rest)
  | _, _, .quoted text :: rest => some (.text text, rest)
  | _, _, .block text :: rest => some (.text text, rest)
  | fuel + 1, depth + 1, .mark '[' :: rest => readItems fuel depth [] rest
  | fuel + 1, depth + 1, .mark '\x7b' :: rest =>
    match skipBlanks rest with
    | .mark '\x7d' :: behind => some (.table .inline [], behind)
    | _ => readFields fuel depth [] rest
  | _, _, _ => none

/-- Read the values of a list, up to its closing bracket; `items` holds those that have been
read, the last one first. A comma may follow the last value. -/
def readItems : Nat → Nat → List Value → List Lexeme → Option (Value × List Lexeme)
  | 0, _, _, _ => none
  | fuel + 1, depth, items, lexemes =>
    match skipBreaks lexemes with
    | .mark ']' :: rest => some (.list items.reverse, rest)
    | start =>
      match readValue fuel depth start with
      | none => none
      | some (value, behind) =>
        match skipBreaks behind with
        | .mark ',' :: rest => readItems fuel depth (value :: items) rest
        | .mark ']' :: rest => some (.list (value :: items).reverse, rest)
        | _ => none

/-- Read the settings of a table in braces, up to the closing one. -/
def readFields : Nat → Nat → Entries → List Lexeme → Option (Value × List Lexeme)
  | 0, _, _, _ => none
  | fuel + 1, depth, entries, lexemes =>
    match keyPath lexemes with
    | some (path, .mark '=' :: behind) =>
      match readValue fuel depth (skipBlanks behind) with
      | none => none
      | some (value, rest) =>
        match Entries.enter value path entries, skipBlanks rest with
        | some entries, .mark ',' :: rest => readFields fuel depth entries rest
        | some entries, .mark '\x7d' :: rest => some (.table .inline entries, rest)
        | _, _ => none
    | _ => none

end

/-- What has been read of a document, and the path of the table that is open. -/
structure Document where
  root : Entries := []
  path : List String := []

namespace Document

/-- Open the table of a header. -/
def takeHeader (document : Document) (lexemes : List Lexeme) :
    Option (Document × List Lexeme) :=
  match keyPath lexemes with
  | some (path, .mark ']' :: rest) =>
    (Entries.openAt Entries.openTable path document.root).map fun root => (⟨root, path⟩, rest)
  | _ => none

/-- Open one more table of the row of a header in double brackets. -/
def takeRowHeader (document : Document) (lexemes : List Lexeme) :
    Option (Document × List Lexeme) :=
  match keyPath lexemes with
  | some (path, .mark ']' :: .mark ']' :: rest) =>
    (Entries.openAt Entries.openRow path document.root).map fun root => (⟨root, path⟩, rest)
  | _ => none

/-- Enter a setting into the open table. -/
def takeSetting (document : Document) (lexemes : List Lexeme) :
    Option (Document × List Lexeme) :=
  match keyPath lexemes with
  | some (key, .mark '=' :: behind) =>
    match readValue (2 * behind.length) deepest (skipBlanks behind) with
    | none => none
    | some (value, rest) =>
      (Entries.changeAt (Entries.enter value key) document.path document.root).map fun root =>
        ({ document with root := root }, rest)
  | _ => none

/-- Take one statement in. -/
def takeStatement (document : Document) : List Lexeme → Option (Document × List Lexeme)
  | .mark '[' :: .mark '[' :: rest => document.takeRowHeader rest
  | .mark '[' :: rest => document.takeHeader rest
  | lexemes => document.takeSetting lexemes

/-- Take statements in one after the other, each to the end of a line. The fuel bounds the
steps; one more than the number of lexemes is enough, because each step but the last takes
one away. -/
def takeStatements : Nat → Document → List Lexeme → Option Document
  | 0, _, _ => none
  | fuel + 1, document, lexemes =>
    match skipBlanks lexemes with
    | [] => some document
    | .newline :: rest => takeStatements fuel document rest
    | start =>
      match document.takeStatement start with
      | none => none
      | some (after, behind) =>
        match skipBlanks behind with
        | [] => some after
        | .newline :: rest => takeStatements fuel after rest
        | _ => none

end Document

/-- The characters of a text without the byte order mark it may start with. -/
def withoutMark (text : String) : List Char :=
  match text.toList with
  | '\ufeff' :: rest => rest
  | chars => chars

/-- The table that a text describes. -/
def read (text : String) : Option Entries := do
  let lexemes ← lexemes (withoutMark text)
  let document ← Document.takeStatements (lexemes.length + 1) {} lexemes
  return document.root

end BasicToSharp.Toml
