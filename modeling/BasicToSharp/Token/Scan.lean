import BasicToSharp.Token.Quoted

/-!
# From a line to its tokens

Scanning walks the characters of a trimmed line once. Outside literals it gathers a
run of operator characters or a word; a character of the other kind, a grouping
symbol or a quote ends the run. A quote opens a literal, which is carried through
untouched as one token up to its closing quote. A doubled quote inside a literal
stays part of it, and a literal that is never closed reaches to the end of the line.
-/

namespace BasicToSharp.Token

/-- The unfinished run of a scan. Characters are held last one first; an operator run
and a word are never open together. -/
inductive Run
  | none
  | operator (reversed : List Char)
  | word (reversed : List Char)
  deriving DecidableEq, Repr

/-- The token of a finished run, if there is one. -/
def Run.tokens : Run → List Token
  | .none => []
  | .operator reversed => [String.ofList reversed.reverse]
  | .word reversed => [String.ofList reversed.reverse]

/-- Whether a scan is in ordinary text or inside a literal, whose characters so far are
held last one first. -/
inductive Mode
  | code (run : Run)
  | literal (reversed : List Char)
  deriving DecidableEq, Repr

/-- The token of a literal's text; an empty literal has none. -/
def literalTokens (reversed : List Char) : List Token :=
  if reversed.isEmpty then [] else [String.ofList reversed.reverse]

/-- Add one character of ordinary text to a scan: the tokens that it finishes and the
run that is open after it. -/
def Run.extend (run : Run) (c : Char) : List Token × Run :=
  match CharClass.of c, run with
  | .operator, .operator reversed => ([], .operator (c :: reversed))
  | .operator, run => (run.tokens, .operator [c])
  | .word, .word reversed => ([], .word (c :: reversed))
  | .word, run => (run.tokens, .word [c])
  | .grouping, run => (run.tokens ++ [String.singleton c], .none)
  | .stray, run => ([], run)

/-- The tokens of a character list, read from the given mode. -/
def scan : Mode → List Char → List Token
  | .code run, [] => run.tokens
  | .code run, c :: rest =>
    if c = '\x22' then run.tokens ++ quote :: scan (.literal []) rest
    else
      let (finished, run) := run.extend (if Text.isBlank c then ' ' else c)
      finished ++ scan (.code run) rest
  | .literal reversed, '\x22' :: '\x22' :: rest =>
    scan (.literal ('\x22' :: '\x22' :: reversed)) rest
  | .literal reversed, '\x22' :: rest =>
    literalTokens reversed ++ quote :: scan (.code .none) rest
  | .literal reversed, c :: rest => scan (.literal (c :: reversed)) rest
  | .literal reversed, [] => literalTokens reversed

/-- The raw tokens of a line, single spaces included. -/
def split (line : String) : List Token :=
  scan (.code .none) (Text.trimBlanks line.toList)

/-- Drop blanks outside literals, and the tokens that are left empty by it. -/
def dropBlanks (tokens : List Token) : List Token :=
  (mark tokens).filterMap fun marked =>
    if marked.quoted then some marked.token
    else
      let kept := marked.token.toList.filter (!Text.isBlank ·)
      if kept.isEmpty then none else some (String.ofList kept)

/-- The tokens of a line. -/
def tokenize (line : String) : List Token := dropBlanks (split line)

example : tokenize "Dim x = a+b*(\"c, d\")" =
    ["Dim", "x", "=", "a", "+", "b", "*", "(", "\"", "c, d", "\"", ")"] := by decide
example : tokenize "s = \"say \"\"hi\"\"" =
    ["s", "=", "\"", "say \"\"hi\"\""] := by decide

end BasicToSharp.Token
