import BasicToSharp.Rule.Enumeration

/-!
# Lines that are passed through

A line that no other rule takes is written with its expression words replaced, spaced and
ended by a semicolon. Since it is meant to be looked at, every word in it that nobody
knows is reported, once a line. Inside an enum the line is an enumerator.
-/

namespace BasicToSharp

/-- The distinct words of a line that pass the test, in order. Words in literals and
member names behind a point are skipped; `found` holds the words so far, last one first,
and `previous` the token before. -/
def collectWords (test : Token → Bool) (found : List Token) (previous : Token) :
    List Token.Marked → List Token
  | [] => found.reverse
  | ⟨token, quoted⟩ :: rest =>
    if !quoted && previous != "." && Token.isIdentifier token && test token &&
        !found.contains token then
      collectWords test (token :: found) token rest
    else collectWords test found token rest

/-- The words of a line that are neither vocabulary nor known to the draft. -/
def Draft.unknownWords (draft : Draft) (tokens : List Token) : List Token :=
  collectWords (fun word => Vocabulary.isUnregistered word && !draft.knows word) [] ""
    (Token.mark tokens)

/-- Characters behind which no semicolon is needed. -/
def statementEnds : List Char := "\x7b\x7d,;".toList

/-- The line of a passed-through statement. -/
def statementLine (tokens : List Token) : String :=
  let line := Expression.render tokens
  match line.toList.getLast? with
  | none => line
  | some last => if statementEnds.contains last then line else line ++ ";"

namespace Rule

/-- Lines that no other rule takes. -/
def passThrough (tokens : List Token) : Rule Unit := do
  let draft ← get
  if draft.nesting.insideEnum then enumerator tokens
  else
    if draft.options.reportUnregistered then
      (draft.unknownWords tokens).forM fun word => report (.unregisteredWord word)
    emit (statementLine tokens)

end Rule

end BasicToSharp
