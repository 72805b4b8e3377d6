import BasicToSharp.Number.Literal
import BasicToSharp.Rule.Condition

/-!
# Loops

Counting loops run until the counter meets the end bound; with literal bounds their
direction is known, otherwise it is decided when the loop runs. The type of the counter
comes from its own `As` clause, from a local of that name, or from the bounds. `Do` loops
test their condition before or behind the body.
-/

namespace BasicToSharp

open Number (Literal)

/-- A number as written; in a decimal loop it is marked as a decimal. -/
def numberText (text : String) (isDecimal : Bool) : String :=
  if isDecimal then text ++ "m" else text

/-- The text of a bound or step. -/
def boundText (tokens : List Token) (isDecimal : Bool) : String :=
  match Literal.read tokens with
  | some _ => numberText (String.join tokens) isDecimal
  | none => Expression.render tokens

/-- The text of a step below zero without its signs. -/
def unsignedText (tokens : List Token) : String :=
  String.ofList ((String.join tokens).toList.dropWhile (· == '-'))

/-- How the counter changes with the given step. -/
def stepIncrement (step : List Token) (isDecimal : Bool) : String :=
  match Literal.read step with
  | some (.integer 1) => "++"
  | some (.integer (-1)) => "--"
  | some literal =>
    if literal.isNegative then " -= " ++ numberText (unsignedText step) isDecimal
    else " += " ++ numberText (String.join step) isDecimal
  | none => " += " ++ Expression.render step

/-- How the counter changes when no step is given: by one, towards the end bound. -/
def unitIncrement (start stop : List Token) : String :=
  match Literal.read start, Literal.read stop with
  | some first, some last => if first.value.lt last.value then "++" else "--"
  | _, _ =>
    " += (" ++ Expression.render start ++ " < " ++ Expression.render stop ++ ") ? 1 : -1"

/-- The type of a counter from its bounds, and whether it is only assumed. -/
def boundsType (start stop : List Token) : String × Bool :=
  match Literal.read start, Literal.read stop with
  | some (.integer _), some (.integer _) => ("int", false)
  | some _, some _ => ("decimal", false)
  | _, _ => ("int", true)

/-- The bounds of a counting loop. -/
structure LoopRange where
  start : List Token
  stop : List Token
  step : Option (List Token)
  deriving DecidableEq, Repr

/-- Read the bounds of a counting loop whose `=` is at position `equals`. -/
def LoopRange.read (tokens : List Token) (equals : Nat) : Reading LoopRange := do
  let toIndex ← Reading.require
    ((Token.findKeyword tokens "To").filter (equals < ·)) .forLoop .missingTo
  let stepIndex := (Token.findKeyword tokens "Step").filter (toIndex < ·)
  let start ← Reading.slice tokens (equals + 1) toIndex
  let stop ← Reading.slice tokens (toIndex + 1) (stepIndex.getD tokens.length)
  let step ← match stepIndex with
    | some index => do pure (some (← Reading.sliceFrom tokens (index + 1)))
    | none => pure none
  if start.isEmpty || stop.isEmpty || step.any List.isEmpty then
    Reading.refuse .forLoop .missingBound
  else return ⟨start, stop, step⟩

/-- The header of a loop: its counter, its line, and whether the type of the counter is
only assumed. -/
structure LoopHeader where
  counter : Token
  line : String
  isAssumed : Bool
  deriving DecidableEq, Repr

/-- The header of a counting loop. `declared` is the type in its own clause and `known`
that of a local of the counter's name, which is then not declared again. -/
def LoopHeader.ofRange (counter : Token) (declared known : Option String)
    (range : LoopRange) : LoopHeader :=
  let (type, isAssumed) := match declared.or known with
    | some type => (type, false)
    | none => boundsType range.start range.stop
  let isDecimal := type == "decimal"
  let increment := match range.step with
    | some step => stepIncrement step isDecimal
    | none => unitIncrement range.start range.stop
  let declaration := if known.isSome && declared.isNone then "" else type ++ " "
  ⟨counter, "for (" ++ declaration ++ counter ++ " = " ++ boundText range.start isDecimal ++
    "; " ++ counter ++ " != " ++ boundText range.stop isDecimal ++ "; " ++ counter ++
    increment ++ ")", isAssumed⟩

/-- Read the header of a counting loop. -/
def LoopHeader.readFor (nesting : Nesting) (tokens : List Token) : Reading LoopHeader := do
  let counter := tokenAt tokens 1
  if Token.isIdentifier counter then
    let (declared, equals) ← Reading.asClause tokens 2
    if tokenAt tokens equals = "=" then
      let range ← LoopRange.read tokens equals
      let known := (nesting.function.bind (·.local? counter)).map Variable.type
      return .ofRange counter declared known range
    else Reading.refuse .forLoop .missingEquals
  else Reading.refuse .forLoop .missingCounter

/-- Read the header of a loop over a collection. -/
def LoopHeader.readForEach (tokens : List Token) : Reading LoopHeader := do
  let item := tokenAt tokens 2
  if Token.isIdentifier item then
    let (declared, index) ← Reading.asClause tokens 3
    if Token.isKeyword (tokenAt tokens index) "in" then
      let collection ← Reading.sliceFrom tokens (index + 1)
      if collection.isEmpty then Reading.refuse .forEachLoop .missingCollection
      else
        let content :=
          declared.getD "var" ++ " " ++ item ++ " in " ++ Expression.render collection
        return ⟨item, blockHeader "foreach" content, false⟩
    else Reading.refuse .forEachLoop .missingIn
  else Reading.refuse .forEachLoop .missingLoopVariable

/-- Read the header of a `For` or `For Each` loop. -/
def LoopHeader.read (nesting : Nesting) (tokens : List Token) : Reading LoopHeader :=
  if Token.isKeyword (tokenAt tokens 1) "each" then LoopHeader.readForEach tokens
  else LoopHeader.readFor nesting tokens

/-- The kind and header of a `Do` line. -/
def readDo (tokens : List Token) : Reading (DoKind × String) := do
  let keyword := tokenAt tokens 1
  if keyword = "" then return (.postTest, "do")
  else if Token.isKeyword keyword "while" then
    let condition ← conditionText .doWhile (← Reading.sliceFrom tokens 2)
    return (.preTest, blockHeader "while" condition)
  else if Token.isKeyword keyword "until" then
    let condition ← negationText .doUntil (← Reading.sliceFrom tokens 2)
    return (.preTest, blockHeader "while" condition)
  else Reading.refuse .doLoop (.unexpected keyword)

/-- The line that a `Loop` line becomes, given the kind of the innermost `Do`. A loop that
has tested its condition before the body only needs its brace. -/
def readLoopEnd (kind : Option DoKind) (tokens : List Token) : Reading String := do
  let keyword := tokenAt tokens 1
  if kind = some .preTest then return "\x7d"
  else if keyword = "" then return loopFooter "true"
  else if Token.isKeyword keyword "until" then
    return loopFooter (← negationText .loopUntil (← Reading.sliceFrom tokens 2))
  else if Token.isKeyword keyword "while" then
    return loopFooter (← conditionText .loopWhile (← Reading.sliceFrom tokens 2))
  else Reading.refuse .loopEnd (.unexpected keyword)

namespace Rule

/-- `For` and `For Each` lines. -/
def forLoop (tokens : List Token) : Rule Unit := do
  let header ← read (LoopHeader.read (← get).nesting tokens)
  if header.isAssumed then report (.assumedIntegerBounds header.counter)
  renest fun nesting =>
    { nesting with
      counters := header.counter :: nesting.counters
      blocks := .forBlock :: nesting.blocks }
  openBrace header.line

/-- `Next` lines, which close a `For`, and `Wend` lines, which close a `While`. -/
def nextLoop (tokens : List Token) : Rule Unit := do
  let keyword ← read (Reading.token tokens 0)
  let kind : BlockKind := if keyword = "Wend" then .whileBlock else .forBlock
  if (← get).nesting.hasBlock kind then
    renest (·.closeBlock kind)
    if kind = .forBlock then
      renest fun nesting => { nesting with counters := nesting.counters.tail }
  else report (.unmatchedClose keyword)
  emit "\x7d"

/-- `Do` lines. -/
def doLoop (tokens : List Token) : Rule Unit := do
  let (kind, header) ← read (readDo tokens)
  renest fun nesting => { nesting with doLoops := kind :: nesting.doLoops }
  openBrace header

/-- `Loop` lines. -/
def loopEnd (tokens : List Token) : Rule Unit := do
  let nesting := (← get).nesting
  let footer ← read (readLoopEnd nesting.doLoops.head? tokens)
  if nesting.insideDoLoop then
    renest fun nesting => { nesting with doLoops := nesting.doLoops.tail }
  else report (.unmatchedClose "Loop")
  emit footer

/-- `While` lines, whose keyword is at position `keyword`. -/
def whileLoop (tokens : List Token) (keyword : Nat) : Rule Unit := do
  let condition ← read do conditionText .whileLoop (← Reading.sliceFrom tokens (keyword + 1))
  renest fun nesting => { nesting with blocks := .whileBlock :: nesting.blocks }
  openBrace (blockHeader "while" condition)

end Rule

end BasicToSharp
