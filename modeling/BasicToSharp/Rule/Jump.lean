import BasicToSharp.Expression
import BasicToSharp.Rule.Basic

/-!
# Jumps

`Return` and `Exit` lines. Leaving a function, sub or property returns; leaving a loop
breaks it off.
-/

namespace BasicToSharp

/-- The statement for a `Return` line. -/
def returnStatement (tokens : List Token) : Reading String := do
  let value ← Reading.sliceFrom tokens 1
  if value.isEmpty then return "return;"
  else return "return " ++ Expression.render value ++ ";"

/-- The statement for an `Exit` line. -/
def exitStatement (tokens : List Token) : Reading String :=
  match Text.lookupForm (tokenAt tokens 1) with
  | "sub" | "function" | "property" => .ok "return;"
  | "for" | "do" | "while" => .ok "break;"
  | _ => Reading.refuse .exitStatement (.cannotExit (tokenAt tokens 1))

namespace Rule

/-- `Return` lines. -/
def returnJump (tokens : List Token) : Rule Unit := do
  emit (← read (returnStatement tokens))

/-- `Exit` lines. -/
def exitJump (tokens : List Token) : Rule Unit := do
  emit (← read (exitStatement tokens))

end Rule

end BasicToSharp
