import BasicToSharp.Diagnostic
import BasicToSharp.Vocabulary

/-!
# Type references

A type reference is a name, qualified or not, with optional type arguments and any
number of array markers: `List(Of Integer)()`. Reading takes the longest reference at the
start of a token list. Writing looks an unqualified name up in the type table and keeps a
qualified one as it is.
-/

namespace BasicToSharp

/-- A type named by `head` and the names of `path` behind it, applied to `arguments`
(none for a plain type), with `ranks` array markers. -/
inductive TypeRef
  | named (head : Token) (path : List Token) (arguments : List TypeRef) (ranks : Nat)

namespace TypeRef

/-- The type written when a declaration names none. -/
def defaultText : String := "object"

/-- The C# name of a type: an unqualified name goes through the type table. -/
def nameText (head : Token) : List Token → String
  | [] => (Vocabulary.dataType? head).getD head
  | path => ".".intercalate (head :: path)

/-- The text of `count` array markers. -/
def rankText (count : Nat) : String := String.join (List.replicate count "[]")

mutual

/-- The C# text of a type reference. -/
def render : TypeRef → String
  | .named head path arguments ranks =>
    let list := ", ".intercalate (renderAll arguments)
    let applied := if arguments.isEmpty then "" else "<" ++ list ++ ">"
    nameText head path ++ applied ++ rankText ranks

/-- The C# texts of a list of type references. -/
def renderAll : List TypeRef → List String
  | [] => []
  | argument :: rest => argument.render :: renderAll rest

end

/-- The number of array markers of a reference. -/
def ranks : TypeRef → Nat
  | .named _ _ _ ranks => ranks

/-- A reference with one array marker fewer: the type of the elements. -/
def element : TypeRef → TypeRef
  | .named head path arguments ranks => .named head path arguments (ranks - 1)

/-- Take the names of a qualified path: pairs of a point and an identifier. -/
def takePath : List Token → List Token × List Token
  | "." :: name :: rest =>
    if Token.isIdentifier name then
      let (path, after) := takePath rest
      (name :: path, after)
    else ([], "." :: name :: rest)
  | rest => ([], rest)

/-- Take the array markers: pairs of parentheses with nothing between them. -/
def takeRanks : List Token → Nat × List Token
  | "(" :: ")" :: rest =>
    let (ranks, after) := takeRanks rest
    (ranks + 1, after)
  | rest => (0, rest)

/-- What is left of the path is no longer than what it was taken from. -/
theorem takePath_length (tokens : List Token) : (takePath tokens).2.length ≤ tokens.length := by
  fun_induction takePath tokens with
  | case1 name rest _ path after taken inductionHypothesis =>
    simp only [taken] at inductionHypothesis
    simp only [List.length_cons]
    omega
  | case2 => simp
  | case3 => simp

/-- What is left of the markers is no longer than what they were taken from. -/
theorem takeRanks_length (tokens : List Token) :
    (takeRanks tokens).2.length ≤ tokens.length := by
  fun_induction takeRanks tokens with
  | case1 rest ranks after taken inductionHypothesis =>
    simp only [taken] at inductionHypothesis
    simp only [List.length_cons]
    omega
  | case2 => simp

/-- What stands behind `(Of`, when a token list starts so. -/
def behindOf : List Token → Option (List Token)
  | "(" :: word :: inner => if Token.isKeyword word "of" then some inner else none
  | _ => none

/-- Type arguments stand behind a parenthesis and an `Of`. -/
theorem exists_of_behindOf {tokens inner : List Token} (opened : behindOf tokens = some inner) :
    ∃ word, tokens = "(" :: word :: inner ∧ Token.isKeyword word "of" = true := by
  unfold behindOf at opened
  split at opened
  · next word behind =>
    split at opened
    · next isOf =>
      cases opened
      exact ⟨word, rfl, isOf⟩
    · cases opened
  · cases opened

/-- What stands behind `(Of` is shorter than the whole. -/
theorem behindOf_length {tokens inner : List Token} (opened : behindOf tokens = some inner) :
    inner.length < tokens.length := by
  obtain ⟨word, rfl, -⟩ := exists_of_behindOf opened
  simp only [List.length_cons]
  omega

/-- The tokens behind something that was read from the start of `tokens`, at least one
token long. -/
abbrev Rest (tokens : List Token) := { rest : List Token // rest.length < tokens.length }

/-- The refusal of a type. -/
def refuse {α : Type} (reason : Reason) : Except Malformed α := .error ⟨.typeName, reason⟩

mutual

/-- Read a type reference at the start of a token list. -/
def readFrom (tokens : List Token) : Except Malformed (TypeRef × Rest tokens) :=
  match tokens with
  | [] => refuse (.expectedType "")
  | head :: rest =>
    have behindName : (takePath rest).2.length ≤ rest.length := takePath_length rest
    if Token.isIdentifier head then
      match opened : behindOf (takePath rest).2 with
      | some inner =>
        have behindOpening := behindOf_length opened
        match readArguments inner with
        | .error cause => .error cause
        | .ok (arguments, ⟨after, shorter⟩) =>
          have behindRanks := takeRanks_length after
          .ok (.named head (takePath rest).1 arguments (takeRanks after).1,
            ⟨(takeRanks after).2, by simp only [List.length_cons]; omega⟩)
      | none =>
        have behindRanks := takeRanks_length (takePath rest).2
        .ok (.named head (takePath rest).1 [] (takeRanks (takePath rest).2).1,
          ⟨(takeRanks (takePath rest).2).2, by simp only [List.length_cons]; omega⟩)
    else refuse (.expectedType head)
  termination_by 2 * tokens.length
  decreasing_by
    simp only [List.length_cons]
    omega

/-- Read the type arguments behind `(Of`, up to the closing parenthesis. -/
def readArguments (tokens : List Token) : Except Malformed (List TypeRef × Rest tokens) :=
  match readFrom tokens with
  | .error cause => .error cause
  | .ok (_, ⟨[], _⟩) => refuse .unclosedTypeList
  | .ok (first, ⟨token :: more, shorter⟩) =>
    have shorter : more.length + 1 < tokens.length := shorter
    if token = "," then
      match readArguments more with
      | .error cause => .error cause
      | .ok (others, ⟨after, less⟩) => .ok (first :: others, ⟨after, by omega⟩)
    else if token = ")" then .ok ([first], ⟨more, by omega⟩)
    else refuse .unclosedTypeList
  termination_by 2 * tokens.length + 1
  decreasing_by all_goals omega

end

/-- Read a type reference at the start of a token list: the reference and the number of
tokens it takes. -/
def read (tokens : List Token) : Except Malformed (TypeRef × Nat) :=
  match readFrom tokens with
  | .error cause => .error cause
  | .ok (reference, rest) => .ok (reference, tokens.length - rest.val.length)

/-- The C# text of the type reference at the start of a token list, and the number of
tokens it takes. -/
def readText (tokens : List Token) : Except Malformed (String × Nat) :=
  (read tokens).map fun (reference, used) => (reference.render, used)

example : (readText ["List", "(", "Of", "Integer", ")", "(", ")", "="]).toOption =
    some ("List<int>[]", 7) := by decide +kernel

end TypeRef

end BasicToSharp
