import BasicToSharp.Number.Literal
import BasicToSharp.Rule.Basic

/-!
# Lines that differ only inside literals

Two token lists are alike when they are the same token for token, except that the tokens
strictly inside literals may be any other tokens that are no quotes. The two lists then
have their quotes at the same positions, and a walk along both is inside a literal, or
outside, at the same time. A position is outside when an even number of quotes stands
before it: there both lists have the same token, and what follows is alike again.

Everything that looks at a line outside its literals (keywords, brackets, commas, type
names, numbers) finds the same in two lists that are alike. Nothing is assumed about
literals being closed.
-/

namespace BasicToSharp.Token

/-- Whether a walk that starts inside a literal or outside is inside after these tokens. -/
def insideAfter (inside : Bool) (tokens : List Token) : Bool :=
  tokens.foldl (fun inside token => if token = quote then !inside else inside) inside

/-- True of a position before which every literal has been closed. -/
def Outside (tokens : List Token) (index : Nat) : Prop :=
  insideAfter false (tokens.take index) = false

/-- The same tokens, except for those strictly inside literals. The walk along both starts
inside a literal or outside one. -/
inductive AlikeFrom : Bool → List Token → List Token → Prop
  | nil (inside : Bool) : AlikeFrom inside [] []
  | toggle {inside : Bool} {left right : List Token} (rest : AlikeFrom (!inside) left right) :
      AlikeFrom inside (quote :: left) (quote :: right)
  | code {token : Token} {left right : List Token} (plain : token ≠ quote)
      (rest : AlikeFrom false left right) : AlikeFrom false (token :: left) (token :: right)
  | literal {one other : Token} {left right : List Token} (plain : one ≠ quote)
      (plain' : other ≠ quote) (rest : AlikeFrom true left right) :
      AlikeFrom true (one :: left) (other :: right)

/-- Two lines, both read from outside any literal, that differ at most inside literals. -/
abbrev Alike (left right : List Token) : Prop := AlikeFrom false left right

section Walk

variable {inside : Bool} {left right : List Token} {index : Nat}

/-- Behind no tokens one is where one was. -/
@[simp] theorem insideAfter_nil (inside : Bool) : insideAfter inside [] = inside := rfl

/-- A quote changes sides, and any other token stays on its side. -/
@[simp] theorem insideAfter_cons (inside : Bool) (token : Token) (rest : List Token) :
    insideAfter inside (token :: rest) =
      insideAfter (if token = quote then !inside else inside) rest := rfl

/-- Two stretches of tokens are passed one after the other. -/
theorem insideAfter_append (inside : Bool) (first second : List Token) :
    insideAfter inside (first ++ second) = insideAfter (insideAfter inside first) second :=
  List.foldl_append

/-- Tokens without a quote among them leave the walk as it is. -/
theorem insideAfter_of_not_mem {tokens : List Token} (plain : quote ∉ tokens) :
    insideAfter inside tokens = inside := by
  induction tokens with
  | nil => rfl
  | cons token rest inductionHypothesis =>
    have differs : token ≠ quote := fun same => plain (by simp [same])
    have plainRest : quote ∉ rest := fun member => plain (List.mem_cons_of_mem _ member)
    simp [differs, inductionHypothesis plainRest]

/-- Every list is alike to itself. -/
theorem AlikeFrom.refl (inside : Bool) (tokens : List Token) :
    AlikeFrom inside tokens tokens := by
  induction tokens generalizing inside with
  | nil => exact .nil inside
  | cons token rest inductionHypothesis =>
    by_cases isQuote : token = quote
    · rw [isQuote]
      exact .toggle (inductionHypothesis (!inside))
    · cases inside with
      | false => exact .code isQuote (inductionHypothesis false)
      | true => exact .literal isQuote isQuote (inductionHypothesis true)

/-- Being alike goes both ways. -/
theorem AlikeFrom.symm (alike : AlikeFrom inside left right) : AlikeFrom inside right left := by
  induction alike with
  | nil inside => exact .nil inside
  | toggle _ inductionHypothesis => exact .toggle inductionHypothesis
  | code plain _ inductionHypothesis => exact .code plain inductionHypothesis
  | literal plain plain' _ inductionHypothesis => exact .literal plain' plain inductionHypothesis

/-- Lists that are alike have as many tokens as each other. -/
theorem AlikeFrom.length_eq (alike : AlikeFrom inside left right) :
    left.length = right.length := by
  induction alike with
  | nil => rfl
  | toggle _ inductionHypothesis => simp [inductionHypothesis]
  | code _ _ inductionHypothesis => simp [inductionHypothesis]
  | literal _ _ _ inductionHypothesis => simp [inductionHypothesis]

/-- The first tokens of lists that are alike are alike. -/
theorem AlikeFrom.take (alike : AlikeFrom inside left right) (count : Nat) :
    AlikeFrom inside (left.take count) (right.take count) := by
  induction alike generalizing count with
  | nil inside => simpa using AlikeFrom.nil inside
  | @toggle inside _ _ _ inductionHypothesis =>
    cases count with
    | zero => exact .nil inside
    | succ count => exact .toggle (inductionHypothesis count)
  | code plain _ inductionHypothesis =>
    cases count with
    | zero => exact .nil false
    | succ count => exact .code plain (inductionHypothesis count)
  | literal plain plain' _ inductionHypothesis =>
    cases count with
    | zero => exact .nil true
    | succ count => exact .literal plain plain' (inductionHypothesis count)

/-- What is left of both lists is alike, read from where the dropped tokens end. -/
theorem AlikeFrom.drop (alike : AlikeFrom inside left right) (count : Nat) :
    AlikeFrom (insideAfter inside (left.take count)) (left.drop count) (right.drop count) := by
  induction alike generalizing count with
  | nil inside => simpa using AlikeFrom.nil inside
  | @toggle inside _ _ rest inductionHypothesis =>
    cases count with
    | zero => exact .toggle rest
    | succ count => simpa using inductionHypothesis count
  | code plain rest inductionHypothesis =>
    cases count with
    | zero => exact .code plain rest
    | succ count => simpa [plain] using inductionHypothesis count
  | literal plain plain' rest inductionHypothesis =>
    cases count with
    | zero => exact .literal plain plain' rest
    | succ count => simpa [plain] using inductionHypothesis count

/-- Lists that are alike stay so when tokens that are alike are put behind them. -/
theorem AlikeFrom.append {moreLeft moreRight : List Token}
    (alike : AlikeFrom inside left right)
    (more : AlikeFrom (insideAfter inside left) moreLeft moreRight) :
    AlikeFrom inside (left ++ moreLeft) (right ++ moreRight) := by
  induction alike with
  | nil => exact more
  | toggle _ inductionHypothesis => exact .toggle (inductionHypothesis (by simpa using more))
  | code plain _ inductionHypothesis =>
    exact .code plain (inductionHypothesis (by simpa [plain] using more))
  | literal plain plain' _ inductionHypothesis =>
    exact .literal plain plain' (inductionHypothesis (by simpa [plain] using more))

/-- Lists that are alike outside a literal start with the same token. -/
theorem Alike.head?_eq (alike : Alike left right) : left.head? = right.head? := by
  cases alike <;> rfl

/-- Only the empty list is alike to the empty list. -/
theorem Alike.of_nil (alike : Alike [] right) : right = [] := by
  cases alike
  rfl

/-- Behind the same token outside literals both lists go on alike. -/
theorem Alike.of_cons {token : Token} (alike : Alike (token :: left) right)
    (plain : token ≠ quote) : ∃ more, right = token :: more ∧ Alike left more := by
  cases alike with
  | toggle => exact absurd rfl plain
  | code _ rest => exact ⟨_, rfl, rest⟩

/-- A list that is alike to one with a quote in front has a quote in front. -/
theorem Alike.of_quote (alike : Alike (quote :: left) right) :
    ∃ more, right = quote :: more ∧ AlikeFrom true left more := by
  cases alike with
  | toggle rest => exact ⟨_, rfl, rest⟩
  | code plain => exact absurd rfl plain

/-- Both lists are empty, or both have the same first token. -/
theorem Alike.cons_iff {token : Token} (alike : Alike left right) :
    (∃ more, left = token :: more) ↔ ∃ more, right = token :: more := by
  have head := Alike.head?_eq alike
  rw [← List.head?_eq_some_iff, ← List.head?_eq_some_iff, head]

/-- The two lists are the same, or both hold a quote. -/
theorem AlikeFrom.eq_or_mem (alike : AlikeFrom inside left right) (outside : inside = false) :
    left = right ∨ quote ∈ left ∧ quote ∈ right := by
  induction alike with
  | nil => exact .inl rfl
  | toggle => exact .inr ⟨List.mem_cons_self, List.mem_cons_self⟩
  | code _ _ inductionHypothesis =>
    rcases inductionHypothesis outside with same | ⟨inLeft, inRight⟩
    · exact .inl (by rw [same])
    · exact .inr ⟨List.mem_cons_of_mem _ inLeft, List.mem_cons_of_mem _ inRight⟩
  | literal => cases outside

/-- Both lists start with the same tokens, none of them a quote, and what is left of them
is alike. -/
def SameStart (left right restLeft restRight : List Token) : Prop :=
  ∃ taken, quote ∉ taken ∧ left = taken ++ restLeft ∧ right = taken ++ restRight ∧
    Alike restLeft restRight

/-- With nothing taken off, the lists themselves are left. -/
theorem SameStart.none (alike : Alike left right) : SameStart left right left right :=
  ⟨[], by simp, rfl, rfl, alike⟩

/-- A token that both lists start with joins what is taken off. -/
theorem SameStart.cons {token : Token} {restLeft restRight : List Token}
    (plain : token ≠ quote) (same : SameStart left right restLeft restRight) :
    SameStart (token :: left) (token :: right) restLeft restRight := by
  obtain ⟨taken, free, rfl, rfl, alike⟩ := same
  exact ⟨token :: taken, by simp [free, plain.symm], rfl, rfl, alike⟩

/-- What is taken off in two goes can be taken off in one. -/
theorem SameStart.trans {middleLeft middleRight restLeft restRight : List Token}
    (first : SameStart left right middleLeft middleRight)
    (second : SameStart middleLeft middleRight restLeft restRight) :
    SameStart left right restLeft restRight := by
  obtain ⟨taken, free, rfl, rfl, -⟩ := first
  obtain ⟨further, free', rfl, rfl, alike⟩ := second
  exact ⟨taken ++ further, by simp [free, free'], by simp, by simp, alike⟩

end Walk

section Position

variable {left right tokens : List Token} {index : Nat}

/-- The start of a line is outside literals. -/
theorem outside_zero (tokens : List Token) : Outside tokens 0 := rfl

/-- A position stays outside across a token that is no quote. -/
theorem Outside.succ (outside : Outside tokens index) (plain : tokenAt tokens index ≠ quote) :
    Outside tokens (index + 1) := by
  unfold Outside at outside ⊢
  rw [List.take_add_one, insideAfter_append, outside]
  cases present : tokens[index]? with
  | none => rfl
  | some token =>
    have differs : token ≠ quote := by simpa [tokenAt, present] using plain
    simp [differs]

/-- A position counted from an outside position is outside in the whole list. -/
theorem Outside.add {further : Nat} (outside : Outside tokens index)
    (behind : Outside (tokens.drop index) further) : Outside tokens (index + further) := by
  unfold Outside at outside behind ⊢
  rw [List.take_add, insideAfter_append, outside, behind]

/-- Positions behind tokens without a quote are outside. -/
theorem outside_of_not_mem (plain : quote ∉ tokens.take index) : Outside tokens index :=
  insideAfter_of_not_mem plain

/-- From a position outside literals on, the rests are alike too. -/
theorem Alike.drop (alike : Alike left right) (outside : Outside left index) :
    Alike (left.drop index) (right.drop index) := by
  have rest := AlikeFrom.drop alike index
  rwa [show insideAfter false (left.take index) = false from outside] at rest

/-- Outside literals both lists have the same token. -/
theorem Alike.tokenAt_eq (alike : Alike left right) (outside : Outside left index) :
    tokenAt left index = tokenAt right index := by
  have head := (Alike.drop alike outside).head?_eq
  simp only [List.head?_drop] at head
  simp [tokenAt, List.getD_eq_getElem?_getD, head]

end Position

section Search

variable {inside : Bool} {left right tokens : List Token} {index : Nat}

/-- A test of unquoted tokens holds first at the same position of both lists. -/
theorem AlikeFrom.findIdx?_eq (alike : AlikeFrom inside left right) (test : Token → Bool) :
    (markFrom inside left).findIdx? (fun marked => !marked.quoted && test marked.token) =
      (markFrom inside right).findIdx? (fun marked => !marked.quoted && test marked.token) := by
  induction alike with
  | nil => rfl
  | toggle _ inductionHypothesis => simp [markFrom, List.findIdx?_cons, inductionHypothesis]
  | code plain _ inductionHypothesis =>
    simp [markFrom, plain, List.findIdx?_cons, inductionHypothesis]
  | literal plain plain' _ inductionHypothesis =>
    simp [markFrom, plain, plain', List.findIdx?_cons, inductionHypothesis]

/-- A search outside literals ends at the same position. -/
theorem Alike.findUnquoted_eq (alike : Alike left right) (test : Token → Bool) :
    findUnquoted left test = findUnquoted right test := AlikeFrom.findIdx?_eq alike test

/-- What a search among marked tokens finds is a token of the list, outside literals, that
passes the test and is no quote. -/
theorem findIdx?_markFrom {test : Token → Bool}
    (found : (markFrom inside tokens).findIdx?
      (fun marked => !marked.quoted && test marked.token) = some index) :
    index < tokens.length ∧ insideAfter inside (tokens.take index) = false ∧
      tokenAt tokens index ≠ quote ∧ test (tokenAt tokens index) = true := by
  induction tokens generalizing inside index with
  | nil => simp [markFrom] at found
  | cons token rest inductionHypothesis =>
    by_cases isQuote : token = quote
    · simp only [markFrom, isQuote, if_true, List.findIdx?_cons, Bool.not_true, Bool.false_and,
        Bool.false_eq_true, if_false, Option.map_eq_some_iff] at found
      obtain ⟨inner, found, rfl⟩ := found
      obtain ⟨short, outside, plain, passes⟩ := inductionHypothesis found
      refine ⟨by simpa using short, ?_, ?_, ?_⟩
      · simpa [isQuote] using outside
      · simpa [tokenAt] using plain
      · simpa [tokenAt] using passes
    · by_cases passed : (!inside && test token) = true
      · simp only [markFrom, isQuote, if_false, List.findIdx?_cons, passed, if_true,
          Option.some.injEq] at found
        subst found
        simp only [Bool.and_eq_true, Bool.not_eq_true'] at passed
        exact ⟨by simp, by simp [passed.1], by simpa [tokenAt] using isQuote,
          by simpa [tokenAt] using passed.2⟩
      · simp only [markFrom, isQuote, if_false, List.findIdx?_cons, passed, Bool.false_eq_true,
          Option.map_eq_some_iff] at found
        obtain ⟨inner, found, rfl⟩ := found
        obtain ⟨short, outside, plain, passes⟩ := inductionHypothesis found
        refine ⟨by simpa using short, ?_, ?_, ?_⟩
        · simpa [isQuote] using outside
        · simpa [tokenAt] using plain
        · simpa [tokenAt] using passes

/-- A found token lies within the line, outside literals, and is no quote. -/
theorem findUnquoted_some {test : Token → Bool} (found : findUnquoted tokens test = some index) :
    index < tokens.length ∧ Outside tokens index ∧ tokenAt tokens index ≠ quote ∧
      test (tokenAt tokens index) = true := findIdx?_markFrom found

end Search

section Brackets

variable {inside : Bool} {left right tokens : List Token} {index : Nat}

/-- Parentheses are matched outside literals, so they close at the same position. -/
theorem AlikeFrom.closingIn_eq (alike : AlikeFrom inside left right) (depth : Nat) :
    closingIn depth (markFrom inside left) = closingIn depth (markFrom inside right) := by
  induction alike generalizing depth with
  | nil => rfl
  | toggle _ inductionHypothesis => simp [markFrom, closingIn, inductionHypothesis]
  | code plain _ inductionHypothesis => simp [markFrom, plain, closingIn, inductionHypothesis]
  | literal plain plain' _ inductionHypothesis =>
    simp [markFrom, plain, plain', closingIn, inductionHypothesis]

/-- A parenthesis outside literals is closed at the same position. -/
theorem Alike.closing_eq (alike : Alike left right) (outside : Outside left index) :
    closing left index = closing right index := by
  unfold closing mark
  rw [AlikeFrom.closingIn_eq (Alike.drop alike outside)]

/-- The closing parenthesis is a token of the list outside its literals. -/
theorem closingIn_markFrom {depth : Nat}
    (found : closingIn depth (markFrom inside tokens) = some index) :
    index < tokens.length ∧ insideAfter inside (tokens.take index) = false ∧
      tokenAt tokens index = ")" := by
  induction tokens generalizing inside depth index with
  | nil => simp [markFrom, closingIn] at found
  | cons token rest inductionHypothesis =>
    -- Every case but the closing one goes on behind the token.
    have behind : ∀ {nextDepth : Nat} {nextInside : Bool},
        (closingIn nextDepth (markFrom nextInside rest)).map (· + 1) = some index →
        nextInside = (if token = quote then !inside else inside) →
        index < (token :: rest).length ∧
          insideAfter inside ((token :: rest).take index) = false ∧
          tokenAt (token :: rest) index = ")" := by
      intro nextDepth nextInside later same
      obtain ⟨inner, inRest, rfl⟩ := Option.map_eq_some_iff.mp later
      obtain ⟨short, outside, closes⟩ := inductionHypothesis inRest
      exact ⟨by simpa using short, by simpa [same] using outside, by simpa [tokenAt] using closes⟩
    by_cases isQuote : token = quote
    · simp only [markFrom, isQuote, if_true, closingIn] at found
      exact behind found (by simp [isQuote])
    · cases inside with
      | true =>
        simp only [markFrom, isQuote, if_false, closingIn, if_true] at found
        exact behind found (by simp [isQuote])
      | false =>
        simp only [markFrom, isQuote, if_false, closingIn, Bool.false_eq_true] at found
        split at found
        · exact behind found (by simp [isQuote])
        · split at found
          · next closes =>
            split at found
            · obtain rfl := Option.some.inj found
              exact ⟨by simp, rfl, by simpa [tokenAt] using closes⟩
            · exact behind found (by simp [isQuote])
          · exact behind found (by simp [isQuote])

/-- The parenthesis that matches one at an outside position stands behind it, within the
line and outside literals. -/
theorem closing_some {close : Nat} (opened : tokenAt tokens index = "(")
    (outside : Outside tokens index) (found : closing tokens index = some close) :
    index < close ∧ close < tokens.length ∧ Outside tokens close ∧
      tokenAt tokens close = ")" := by
  obtain ⟨inner, inRest, rfl⟩ := Option.map_eq_some_iff.mp found
  obtain ⟨short, outsideInner, closes⟩ := closingIn_markFrom inRest
  have closes : tokenAt tokens (inner + index) = ")" := by
    simpa [tokenAt, List.getD_eq_getElem?_getD, Nat.add_comm] using closes
  have positive : inner ≠ 0 := by
    rintro rfl
    rw [Nat.zero_add, opened] at closes
    exact absurd closes (by decide)
  refine ⟨by omega, by simp only [List.length_drop] at short; omega, ?_, closes⟩
  rw [Nat.add_comm]
  exact outside.add outsideInner

/-- Two lists of parts that are alike part for part. -/
inductive AlikeParts : List (List Token) → List (List Token) → Prop
  | nil : AlikeParts [] []
  | cons {left right : List Token} {moreLeft moreRight : List (List Token)}
      (alike : Alike left right) (more : AlikeParts moreLeft moreRight) :
      AlikeParts (left :: moreLeft) (right :: moreRight)

/-- Splitting at commas keeps the parts alike. The parts held so far are alike as well, and
the walk along them ends where that along the rest of the list begins. -/
theorem AlikeFrom.splitCommas_alike (alike : AlikeFrom inside left right) (depth : Nat)
    (part part' : List Token) (held : Alike part.reverse part'.reverse)
    (ends : insideAfter false part.reverse = inside) :
    AlikeParts (splitCommas depth part (markFrom inside left))
      (splitCommas depth part' (markFrom inside right)) := by
  induction alike generalizing depth part part' with
  | nil inside => exact .cons held .nil
  | toggle rest inductionHypothesis =>
    simp only [markFrom, if_true, splitCommas]
    apply inductionHypothesis
    · simp only [List.reverse_cons]
      exact AlikeFrom.append held (.toggle (.nil _))
    · simp [insideAfter_append, ends]
  | @code token left right plain rest inductionHypothesis =>
    -- A token outside literals is added to both parts, whatever becomes of the depth.
    have extended : ∀ nextDepth, AlikeParts
        (splitCommas nextDepth (token :: part) (markFrom false left))
        (splitCommas nextDepth (token :: part') (markFrom false right)) := by
      intro nextDepth
      apply inductionHypothesis
      · simp only [List.reverse_cons]
        exact AlikeFrom.append held (by rw [ends]; exact .code plain (.nil _))
      · simp [insideAfter_append, ends, plain]
    simp only [markFrom, plain, if_false, splitCommas, Bool.false_eq_true]
    split
    · exact extended _
    · split
      · exact extended _
      · split
        · exact .cons held (inductionHypothesis depth [] [] (.nil false) rfl)
        · exact extended _
  | literal plain plain' rest inductionHypothesis =>
    simp only [markFrom, plain, plain', if_false, splitCommas, if_true]
    apply inductionHypothesis
    · simp only [List.reverse_cons]
      exact AlikeFrom.append held (by rw [ends]; exact .literal plain plain' (.nil _))
    · simp [insideAfter_append, ends, plain]

/-- The parts between commas are alike, one by one. -/
theorem Alike.commaParts_alike (alike : Alike left right) :
    AlikeParts (commaParts left) (commaParts right) := by
  have sameLength := AlikeFrom.length_eq alike
  unfold commaParts mark
  by_cases empty : left = []
  · have emptyRight : right = [] := List.length_eq_zero_iff.mp (by simp [← sameLength, empty])
    simpa [empty, emptyRight] using AlikeParts.nil
  · have filled : right ≠ [] := by
      rintro rfl
      exact empty (List.length_eq_zero_iff.mp (by simpa using sameLength))
    simpa [empty, filled] using AlikeFrom.splitCommas_alike alike 0 [] [] (.nil false) rfl

end Brackets

section Ampersands

variable {inside : Bool} {left right : List Token}

/-- Ampersands that join values are found and replaced alike. The token before is the same
for both unless the walk is inside a literal, where it is not looked at. -/
theorem AlikeFrom.joinAmpersands_alike (alike : AlikeFrom inside left right)
    {previous previous' : Token} (same : inside = false → previous = previous') :
    AlikeFrom inside (joinAmpersands previous (markFrom inside left))
      (joinAmpersands previous' (markFrom inside right)) := by
  induction alike generalizing previous previous' with
  | nil inside => exact .nil inside
  | toggle rest inductionHypothesis =>
    simp only [markFrom, if_true, joinAmpersands, Bool.not_true, Bool.false_and,
      Bool.false_eq_true, if_false]
    exact .toggle (inductionHypothesis fun _ => rfl)
  | @code token left right plain rest inductionHypothesis =>
    have next : (markFrom false left).head?.map Marked.token =
        (markFrom false right).head?.map Marked.token := by
      rw [← List.head?_map, ← List.head?_map, markFrom_map_token, markFrom_map_token,
        Alike.head?_eq rest]
    simp only [markFrom, plain, if_false, joinAmpersands, next, same rfl]
    apply AlikeFrom.code _ (inductionHypothesis fun _ => rfl)
    split
    · decide
    · exact plain
  | literal plain plain' rest inductionHypothesis =>
    simp only [markFrom, plain, plain', if_false, joinAmpersands, Bool.not_true,
      Bool.false_and, Bool.false_eq_true]
    exact .literal plain plain' (inductionHypothesis (by simp))

/-- Rewriting `&` as `+` outside literals keeps lists alike. -/
theorem Alike.concatenations_alike (alike : Alike left right) :
    Alike (concatenations left) (concatenations right) :=
  AlikeFrom.joinAmpersands_alike alike fun _ => rfl

end Ampersands

section Numbers

variable {left right : List Token}

/-- A list with a quote spells a text with a quote character. -/
theorem quoteChar_mem_join {tokens : List Token} (quoted : quote ∈ tokens) :
    quoteChar ∈ (String.join tokens).toList := by
  simp only [String.toList_join, List.mem_flatMap]
  exact ⟨quote, quoted, by decide⟩

/-- No text with a quote character spells digits. -/
theorem readDigits_quoted {chars : List Char} (quoted : quoteChar ∈ chars) :
    Number.readDigits chars = none := by
  have strange : chars.all Char.isDigit = false := by
    rw [List.all_eq_false]
    exact ⟨quoteChar, quoted, by decide⟩
  simp [Number.readDigits, strange]

/-- A text with a quote in it is no integer. -/
theorem readInteger_quoted {text : String} (quoted : quoteChar ∈ text.toList) :
    Number.readInteger text = none := by
  unfold Number.readInteger
  split
  · next digits shape =>
    have behind : quoteChar ∈ digits := List.mem_of_ne_of_mem (by decide) (shape ▸ quoted)
    simp [readDigits_quoted behind]
  · next digits shape =>
    have behind : quoteChar ∈ digits := List.mem_of_ne_of_mem (by decide) (shape ▸ quoted)
    simp [readDigits_quoted behind]
  · simp [readDigits_quoted quoted]

/-- Characters with a quote among them are no exponent. -/
theorem readExponent_quoted {chars : List Char} (quoted : quoteChar ∈ chars) :
    Number.readExponent chars = none := by
  unfold Number.readExponent
  split
  · simp at quoted
  · next mark rest =>
    split
    · next isMark =>
      have behind : quoteChar ∈ rest := by
        refine List.mem_of_ne_of_mem ?_ quoted
        rcases isMark with rfl | rfl <;> decide
      split
      · next digits =>
        simp [readDigits_quoted (List.mem_of_ne_of_mem (by decide) behind : quoteChar ∈ digits)]
      · next digits =>
        simp [readDigits_quoted (List.mem_of_ne_of_mem (by decide) behind : quoteChar ∈ digits)]
      · simp [readDigits_quoted behind]
    · rfl

/-- A quote character is never among the digits at the start of a text. -/
theorem quoteChar_mem_dropWhile {chars : List Char} (quoted : quoteChar ∈ chars) :
    quoteChar ∈ chars.dropWhile Char.isDigit := by
  rw [← List.takeWhile_append_dropWhile (p := Char.isDigit) (l := chars)] at quoted
  rcases List.mem_append.mp quoted with digit | behind
  · exact absurd (List.all_eq_true.mp List.all_takeWhile quoteChar digit) (by decide)
  · exact behind

/-- Characters with a quote among them are no unsigned number. -/
theorem readUnsigned_quoted {chars : List Char} (negative : Bool) (quoted : quoteChar ∈ chars) :
    Number.readUnsigned negative chars = none := by
  have behind := quoteChar_mem_dropWhile quoted
  unfold Number.readUnsigned
  simp only
  split
  · next tail point =>
    have inTail : quoteChar ∈ tail := List.mem_of_ne_of_mem (by decide) (point ▸ behind)
    simp [readExponent_quoted (quoteChar_mem_dropWhile inTail)]
  · simp [readExponent_quoted behind]

/-- A text with a quote in it is no decimal number. -/
theorem readDecimal_quoted {text : String} (quoted : quoteChar ∈ text.toList) :
    Number.readDecimal text = none := by
  unfold Number.readDecimal
  split
  · next digits shape =>
    exact readUnsigned_quoted true (List.mem_of_ne_of_mem (by decide) (shape ▸ quoted))
  · next digits shape =>
    exact readUnsigned_quoted false (List.mem_of_ne_of_mem (by decide) (shape ▸ quoted))
  · exact readUnsigned_quoted false quoted

/-- Tokens with a quote among them spell no number. -/
theorem readLiteral_quoted {tokens : List Token} (quoted : quote ∈ tokens) :
    Number.Literal.read tokens = none := by
  have inText := quoteChar_mem_join quoted
  simp [Number.Literal.read, readInteger_quoted inText, readDecimal_quoted inText]

/-- Lists that are alike are read as the same number, or neither is one. -/
theorem Alike.readLiteral_eq (alike : Alike left right) :
    Number.Literal.read left = Number.Literal.read right := by
  rcases AlikeFrom.eq_or_mem alike rfl with same | ⟨inLeft, inRight⟩
  · rw [same]
  · rw [readLiteral_quoted inLeft, readLiteral_quoted inRight]

end Numbers

end BasicToSharp.Token
