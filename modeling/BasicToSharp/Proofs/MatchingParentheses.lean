import BasicToSharp.Proofs.BalancedTokens
import BasicToSharp.Rule.Condition
import Mathlib.Order.Bounds.Basic

/-!
# Matching parentheses

The search for the parenthesis that closes another counts up and down from the opening one and
stops where the count comes back to zero. What it finds is said here without the count: the
first `)` outside literals up to which as many parentheses are closed as opened. Nothing is
assumed about the tokens. Literals may stay open, and other parentheses may match or not.

A step of the search changes the depth by what its token opens and closes
(`closingIn_cons`). From this follow both the least position that is found and the condition
under which none is: no part from the start on closes more than is open.

Parentheses around a whole condition are taken away exactly when the first one is closed by the
last token.
-/

namespace BasicToSharp

namespace Token

/-- How many parentheses marked tokens open outside literals. -/
def openedIn (marked : List Marked) : Nat := marked.count ⟨"(", false⟩

/-- How many parentheses marked tokens close outside literals. -/
def closedIn (marked : List Marked) : Nat := marked.count ⟨")", false⟩

/-- The token at position `close` is a `)` behind `start` and outside literals, and from `start`
up to it as many parentheses are opened as closed. -/
structure ClosesAt (tokens : List Token) (start close : Nat) : Prop where
  behind : start < close
  parenthesis : (mark tokens)[close]? = some ⟨")", false⟩
  even : openedIn (((mark tokens).take (close + 1)).drop start) =
    closedIn (((mark tokens).take (close + 1)).drop start)

/-- The tokens are others between two parentheses that belong together: the second is outside
literals, and up to it nothing is closed that is not opened between the two, nor left open. -/
structure Parenthesized (tokens inner : List Token) : Prop where
  whole : tokens = "(" :: (inner ++ [")"])
  outside : insideAfter false inner = false
  nested : ∀ part, part <+: inner → closedIn (mark part) ≤ openedIn (mark part)
  even : openedIn (mark inner) = closedIn (mark inner)

section Counts

/-- What is opened in a whole is opened in its parts. -/
theorem openedIn_append (first second : List Marked) :
    openedIn (first ++ second) = openedIn first + openedIn second := List.count_append

/-- What is closed in a whole is closed in its parts. -/
theorem closedIn_append (first second : List Marked) :
    closedIn (first ++ second) = closedIn first + closedIn second := List.count_append

/-- What is opened is opened by the first token or behind it. -/
theorem openedIn_cons (head : Marked) (rest : List Marked) :
    openedIn (head :: rest) = openedIn [head] + openedIn rest := openedIn_append [head] rest

/-- What is closed is closed by the first token or behind it. -/
theorem closedIn_cons (head : Marked) (rest : List Marked) :
    closedIn (head :: rest) = closedIn [head] + closedIn rest := closedIn_append [head] rest

/-- One token opens one parenthesis at most. -/
theorem openedIn_single (head : Marked) :
    openedIn [head] = if head = ⟨"(", false⟩ then 1 else 0 := by
  simp [openedIn, List.count_cons]

/-- One token closes one parenthesis at most. -/
theorem closedIn_single (head : Marked) :
    closedIn [head] = if head = ⟨")", false⟩ then 1 else 0 := by
  simp [closedIn, List.count_cons]

/-- The first tokens are marked as they are in the whole. -/
theorem mark_take (tokens : List Token) (count : Nat) :
    (mark tokens).take count = mark (tokens.take count) := by
  conv_lhs => rw [← List.take_append_drop count tokens, mark, markFrom_join]
  rw [← mark]
  by_cases short : count ≤ tokens.length
  · rw [List.take_left']
    simp [mark, length_markFrom, short]
  · rw [List.drop_eq_nil_of_le (by omega), List.take_of_length_le]
    · simp [markFrom]
    · simp [mark, markFrom, length_markFrom]

end Counts

/-! ## The search -/

section Search

variable {depth close : Nat} {marked : List Marked}

/-- The search stops at a `)` at depth one. Any other token changes the depth by what it opens
and closes. -/
theorem closingIn_cons (positive : 0 < depth) (head : Marked) (rest : List Marked) :
    closingIn depth (head :: rest) =
      if head = ⟨")", false⟩ ∧ depth = 1 then some 0
      else (closingIn (depth + openedIn [head] - closedIn [head]) rest).map (· + 1) := by
  obtain ⟨token, quoted⟩ := head
  rw [openedIn_single, closedIn_single, closingIn]
  simp only [Marked.mk.injEq]
  grind

/-- Where the search goes on, something is still open. -/
theorem closedIn_lt_of_goesOn (positive : 0 < depth) {head : Marked}
    (goesOn : ¬ (head = ⟨")", false⟩ ∧ depth = 1)) :
    closedIn [head] < depth + openedIn [head] := by
  rw [closedIn_single]
  split
  · next closes =>
    have deeper : depth ≠ 1 := fun single => goesOn ⟨closes, single⟩
    omega
  · omega

/-- The count comes back to zero at a position. -/
def Reaches (depth : Nat) (marked : List Marked) (close : Nat) : Prop :=
  marked[close]? = some ⟨")", false⟩ ∧
    closedIn (marked.take (close + 1)) = depth + openedIn (marked.take (close + 1))

/-- The least index that holds, sought from an offset on. -/
theorem isLeast_add_iff {holds : Nat → Prop} {offset : Nat}
    (above : ∀ index, holds index → offset ≤ index) (least : Nat) :
    IsLeast {index | holds index} least ↔
      ∃ index, IsLeast {index | holds (index + offset)} index ∧ index + offset = least := by
  constructor
  · rintro ⟨here, lower⟩
    have same : least - offset + offset = least := Nat.sub_add_cancel (above least here)
    refine ⟨least - offset, ⟨by simpa [same] using here, fun index held => ?_⟩, same⟩
    have bound : least ≤ index + offset := lower held
    omega
  · rintro ⟨index, ⟨here, lower⟩, rfl⟩
    refine ⟨here, fun other held => ?_⟩
    have same : other - offset + offset = other := Nat.sub_add_cancel (above other held)
    have bound : index ≤ other - offset := lower (by simpa [same] using held)
    omega

/-- The search finds the first position at which the count comes back to zero. -/
theorem closingIn_eq_some_iff (positive : 0 < depth) :
    closingIn depth marked = some close ↔ IsLeast {close | Reaches depth marked close} close := by
  induction marked generalizing depth close with
  | nil => simp [closingIn, IsLeast, Reaches]
  | cons head rest inductionHypothesis =>
    rw [closingIn_cons positive]
    by_cases stops : head = ⟨")", false⟩ ∧ depth = 1
    · obtain ⟨rfl, rfl⟩ := stops
      have first : IsLeast {close | Reaches 1 (⟨")", false⟩ :: rest) close} 0 :=
        ⟨⟨rfl, by simp [closedIn, openedIn]⟩, fun _ _ => Nat.zero_le _⟩
      rw [if_pos ⟨rfl, rfl⟩, Option.some.injEq]
      exact ⟨fun same => same ▸ first, fun least => first.unique least⟩
    · -- Behind the head the count starts from what is then open, which is not zero.
      have goesOn := closedIn_lt_of_goesOn positive stops
      have later : ∀ index, Reaches depth (head :: rest) (index + 1) ↔
          Reaches (depth + openedIn [head] - closedIn [head]) rest index := by
        intro index
        unfold Reaches
        rw [List.getElem?_cons_succ, List.take_succ_cons, closedIn_cons, openedIn_cons]
        refine and_congr_right fun _ => ?_
        omega
      have above : ∀ index, Reaches depth (head :: rest) index → 1 ≤ index := by
        rintro (_ | index) ⟨-, even⟩
        · exact absurd even goesOn.ne
        · omega
      rw [if_neg stops, isLeast_add_iff above, Option.map_eq_some_iff]
      simp only [later, inductionHypothesis (Nat.sub_pos_of_lt goesOn)]

/-- The search finds nothing exactly when no part from the start on closes all that is open. -/
theorem closingIn_eq_none_iff (positive : 0 < depth) :
    closingIn depth marked = none ↔
      ∀ part, part <+: marked → closedIn part < depth + openedIn part := by
  induction marked generalizing depth with
  | nil => simp [closingIn, closedIn, openedIn, positive]
  | cons head rest inductionHypothesis =>
    rw [closingIn_cons positive]
    by_cases stops : head = ⟨")", false⟩ ∧ depth = 1
    · rw [if_pos stops]
      obtain ⟨rfl, rfl⟩ := stops
      refine iff_of_false (by simp) fun nested => ?_
      exact absurd (nested [⟨")", false⟩] (by simp)) (by decide)
    · have goesOn := closedIn_lt_of_goesOn positive stops
      rw [if_neg stops, Option.map_eq_none_iff, inductionHypothesis (Nat.sub_pos_of_lt goesOn)]
      constructor
      · intro nested part isPart
        rcases List.prefix_cons_iff.mp isPart with rfl | ⟨later, rfl, isLater⟩
        · simpa [closedIn, openedIn] using positive
        · have bound := nested later isLater
          rw [closedIn_cons, openedIn_cons]
          omega
      · intro nested part isPart
        have bound := nested (head :: part) (List.cons_prefix_cons.mpr ⟨rfl, isPart⟩)
        rw [closedIn_cons, openedIn_cons] at bound
        omega

/-- The search goes on behind tokens in which it finds nothing. -/
theorem closingIn_append (positive : 0 < depth) (marked more : List Marked) :
    closingIn depth (marked ++ more) =
      (closingIn depth marked).or
        ((closingIn (depth + openedIn marked - closedIn marked) more).map (· + marked.length)) := by
  induction marked generalizing depth with
  | nil => simp [closingIn, closedIn, openedIn]
  | cons head rest inductionHypothesis =>
    rw [List.cons_append, closingIn_cons positive, closingIn_cons positive]
    by_cases stops : head = ⟨")", false⟩ ∧ depth = 1
    · rw [if_pos stops, if_pos stops, Option.some_or]
    · have goesOn := closedIn_lt_of_goesOn positive stops
      have next : depth + openedIn [head] - closedIn [head] + openedIn rest - closedIn rest =
          depth + openedIn (head :: rest) - closedIn (head :: rest) := by
        rw [openedIn_cons head rest, closedIn_cons head rest]
        omega
      rw [if_neg stops, if_neg stops, inductionHypothesis (Nat.sub_pos_of_lt goesOn), next,
        Option.map_or, Option.map_map]
      rfl

/-- The search ends at the last token if it finds nothing before it and one is then open. -/
theorem closingIn_concat_iff (positive : 0 < depth) (last : Marked) :
    closingIn depth (marked ++ [last]) = some marked.length ↔
      closingIn depth marked = none ∧ last = ⟨")", false⟩ ∧
        depth + openedIn marked = closedIn marked + 1 := by
  rw [closingIn_append positive]
  cases found : closingIn depth marked with
  | some index =>
    have within := ((closingIn_eq_some_iff positive).mp found).1.1
    obtain ⟨short, -⟩ := List.getElem?_eq_some_iff.mp within
    simp [short.ne]
  | none =>
    have stillOpen := (closingIn_eq_none_iff positive).mp found marked List.prefix_rfl
    have single : depth + openedIn marked - closedIn marked = 1 ↔
        depth + openedIn marked = closedIn marked + 1 := by omega
    rw [Option.none_or, closingIn_cons (Nat.sub_pos_of_lt stillOpen), ← single]
    by_cases ends : last = ⟨")", false⟩ ∧ depth + openedIn marked - closedIn marked = 1
    · simp [ends]
    · simp [ends, closingIn]

end Search

/-! ## The closing parenthesis -/

section Closing

variable {tokens : List Token} {start close : Nat}

/-- The later tokens are marked from where the first ones leave off. -/
theorem drop_mark (tokens : List Token) (count : Nat) :
    (mark tokens).drop count =
      markFrom (insideAfter false (tokens.take count)) (tokens.drop count) := by
  by_cases short : count ≤ tokens.length
  · conv_lhs => rw [← List.take_append_drop count tokens, mark, markFrom_join]
    exact List.drop_left' (by simp [length_markFrom, short])
  · rw [List.drop_eq_nil_of_le (by simp [mark, length_markFrom]; omega),
      List.drop_eq_nil_of_le (by omega)]
    rfl

/-- From a parenthesis outside literals on, a list is marked as if nothing stood before it. -/
theorem drop_mark_opening (opening : (mark tokens)[start]? = some ⟨"(", false⟩) :
    (mark tokens).drop start = ⟨"(", false⟩ :: mark (tokens.drop (start + 1)) ∧
      mark (tokens.drop start) = ⟨"(", false⟩ :: mark (tokens.drop (start + 1)) := by
  have first : ((mark tokens).drop start).head? = some ⟨"(", false⟩ := by
    rw [List.head?_drop, opening]
  rw [drop_mark] at first ⊢
  cases behind : tokens.drop start with
  | nil =>
    rw [behind] at first
    cases first
  | cons token rest =>
    -- The mark of the parenthesis says that no literal is open where it stands.
    have same : tokens.drop (start + 1) = rest := by
      rw [← List.tail_drop, behind, List.tail_cons]
    rw [behind, markFrom] at first
    split at first
    · cases first
    · next plain =>
      obtain ⟨rfl, outside⟩ := Marked.mk.inj (Option.some.inj first)
      rw [same, outside]
      exact ⟨mark_code plain rest, mark_code plain rest⟩

/-- Seen from the opening parenthesis, the count comes back to zero where it is closed. -/
theorem closesAt_iff (opening : (mark tokens)[start]? = some ⟨"(", false⟩) (index : Nat) :
    ClosesAt tokens start (index + (start + 1)) ↔
      Reaches 1 (mark (tokens.drop (start + 1))) index := by
  have marks := (drop_mark_opening opening).1
  have token : (mark tokens)[index + (start + 1)]? =
      (mark (tokens.drop (start + 1)))[index]? := by
    have behind : index + (start + 1) = start + (index + 1) := by omega
    rw [behind, ← List.getElem?_drop, marks, List.getElem?_cons_succ]
  have between : ((mark tokens).take (index + (start + 1) + 1)).drop start =
      ⟨"(", false⟩ :: (mark (tokens.drop (start + 1))).take (index + 1) := by
    rw [List.drop_take, marks, ← List.take_succ_cons]
    congr 1
    omega
  have counts : ∀ part, openedIn (⟨"(", false⟩ :: part) = 1 + openedIn part ∧
      closedIn (⟨"(", false⟩ :: part) = closedIn part := by
    intro part
    rw [openedIn_cons, closedIn_cons, openedIn_single, closedIn_single]
    exact ⟨rfl, Nat.zero_add _⟩
  constructor
  · rintro ⟨-, parenthesis, even⟩
    rw [between, (counts _).1, (counts _).2] at even
    exact ⟨token ▸ parenthesis, even.symm⟩
  · rintro ⟨parenthesis, even⟩
    refine ⟨by omega, token ▸ parenthesis, ?_⟩
    rw [between, (counts _).1, (counts _).2]
    exact even.symm

/-- The search for the closing parenthesis starts behind the opening one. -/
theorem closing_eq (opening : (mark tokens)[start]? = some ⟨"(", false⟩) :
    closing tokens start =
      (closingIn 1 (mark (tokens.drop (start + 1)))).map (· + (start + 1)) := by
  rw [closing, (drop_mark_opening opening).2, closingIn, if_neg Bool.false_ne_true, if_pos rfl,
    Option.map_map]
  congr 1
  funext index
  simp only [Function.comp_apply]
  omega

/-- The parenthesis that is found is the first one that closes. -/
theorem closing_eq_some_iff (opening : (mark tokens)[start]? = some ⟨"(", false⟩) :
    closing tokens start = some close ↔
      IsLeast {close | ClosesAt tokens start close} close := by
  rw [isLeast_add_iff fun index (closes : ClosesAt tokens start index) => closes.behind,
    closing_eq opening, Option.map_eq_some_iff]
  simp only [closesAt_iff opening, closingIn_eq_some_iff Nat.one_pos]

/-- No closing parenthesis is found exactly if there is none. -/
theorem closing_eq_none_iff (opening : (mark tokens)[start]? = some ⟨"(", false⟩) :
    closing tokens start = none ↔ ∀ close, ¬ ClosesAt tokens start close := by
  constructor
  · intro nothing close closes
    obtain ⟨index, rfl⟩ : ∃ index, close = index + (start + 1) :=
      ⟨close - (start + 1), (Nat.sub_add_cancel closes.behind).symm⟩
    rw [closing_eq opening, Option.map_eq_none_iff, closingIn_eq_none_iff Nat.one_pos] at nothing
    have stillOpen := nothing _ (List.take_prefix (index + 1) _)
    have even := ((closesAt_iff opening index).mp closes).2
    omega
  · intro none
    cases found : closing tokens start with
    | none => rfl
    | some close => exact absurd ((closing_eq_some_iff opening).mp found).1 (none close)

end Closing

/-! ## Parentheses around the whole -/

section Around

variable {tokens inner rest : List Token}

/-- Nothing closes inside tokens exactly when no part of them closes more than it opens. -/
theorem closingIn_mark_eq_none_iff : closingIn 1 (mark inner) = none ↔
    ∀ part, part <+: inner → closedIn (mark part) ≤ openedIn (mark part) := by
  rw [closingIn_eq_none_iff Nat.one_pos]
  constructor
  · rintro nested part ⟨more, rfl⟩
    have bound := nested (mark part) ⟨_, (markFrom_join false part more).symm⟩
    omega
  · intro nested part isPart
    rw [List.prefix_iff_eq_take.mp isPart, mark_take]
    have bound := nested _ (List.take_prefix part.length inner)
    omega

/-- The first of these parentheses is closed by the last token exactly when they belong
together. -/
theorem closing_last_iff :
    closing ("(" :: rest) 0 = some rest.length ↔ ∃ inner, Parenthesized ("(" :: rest) inner := by
  have opening : (mark ("(" :: rest))[0]? = some ⟨"(", false⟩ := by
    rw [mark_code (by decide)]
    rfl
  rw [closing_eq opening, List.drop_one, List.tail_cons]
  rcases List.eq_nil_or_concat' rest with rfl | ⟨inner, last, rfl⟩
  · refine iff_of_false (by simp [mark, markFrom, closingIn]) ?_
    rintro ⟨inner, whole, -⟩
    simp at whole
  · have position : ∀ found : Option Nat, found.map (· + (0 + 1)) = some (inner ++ [last]).length ↔
        found = some (mark inner).length := by
      simp [mark, length_markFrom]
    rw [position, mark_concat, closingIn_concat_iff Nat.one_pos, closingIn_mark_eq_none_iff]
    constructor
    · rintro ⟨nested, isClosing, even⟩
      obtain ⟨rfl, outside⟩ := Marked.mk.inj isClosing
      exact ⟨inner, rfl, outside, nested, by omega⟩
    · rintro ⟨between, whole, outside, nested, even⟩
      obtain ⟨rfl, same⟩ := List.append_inj' (List.cons.inj whole).2 rfl
      obtain rfl := List.singleton_inj.mp same
      exact ⟨nested, by rw [outside]; rfl, by omega⟩

end Around

end Token

open Token

/-- Parentheses are taken away when they enclose the whole, and nothing else is. -/
theorem stripParentheses_cases (tokens : List Token) :
    ∃ result, stripParentheses tokens = .ok result ∧
      (Parenthesized tokens result ∨
        result = tokens ∧ ∀ inner, ¬ Parenthesized tokens inner) := by
  by_cases encloses : ∃ inner, Parenthesized tokens inner
  · obtain ⟨inner, parenthesized⟩ := encloses
    refine ⟨inner, ?_, .inl parenthesized⟩
    obtain rfl := parenthesized.whole
    have last := closing_last_iff.mpr ⟨inner, parenthesized⟩
    rw [stripParentheses, if_pos ⟨rfl, last⟩, Reading.slice, if_pos (by simp)]
    simp
  · refine ⟨tokens, ?_, .inr ⟨rfl, fun inner parenthesized => encloses ⟨inner, parenthesized⟩⟩⟩
    rw [stripParentheses, if_neg]
    rintro ⟨first, last⟩
    cases tokens with
    | nil => exact absurd first (by decide)
    | cons token rest =>
      obtain rfl : token = "(" := first
      exact encloses (closing_last_iff.mp last)

/-- Tokens behind the parenthesis that closes the first one keep both from being taken away. -/
theorem stripParentheses_followed {first rest : List Token}
    (parenthesized : Parenthesized ("(" :: (first ++ [")"])) first) (followed : rest ≠ []) :
    stripParentheses ("(" :: (first ++ ")" :: rest)) = .ok ("(" :: (first ++ ")" :: rest)) := by
  obtain ⟨result, done, enclosed | ⟨rfl, -⟩⟩ :=
    stripParentheses_cases ("(" :: (first ++ ")" :: rest))
  · -- The first parenthesis would be closed twice, by the `)` and by the last token.
    obtain ⟨front, last, rfl⟩ := (List.eq_nil_or_concat' rest).resolve_left followed
    have whole : first ++ ")" :: front ++ [last] = result ++ [")"] := by
      simpa using (List.cons.inj enclosed.whole).2
    obtain ⟨rfl, -⟩ := List.append_inj' whole rfl
    have bound := enclosed.nested (first ++ [")"]) ⟨front, by simp⟩
    rw [mark_join parenthesized.outside, closedIn_append, openedIn_append] at bound
    have even := parenthesized.even
    have closes : closedIn (mark [")"]) = 1 ∧ openedIn (mark [")"]) = 0 := by decide
    omega
  · exact done

/-- Parentheses are matched. For every token list, and every `(` in it outside literals, the
parenthesis that is found to close it is the first `)` behind it and outside literals up to which
as many are closed as opened, and none is found when there is no such one. A pair is taken away
from a condition exactly when it encloses all the rest and nothing inside closes more than has
been opened there, so a condition that goes on behind its first pair is left alone. -/
theorem parentheses_are_matched (tokens : List Token) :
    (∀ start, (mark tokens)[start]? = some ⟨"(", false⟩ →
      (∀ close, closing tokens start = some close ↔
        IsLeast {close | ClosesAt tokens start close} close) ∧
      (closing tokens start = none ↔ ∀ close, ¬ ClosesAt tokens start close)) ∧
    (∃ result, stripParentheses tokens = .ok result ∧
      (Parenthesized tokens result ∨ result = tokens ∧ ∀ inner, ¬ Parenthesized tokens inner)) ∧
    ∀ first rest, tokens = "(" :: (first ++ ")" :: rest) → rest ≠ [] →
      Parenthesized ("(" :: (first ++ [")"])) first → stripParentheses tokens = .ok tokens := by
  refine ⟨fun start opening => ?_, stripParentheses_cases tokens, ?_⟩
  · exact ⟨fun close => closing_eq_some_iff opening, closing_eq_none_iff opening⟩
  · rintro first rest rfl followed parenthesized
    exact stripParentheses_followed parenthesized followed

/-- The first pair ends behind a literal that holds a parenthesis, and a second one follows. -/
theorem parentheses_are_matched_apart :
    let tokens := ["(", "\"", ")", "\"", ")", "And", "(", "b", ")"]
    (mark tokens)[0]? = some ⟨"(", false⟩ ∧ IsLeast {close | ClosesAt tokens 0 close} 4 ∧
      Parenthesized ["(", "\"", ")", "\"", ")"] ["\"", ")", "\""] ∧
      stripParentheses tokens = .ok tokens := by
  intro tokens
  have opening : (mark tokens)[0]? = some ⟨"(", false⟩ := by decide
  have found : closing tokens 0 = some 4 := by decide
  have parenthesized : Parenthesized ["(", "\"", ")", "\"", ")"] ["\"", ")", "\""] :=
    ⟨rfl, by decide, closingIn_mark_eq_none_iff.mp (by decide), by decide⟩
  obtain ⟨matched, -, apart⟩ := parentheses_are_matched tokens
  exact ⟨opening, ((matched 0 opening).1 4).mp found, parenthesized,
    apart ["\"", ")", "\""] ["And", "(", "b", ")"] rfl (List.cons_ne_nil _ _) parenthesized⟩

end BasicToSharp
