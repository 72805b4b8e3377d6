import BasicToSharp.Proofs.CommaSplitting

/-!
# The parts between commas

A list of tokens is split at its commas, and so is a text before it is read. Both count the
brackets that are open, of all three kinds together and never below zero, and both pass over
literals. What the split of a token list gives is described without the walk: the parts with
commas between them are the list, and inside a part every comma outside literals has a bracket
open before it.

The pieces of any text are read as the parts of its tokens. Brackets need not match and a
literal may stay open.
-/

namespace BasicToSharp

namespace Token

/-- How many brackets are open behind a marked token. To close one where none is open changes
nothing. -/
def depthStep (depth : Nat) (marked : Marked) : Nat :=
  if marked.quoted then depth
  else if isOpening marked.token then depth + 1
  else if isClosing marked.token then depth - 1
  else depth

/-- How many brackets are open behind marked tokens. -/
def depthBehind (marked : List Marked) : Nat := marked.foldl depthStep 0

/-- Every comma of the tokens outside literals has a bracket open before it. -/
def CommasEnclosed (tokens : List Token) : Prop :=
  ∀ before after, mark tokens = before ++ ⟨",", false⟩ :: after → 0 < depthBehind before

/-! ## Parts of a token list -/

section Parts

variable {part : List Token} {inside : Bool}

/-- The depth behind one more token is a step from that before it. -/
theorem depthBehind_concat (marked : List Marked) (last : Marked) :
    depthBehind (marked ++ [last]) = depthStep (depthBehind marked) last :=
  List.foldl_concat depthStep 0 last marked

/-- The split cuts at a comma outside literals and brackets, and any other token joins the part
and changes the depth. -/
theorem splitCommas_cons (depth : Nat) (part : List Token) (head : Marked) (rest : List Marked) :
    splitCommas depth part (head :: rest) =
      if head = ⟨",", false⟩ ∧ depth = 0 then part.reverse :: splitCommas 0 [] rest
      else splitCommas (depthStep depth head) (head.token :: part) rest := by
  obtain ⟨token, quoted⟩ := head
  have comma : isOpening "," = false ∧ isClosing "," = false := by decide
  simp only [splitCommas, depthStep, Marked.mk.injEq]
  grind

/-- There is always at least one part, if only an empty one. -/
theorem splitCommas_ne_nil (depth : Nat) (part : List Token) (marked : List Marked) :
    splitCommas depth part marked ≠ [] := by
  induction marked generalizing depth part with
  | nil => exact List.cons_ne_nil _ _
  | cons head rest inductionHypothesis =>
    rw [splitCommas_cons]
    split
    · exact List.cons_ne_nil _ _
    · exact inductionHypothesis _ _

/-- No tokens have no free commas. -/
theorem CommasEnclosed.nil : CommasEnclosed [] := by
  intro before after split
  simp [mark, markFrom] at split

/-- A token at which the split does not cut joins a part whose commas are enclosed. -/
theorem CommasEnclosed.concat (enclosed : CommasEnclosed part) {token : Token} {quoted : Bool}
    (marks : mark (part ++ [token]) = mark part ++ [⟨token, quoted⟩])
    (joins : ¬ ((⟨token, quoted⟩ : Marked) = ⟨",", false⟩ ∧ depthBehind (mark part) = 0)) :
    CommasEnclosed (part ++ [token]) := by
  intro before after split
  rw [marks] at split
  -- The comma is the new token or one of those before it.
  rcases List.eq_nil_or_concat' after with rfl | ⟨front, last, rfl⟩
  · obtain ⟨rfl, same⟩ := List.append_inj' split rfl
    rw [List.singleton_inj] at same
    exact Nat.pos_of_ne_zero fun none => joins ⟨same, none⟩
  · rw [← List.cons_append, ← List.append_assoc] at split
    obtain ⟨same, -⟩ := List.append_inj' split rfl
    exact enclosed before front same

/-- What the split makes of tokens behind a part that it has walked through: the part goes on,
and all parts with commas between them are what there was. -/
theorem splitCommas_spec (part tokens : List Token) (enclosed : CommasEnclosed part) :
    let parts := splitCommas (depthBehind (mark part)) part.reverse
      (markFrom (insideAfter false part) tokens)
    [","].intercalate parts = part ++ tokens ∧ ∀ part ∈ parts, CommasEnclosed part := by
  induction tokens generalizing part with
  | nil => simpa [markFrom, splitCommas] using enclosed
  | cons token rest inductionHypothesis =>
    have marks := mark_concat part token
    have behind : markFrom (insideAfter false part) (token :: rest) =
        ⟨token, if token = quote then true else insideAfter false part⟩ ::
          markFrom (insideAfter false (part ++ [token])) rest := by
      rw [markFrom, insideAfter_append, insideAfter_cons, insideAfter_nil]
      split <;> rfl
    generalize standing : (if token = quote then true else insideAfter false part) = quoted
      at marks behind
    simp only [behind, splitCommas_cons, List.reverse_reverse]
    by_cases cuts : (⟨token, quoted⟩ : Marked) = ⟨",", false⟩ ∧ depthBehind (mark part) = 0
    · -- The next part starts as the whole does, at depth zero and with no literal open.
      rw [if_pos cuts]
      obtain ⟨⟨rfl, rfl⟩, -⟩ := cuts
      have closed : insideAfter false (part ++ [","]) = false := by
        rw [if_neg (by decide)] at standing
        rw [insideAfter_append, standing]
        rfl
      obtain ⟨whole, others⟩ := inductionHypothesis [] CommasEnclosed.nil
      have later : [","].intercalate (splitCommas 0 [] (markFrom false rest)) = rest := whole
      rw [closed, List.intercalate_cons_of_ne_nil (splitCommas_ne_nil _ _ _), later,
        List.append_assoc]
      exact ⟨rfl, List.forall_mem_cons.mpr ⟨enclosed, others⟩⟩
    · rw [if_neg cuts]
      have joined := inductionHypothesis (part ++ [token]) (enclosed.concat marks cuts)
      rw [marks, depthBehind_concat, List.reverse_concat] at joined
      simpa using joined

/-- The parts with commas between them are the list, and their own commas are enclosed. -/
theorem commaParts_spec (tokens : List Token) :
    [","].intercalate (commaParts tokens) = tokens ∧
      ∀ part ∈ commaParts tokens, CommasEnclosed part := by
  unfold commaParts
  split
  · next empty =>
    rw [List.isEmpty_iff.mp empty]
    exact ⟨rfl, by simp⟩
  · exact splitCommas_spec [] tokens CommasEnclosed.nil

end Parts

/-- The parts of tokens that hold something are the same, whether an empty list has one part or
none. -/
theorem filter_commaParts (tokens : List Token) :
    (commaParts tokens).filter (· ≠ []) = (splitCommas 0 [] (mark tokens)).filter (· ≠ []) := by
  unfold commaParts
  split
  · next empty =>
    rw [List.isEmpty_iff.mp empty]
    rfl
  · rfl

/-- The tokens of segments that have any are read from the trimmed pieces. -/
theorem filter_map_tokenize_segments (chars : List Char) :
    ((SourceLine.segments chars).map tokenize).filter (· ≠ []) =
      ((SourceLine.splitSegments 0 false [] chars).map fun piece =>
        read (Text.trimBlanks piece)).filter (· ≠ []) := by
  have nothing : ∀ piece, Text.trimBlanks piece = [] → read (Text.trimBlanks piece) = [] := by
    intro piece empty
    rw [empty]
    rfl
  unfold SourceLine.segments
  simp only [List.filter_map, List.map_map, List.filter_filter, Function.comp_def,
    tokenize_trimBlanks]
  refine congrArg _ (List.filter_congr fun piece _ => ?_)
  by_cases empty : Text.trimBlanks piece = []
  · simp [nothing piece empty]
  · simp [empty]

/-- The two ways to split at commas agree. Splitting any text at the commas of its characters and
reading the pieces gives the parts that its tokens have between their commas, empty ones apart.
And for any list of tokens, its parts with single commas between them are the list, and no part
has a comma of its own outside literals and brackets. -/
theorem comma_splits_agree (text : String) (tokens : List Token) :
    ((SourceLine.segments text.toList).map tokenize).filter (· ≠ []) =
        (commaParts (tokenize text)).filter (· ≠ []) ∧
      [","].intercalate (commaParts tokens) = tokens ∧
      ∀ part ∈ commaParts tokens, ∀ before after,
        mark part = before ++ ⟨",", false⟩ :: after → 0 < depthBehind before := by
  refine ⟨?_, commaParts_spec tokens⟩
  rw [filter_map_tokenize_segments, map_read_trimBlanks, filter_commaParts]

end Token

end BasicToSharp
