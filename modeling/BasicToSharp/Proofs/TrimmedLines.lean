import BasicToSharp.Proofs.HeaderText
import BasicToSharp.Proofs.LiteralRendering

/-!
# Written lines have no blanks at their ends

Tokens that are joined to a line are trimmed, so nearly every line is free of blanks at its
ends for that reason alone. The other lines are put together from texts: they start with a
word, and end with a semicolon, a bracket, a name or a type. Two lines take more. A comment
behind a signature must not be empty, and it is not, since the last token of a prepared line
holds a visible character. And base types are added to a header which itself must not be
empty.

Blanks at the end of a comment are taken away before any line is read, and no other
statement is written from its text.
-/

namespace BasicToSharp

open Text

namespace Text

variable {text first last : String}

/-- What starts flush starts visibly. -/
theorem startsVisible_of_flush (flush : startsFlush text = true) : StartsVisible text.toList := by
  intro c isFirst
  rw [startsFlush, isFirst] at flush
  simp only [Option.any_some, Bool.and_eq_true, Bool.not_eq_true'] at flush
  exact flush.1.1

/-- What starts plainly is not empty. -/
theorem ne_empty_of_plain (plain : startsPlain text = true) : text ≠ "" := by
  rintro rfl
  cases plain

/-- The last part decides about the end, if it is not empty. -/
theorem endsVisible_append (ends : EndsVisible last.toList) (filled : last ≠ "")
    (first : String) : EndsVisible (first ++ last).toList := by
  rw [String.toList_append]
  exact ends.append_of_ne_nil (by simpa using filled) _

/-- What starts flush and ends visibly is trimmed. -/
theorem trimmed_of_flush (flush : startsFlush text = true) (ends : EndsVisible text.toList) :
    Trimmed text.toList :=
  trimmed_iff.mpr ⟨startsVisible_of_flush flush, ends⟩

/-- Texts set side by side are trimmed if the first starts and the last ends so. -/
theorem trimmed_append (starts : StartsVisible first.toList) (filled : first ≠ "")
    (ends : EndsVisible last.toList) (filledLast : last ≠ "") :
    Trimmed (first ++ last).toList := by
  refine trimmed_iff.mpr ⟨?_, endsVisible_append ends filledLast first⟩
  rw [String.toList_append]
  exact starts.append (by simpa using filled) _

/-- Texts with a separator between them end with the last of them. -/
theorem endsVisible_intercalate (separator : String) {texts : List String}
    (isLast : texts.getLast? = some last) (ends : EndsVisible last.toList) (filled : last ≠ "") :
    EndsVisible (separator.intercalate texts).toList := by
  obtain ⟨front, rfl⟩ := List.getLast?_eq_some_iff.mp isLast
  cases front with
  | nil =>
    rw [List.nil_append, String.intercalate_singleton]
    exact ends
  | cons first rest =>
    rw [List.cons_append, intercalate_concat]
    exact endsVisible_append ends filled _

end Text

section Joined

namespace Spacing

variable (spacing : Spacing)

/-- Joined tokens are trimmed. -/
theorem trimmed_join (tokens : List Token) : Trimmed (spacing.join tokens).toList := by
  cases tokens with
  | nil => exact (by decide : Trimmed "".toList)
  | cons first rest => exact trimmed_trim _

/-- A visible token makes a line visible, wherever it stands. -/
theorem firstVisible_joinBehind (before : Option Token) (previous : Token) (inside : Bool)
    {tokens : List Token} {token : Token} (member : token ∈ tokens)
    (visible : (firstVisible token).isSome = true) :
    (firstVisible (spacing.joinBehind before previous inside tokens)).isSome = true := by
  induction tokens generalizing before previous inside with
  | nil => cases member
  | cons next rest inductionHypothesis =>
    rw [joinBehind, firstVisible_append, firstVisible_append, Option.isSome_or, Option.isSome_or]
    rcases List.mem_cons.mp member with rfl | later
    · rw [visible, Bool.or_true, Bool.true_or]
    · rw [inductionHypothesis _ _ _ later, Bool.or_true]

/-- A line of tokens is not empty if one of them holds a visible character. -/
theorem join_ne_empty {tokens : List Token} {token : Token} (member : token ∈ tokens)
    (visible : (firstVisible token).isSome = true) : spacing.join tokens ≠ "" := by
  intro empty
  cases tokens with
  | nil => cases member
  | cons first rest =>
    have none := congrArg (fun text => (firstVisible text).isSome) empty
    simp only [join, firstVisible_trim, firstVisible_append, Option.isSome_or] at none
    rcases List.mem_cons.mp member with rfl | later
    · rw [visible] at none
      cases none
    · rw [spacing.firstVisible_joinBehind _ _ _ later visible, Bool.or_true] at none
      cases none

end Spacing

/-- A written expression is trimmed. -/
theorem Expression.trimmed_render (tokens : List Token) : Trimmed (render tokens).toList :=
  Spacing.trimmed_join _ _

/-- A phrase without an ending is written trimmed. -/
theorem Phrase.trimmed_render {phrase : Phrase} (bare : phrase.ending = "") :
    Trimmed phrase.render.toList := by
  rw [render, bare, String.append_empty]
  exact Spacing.trimmed_join _ _

/-- The header of a block is trimmed. -/
theorem trimmed_blockHeader (keyword content : String) :
    Trimmed (blockHeader keyword content).toList :=
  Phrase.trimmed_render rfl

/-- The footer of a loop is trimmed. -/
theorem trimmed_loopFooter (condition : String) : Trimmed (loopFooter condition).toList := by
  have footer : loopFooter condition =
      ({ tightBefore := [")"], tightAfter := ["("] : Spacing }).join
        ["\x7d", "while", "(", condition, ")"] ++ ";" := rfl
  rw [footer]
  refine trimmed_append (Spacing.trimmed_join _ _).1 ?_ (by decide) (by decide)
  exact Spacing.join_ne_empty _ List.mem_cons_self (by decide)

namespace Token

/-- A token with a visible character is visible. -/
theorem visible_of_mem {token : Token} {c : Char} (member : c ∈ token.toList)
    (visible : isBlank c = false) : (firstVisible token).isSome = true := by
  rw [firstVisible, List.find?_isSome]
  exact ⟨c, member, by simp [visible]⟩

/-- A bare token is visible. -/
theorem Bare.visible {token : Token} (bare : Bare token) :
    (firstVisible token).isSome = true := by
  obtain ⟨c, rest, chars, visible, -⟩ := bare.head
  exact visible_of_mem (chars ▸ List.mem_cons_self) visible

/-- The last token of a prepared line holds a visible character: a literal that is not closed
goes on to the end of the line. -/
theorem WellQuoted.visible_of_getLast? {tokens : List Token} (quoted : WellQuoted tokens) :
    ∀ token ∈ tokens.getLast?, (firstVisible token).isSome = true := by
  have behind : ∀ {first : Token} {rest : List Token}, (firstVisible first).isSome = true →
      (∀ token ∈ rest.getLast?, (firstVisible token).isSome = true) →
      ∀ token ∈ (first :: rest).getLast?, (firstVisible token).isSome = true := by
    intro first rest here later token isLast
    rw [List.getLast?_cons] at isLast
    obtain rfl := Option.some.inj isLast
    cases ending : rest.getLast? with
    | none => exact here
    | some final => exact later final ending
  have visibleQuote : (firstVisible quote).isSome = true := by decide
  induction quoted with
  | nil => nofun
  | code bare _ inductionHypothesis => exact behind bare.visible inductionHypothesis
  | literal _ _ inductionHypothesis =>
    rw [← List.cons_append, List.getLast?_append_of_ne_nil _ (List.cons_ne_nil _ _)]
    exact behind visibleQuote inductionHypothesis
  | unclosed _ ends =>
    refine behind visibleQuote fun token isLast => ?_
    unfold spanTokens at isLast
    split at isLast
    · cases isLast
    · next filled =>
      obtain rfl := Option.some.inj isLast
      have last := List.getLast?_eq_some_getLast filled
      exact visible_of_mem (String.toList_ofList ▸ List.getLast_mem filled) (ends _ last)

end Token

end Joined

section Types

/-- A name ends visibly. -/
theorem Token.endsVisible_of_identifier {token : Token} (named : isIdentifier token = true) :
    EndsVisible token.toList := by
  intro c isLast
  have member := List.mem_of_getLast? isLast
  have starts := startsVisible_of_flush (startsFlush_of_identifier named)
  unfold isIdentifier at named
  split at named
  · cases named
  · next first rest chars =>
    rw [Bool.and_eq_true, List.all_eq_true] at named
    rw [chars] at member
    rcases List.mem_cons.mp member with rfl | later
    · exact starts c (by rw [chars]; rfl)
    · exact isWordChar_visible (named.2 c later)

/-- A data type ends visibly. -/
theorem Vocabulary.dataType_endsVisible {word type : String} (found : dataType? word = some type) :
    EndsVisible type.toList := by
  have ends : ∀ entry ∈ dataTypes, EndsVisible entry.2.toList := by decide
  exact ends (_, type) (@Table.mem_entries_of_get? _ ⟨dataTypes⟩ _ _ found)

namespace TypeRef

/-- The path of a type ends visibly. -/
theorem nameText_endsVisible {head : Token} {path : List Token}
    (named : Token.isIdentifier head = true) (names : path.all Token.isIdentifier = true) :
    EndsVisible (nameText head path).toList := by
  cases path with
  | nil =>
    rw [nameText]
    cases found : Vocabulary.dataType? head with
    | none => exact Token.endsVisible_of_identifier named
    | some type => exact Vocabulary.dataType_endsVisible found
  | cons next path =>
    have isLast := List.getLast?_eq_some_getLast (List.cons_ne_nil next path)
    have isName : Token.isIdentifier ((next :: path).getLast (List.cons_ne_nil next path)) = true :=
      List.all_eq_true.mp names _ (List.getLast_mem _)
    exact endsVisible_intercalate "." (by rw [List.getLast?_cons_cons, isLast])
      (Token.endsVisible_of_identifier isName)
      (ne_empty_of_plain (Token.startsPlain_of_identifier isName))

/-- Array ranks end visibly. -/
theorem rankText_endsVisible (count : Nat) : EndsVisible (rankText count).toList := by
  induction count with
  | zero => exact (by decide : EndsVisible "".toList)
  | succ count inductionHypothesis =>
    rw [rankText, List.replicate_succ, String.join_cons, String.toList_append]
    exact EndsVisible.append (by decide) inductionHypothesis

/-- A type ends with a name, a bracket or an array marker. -/
theorem render_endsVisible {reference : TypeRef} (named : reference.isNamed = true) :
    EndsVisible reference.render.toList := by
  obtain ⟨head, path, arguments, ranks⟩ := reference
  simp only [isNamed, Bool.and_eq_true] at named
  rw [render, String.toList_append, String.toList_append]
  refine ((nameText_endsVisible named.1.1 named.1.2).append ?_).append (rankText_endsVisible ranks)
  split
  · decide
  · exact endsVisible_append (by decide) (by decide) _

end TypeRef

/-- A type that is read is written with a visible end. -/
theorem Reading.typeText_endsVisible (tokens : List Token) :
    Yields (fun found => EndsVisible found.1.toList) (typeText tokens) := by
  intro found read
  obtain ⟨reference, named, same⟩ := typeText_named tokens found read
  rw [same]
  exact TypeRef.render_endsVisible named

end Types

section Headers

/-- The line of a container header ends visibly. -/
theorem ContainerHeader.read_endsVisible (kind : ContainerKind) (tokens : List Token)
    (keyword : Nat) :
    Reading.Yields (fun header => EndsVisible header.line.toList)
      (ContainerHeader.read kind tokens keyword) := by
  intro header read
  obtain ⟨before, display, named, line⟩ := read_yields kind tokens keyword header read
  have visible : EndsVisible display.toList ∧ startsFlush display = true := by
    rcases named with named | ⟨part, used, reading⟩
    · exact ⟨Token.endsVisible_of_identifier named, Token.startsFlush_of_identifier named⟩
    · exact ⟨Reading.typeText_endsVisible _ _ reading, Reading.typeText_flush _ _ reading⟩
  rw [line]
  exact endsVisible_intercalate " " (by simp) visible.1
    (ne_empty_of_plain (startsPlain_of_flush visible.2))

/-- The line of a container header is trimmed. -/
theorem ContainerHeader.read_trimmed (kind : ContainerKind) (tokens : List Token) (keyword : Nat) :
    Reading.Yields (fun header => Trimmed header.line.toList)
      (ContainerHeader.read kind tokens keyword) :=
  fun header read => trimmed_of_flush (read_flush kind tokens keyword header read)
    (read_endsVisible kind tokens keyword header read)

/-- Base types are not empty and end visibly. -/
theorem readBases_endsVisible (parts : List (List Token)) :
    Reading.Yields (fun bases => ∀ base ∈ bases, EndsVisible base.toList ∧ base ≠ "")
      (readBases parts) := by
  induction parts with
  | nil => exact .ok nofun
  | cons part rest inductionHypothesis =>
    unfold readBases
    refine .bind fun found read => ?_
    simp only
    split
    · refine .bind fun bases readRest => .ok (List.forall_mem_cons.mpr ⟨⟨?_, ?_⟩, ?_⟩)
      · exact Reading.typeText_endsVisible part found read
      · exact ne_empty_of_plain (startsPlain_of_flush (Reading.typeText_flush part found read))
      · exact inductionHypothesis bases readRest
    · exact Reading.yields_refuse _ _ _

/-- Base types are added to a header behind its start, and end as types do. -/
theorem trimmed_addBases {bases : List String}
    (ends : ∀ base ∈ bases, EndsVisible base.toList ∧ base ≠ "") {header : String}
    (trimmed : Trimmed header.toList) (filled : header ≠ "") :
    Trimmed (bases.foldl addBase header).toList := by
  induction bases generalizing header with
  | nil => exact trimmed
  | cons base rest inductionHypothesis =>
    obtain ⟨⟨endsBase, filledBase⟩, later⟩ := List.forall_mem_cons.mp ends
    rw [List.foldl_cons]
    have added : addBase header base ≠ "" := by simp [addBase, filled]
    refine inductionHypothesis later ?_ added
    rw [addBase, String.append_assoc]
    exact trimmed_append trimmed.1 filled (endsVisible_append endsBase filledBase _)
      (by simp [filledBase])

/-- The line of a namespace header is trimmed. -/
theorem readNamespace_trimmed (tokens : List Token) :
    Reading.Yields (fun header => Trimmed header.toList) (readNamespace tokens) := by
  unfold readNamespace
  split
  · exact Reading.yields_refuse _ _ _
  · refine .ok ?_
    rw [Phrase.renderReplacingFirst, String.append_empty]
    exact Spacing.trimmed_join _ _

/-- The line of an enum header is trimmed. -/
theorem EnumHeader.read_trimmed (tokens : List Token) (keyword : Nat) :
    Reading.Yields (fun header => Trimmed header.line.toList) (EnumHeader.read tokens keyword) := by
  unfold EnumHeader.read
  simp only
  split
  · split
    · exact .bind fun _ _ => .bind fun _ _ => .ok (Phrase.trimmed_render rfl)
    · split
      · exact .bind fun _ _ => .bind fun _ _ => .bind fun _ _ => .bind fun _ _ =>
          .ok (Phrase.trimmed_render rfl)
      · exact Reading.yields_refuse _ _ _
  · exact Reading.yields_refuse _ _ _

/-- The line of a loop header is trimmed. -/
theorem LoopHeader.read_trimmed (nesting : Nesting) (tokens : List Token) :
    Reading.Yields (fun header => Trimmed header.line.toList) (LoopHeader.read nesting tokens) := by
  intro header read
  have made := read_yields nesting tokens header read
  split at made
  · obtain ⟨content, rfl⟩ := made
    exact trimmed_blockHeader _ content
  · obtain ⟨declared, known, range, rfl⟩ := made
    have ends : EndsVisible (ofRange (tokenAt tokens 1) declared known range).line.toList :=
      endsVisible_append (by decide) (by decide) _
    refine trimmed_of_flush ?_ ends
    unfold ofRange
    simp only [String.append_assoc]
    exact startsFlush_append (by decide) _

/-- The line of a `Do` loop is trimmed. -/
theorem readDo_trimmed (tokens : List Token) :
    Reading.Yields (fun found => Trimmed found.2.toList) (readDo tokens) := by
  rintro ⟨kind, header⟩ read
  rcases readDo_yields tokens _ read with rfl | ⟨condition, rfl⟩
  · exact (by decide : Trimmed "do".toList)
  · exact trimmed_blockHeader _ condition

/-- The line of a `Loop` is trimmed. -/
theorem readLoopEnd_trimmed (kind : Option DoKind) (tokens : List Token) :
    Reading.Yields (fun footer => Trimmed footer.toList) (readLoopEnd kind tokens) := by
  unfold readLoopEnd
  simp only
  split
  · exact .ok (by decide)
  · split
    · exact .ok (trimmed_loopFooter _)
    · split
      · exact .bind fun _ _ => .bind fun _ _ => .ok (trimmed_loopFooter _)
      · split
        · exact .bind fun _ _ => .bind fun _ _ => .ok (trimmed_loopFooter _)
        · exact Reading.yields_refuse _ _ _

/-- The line of a further branch is trimmed. -/
theorem elseIfHeader_trimmed (tokens : List Token) :
    Reading.Yields (fun header => Trimmed header.toList) (elseIfHeader tokens) := by
  unfold elseIfHeader
  exact .bind fun _ _ => .bind fun _ _ => .bind fun _ _ => .ok (trimmed_blockHeader _ _)

end Headers

section Statements

/-- A written `Return` is trimmed. -/
theorem returnStatement_trimmed (tokens : List Token) :
    Reading.Yields (fun line => Trimmed line.toList) (returnStatement tokens) := by
  unfold returnStatement
  refine .bind fun value _ => ?_
  split
  · exact .ok (by decide)
  · refine .ok (trimmed_of_flush ?_ (endsVisible_append (by decide) (by decide) _))
    exact startsFlush_append (startsFlush_append (by decide) _) _

/-- A written `Exit` is trimmed. -/
theorem exitStatement_trimmed (tokens : List Token) :
    Reading.Yields (fun line => Trimmed line.toList) (exitStatement tokens) := by
  unfold exitStatement
  split
  case h_7 => exact Reading.yields_refuse _ _ _
  all_goals exact .ok (by decide)

/-- A branch on the line of its `If` ends with a semicolon. -/
theorem branchStatement_endsVisible (tokens : List Token) :
    Reading.Yields (fun branch => EndsVisible branch.toList ∧ branch ≠ "")
      (branchStatement tokens) := by
  unfold branchStatement
  split
  · exact Reading.yields_refuse _ _ _
  · exact fun branch read => ⟨(trimmed_iff.mp (returnStatement_trimmed tokens branch read)).2,
      ne_empty_of_plain (returnStatement_plain tokens branch read)⟩
  · exact fun branch read => ⟨(trimmed_iff.mp (exitStatement_trimmed tokens branch read)).2,
      ne_empty_of_plain (exitStatement_plain tokens branch read)⟩
  · exact .ok ⟨endsVisible_append (by decide) (by decide) _, by simp⟩

/-- Written branches are not empty and end visibly. -/
theorem branchesText_endsVisible (tokens : List Token) :
    Reading.Yields (fun branches => EndsVisible branches.toList ∧ branches ≠ "")
      (branchesText tokens) := by
  unfold branchesText
  split
  · refine .bind fun _ _ => .bind fun _ _ => .bind fun behind _ => .bind fun second read => .ok ?_
    obtain ⟨ends, filled⟩ := branchStatement_endsVisible behind second read
    exact ⟨endsVisible_append ends filled _, by simp [filled]⟩
  · exact branchStatement_endsVisible tokens

/-- An `If` is written trimmed, as a block and as a statement. -/
theorem IfLine.read_trimmed (tokens : List Token) :
    Reading.Yields (fun
        | .block header => Trimmed header.toList
        | .statement line => Trimmed line.toList) (IfLine.read tokens) := by
  unfold IfLine.read
  split
  · exact .bind fun _ _ => .bind fun _ _ => .ok (trimmed_blockHeader _ _)
  · refine .bind fun _ _ => .bind fun condition _ => .bind fun rest _ => ?_
    split
    · exact .ok (trimmed_blockHeader _ _)
    · refine .bind fun branches read => .ok ?_
      obtain ⟨ends, filled⟩ := branchesText_endsVisible rest branches read
      simp only
      rw [String.append_assoc]
      exact trimmed_append (trimmed_blockHeader "if" condition).1
        (ne_empty_of_plain (blockHeader_plain (by decide) condition))
        (endsVisible_append ends filled _) (by simp [filled])

variable {symbols : Symbols}

/-- The line of a declaration ends visibly. -/
theorem DeclarationLine.read_endsVisible (nesting : Nesting) (tokens : List Token) :
    Reading.Yields (fun declaration => EndsVisible declaration.line.toList)
      (DeclarationLine.read symbols nesting tokens) := by
  have text : ∀ modifiers type name initial,
      EndsVisible (declarationText modifiers type name initial).toList :=
    fun _ _ _ _ => endsVisible_append (by decide) (by decide) _
  unfold DeclarationLine.read
  generalize takeModifiers [] tokens = found
  obtain ⟨written, start⟩ := found
  simp only
  split
  · refine .bind fun dimensions _ => .bind fun clause _ => .bind fun given _ => ?_
    split
    · exact .bind fun type _ => .ok (text _ _ _ _)
    · exact .ok (text _ _ _ _)
  · exact Reading.yields_refuse _ _ _

/-- The line of an automatic property ends visibly. -/
theorem PropertyLine.read_endsVisible (nesting : Nesting) (tokens : List Token) (keyword : Nat) :
    Reading.Yields (fun property => EndsVisible property.line.toList)
      (PropertyLine.read nesting tokens keyword) := by
  unfold PropertyLine.read
  simp only
  split
  · refine .bind fun found _ => .bind fun initial _ => .bind fun before _ => .ok ?_
    cases initial with
    | some initial =>
      exact endsVisible_append (endsVisible_append (by decide) (by decide) _) (by simp) _
    | none =>
      simp only [String.append_empty]
      refine endsVisible_intercalate " " (by simp; rfl) ?_ ?_
      · split <;> decide
      · split <;> decide
  · exact Reading.yields_refuse _ _ _

/-- A statement that is passed through ends as it is or with a semicolon. -/
theorem trimmed_statementLine (tokens : List Token) : Trimmed (statementLine tokens).toList := by
  have trimmed := Expression.trimmed_render tokens
  unfold statementLine
  simp only
  split
  · exact trimmed
  · next last isLast =>
    have filled : Expression.render tokens ≠ "" := by
      intro empty
      rw [empty] at isLast
      cases isLast
    split
    · exact trimmed
    · exact trimmed_append trimmed.1 filled (by decide) (by decide)

/-- The line of an enumerator is trimmed. -/
theorem trimmed_enumeratorLine (tokens : List Token) : Trimmed (enumeratorLine tokens).toList := by
  have trimmed := Expression.trimmed_render tokens
  unfold enumeratorLine
  simp only
  split
  · exact trimmed
  · next unended =>
    have filled : Expression.render tokens ≠ "" := by
      intro empty
      rw [empty] at unended
      exact unended rfl
    exact trimmed_append trimmed.1 filled (by decide) (by decide)

/-- The comment behind a signature is there: it holds the last token of the line. -/
theorem FunctionHeader.read_clause {tokens : List Token}
    (visible : ∀ token ∈ tokens.getLast?, (firstVisible token).isSome = true) (nesting : Nesting)
    (keyword : Nat) (isSub : Bool) :
    Reading.Yields (fun header => ∀ clause ∈ header.clause, Trimmed clause.toList ∧ clause ≠ "")
      (FunctionHeader.read nesting tokens keyword isSub) := by
  unfold FunctionHeader.read
  refine .bind fun signature _ => .bind fun before _ => .bind fun head _ =>
    .bind fun trailing sliced => .ok ?_
  intro clause stated
  simp only at stated
  split at stated
  · cases stated
  · next some =>
    obtain rfl := Option.some.inj stated
    obtain rfl : tokens.drop (min signature.stop tokens.length) = trailing := by
      unfold Reading.sliceFrom Reading.slice at sliced
      split at sliced
      · cases sliced
        rw [List.take_length]
      · cases sliced
    have filled : tokens.drop (min signature.stop tokens.length) ≠ [] := by simpa using some
    have isLast := List.getLast?_eq_some_getLast filled
    rw [List.getLast?_drop, if_neg (by simpa using filled)] at isLast
    exact ⟨Spacing.trimmed_join _ _,
      Spacing.join_ne_empty _ (List.getLast_mem filled) (visible _ isLast)⟩

/-- A signature with its comment is trimmed, if the comment is. -/
theorem FunctionRecord.LeadsPlain.trimmed_signature {record : FunctionRecord}
    (leads : record.LeadsPlain) (generics : String) {comment : Option String}
    (ends : ∀ clause ∈ comment, Trimmed clause.toList ∧ clause ≠ "") :
    Trimmed (record.bindParameters.signature generics ++ commentEnding comment).toList := by
  have trimmed : Trimmed (record.bindParameters.signature generics).toList :=
    Spacing.trimmed_join _ _
  cases comment with
  | none =>
    rw [commentEnding, String.append_empty]
    exact trimmed
  | some clause =>
    obtain ⟨trimmedClause, filled⟩ := ends clause rfl
    exact trimmed_append trimmed.1 (ne_empty_of_plain (leads.signature generics))
      (endsVisible_append (trimmed_iff.mp trimmedClause).2 filled _) (by simp [commentEnding])

/-- Dropping bytes in front keeps the end visible. -/
theorem endsVisible_dropBytes {chars : List Char} (ends : EndsVisible chars) (count : Nat) :
    EndsVisible (dropBytes count chars) := by
  fun_induction dropBytes count chars with
  | case1 chars => exact ends
  | case2 => exact ends
  | case3 count c rest fits inductionHypothesis => exact inductionHypothesis ends.of_cons
  | case4 => nofun

/-- A comment ends as the text it is written from. -/
theorem trimmed_commentLine {text : String} (trimmed : Trimmed text.toList) :
    Trimmed (commentLine text).toList := by
  have slashes : ∀ rest : List Char, EndsVisible rest →
      Trimmed ("//" ++ String.ofList rest).toList := by
    intro rest ends
    refine trimmed_of_flush (startsFlush_append (by decide) _) ?_
    rw [String.toList_append, @String.toList_ofList rest]
    exact EndsVisible.append (by decide) ends
  have ends := (trimmed_iff.mp trimmed).2
  unfold commentLine
  split
  · next first rest chars =>
    rw [chars] at ends
    split
    · exact slashes rest ends.of_cons
    · exact slashes _ (endsVisible_dropBytes ends 3)
  · decide

end Statements

end BasicToSharp
