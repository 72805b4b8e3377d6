import BasicToSharp.Proofs.TypePositions
import BasicToSharp.Proofs.SourcePositions

/-!
# A conversion stays in range

A conversion asks for parts of lines in two ways. The rules take them by position, and a position
outside its line ends the rule. Everything else is recursion on lists, where nothing can be
outside; done by position it gives the same, which is to say that no position asked for there is
outside either. The two together say that a conversion never fails for a position, a part or a
difference.

What is left is a source with nothing to convert. It holds nothing but blanks, and every other
source is converted.
-/

namespace BasicToSharp

section Readings

open Token (AlikeFrom)
open Reading (Agree AgreeLoosely)

/-- A reading that agrees with another one is in range. -/
theorem Reading.Agree.in_range {α β : Type} {related : α → β → Prop} {one : Reading α}
    {other : Reading β} (agree : Agree related one other) : one ≠ .error .outOfRange := by
  rintro rfl
  exact agree

variable (tokens : List Token)

/-- Reading a type looks at no position outside the tokens. -/
theorem typeRef_in_range : Reading.typeRef tokens ≠ .error .outOfRange :=
  (typeRef_agree (AlikeFrom.refl false tokens)).in_range

/-- Stripping parentheses looks at no position outside the tokens. -/
theorem stripParentheses_in_range : stripParentheses tokens ≠ .error .outOfRange :=
  (stripParentheses_agree (AlikeFrom.refl false tokens)).in_range

/-- Reading an initial value looks at no position outside the tokens. -/
theorem Given.withValue_in_range (given : Given) (symbols : Symbols) (hasDimensions : Bool) :
    given.withValue symbols hasDimensions tokens ≠ .error .outOfRange := by
  have agree : AgreeLoosely (given.withValue symbols hasDimensions tokens)
      (given.withValue symbols hasDimensions tokens) :=
    Given.withValue_agree symbols given given (AlikeFrom.refl false tokens)
  exact agree.in_range

end Readings

section Closers

variable (nesting : Nesting)

/-- Taking a block out by its position hits a block, and the one that is meant. -/
theorem Nesting.closeBlock_in_range (kind : BlockKind) :
    ByPosition.closeInnermost (· == kind) nesting.blocks.reverse =
      .ok ((nesting.closeBlock kind).blocks.reverse, nesting.hasBlock kind) := by
  have same : nesting.blocks.any (· == kind) = nesting.blocks.contains kind := by
    rw [List.contains_eq_any_beq]
    congr 1
    funext block
    exact Bool.beq_comm
  rw [ByPosition.closeInnermost_eq, same, ← List.erase_eq_eraseP']
  rfl

/-- Taking a container out by its position hits the one that is meant. -/
theorem Nesting.closeContainer_in_range (kind : ContainerKind) :
    ByPosition.closeInnermost (·.kind == kind) nesting.containers.reverse =
      .ok ((nesting.closeContainer kind).containers.reverse, nesting.inside kind) :=
  ByPosition.closeInnermost_eq _ _

end Closers

/-- Nothing that the conversion of a source asks for is out of range. -/
structure StaysInRange (source : String) (options : Options) : Prop where
  /-- Comments are cut where a character starts, and types are shared between names at positions
  that exist. -/
  preparing : ByPosition.prepare source options.splitDeclarations =
    .ok (SourceLine.prepare source options.splitDeclarations)
  joining : ∀ tokens, ByPosition.concatenations tokens = .ok (Token.concatenations tokens)
  classifying : ∀ tokens keyword, ByPosition.declarationKeyword tokens keyword =
    .ok (Statement.declarationKeyword tokens keyword)
  splitting : ∀ tokens, ByPosition.commaParts tokens = .ok (Token.commaParts tokens)
  modifiers : ∀ tokens, ByPosition.modifiersFrom tokens [] 0 = .ok (takeModifiers [] tokens)
  negating : ∀ tokens, ByPosition.renderNegation tokens = .ok (Expression.renderNegation tokens)
  types : ∀ tokens, ByPosition.typeRef tokens = Reading.typeRef tokens ∧
    Reading.typeRef tokens ≠ .error .outOfRange
  conditions : ∀ tokens, ByPosition.stripParentheses tokens = stripParentheses tokens ∧
    stripParentheses tokens ≠ .error .outOfRange
  values : ∀ symbols hasDimensions (given : Given) tokens,
    ByPosition.withValue symbols hasDimensions given tokens =
        given.withValue symbols hasDimensions tokens ∧
      given.withValue symbols hasDimensions tokens ≠ .error .outOfRange
  /-- Blocks and containers are closed where they are, among those that are open. -/
  blocks : ∀ (nesting : Nesting) kind,
    ByPosition.closeInnermost (· == kind) nesting.blocks.reverse =
      .ok ((nesting.closeBlock kind).blocks.reverse, nesting.hasBlock kind)
  containers : ∀ (nesting : Nesting) kind,
    ByPosition.closeInnermost (·.kind == kind) nesting.containers.reverse =
      .ok ((nesting.closeContainer kind).containers.reverse, nesting.inside kind)
  /-- No rule stops for a position, whatever has been converted before its line. -/
  rules : ∀ draft text left,
    ((lineStatement text).rule text (lineTokens text)).run draft ≠ .error .outOfRange left
  passing : ∀ (draft : Draft) tokens,
    (Rule.passThrough tokens).run draft = .ok () (draft.passLine tokens)

/-- Every step of a conversion stays within the list it looks at. -/
theorem staysInRange (source : String) (options : Options) : StaysInRange source options where
  preparing := ByPosition.prepare_eq source options.splitDeclarations
  joining := ByPosition.concatenations_eq
  classifying := ByPosition.declarationKeyword_eq
  splitting := ByPosition.commaParts_eq
  modifiers := ByPosition.modifiersFrom_eq
  negating := ByPosition.renderNegation_eq
  types tokens := ⟨ByPosition.typeRef_eq tokens, typeRef_in_range tokens⟩
  conditions tokens := ⟨ByPosition.stripParentheses_eq tokens, stripParentheses_in_range tokens⟩
  values symbols hasDimensions given tokens :=
    ⟨ByPosition.withValue_eq symbols hasDimensions given tokens,
      given.withValue_in_range tokens symbols hasDimensions⟩
  blocks := Nesting.closeBlock_in_range
  containers := Nesting.closeContainer_in_range
  rules draft text left := lineRule_in_range draft left text
  passing draft tokens := Rule.passThrough_run tokens draft

section Result

variable {source : String} (options : Options)

/-- A blank source is refused as empty. -/
theorem convert_blank (blank : ∀ c ∈ source.toList, Text.isBlank c = true) :
    convert source options = .error .emptyInput := by
  have nothing := (prepare_empty_iff source options.splitDeclarations).mpr blank
  simp only [convert, nothing, if_true]

/-- Any other source is converted. -/
theorem convert_visible (visible : ∃ c ∈ source.toList, Text.isBlank c = false) :
    ∃ conversion, convert source options = .ok conversion := by
  obtain ⟨c, member, seen⟩ := visible
  have something : ¬ (SourceLine.prepare source options.splitDeclarations).all (·.text.isEmpty) =
      true := by
    rw [prepare_empty_iff]
    intro blank
    rw [blank c member] at seen
    cases seen
  obtain ⟨draft, converted⟩ := Draft.convertFrom_ok
    (Draft.start options (SourceLine.prepare source options.splitDeclarations)) 0
    (SourceLine.prepare source options.splitDeclarations)
  refine ⟨draft.finish, ?_⟩
  simp only [convert, if_neg something, converted]

end Result

/-- A conversion never fails for something out of range. It fails for an empty input exactly when
its source holds nothing but blanks, and otherwise gives a result. -/
theorem conversion_stays_in_range (source : String) (options : Options) :
    StaysInRange source options ∧
      (convert source options = .error .emptyInput ↔
        ∀ c ∈ source.toList, Text.isBlank c = true) ∧
      ((∃ conversion, convert source options = .ok conversion) ↔
        ∃ c ∈ source.toList, Text.isBlank c = false) := by
  have visible : (∃ c ∈ source.toList, Text.isBlank c = false) ↔
      ¬ ∀ c ∈ source.toList, Text.isBlank c = true := by
    simp
  refine ⟨staysInRange source options, ⟨?_, convert_blank options⟩, ?_, convert_visible options⟩
  · intro empty c member
    cases seen : Text.isBlank c with
    | true => rfl
    | false =>
      obtain ⟨conversion, converted⟩ := convert_visible options ⟨c, member, seen⟩
      rw [converted] at empty
      cases empty
  · rintro ⟨conversion, converted⟩
    rw [visible]
    intro blank
    rw [convert_blank options blank] at converted
    cases converted

end BasicToSharp
