import BasicToSharp.Proofs.LineStart

/-!
# Headers with base types

The header of a class or module consists of modifiers, a keyword and a name, and holds no
colon. Base types are added to it one by one, and whether a base type is the first is told
from the text of the header: it is, unless a colon stands there between spaces. Since a
header brings no colon of its own, adding base types in any number of steps gives the
header, one colon, and all of them in order with commas between them.
-/

namespace BasicToSharp

namespace Text

/-- True of a text without a colon. -/
def lacksColon (text : String) : Bool := text.toList.all (· != ':')

/-- A whole is free of colons if both parts are. -/
@[simp] theorem lacksColon_append (first second : String) :
    lacksColon (first ++ second) = (lacksColon first && lacksColon second) := by
  simp [lacksColon, String.toList_append]

/-- Joining texts by a separator brings no colon if none of them has one. -/
theorem lacksColon_intercalate {separator : String} {texts : List String}
    (plain : lacksColon separator = true) (each : ∀ text ∈ texts, lacksColon text = true) :
    lacksColon (separator.intercalate texts) = true := by
  induction texts with
  | nil => rfl
  | cons first rest inductionHypothesis =>
    obtain ⟨here, others⟩ := List.forall_mem_cons.mp each
    cases rest with
    | nil => simpa [String.intercalate_singleton] using here
    | cons second more =>
      rw [String.intercalate_cons_cons]
      simp [here, plain, inductionHypothesis others]

/-- Joining texts brings no colon if none of them has one. -/
theorem lacksColon_join {texts : List String} (each : ∀ text ∈ texts, lacksColon text = true) :
    lacksColon (String.join texts) = true := by
  induction texts with
  | nil => rfl
  | cons first rest inductionHypothesis =>
    obtain ⟨here, others⟩ := List.forall_mem_cons.mp each
    rw [String.join_cons]
    simp [here, inductionHypothesis others]

end Text

open Text (lacksColon lacksColon_intercalate)

/-- A name has no colon. -/
theorem Token.lacksColon_of_identifier {token : Token} (named : isIdentifier token = true) :
    lacksColon token = true := by
  unfold isIdentifier at named
  split at named
  · cases named
  · next first rest chars =>
    rw [Bool.and_eq_true, List.all_eq_true] at named
    rw [lacksColon, chars, List.all_cons, Bool.and_eq_true, List.all_eq_true]
    refine ⟨?_, fun c member => ?_⟩
    · rw [bne_iff_ne]
      rintro rfl
      exact absurd named.1 (by decide)
    · rw [bne_iff_ne]
      rintro rfl
      exact absurd (named.2 ':' member) (by decide)

namespace Vocabulary

/-- No modifier has a colon. -/
theorem modifier_lacksColon {word modifier : String} (found : modifier? word = some modifier) :
    lacksColon modifier = true :=
  WordTable.of_lookup (by decide) found

/-- No data type has a colon. -/
theorem dataType_lacksColon {word type : String} (found : dataType? word = some type) :
    lacksColon type = true :=
  WordTable.of_lookup (by decide) found

end Vocabulary

namespace TypeRef

/-- The path of a type has no colon. -/
theorem nameText_lacksColon {head : Token} {path : List Token}
    (named : Token.isIdentifier head = true) (names : path.all Token.isIdentifier = true) :
    lacksColon (nameText head path) = true := by
  have headPlain := Token.lacksColon_of_identifier named
  cases path with
  | nil =>
    rw [nameText]
    cases found : Vocabulary.dataType? head with
    | none => exact headPlain
    | some type => exact Vocabulary.dataType_lacksColon found
  | cons next path =>
    refine lacksColon_intercalate (by decide) (List.forall_mem_cons.mpr ⟨headPlain, ?_⟩)
    exact fun name member =>
      Token.lacksColon_of_identifier (List.all_eq_true.mp names name member)

/-- Array ranks have no colon. -/
theorem rankText_lacksColon (count : Nat) : lacksColon (rankText count) = true := by
  refine Text.lacksColon_join fun marker member => ?_
  rw [(List.mem_replicate.mp member).2]
  decide

mutual

/-- A type made of identifiers is written without a colon. -/
theorem render_lacksColon (reference : TypeRef) (named : reference.isNamed = true) :
    lacksColon reference.render = true := by
  match reference with
  | .named head path arguments ranks =>
    simp only [isNamed, Bool.and_eq_true] at named
    have name := nameText_lacksColon named.1.1 named.1.2
    have list : lacksColon (", ".intercalate (renderAll arguments)) = true :=
      lacksColon_intercalate (by decide) (renderAll_lacksColon arguments named.2)
    rw [render]
    split
    · simp [name, rankText_lacksColon]
    · simp [name, list, rankText_lacksColon]
      decide

/-- Written type arguments have no colon. -/
theorem renderAll_lacksColon (references : List TypeRef) (named : allNamed references = true) :
    ∀ text ∈ renderAll references, lacksColon text = true := by
  match references with
  | [] => simp [renderAll]
  | reference :: rest =>
    simp only [allNamed, Bool.and_eq_true] at named
    rw [renderAll]
    exact List.forall_mem_cons.mpr
      ⟨render_lacksColon reference named.1, renderAll_lacksColon rest named.2⟩

end

end TypeRef

/-- A type that is read is written without a colon. -/
theorem Reading.typeText_lacksColon (tokens : List Token) :
    Yields (fun found => lacksColon found.1 = true) (typeText tokens) := by
  intro found read
  obtain ⟨reference, named, same⟩ := typeText_named tokens found read
  rw [same]
  exact TypeRef.render_lacksColon reference named

/-- The header of a class or module holds no colon. -/
theorem ContainerHeader.read_lacksColon (kind : ContainerKind) (tokens : List Token)
    (keyword : Nat) :
    Reading.Yields (fun header => lacksColon header.line = true)
      (ContainerHeader.read kind tokens keyword) := by
  intro header read
  obtain ⟨before, display, named, line⟩ := read_yields kind tokens keyword header read
  have plain : lacksColon display = true := by
    rcases named with named | ⟨part, used, reading⟩
    · exact Token.lacksColon_of_identifier named
    · exact Reading.typeText_lacksColon _ _ reading
  rw [line]
  refine lacksColon_intercalate (by decide) ?_
  simp only [List.forall_mem_append]
  refine ⟨⟨fun modifier member => ?_, ?_⟩, ?_⟩
  · obtain ⟨word, -, found⟩ := List.mem_filterMap.mp member
    exact Vocabulary.modifier_lacksColon found
  · split
    · decide
    · decide
  · exact List.forall_mem_cons.mpr ⟨by decide, by simpa using plain⟩

/-- A header with all its base types: as it is if there are none, and otherwise with a colon
and the base types set apart by commas. -/
def withBases (header : String) : List String → String
  | [] => header
  | bases => header ++ " : " ++ ", ".intercalate bases

/-- A spaced colon is the mark of a base list, wherever it stands. -/
theorem hasBaseMark_append (before behind : List Char) :
    hasBaseMark (before ++ ' ' :: ':' :: ' ' :: behind) = true := by
  induction before with
  | nil => rfl
  | cons c rest inductionHypothesis =>
    rw [List.cons_append]
    unfold hasBaseMark
    split
    · rfl
    · next empty => cases empty
    · next tail =>
      cases tail
      exact inductionHypothesis

/-- Without colons there is no mark of a base list. -/
theorem hasBaseMark_of_lacksColon {chars : List Char} (plain : chars.all (· != ':') = true) :
    hasBaseMark chars = false := by
  fun_induction hasBaseMark chars with
  | case1 => simp at plain
  | case2 => rfl
  | case3 c rest _ inductionHypothesis =>
    rw [List.all_cons, Bool.and_eq_true] at plain
    exact inductionHypothesis plain.2

/-- A last text is joined behind the others by one more separator. -/
theorem intercalate_concat (separator first last : String) (rest : List String) :
    separator.intercalate (first :: (rest ++ [last])) =
      separator.intercalate (first :: rest) ++ separator ++ last := by
  induction rest generalizing first with
  | nil => simp [String.intercalate_cons_cons, String.intercalate_singleton]
  | cons second more inductionHypothesis =>
    rw [List.cons_append, String.intercalate_cons_cons, String.intercalate_cons_cons,
      inductionHypothesis]
    simp only [String.append_assoc]

/-- A base type is added behind those that a header has. -/
theorem addBase_withBases {header : String} (plain : lacksColon header = true)
    (bases : List String) (base : String) :
    addBase (withBases header bases) base = withBases header (bases ++ [base]) := by
  cases bases with
  | nil =>
    have mark : hasBaseMark header.toList = false := hasBaseMark_of_lacksColon plain
    simp [addBase, withBases, mark, String.intercalate_singleton]
  | cons first rest =>
    have mark : hasBaseMark (withBases header (first :: rest)).toList = true := by
      simp only [withBases, String.toList_append]
      rw [List.append_assoc]
      exact hasBaseMark_append _ _
    rw [addBase, mark, if_pos rfl]
    simp only [withBases, List.cons_append, intercalate_concat, String.append_assoc]

/-- Base types are added behind those that are there. -/
theorem foldl_addBase {header : String} (plain : lacksColon header = true)
    (bases more : List String) :
    more.foldl addBase (withBases header bases) = withBases header (bases ++ more) := by
  induction more generalizing bases with
  | nil => simp
  | cons base rest inductionHypothesis =>
    rw [List.foldl_cons, addBase_withBases plain, inductionHypothesis, List.append_assoc]
    rfl

end BasicToSharp
