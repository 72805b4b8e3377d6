import BasicToSharp.Proofs.FirstToken
import BasicToSharp.Proofs.OptionsApart

/-!
# Layout does not change the conversion

Indentation, tabs, line endings, additional blanks and trailing comments are layout. Two sources
that differ in these only are prepared as lines that are read alike: a line that is no comment
as a whole is converted from its tokens, and squeezing its blanks keeps the tokens; a
declaration of several names is split into as many lines, which again differ in blanks only.
A comment line is written out with the blanks it has, and must be the same in both sources.

Lines that are read alike are converted alike, and so the conversions are the same.
-/

namespace BasicToSharp

open Token (quoteChar apostrophe)
open Text (isBlank squeeze)

section Prepared

namespace SourceLine

variable {text text' : String} {number : Nat}

/-- A line that starts with the letter `D` is no comment. -/
theorem code_of_letter {c : Char} {rest : List Char} (chars : text.toList = c :: rest)
    (letter : c.toLower = 'd') :
    Text.StartsVisible text.toList ∧ lineStatement text ≠ .comment := by
  obtain ⟨kind, visible⟩ := Token.CharClass.of_letter (c := c) (by rw [letter]; decide)
  refine ⟨?_, ?_⟩
  · intro first isFirst
    rw [chars] at isFirst
    rwa [← Option.some.inj isFirst]
  · intro comment
    have isComment := isComment_of_lineStatement comment
    have noApostrophe : c ≠ apostrophe := by
      rintro rfl
      exact absurd letter (by decide)
    have trimmed : Text.trimBlanks text.toList = c :: Text.dropTrailingBlanks rest := by
      rw [Text.trimBlanks, chars, List.dropWhile_cons_of_neg (by simp [visible]),
        dropTrailingBlanks_cons rest visible]
    obtain ⟨more, starts⟩ := Token.firstToken_starts visible (by rw [kind]; decide)
      (Text.dropTrailingBlanks rest)
    rw [Statement.isComment, chars, Token.tokenAt_tokenize, trimmed] at isComment
    have isRem : Token.isKeyword (Token.firstToken (c :: Text.dropTrailingBlanks rest)) "rem" =
        true := by simpa [noApostrophe] using isComment
    have other : c.toLower = 'r' := Token.toLower_of_isKeyword starts rfl isRem
    rw [letter] at other
    exact absurd other (by decide)

/-- A line whose first word is `Dim` starts with it. -/
theorem startsWithDim_chars (visible : Text.StartsVisible text.toList)
    (isDim : startsWithDim text = true) :
    (Text.firstWord text).toList = text.toList.takeWhile (!isBlank ·) ∧
      ∃ c rest, text.toList.takeWhile (!isBlank ·) = c :: rest ∧ c.toLower = 'd' := by
  have word : (Text.firstWord text).toList = text.toList.takeWhile (!isBlank ·) := by
    rw [Text.firstWord_of_startsVisible visible, String.toList_ofList]
  refine ⟨word, ?_⟩
  cases chars : text.toList.takeWhile (!isBlank ·) with
  | nil =>
    rw [chars] at word
    simp [startsWithDim, Token.isKeyword, Text.sameIgnoringCase, word] at isDim
  | cons c rest =>
    rw [chars] at word
    exact ⟨c, rest, rfl, Token.toLower_of_isKeyword word rfl isDim⟩

/-- The lines of a divided declaration all start with its keyword. -/
theorem mem_shareTypes {keyword line : String} {pieces : List (String × Option String)}
    (member : line ∈ shareTypes keyword pieces) : ∃ rest, line = keyword ++ rest := by
  induction pieces with
  | nil => cases member
  | cons piece later inductionHypothesis =>
    rw [shareTypes, List.mem_cons] at member
    rcases member with rfl | member
    · exact ⟨_, by rw [String.append_assoc, String.append_assoc]⟩
    · exact inductionHypothesis member

/-- A declaration is left as it is or split into lines that start with its first word. -/
theorem mem_splitDeclaration {line : String} (member : line ∈ splitDeclaration text) :
    line = text ∨ ∃ rest, line = String.ofList (text.toList.takeWhile (!isBlank ·)) ++ rest := by
  unfold splitDeclaration at member
  cases cut : Text.cutAtBlank text.toList with
  | none =>
    rw [cut] at member
    exact .inl (List.mem_singleton.mp member)
  | some parts =>
    rw [cut] at member
    simp only at member
    split at member
    · exact .inl (List.mem_singleton.mp member)
    · rw [← Text.cutAtBlank_word cut]
      exact .inr (mem_shareTypes member)

/-- The lines that a stripped line becomes. -/
def linesOf (split : Bool) (text : String) : List String :=
  if split && startsWithDim text then splitDeclaration text else [text]

/-- A squeezed line is divided into the squeezed lines. -/
theorem linesOf_squeeze (split : Bool) (visible : Text.StartsVisible text.toList) :
    (linesOf split (squeeze text)).map squeeze = (linesOf split text).map squeeze := by
  have sameDim : startsWithDim (squeeze text) = startsWithDim text := by
    rw [startsWithDim, Text.firstWord_squeeze, startsWithDim]
  unfold linesOf
  rw [sameDim]
  split
  · next declares =>
    have isDim : startsWithDim text = true := (Bool.and_eq_true_iff.mp declares).2
    apply splitDeclaration_squeeze
    rw [← (startsWithDim_chars visible isDim).1]
    intro member
    have lower := List.mem_map_of_mem (f := Char.toLower) member
    rw [startsWithDim, Token.isKeyword, Text.sameIgnoringCase, beq_iff_eq] at isDim
    rw [isDim] at lower
    exact absurd lower (by decide)
  · simp [Text.squeeze_squeeze]

/-- A line that is no comment is divided into lines that are none. -/
theorem linesOf_code (split : Bool) (visible : Text.StartsVisible text.toList)
    (code : lineStatement text ≠ .comment) :
    ∀ line ∈ linesOf split text,
      Text.StartsVisible line.toList ∧ lineStatement line ≠ .comment := by
  intro line member
  unfold linesOf at member
  split at member
  · next declares =>
    have isDim : startsWithDim text = true := (Bool.and_eq_true_iff.mp declares).2
    obtain ⟨-, c, rest, starts, letter⟩ := startsWithDim_chars visible isDim
    rcases mem_splitDeclaration member with rfl | ⟨more, rfl⟩
    · exact ⟨visible, code⟩
    · exact code_of_letter (by rw [String.toList_append, String.toList_ofList, starts]; rfl) letter
  · rw [List.mem_singleton.mp member]
    exact ⟨visible, code⟩

/-- Lines that are the same once squeezed are read alike. -/
theorem readsAlike_of_squeeze (visible : Text.StartsVisible text.toList)
    (visible' : Text.StartsVisible text'.toList) (code : lineStatement text ≠ .comment)
    (same : squeeze text = squeeze text') : ReadsAlike ⟨number, text⟩ ⟨number, text'⟩ := by
  have first : text'.toList.head? = text.toList.head? := by
    rw [← Text.head?_squeeze visible, ← Text.head?_squeeze visible', same]
  have empty : ∀ text : String, text.isEmpty = text.toList.head?.isNone := by
    intro text
    rw [Bool.eq_iff_iff]
    simp
  refine ⟨rfl, ?_, ?_, ?_, fun comment => absurd comment code⟩
  · rw [← Token.tokenize_squeeze text', ← same, Token.tokenize_squeeze]
  · simp only [empty, first]
  · simp only [first]

/-- Lists of texts with the same squeezed forms are read alike. -/
theorem readsAlike_of_map_squeeze {texts texts' : List String}
    (code : ∀ text ∈ texts, Text.StartsVisible text.toList ∧ lineStatement text ≠ .comment)
    (visible' : ∀ text ∈ texts', Text.StartsVisible text.toList)
    (same : texts.map squeeze = texts'.map squeeze) :
    List.Forall₂ ReadsAlike (texts.map fun text => ⟨number, text⟩)
      (texts'.map fun text => ⟨number, text⟩) := by
  induction texts generalizing texts' with
  | nil =>
    obtain rfl : texts' = [] := by simpa using same.symm
    exact .nil
  | cons text rest inductionHypothesis =>
    cases texts' with
    | nil => cases same
    | cons text' rest' =>
      obtain ⟨here, later⟩ := List.cons.inj same
      obtain ⟨codeHere, codeLater⟩ := List.forall_mem_cons.mp code
      obtain ⟨visibleHere, visibleLater⟩ := List.forall_mem_cons.mp visible'
      exact .cons (readsAlike_of_squeeze codeHere.1 visibleHere codeHere.2 here)
        (inductionHypothesis codeLater visibleLater later)

end SourceLine

end Prepared

namespace SourceLine

/-- True of a line that is a comment as a whole: once trimmed, it starts with an apostrophe
or its first token is `Rem`. -/
def isWholeComment (line : String) : Bool :=
  Statement.isComment (Text.trim line) (Token.tokenize (Text.trim line))

/-- Lines that differ in their layout only: once trimmed they are the same, or neither is a
comment as a whole and, without trailing comments, they are the same up to the runs of blanks
outside literals. -/
def SameButLayout (line line' : String) : Prop :=
  Text.trim line = Text.trim line' ∨
    isWholeComment line = false ∧ isWholeComment line' = false ∧
      squeeze (stripComment (Text.trim line)) = squeeze (stripComment (Text.trim line'))

instance (line line' : String) : Decidable (SameButLayout line line') :=
  inferInstanceAs (Decidable (_ ∨ _))

/-- Stripping its comment makes no line a comment. -/
theorem lineStatement_stripComment {line : String} (code : isWholeComment line = false) :
    lineStatement (stripComment (Text.trim line)) ≠ .comment := by
  intro comment
  have isComment := Statement.isComment_of_stripComment (Text.trimmed_trim line)
    (isComment_of_lineStatement comment)
  rw [isWholeComment, isComment] at code
  cases code

/-- Lines that differ in their layout only are prepared as lines that are read alike. -/
theorem SameButLayout.prepareLine {line line' : String} (same : SameButLayout line line')
    (split : Bool) (number : Nat) :
    List.Forall₂ ReadsAlike ((SourceLine.prepareLine split line).map fun text => ⟨number, text⟩)
      ((SourceLine.prepareLine split line').map fun text => ⟨number, text⟩) := by
  rcases same with identical | ⟨code, code', squeezed⟩
  · rw [SourceLine.prepareLine, identical]
    exact List.forall₂_same.mpr fun line _ => .refl line
  · have visible := (trimmed_stripComment (Text.trimmed_trim line)).1
    have visible' := (trimmed_stripComment (Text.trimmed_trim line')).1
    have prepared := linesOf_code split visible (lineStatement_stripComment code)
    have prepared' := linesOf_code split visible' (lineStatement_stripComment code')
    apply readsAlike_of_map_squeeze prepared (fun text member => (prepared' text member).1)
    rw [← linesOf_squeeze split visible, squeezed, linesOf_squeeze split visible']

/-- Sources that are the same but for layout are prepared as lines that are read alike. -/
theorem prepareFrom_readsAlike {lines lines' : List String}
    (same : List.Forall₂ SameButLayout lines lines') (split : Bool) (number : Nat) :
    List.Forall₂ ReadsAlike (prepareFrom split number lines) (prepareFrom split number lines') := by
  induction same generalizing number with
  | nil => exact .nil
  | cons here _ inductionHypothesis =>
    exact List.rel_append (here.prepareLine split number) (inductionHypothesis (number + 1))

/-- Lines that are read alike are empty together. -/
theorem all_isEmpty_eq {input input' : List SourceLine}
    (alike : List.Forall₂ ReadsAlike input input') :
    input'.all (·.text.isEmpty) = input.all (·.text.isEmpty) := by
  induction alike with
  | nil => rfl
  | cons here _ inductionHypothesis =>
    rw [List.all_cons, List.all_cons, here.isEmpty, inductionHypothesis]

end SourceLine

/-- Layout does not change a conversion. Let two sources have equally many lines, and let each
line of one differ in its layout only from the line of the other: once trimmed they are the
same, or neither is a comment as a whole and they are the same without trailing comments when
every run of blanks outside literals is written as one space. Then the conversions fail alike
or give the same lines and the same diagnostics. -/
theorem layout_does_not_matter (options : Options) {source source' : String}
    (same : List.Forall₂ SourceLine.SameButLayout (Text.lines source) (Text.lines source')) :
    convert source options = convert source' options := by
  have alike := SourceLine.prepareFrom_readsAlike same options.splitDeclarations 1
  have empty := SourceLine.all_isEmpty_eq alike
  cases blank : (SourceLine.prepare source options.splitDeclarations).all (·.text.isEmpty) with
  | true =>
    have blank' := empty.trans blank
    rw [← SourceLine.prepare] at blank'
    simp only [convert, blank, blank', if_true]
  | false =>
    have begun : SameNotices options options #[] #[] :=
      ⟨rfl, fun _ => rfl, fun _ => by simp, fun _ => by simp⟩
    obtain ⟨draft, diagnostics, notices, ends, ends'⟩ :=
      (Draft.start options _).convertFrom_transplant 0 alike alike begun
    obtain rfl := notices.equal rfl
    rw [convert_of_lastDraft blank ends, convert_of_lastDraft (empty.trans blank) ends']
    rfl

/-- Two sources that differ in line endings, indentation, tabs, trailing comments and runs of
blanks, in a declaration of several names too. The literal and the comment line are the same in
both. -/
theorem layout_does_not_matter_respaced :
    let source := "Class A\n  Dim n As Integer, s, t As String\n  s = \"a  b\" & t\n' so  it is"
    let source' := "\tClass   A ' it's\r\nDim  n As\tInteger,   s, t As  String '\r\n" ++
      "s =\t \"a  b\" &  t  \n   ' so  it is"
    source ≠ source' ∧ convert source {} = convert source' {} := by
  intro source source'
  have lines : Text.lines source = ["Class A", "  Dim n As Integer, s, t As String",
      "  s = \"a  b\" & t", "' so  it is"] := by decide +kernel
  have lines' : Text.lines source' = ["\tClass   A ' it's",
      "Dim  n As\tInteger,   s, t As  String '", "s =\t \"a  b\" &  t  ",
      "   ' so  it is"] := by decide +kernel
  refine ⟨by decide +kernel, layout_does_not_matter {} ?_⟩
  rw [lines, lines']
  refine .cons ?_ (.cons ?_ (.cons ?_ (.cons ?_ .nil)))
  all_goals decide +kernel

end BasicToSharp
