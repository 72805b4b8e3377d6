import BasicToSharp.Layout
import BasicToSharp.Proofs.DraftShape
import BasicToSharp.Proofs.RuleEffect
import BasicToSharp.Proofs.TypeReading

/-!
# How written lines start

Blocks are opened and closed by lines that start with a brace, so it matters how every
other line starts. A line starts plainly when its first visible character is there and is
no brace. The words that lead a line are modifiers, types and keywords; all of them start
flush, with a character that is neither a blank nor a brace. A line keeps the start of its
first word, and so the line of every statement that is no closer starts plainly.
-/

namespace BasicToSharp

namespace Text

/-- The first character of a text that is no blank. -/
def firstVisible (text : String) : Option Char := text.toList.find? (!isBlank ·)

/-- True of a text whose first visible character is there and is no brace. -/
def startsPlain (text : String) : Bool :=
  (firstVisible text).any fun c => c != '\x7b' && c != '\x7d'

/-- True of a list of texts whose first member is there and starts plainly. -/
def leadsPlain (texts : List String) : Bool := texts.head?.any startsPlain

/-- True of a text that starts with a character that is neither a blank nor a brace. -/
def startsFlush (text : String) : Bool :=
  text.toList.head?.any fun c => !isBlank c && c != '\x7b' && c != '\x7d'

/-- True of a list of texts whose first member is there and starts flush. -/
def leadsFlush (texts : List String) : Bool := texts.head?.any startsFlush

/-- The first visible character of a whole is in the first part that has one. -/
theorem firstVisible_append (first second : String) :
    firstVisible (first ++ second) = (firstVisible first).or (firstVisible second) := by
  simp [firstVisible, String.toList_append, List.find?_append]

/-- Trimming keeps the first visible character: whatever it drops is blank. -/
theorem firstVisible_trim (text : String) : firstVisible (trim text) = firstVisible text := by
  have leading : ∀ chars : List Char,
      (chars.dropWhile isBlank).find? (!isBlank ·) = chars.find? (!isBlank ·) := by
    intro chars
    induction chars with
    | nil => rfl
    | cons c rest inductionHypothesis =>
      cases blank : isBlank c with
      | true => simp [blank, inductionHypothesis]
      | false => simp [blank]
  have trailing : ∀ chars : List Char,
      (dropTrailingBlanks chars).find? (!isBlank ·) = chars.find? (!isBlank ·) := by
    intro chars
    have parts : chars = dropTrailingBlanks chars ++ (chars.reverse.takeWhile isBlank).reverse := by
      rw [dropTrailingBlanks, ← List.reverse_append, List.takeWhile_append_dropWhile,
        List.reverse_reverse]
    have blank : (chars.reverse.takeWhile isBlank).reverse.find? (!isBlank ·) = none := by
      rw [List.find?_eq_none]
      intro c member
      simp [List.all_eq_true.mp List.all_takeWhile c (List.mem_reverse.mp member)]
    conv => rhs; rw [parts, List.find?_append, blank, Option.or_none]
  simp only [firstVisible, trim, trimBlanks, String.toList_ofList]
  rw [trailing, leading]

/-- What is put behind a text that starts plainly does not matter. -/
theorem startsPlain_append {first : String} (plain : startsPlain first = true) (second : String) :
    startsPlain (first ++ second) = true := by
  obtain ⟨c, found, visible⟩ := (Option.any_eq_true _ _).mp plain
  simpa [startsPlain, firstVisible_append, found] using visible

/-- Trimming keeps how a text starts. -/
theorem startsPlain_trim (text : String) : startsPlain (trim text) = startsPlain text := by
  rw [startsPlain, firstVisible_trim, startsPlain]

/-- The first text decides how a list leads. -/
@[simp] theorem leadsPlain_cons (first : String) (rest : List String) :
    leadsPlain (first :: rest) = startsPlain first := rfl

/-- What is put behind a list that leads plainly does not matter. -/
theorem leadsPlain_append_left {texts : List String} (leads : leadsPlain texts = true)
    (more : List String) : leadsPlain (texts ++ more) = true := by
  cases texts with
  | nil => cases leads
  | cons first rest => exact leads

/-- What starts flush starts plainly. -/
theorem startsPlain_of_flush {text : String} (flush : startsFlush text = true) :
    startsPlain text = true := by
  obtain ⟨c, isFirst, visible⟩ := (Option.any_eq_true _ _).mp flush
  obtain ⟨rest, chars⟩ := List.head?_eq_some_iff.mp isFirst
  simp only [Bool.and_eq_true, Bool.not_eq_true'] at visible
  simp [startsPlain, firstVisible, chars, visible.1.1, visible.1.2, visible.2]

/-- What leads flush leads plainly. -/
theorem leadsPlain_of_flush {texts : List String} (leads : leadsFlush texts = true) :
    leadsPlain texts = true := by
  cases texts with
  | nil => cases leads
  | cons first rest => exact startsPlain_of_flush leads

/-- What is put behind a text that starts flush does not matter. -/
theorem startsFlush_append {first : String} (flush : startsFlush first = true) (second : String) :
    startsFlush (first ++ second) = true := by
  obtain ⟨c, isFirst, visible⟩ := (Option.any_eq_true _ _).mp flush
  obtain ⟨rest, chars⟩ := List.head?_eq_some_iff.mp isFirst
  simpa [startsFlush, String.toList_append, chars] using visible

/-- Words that all start flush, before texts that lead flush, lead flush. -/
theorem leadsFlush_append {words more : List String}
    (flush : ∀ word ∈ words, startsFlush word = true) (leads : leadsFlush more = true) :
    leadsFlush (words ++ more) = true := by
  cases words with
  | nil => exact leads
  | cons first rest => exact flush first List.mem_cons_self

/-- Texts set side by side start as the first of them. -/
theorem startsFlush_intercalate {texts : List String} (separator : String)
    (leads : leadsFlush texts = true) : startsFlush (separator.intercalate texts) = true := by
  match texts, leads with
  | [only], flush =>
    rw [String.intercalate_singleton]
    exact flush
  | first :: second :: rest, flush =>
    rw [String.intercalate_cons_cons, String.append_assoc]
    exact startsFlush_append flush _

/-- The code points of the blanks. -/
def blankPoints : List Nat :=
  [9, 10, 11, 12, 13, 0x20, 0x85, 0xA0, 0x1680, 0x2000, 0x2001, 0x2002, 0x2003, 0x2004, 0x2005,
    0x2006, 0x2007, 0x2008, 0x2009, 0x200A, 0x2028, 0x2029, 0x202F, 0x205F, 0x3000]

/-- The code of a blank is in the list. -/
theorem toNat_mem_blankPoints {c : Char} (blank : isBlank c = true) : c.toNat ∈ blankPoints := by
  simp only [isBlank, Bool.or_eq_true, Bool.and_eq_true, decide_eq_true_eq, beq_iff_eq] at blank
  simp only [blankPoints, List.mem_cons, List.not_mem_nil, or_false]
  omega

/-- No blank is a letter, and no blank has another lower-case form. -/
theorem blank_forms {c : Char} (blank : isBlank c = true) :
    isLetter c = false ∧ lowerLatin c = c := by
  have forms : blankPoints.all (fun n => !isLetter (Char.ofNat n) &&
      lowerLatin (Char.ofNat n) == Char.ofNat n) = true := by decide +kernel
  have here := List.all_eq_true.mp forms c.toNat (toNat_mem_blankPoints blank)
  simpa [Char.ofNat_toNat] using here

end Text

open Text

/-- A name starts flush. -/
theorem Token.startsFlush_of_identifier {token : Token} (named : isIdentifier token = true) :
    startsFlush token = true := by
  unfold isIdentifier at named
  split at named
  · cases named
  · next first rest chars =>
    simp only [Bool.and_eq_true, Bool.or_eq_true, beq_iff_eq] at named
    have visible : isBlank first = false := by
      cases blank : isBlank first with
      | false => rfl
      | true =>
        rcases named.1 with letter | rfl
        · exact absurd letter (by simp [blank_forms blank])
        · exact absurd blank (by decide)
    have noBrace : first ≠ '\x7b' ∧ first ≠ '\x7d' := by
      constructor <;> rintro rfl <;> exact absurd named.1 (by decide)
    simp [startsFlush, chars, visible, noBrace]

/-- A name starts plainly. -/
theorem Token.startsPlain_of_identifier {token : Token} (named : isIdentifier token = true) :
    startsPlain token = true :=
  startsPlain_of_flush (startsFlush_of_identifier named)

/-- Folding the case of a character makes no blank and removes none. -/
theorem Text.isBlank_lowerLatin (c : Char) : isBlank (lowerLatin c) = isBlank c := by
  cases blank : isBlank c with
  | true => rw [(blank_forms blank).2, blank]
  | false =>
    unfold lowerLatin
    split
    · rfl
    · by_cases capital : c.val ≥ 'A'.val ∧ c.val ≤ 'Z'.val
      · have letters : (List.range 26).all (fun n =>
            !isBlank (Char.ofNat (n + 65)).toLower) = true := by decide
        have low : 65 ≤ c.toNat := UInt32.le_iff_toNat_le.mp capital.1
        have high : c.toNat ≤ 90 := UInt32.le_iff_toNat_le.mp capital.2
        have here := List.all_eq_true.mp letters (c.toNat - 65) (List.mem_range.mpr (by omega))
        rw [Nat.sub_add_cancel low, Char.ofNat_toNat] at here
        simpa using here
      · have unchanged : c.toLower = c := dif_neg capital
        rw [unchanged, blank]

/-- A word starts plainly if its look-up form does. -/
theorem Text.startsPlain_of_lookupForm {word : String}
    (plain : startsPlain (lookupForm word) = true) : startsPlain word = true := by
  have same : firstVisible (lookupForm word) = (firstVisible word).map lowerLatin := by
    simp only [firstVisible, lookupForm, String.toList_ofList, List.find?_map, Function.comp_def,
      isBlank_lowerLatin]
  obtain ⟨folded, found, noBrace⟩ := (Option.any_eq_true _ _).mp plain
  rw [same, Option.map_eq_some_iff] at found
  obtain ⟨c, first, rfl⟩ := found
  refine (Option.any_eq_true _ _).mpr ⟨c, first, ?_⟩
  simp only [Bool.and_eq_true, bne_iff_ne, ne_eq] at noBrace ⊢
  constructor <;> rintro rfl
  · exact noBrace.1 (by decide)
  · exact noBrace.2 (by decide)

namespace Vocabulary

/-- True of a table whose words and counterparts all start plainly. -/
def WordTable.startsPlain (table : WordTable) : Bool :=
  table.all fun entry => Text.startsPlain entry.1 && Text.startsPlain entry.2

/-- Whatever is looked up in a table of plain words is plain. -/
theorem WordTable.plain_of_lookup {table : WordTable} (plain : table.startsPlain = true)
    {word value : String} (found : table.lookup word = some value) :
    Text.startsPlain word = true ∧ Text.startsPlain value = true := by
  have member := @Table.mem_entries_of_get? _ ⟨table⟩ _ _ found
  simpa using List.all_eq_true.mp plain (word, value) member

/-- A modifier starts plainly, as a word and as it is written. -/
theorem modifier_plain {word modifier : String} (found : modifier? word = some modifier) :
    Text.startsPlain word = true ∧ Text.startsPlain modifier = true := by
  have plain : WordTable.startsPlain modifiers = true := by decide
  have entry := WordTable.plain_of_lookup plain found
  exact ⟨startsPlain_of_lookupForm entry.1, entry.2⟩

/-- What holds of all counterparts in a table holds of every one that is found. -/
theorem WordTable.of_lookup {table : WordTable} {test : String → Bool}
    (tested : table.all (test ·.2) = true) {word value : String}
    (found : table.lookup word = some value) : test value = true :=
  List.all_eq_true.mp tested (word, value) (@Table.mem_entries_of_get? _ ⟨table⟩ _ _ found)

/-- A written modifier starts flush. -/
theorem modifier_flush {word modifier : String} (found : modifier? word = some modifier) :
    startsFlush modifier = true :=
  WordTable.of_lookup (by decide) found

/-- A written data type starts flush. -/
theorem dataType_flush {word type : String} (found : dataType? word = some type) :
    startsFlush type = true :=
  WordTable.of_lookup (by decide) found

/-- The type of a type character starts flush. -/
theorem typeChar_flush {symbol type : String} (found : typeChar? symbol = some type) :
    startsFlush type = true :=
  WordTable.of_lookup (by decide) found

/-- A word of expressions is written with a plain start. -/
theorem expression_plain {word written : String} (found : expression? word = some written) :
    Text.startsPlain written = true := by
  have plain : WordTable.startsPlain expressionWords = true := by decide
  exact (WordTable.plain_of_lookup plain found).2

end Vocabulary

/-- All modifiers of a header start flush. -/
theorem modifiersOf_flush (tokens : List Token) :
    ∀ modifier ∈ modifiersOf tokens, startsFlush modifier = true := by
  intro modifier member
  obtain ⟨word, -, found⟩ := List.mem_filterMap.mp member
  exact Vocabulary.modifier_flush found

/-- A line starts as its first token. -/
theorem Spacing.startsPlain_join (spacing : Spacing) {tokens : List Token}
    (leads : leadsPlain tokens = true) : startsPlain (spacing.join tokens) = true := by
  cases tokens with
  | nil => cases leads
  | cons first rest =>
    rw [join, startsPlain_trim]
    exact startsPlain_append leads _

/-- A phrase with a lead starts with it. -/
theorem Phrase.leadTokens_eq {phrase : Phrase} (lead : phrase.lead.isEmpty = false) :
    phrase.leadTokens = [phrase.lead] := by
  simp [leadTokens, lead]

/-- An expression that starts plainly is written so. -/
theorem Expression.startsPlain_render {tokens : List Token} (leads : leadsPlain tokens = true) :
    startsPlain (render tokens) = true := by
  cases tokens with
  | nil => cases leads
  | cons first rest =>
    apply Spacing.startsPlain_join
    have kept : startsPlain (expressionToken first) = true := by
      unfold expressionToken
      cases found : Vocabulary.expression? first with
      | none => exact leads
      | some written => exact Vocabulary.expression_plain found
    by_cases isQuote : first = Token.quote
    · simp [leadsPlain, expressionTokens, Token.mapUnquoted, Token.mark, Token.markFrom, isQuote]
      decide
    · simpa [leadsPlain, expressionTokens, Token.mapUnquoted, Token.mark, Token.markFrom, isQuote]
        using kept

namespace TypeRef

/-- The name that a type reference starts with. -/
def head : TypeRef → Token
  | .named head _ _ _ => head

/-- A written type starts flush. -/
theorem render_flush {reference : TypeRef} (named : Token.isIdentifier reference.head = true) :
    startsFlush reference.render = true := by
  obtain ⟨head, path, arguments, ranks⟩ := reference
  have flush : startsFlush head = true := Token.startsFlush_of_identifier named
  have name : startsFlush (nameText head path) = true := by
    cases path with
    | nil =>
      rw [nameText]
      cases found : Vocabulary.dataType? head with
      | none => exact flush
      | some type => exact Vocabulary.dataType_flush found
    | cons next path => exact startsFlush_intercalate "." flush
  rw [render]
  exact startsFlush_append (startsFlush_append name _) _

/-- The head of a named type is a name. -/
theorem head_named {reference : TypeRef} (named : reference.isNamed = true) :
    Token.isIdentifier reference.head = true := by
  obtain ⟨first, path, arguments, ranks⟩ := reference
  simp only [isNamed, Bool.and_eq_true] at named
  exact named.1.1

end TypeRef

/-- The text of a type is that of a reference made of identifiers. -/
theorem Reading.typeText_named (tokens : List Token) :
    Yields (fun found => ∃ reference : TypeRef, reference.isNamed = true ∧
      found.1 = reference.render) (typeText tokens) := by
  unfold typeText
  refine .bind fun found read => .ok ⟨found.1, ?_, rfl⟩
  unfold typeRef at read
  split at read
  · next reading =>
    cases read
    exact TypeRef.isNamed_of_read reading
  · cases read

/-- A type that is read is written with a flush start. -/
theorem Reading.typeText_flush (tokens : List Token) :
    Yields (fun found => startsFlush found.1 = true) (typeText tokens) := by
  intro found read
  obtain ⟨reference, named, same⟩ := typeText_named tokens found read
  rw [same]
  exact TypeRef.render_flush (TypeRef.head_named named)

section Headers

/-- The line of a container header starts flush. -/
theorem ContainerHeader.read_flush (kind : ContainerKind) (tokens : List Token) (keyword : Nat) :
    Reading.Yields (fun header => startsFlush header.line = true)
      (ContainerHeader.read kind tokens keyword) := by
  intro header read
  obtain ⟨before, display, -, line⟩ := read_yields kind tokens keyword header read
  rw [line]
  apply startsFlush_intercalate
  rw [List.append_assoc]
  apply leadsFlush_append (modifiersOf_flush before)
  split
  · exact (by decide : startsFlush "static" = true)
  · exact (by decide : startsFlush "class" = true)

/-- The line of a container header starts plainly. -/
theorem ContainerHeader.read_plain (kind : ContainerKind) (tokens : List Token) (keyword : Nat) :
    Reading.Yields (fun header => startsPlain header.line = true)
      (ContainerHeader.read kind tokens keyword) :=
  fun header read => startsPlain_of_flush (read_flush kind tokens keyword header read)

/-- The line of a namespace header starts plainly. -/
theorem readNamespace_plain (tokens : List Token) :
    Reading.Yields (fun header => startsPlain header = true) (readNamespace tokens) := by
  unfold readNamespace
  split
  · exact Reading.yields_refuse _ _ _
  · refine .ok (startsPlain_append (Spacing.startsPlain_join _ ?_) _)
    rw [Phrase.leadTokens_eq (show "namespace".isEmpty = false by decide), List.singleton_append,
      leadsPlain_cons]
    exact (by decide : startsPlain "namespace" = true)

/-- The line of an enum header starts plainly. -/
theorem EnumHeader.read_line_plain (tokens : List Token) (keyword : Nat) :
    Reading.Yields (fun header => startsPlain header.line = true)
      (EnumHeader.read tokens keyword) := by
  have line : ∀ (before : List Token) (name : String) (underlying : List String),
      startsPlain { tokens :=
        ((modifiersOf before).foldl EnumRecord.addModifier {} |>.setName name).modifiers ++
          ["enum", name] ++ underlying : Phrase }.render = true := by
    intro before name underlying
    obtain ⟨kept, same, known⟩ := EnumRecord.setName_addModifiers (modifiersOf before) name
    rw [same]
    have leads : leadsFlush (kept ++ ("enum" :: name :: underlying)) = true :=
      leadsFlush_append (fun modifier member => modifiersOf_flush before modifier
        (known modifier member)) (by decide : startsFlush "enum" = true)
    refine startsPlain_append (Spacing.startsPlain_join _ ?_) _
    rw [List.append_assoc]
    exact leadsPlain_of_flush leads
  unfold EnumHeader.read
  simp only
  split
  · split
    · exact .bind fun _ _ => .bind fun _ _ => .ok (line _ _ _)
    · split
      · exact .bind fun _ _ => .bind fun _ _ => .bind fun _ _ => .bind fun _ _ =>
          .ok (line _ _ _)
      · exact Reading.yields_refuse _ _ _
  · exact Reading.yields_refuse _ _ _

/-- A block header starts as its keyword. -/
theorem blockHeader_plain {keyword : String} (plain : startsPlain keyword = true)
    (content : String) : startsPlain (blockHeader keyword content) = true :=
  have leads : leadsPlain [keyword, "(", content, ")"] = true := plain
  startsPlain_append (Spacing.startsPlain_join _ leads) _

/-- The line of a loop header starts plainly. -/
theorem LoopHeader.read_plain (nesting : Nesting) (tokens : List Token) :
    Reading.Yields (fun header => startsPlain header.line = true)
      (LoopHeader.read nesting tokens) := by
  intro header read
  have made := read_yields nesting tokens header read
  split at made
  · obtain ⟨content, rfl⟩ := made
    exact blockHeader_plain (by decide) content
  · obtain ⟨declared, known, range, rfl⟩ := made
    unfold ofRange
    simp only [String.append_assoc]
    exact startsPlain_append (by decide) _

/-- The line of a `Do` loop starts plainly. -/
theorem readDo_plain (tokens : List Token) :
    Reading.Yields (fun found => startsPlain found.2 = true) (readDo tokens) := by
  rintro ⟨kind, header⟩ read
  rcases readDo_yields tokens _ read with rfl | ⟨condition, rfl⟩
  · exact (by decide : startsPlain "do" = true)
  · exact blockHeader_plain (by decide) condition

/-- A line with branches and the header of a block both start with the word of an `If`. -/
theorem IfLine.read_plain (tokens : List Token) :
    Reading.Yields (fun
        | .block header => startsPlain header = true
        | .statement line => startsPlain line = true) (IfLine.read tokens) := by
  have header (condition : String) : startsPlain (blockHeader "if" condition) = true :=
    blockHeader_plain (by decide) condition
  unfold IfLine.read
  split
  · exact .bind fun _ _ => .bind fun _ _ => .ok (header _)
  · refine .bind fun _ _ => .bind fun _ _ => .bind fun _ _ => ?_
    split
    · exact .ok (header _)
    · exact .bind fun _ _ => .ok (startsPlain_append (startsPlain_append (header _) _) _)

/-- The line of a further branch starts plainly. -/
theorem elseIfHeader_plain (tokens : List Token) :
    Reading.Yields (fun header => startsPlain header = true) (elseIfHeader tokens) := by
  unfold elseIfHeader
  exact .bind fun _ _ => .bind fun _ _ => .bind fun _ _ =>
    .ok (blockHeader_plain (by decide) _)

/-- A written `Return` starts plainly. -/
theorem returnStatement_plain (tokens : List Token) :
    Reading.Yields (fun line => startsPlain line = true) (returnStatement tokens) := by
  unfold returnStatement
  refine .bind fun _ _ => ?_
  split
  · exact .ok (by decide)
  · exact .ok (startsPlain_append (startsPlain_append (by decide) _) _)

/-- A written `Exit` starts plainly. -/
theorem exitStatement_plain (tokens : List Token) :
    Reading.Yields (fun line => startsPlain line = true) (exitStatement tokens) := by
  unfold exitStatement
  split <;> first | exact .ok (by decide) | exact Reading.yields_refuse _ _ _

/-- The modifiers that are taken start flush, if those before did. -/
theorem takeModifiers_flush {modifiers : List String}
    (flush : ∀ modifier ∈ modifiers, startsFlush modifier = true) (tokens : List Token) :
    ∀ modifier ∈ (takeModifiers modifiers tokens).1, startsFlush modifier = true := by
  fun_induction takeModifiers modifiers tokens with
  | case1 modifiers => exact flush
  | case2 modifiers token rest isDim found used taken inductionHypothesis =>
    simpa [taken] using inductionHypothesis flush
  | case3 modifiers token rest notDim unknown => exact flush
  | case4 modifiers token rest notDim modifier known kept found used taken inductionHypothesis =>
    have flushKept : ∀ modifier ∈ kept, startsFlush modifier = true := by
      intro word member
      simp only [kept] at member
      split at member
      · exact flush word member
      · rcases List.mem_append.mp member with old | new
        · exact flush word old
        · rw [List.mem_singleton.mp new]
          exact Vocabulary.modifier_flush known
    simpa [taken] using inductionHypothesis flushKept

/-- `static` is added to modifiers without spoiling them. -/
theorem static_flush {modifiers : List String}
    (flush : ∀ modifier ∈ modifiers, startsFlush modifier = true) :
    ∀ modifier ∈ modifiers ++ ["static"], startsFlush modifier = true := by
  intro modifier member
  rcases List.mem_append.mp member with old | new
  · exact flush modifier old
  · rw [List.mem_singleton.mp new]
    decide

/-- The modifiers of a declaration start flush where it stands. -/
theorem Nesting.withLevelStatic_flush (nesting : Nesting) {modifiers : List String}
    (flush : ∀ modifier ∈ modifiers, startsFlush modifier = true) :
    ∀ modifier ∈ nesting.withLevelStatic modifiers, startsFlush modifier = true := by
  unfold withLevelStatic
  split
  · exact static_flush flush
  · exact flush

/-- The modifiers of a module member start flush. -/
theorem Nesting.withModuleStatic_flush (nesting : Nesting) {modifiers : List String}
    (flush : ∀ modifier ∈ modifiers, startsFlush modifier = true) :
    ∀ modifier ∈ nesting.withModuleStatic modifiers, startsFlush modifier = true := by
  unfold withModuleStatic
  split
  · exact static_flush flush
  · exact flush

/-- The words before the name of a function, its modifiers and its return type, are there
and start plainly. -/
def FunctionRecord.LeadsPlain (record : FunctionRecord) : Prop :=
  leadsPlain (record.modifiers ++ record.returnType.toList) = true

/-- A record that leads plainly has a signature that starts plainly. -/
theorem FunctionRecord.LeadsPlain.signature {record : FunctionRecord} (leads : record.LeadsPlain)
    (generics : String) : startsPlain (record.bindParameters.signature generics) = true := by
  rw [bindParameters_eq]
  apply Spacing.startsPlain_join
  simp only [List.append_assoc]
  rw [← List.append_assoc]
  exact leadsPlain_append_left leads _

/-- The type of an `As` clause starts flush. -/
theorem Reading.asClause_flush (tokens : List Token) (index : Nat) :
    Reading.Yields (fun found => ∀ type ∈ found.1, startsFlush type = true)
      (Reading.asClause tokens index) := by
  unfold Reading.asClause
  split
  · refine .bind fun behind _ => .bind fun found read => .ok ?_
    intro type stated
    cases stated
    exact Reading.typeText_flush behind found read
  · exact .ok nofun

/-- A stated return type starts flush. -/
theorem Signature.read_returnType_flush (construct : Construct) (tokens : List Token)
    (keyword : Nat) :
    Reading.Yields (fun signature => ∀ type ∈ signature.returnType, startsFlush type = true)
      (Signature.read construct tokens keyword) := by
  unfold Signature.read
  simp only
  split
  · exact .bind fun _ _ => .bind fun _ _ => .bind fun found read =>
      .ok (Reading.asClause_flush tokens _ found read)
  · exact Reading.yields_refuse _ _ _

/-- A function has modifiers that start flush, and without any it has a return type. -/
theorem Nesting.functionHead_flush (nesting : Nesting) {signature : Signature} (isSub : Bool)
    {modifiers : List String} (flush : ∀ modifier ∈ modifiers, startsFlush modifier = true)
    (flushType : ∀ type ∈ signature.returnType, startsFlush type = true) :
    Reading.Yields (fun head => (∀ modifier ∈ head.1, startsFlush modifier = true) ∧
        (head.1 ≠ [] ∨ leadsFlush head.2.2.toList = true))
      (nesting.functionHead signature isSub modifiers) := by
  have single : ∀ modifier ∈ ["static"], startsFlush modifier = true := by decide
  unfold functionHead
  split
  · split
    · exact .ok ⟨single, .inl nofun⟩
    · split
      · refine .bind fun _ _ => .ok ?_
        split
        · exact ⟨single, .inl nofun⟩
        · split
          · next visible =>
            refine ⟨flush, .inl ?_⟩
            rintro rfl
            cases visible
          · refine ⟨?_, .inl nofun⟩
            intro modifier member
            rcases List.mem_cons.mp member with rfl | old
            · decide
            · exact flush modifier old
      · exact .ok ⟨flush, .inr (by decide : startsFlush "void" = true)⟩
  · refine .ok ⟨flush, .inr ?_⟩
    cases stated : signature.returnType with
    | none => exact (by decide : startsFlush TypeRef.defaultText = true)
    | some type => exact flushType type stated

/-- Modifiers are never taken away. -/
theorem Nesting.withModuleStatic_ne_nil (nesting : Nesting) {modifiers : List String}
    (some : modifiers ≠ []) : nesting.withModuleStatic modifiers ≠ [] := by
  unfold withModuleStatic
  split
  · simp
  · exact some

/-- The record of a function leads plainly. -/
theorem FunctionHeader.read_plain (nesting : Nesting) (tokens : List Token) (keyword : Nat)
    (isSub : Bool) :
    Reading.Yields (fun header => header.record.LeadsPlain)
      (FunctionHeader.read nesting tokens keyword isSub) := by
  unfold FunctionHeader.read
  refine .bind fun signature read => .bind fun before _ => .bind fun head found =>
    .bind fun trailing _ => .ok ?_
  obtain ⟨flush, led⟩ := nesting.functionHead_flush isSub (modifiersOf_flush before)
    (Signature.read_returnType_flush _ tokens keyword signature read) head found
  have flushAll := nesting.withModuleStatic_flush flush
  apply leadsPlain_of_flush
  rcases led with some | type
  · cases words : nesting.withModuleStatic head.1 with
    | nil => exact absurd words (nesting.withModuleStatic_ne_nil some)
    | cons first rest =>
      exact flushAll first (by simp [words])
  · exact leadsFlush_append flushAll type

/-- The modifiers of a property start flush. -/
theorem propertyModifiers_flush (tokens : List Token) :
    ∀ modifier ∈ propertyModifiers tokens, startsFlush modifier = true := by
  intro modifier member
  exact modifiersOf_flush tokens modifier (List.mem_filter.mp member).1

/-- What accessors take over from their property starts flush. -/
theorem PropertyHeader.read_flush (pending : Option Nat) (input : List SourceLine) :
    Reading.Yields (fun header =>
        (∀ type ∈ header.signature.returnType, startsFlush type = true) ∧
          ∀ modifier ∈ header.modifiers, startsFlush modifier = true)
      (PropertyHeader.read pending input) := by
  unfold PropertyHeader.read
  refine .bind fun _ _ => .bind fun line _ => ?_
  generalize Token.concatenations (Token.tokenize line.text) = tokens
  exact .bind fun keyword _ => .bind fun signature read => .bind fun before _ =>
    .ok ⟨Signature.read_returnType_flush _ tokens keyword signature read,
      propertyModifiers_flush before⟩

/-- The record of an accessor leads plainly. -/
theorem AccessorHeader.read_plain (draft : Draft) (tokens : List Token) (keyword : Nat) :
    Reading.Yields (fun header => header.record.LeadsPlain)
      (AccessorHeader.read draft tokens keyword) := by
  unfold AccessorHeader.read
  refine .bind fun property read => .bind fun _ _ => .bind fun _ _ => .bind fun before _ =>
    .ok ?_
  obtain ⟨flushType, flush⟩ := PropertyHeader.read_flush _ _ property read
  have type : startsFlush (property.signature.returnType.getD TypeRef.defaultText) = true := by
    cases stated : property.signature.returnType with
    | none => decide
    | some type => exact flushType type stated
  apply leadsPlain_of_flush
  apply leadsFlush_append
  · apply draft.nesting.withModuleStatic_flush
    split
    · exact flush
    · exact modifiersOf_flush before
  · rw [Option.toList_some]
    split
    · exact (by decide : startsFlush "void" = true)
    · exact type

end Headers

section Declarations

/-- The type that is constructed starts flush. -/
theorem Construction.read_flush (tokens : List Token) :
    Reading.Yields (fun found => startsFlush found.1.type = true) (Construction.read tokens) := by
  unfold Construction.read
  refine .bind fun found read => ?_
  have flush := Reading.typeText_flush tokens found read
  simp only
  split
  · exact .bind fun _ _ => .bind fun _ _ => .ok flush
  · exact .ok flush

/-- The type of a type clause starts flush, if one stated before does. -/
theorem TypeClause.read_flush {type : Option String}
    (flush : ∀ stated ∈ type, startsFlush stated = true) (tokens : List Token) (index : Nat) :
    Reading.Yields (fun clause => ∀ stated ∈ clause.type, startsFlush stated = true)
      (TypeClause.read type tokens index) := by
  unfold TypeClause.read
  split
  · split
    · refine .bind fun behind _ => .bind fun found read => .ok ?_
      rintro _ ⟨⟩
      exact Construction.read_flush behind found read
    · refine .bind fun behind _ => .bind fun found read => .ok ?_
      rintro _ ⟨⟩
      exact Reading.typeText_flush behind found read
  · exact .ok flush

/-- The type of a value that is a construction starts flush. -/
theorem wholeConstruction_flush (value : List Token) :
    Reading.Yields (fun found => ∀ built ∈ found, startsFlush built.type = true)
      (wholeConstruction value) := by
  unfold wholeConstruction
  split
  · refine .bind fun behind _ => .bind fun found read => .ok ?_
    split
    · rintro _ ⟨⟩
      exact Construction.read_flush behind found read
    · nofun
  · exact .ok nofun

/-- The element type of an array literal is headed by a name. -/
theorem arrayLiteral_named (value : List Token) :
    Reading.Yields (fun found => ∀ literal ∈ found, Token.isIdentifier literal.1.head = true)
      (arrayLiteral value) := by
  unfold arrayLiteral
  split
  · refine .bind fun behind _ => ?_
    split
    · exact .ok nofun
    · next type used read =>
      refine .bind fun elements _ => .ok ?_
      split
      · rintro _ ⟨⟩
        exact TypeRef.head_named (TypeRef.isNamed_of_read read)
      · nofun
  · exact .ok nofun

/-- Known enums have plain names. -/
theorem Symbols.isIdentifier_of_isEnum {symbols : Symbols} {name : String}
    (plain : ∀ entry ∈ symbols.enums.entries, Token.isIdentifier entry.1 = true)
    (isEnum : symbols.isEnum name = true) : Token.isIdentifier name = true := by
  obtain ⟨record, found⟩ := Option.isSome_iff_exists.mp isEnum
  exact plain _ (Table.mem_entries_of_get? found)

variable {symbols : Symbols}

/-- The type that an initial value supplies starts flush: it is that of a construction or
array literal, or the name of an enum. -/
theorem Given.withValue_flush
    (enums : ∀ entry ∈ symbols.enums.entries, Token.isIdentifier entry.1 = true)
    (hasDimensions : Bool) {given : Given}
    (flush : ∀ stated ∈ given.type, startsFlush stated = true) (value : List Token) :
    Reading.Yields (fun given => ∀ stated ∈ given.type, startsFlush stated = true)
      (given.withValue symbols hasDimensions value) := by
  have either : ∀ {supplied : Option String}, (∀ type ∈ supplied, startsFlush type = true) →
      ∀ stated ∈ given.type.or supplied, startsFlush stated = true := by
    intro supplied flushSupplied stated found
    rcases Option.or_eq_some_iff.mp found with own | ⟨-, other⟩
    · exact flush stated own
    · exact flushSupplied stated other
  unfold Given.withValue
  refine .bind fun built readBuilt => ?_
  split
  · next construction =>
    refine .ok (either ?_)
    rintro _ ⟨⟩
    exact wholeConstruction_flush value _ readBuilt construction rfl
  · refine .bind fun literal readLiteral => ?_
    split
    · next type elements =>
      have named := arrayLiteral_named value _ readLiteral (type, elements) rfl
      refine .ok (either ?_)
      rintro _ ⟨⟩
      apply TypeRef.render_flush
      split
      · obtain ⟨head, path, arguments, ranks⟩ := type
        exact named
      · exact named
    · refine .ok (either ?_)
      intro type supplied
      split at supplied
      · split at supplied
        · next isEnum =>
          cases supplied
          exact Token.startsFlush_of_identifier (Symbols.isIdentifier_of_isEnum enums isEnum)
        · cases supplied
      · cases supplied

/-- The type that a variable is given starts flush. -/
theorem Given.read_flush
    (enums : ∀ entry ∈ symbols.enums.entries, Token.isIdentifier entry.1 = true)
    (hasDimensions : Bool) {clause : TypeClause}
    (flush : ∀ stated ∈ clause.type, startsFlush stated = true) (tokens : List Token) :
    Reading.Yields (fun given => ∀ stated ∈ given.type, startsFlush stated = true)
      (Given.read symbols hasDimensions clause tokens) := by
  unfold Given.read
  simp only
  split
  · refine .bind fun value _ => ?_
    split
    · exact Reading.yields_refuse _ _ _
    · exact Given.withValue_flush enums hasDimensions flush value
  · split
    · exact .bind fun _ _ => Reading.yields_refuse _ _ _
    · exact .ok flush

/-- A declaration starts flush if its modifiers and type do. -/
theorem declarationText_flush {modifiers : List String}
    (flush : ∀ modifier ∈ modifiers, startsFlush modifier = true) {type : String}
    (flushType : startsFlush type = true) (name : String) (initial : Option String) :
    startsFlush (declarationText modifiers type name initial) = true := by
  have words : startsFlush (" ".intercalate (modifiers ++ [type, name])) = true :=
    startsFlush_intercalate " " (leadsFlush_append flush flushType)
  exact startsFlush_append (startsFlush_append words _) _

/-- The type of an array starts flush. -/
theorem arrayType_flush {base : String} (flush : startsFlush base = true)
    (dimensions : List String) :
    Reading.Yields (fun type => startsFlush type = true) (arrayType base dimensions) := by
  unfold arrayType
  split
  · rintro _ ⟨⟩
  · exact .ok (startsFlush_append (startsFlush_append (startsFlush_append flush _) _) _)

/-- The line of a declaration starts flush. -/
theorem DeclarationLine.read_flush
    (enums : ∀ entry ∈ symbols.enums.entries, Token.isIdentifier entry.1 = true)
    (nesting : Nesting) (tokens : List Token) :
    Reading.Yields (fun declaration => startsFlush declaration.line = true)
      (DeclarationLine.read symbols nesting tokens) := by
  have modifiers : ∀ modifier ∈ (takeModifiers [] tokens).1, startsFlush modifier = true :=
    takeModifiers_flush (by simp) tokens
  unfold DeclarationLine.read
  generalize takeModifiers [] tokens = found at modifiers
  obtain ⟨written, start⟩ := found
  have flushModifiers := nesting.withLevelStatic_flush modifiers
  simp only
  split
  · refine .bind fun dimensions _ => .bind fun clause readClause =>
      .bind fun given readGiven => ?_
    have flushClause := TypeClause.read_flush (fun _ => Vocabulary.typeChar_flush) tokens _ clause
      readClause
    have flushGiven := Given.read_flush enums _ flushClause tokens given readGiven
    have base : startsFlush (given.type.getD TypeRef.defaultText) = true := by
      cases stated : given.type with
      | none => decide
      | some type => exact flushGiven type stated
    split
    · exact .bind fun type read =>
        .ok (declarationText_flush flushModifiers (arrayType_flush base _ type read) _ _)
    · exact .ok (declarationText_flush flushModifiers base _ _)
  · exact Reading.yields_refuse _ _ _

/-- The line of a declaration starts plainly. -/
theorem DeclarationLine.read_plain
    (enums : ∀ entry ∈ symbols.enums.entries, Token.isIdentifier entry.1 = true)
    (nesting : Nesting) (tokens : List Token) :
    Reading.Yields (fun declaration => startsPlain declaration.line = true)
      (DeclarationLine.read symbols nesting tokens) :=
  fun declaration read => startsPlain_of_flush (read_flush enums nesting tokens declaration read)

/-- The type of a property starts flush. -/
theorem readPropertyType_flush (tokens : List Token) (index : Nat) :
    Reading.Yields (fun found => startsFlush found.1 = true) (readPropertyType tokens index) := by
  unfold readPropertyType
  split
  · refine .bind fun behind _ => .bind fun found read => ?_
    have flush := Reading.typeText_flush behind found read
    simp only
    split
    · split
      · exact .bind fun _ _ => .bind fun _ _ => .ok flush
      · exact .ok flush
    · exact .ok flush
  · exact .ok (by decide : startsFlush TypeRef.defaultText = true)

/-- The line of an automatic property starts flush. -/
theorem PropertyLine.read_flush (nesting : Nesting) (tokens : List Token) (keyword : Nat) :
    Reading.Yields (fun property => startsFlush property.line = true)
      (PropertyLine.read nesting tokens keyword) := by
  unfold PropertyLine.read
  simp only
  split
  · refine .bind fun found read => .bind fun _ _ => .bind fun before _ => .ok ?_
    have flush := nesting.withModuleStatic_flush (propertyModifiers_flush before)
    refine startsFlush_append (startsFlush_intercalate " " (leadsFlush_append flush ?_)) _
    exact readPropertyType_flush tokens _ found read
  · exact Reading.yields_refuse _ _ _

/-- The line of an automatic property starts plainly. -/
theorem PropertyLine.read_plain (nesting : Nesting) (tokens : List Token) (keyword : Nat) :
    Reading.Yields (fun property => startsPlain property.line = true)
      (PropertyLine.read nesting tokens keyword) :=
  fun property read => startsPlain_of_flush (read_flush nesting tokens keyword property read)

end Declarations

end BasicToSharp
