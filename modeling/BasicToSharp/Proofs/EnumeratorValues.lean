import BasicToSharp.Proofs.RuleEffect
import BasicToSharp.Proofs.RuleAgreement
import BasicToSharp.Proofs.SignatureForm
import Mathlib.Data.List.Nodup

/-!
# The values of enumerators

The values that an enum gives its enumerators are described by what its lines say: nothing,
an integer, the name of an earlier enumerator, or an expression whose value is left open.
Beside them stands the record that the conversion keeps while it reads the lines.

The record is right as long as no line misleads it. A line does so in two ways. One states
nothing and stands behind a line that is not recorded: the record then goes on counting from
the last line that is. The other states an expression whose tokens, written together, are the
name of a recorded enumerator. In both cases the value depends on an open expression; it can
be lowered with the expression, and the recorded one stays.

Lists of lines are read from their end here: the last line comes first, and its rest are the
earlier lines.
-/

namespace BasicToSharp

open Token (Name)

/-- A line of an enum that names an enumerator and states its value, or none. -/
structure Enumerator where
  source : SourceLine
  name : Name
  stated : Option (List Token)
  passes : lineStatement source.text = .other
  reads : lineTokens source.text = name.val :: valueTokens stated

namespace Enumerator

/-- The tokens of the line. -/
def tokens (line : Enumerator) : List Token := line.name.val :: valueTokens line.stated

/-- Where the value of an enumerator comes from. -/
inductive Origin
  /-- It is one more than that of the line before. -/
  | following
  | literal (value : Int)
  /-- It is that of an earlier enumerator. -/
  | sameAs (name : String)
  | expression
  deriving DecidableEq, Repr

/-- The names of the enumerators of some lines. -/
def names (lines : List Enumerator) : List String := lines.map (·.name.val)

/-- Where the value of a line comes from, behind earlier lines. -/
def origin (line : Enumerator) (earlier : List Enumerator) : Origin :=
  match line.stated with
  | none => .following
  | some tokens =>
    match Number.readInteger (String.join tokens) with
    | some value => .literal value
    | none =>
      match tokens with
      | [word] => if word ∈ names earlier then .sameAs word else .expression
      | _ => .expression

/-- The value behind some lines of an enumerator that states none. -/
def valueBehind (value : String → Int) : List Enumerator → Int
  | [] => 0
  | line :: _ => value line.name.val + 1

/-- A value that an enumerator can have whose value comes from there, behind earlier lines. An
expression can have any. -/
def Origin.Allows (value : String → Int) (earlier : List Enumerator) (own : Int) : Origin → Prop
  | .following => own = valueBehind value earlier
  | .literal given => own = given
  | .sameAs other => own = value other
  | .expression => True

/-- Values that an enum of some lines can have. -/
def Fits (value : String → Int) : List Enumerator → Prop
  | [] => True
  | line :: earlier =>
    Fits value earlier ∧ (line.origin earlier).Allows value earlier (value line.name.val)

/-- Values of which none is the largest 64-bit integer or more. -/
def Bounded (value : String → Int) (lines : List Enumerator) : Prop :=
  ∀ name ∈ names lines, value name < Number.largestInteger

/-- The names of the lines that pass a test, which sees the earlier lines and the names of those
that have passed. -/
def collect (test : Enumerator → List Enumerator → List String → Bool) :
    List Enumerator → List String
  | [] => []
  | line :: earlier =>
    if test line earlier (collect test earlier) then line.name.val :: collect test earlier
    else collect test earlier

/-- True of a line that is recorded where some names are known. -/
def isRecorded (line : Enumerator) (known : List String) : Bool :=
  match line.stated with
  | none => true
  | some tokens =>
    (Number.readInteger (String.join tokens)).isSome || known.contains (String.join tokens)

/-- The names that are recorded of some lines. -/
def recorded (lines : List Enumerator) : List String :=
  collect (fun line _ known => line.isRecorded known) lines

/-- True of a line whose value depends on an expression, where some names of earlier lines do. -/
def depends (line : Enumerator) (earlier : List Enumerator) (known : List String) : Bool :=
  match line.origin earlier with
  | .following => earlier.head?.any fun previous => known.contains previous.name.val
  | .literal _ => false
  | .sameAs other => known.contains other
  | .expression => true

/-- The names whose values depend on an expression. -/
def dependent (lines : List Enumerator) : List String := collect depends lines

/-- A line that misleads the record: it counts from a line that is not recorded, or its
expression is taken for the name of a recorded enumerator. -/
def Misleads (line : Enumerator) (earlier : List Enumerator) : Prop :=
  match line.origin earlier with
  | .following => ∃ previous ∈ earlier.head?, previous.name.val ∉ recorded earlier
  | .expression => ∃ tokens ∈ line.stated, String.join tokens ∈ recorded earlier
  | _ => False

/-- Lines of which one misleads the record. -/
def Misled : List Enumerator → Prop
  | [] => False
  | line :: earlier => line.Misleads earlier ∨ Misled earlier

section Deciding

variable (value : String → Int) (line : Enumerator) (earlier : List Enumerator)

instance (own : Int) : ∀ origin : Origin, Decidable (origin.Allows value earlier own)
  | .following => inferInstanceAs (Decidable (_ = _))
  | .literal _ => inferInstanceAs (Decidable (_ = _))
  | .sameAs _ => inferInstanceAs (Decidable (_ = _))
  | .expression => inferInstanceAs (Decidable True)

instance decidableFits : ∀ lines, Decidable (Fits value lines)
  | [] => inferInstanceAs (Decidable True)
  | _ :: earlier => @instDecidableAnd _ _ (decidableFits earlier) _

instance (lines : List Enumerator) : Decidable (Bounded value lines) :=
  inferInstanceAs (Decidable (∀ name ∈ names lines, _))

instance : Decidable (line.Misleads earlier) :=
  match is : line.origin earlier with
  | .following => decidable_of_iff
      (∃ previous ∈ earlier.head?, previous.name.val ∉ recorded earlier) (by simp [Misleads, is])
  | .literal _ => isFalse (by simp [Misleads, is])
  | .sameAs _ => isFalse (by simp [Misleads, is])
  | .expression => decidable_of_iff
      (∃ tokens ∈ line.stated, String.join tokens ∈ recorded earlier) (by simp [Misleads, is])

instance decidableMisled : ∀ lines, Decidable (Misled lines)
  | [] => inferInstanceAs (Decidable False)
  | _ :: earlier => @instDecidableOr _ _ _ (decidableMisled earlier)

end Deciding

/-- A record with some lines added. -/
def recordAll (start : EnumRecord) : List Enumerator → EnumRecord
  | [] => start
  | line :: earlier =>
    (recordAll start earlier).record line.name.val (line.stated.map String.join)

/-! ## Where values come from -/

/-- What a line states when its value has an origin. -/
inductive HasOrigin (line : Enumerator) (earlier : List Enumerator) : Origin → Prop
  | following (stated : line.stated = none) : HasOrigin line earlier .following
  | literal {tokens : List Token} {value : Int} (stated : line.stated = some tokens)
      (integer : Number.readInteger (String.join tokens) = some value) :
      HasOrigin line earlier (.literal value)
  | sameAs {word : Token} (stated : line.stated = some [word])
      (noInteger : Number.readInteger word = none) (earlierName : word ∈ names earlier) :
      HasOrigin line earlier (.sameAs word)
  | expression {tokens : List Token} (stated : line.stated = some tokens)
      (noInteger : Number.readInteger (String.join tokens) = none) :
      HasOrigin line earlier .expression

/-- Every line states what the origin of its value says. -/
theorem hasOrigin (line : Enumerator) (earlier : List Enumerator) :
    line.HasOrigin earlier (line.origin earlier) := by
  unfold origin
  split
  · next stated => exact .following stated
  · next tokens stated =>
    split
    · next value integer => exact .literal stated integer
    · next noInteger =>
      split
      · next word =>
        split
        · next known => exact .sameAs stated (by simpa [String.join] using noInteger) known
        · exact .expression stated noInteger
      · exact .expression stated noInteger

section Collect

variable {test : Enumerator → List Enumerator → List String → Bool} {line : Enumerator}
  {lines earlier : List Enumerator} {name : String}

/-- A name passes with its own line, or has passed before. -/
theorem mem_collect_cons : name ∈ collect test (line :: earlier) ↔
    name = line.name.val ∧ test line earlier (collect test earlier) = true ∨
      name ∈ collect test earlier := by
  simp only [collect]
  split <;> simp_all

/-- Only names of lines are collected. -/
theorem mem_names_of_collect (member : name ∈ collect test lines) : name ∈ names lines := by
  induction lines with
  | nil => cases member
  | cons line earlier inductionHypothesis =>
    rcases mem_collect_cons.mp member with ⟨rfl, -⟩ | old
    · exact List.mem_cons_self
    · exact List.mem_cons_of_mem _ (inductionHypothesis old)

end Collect

section Lines

variable {line : Enumerator} {lines earlier : List Enumerator} {name : String}
  {value value' : String → Int}

/-- A name is recorded by the last line or before it. -/
theorem mem_recorded_cons : name ∈ recorded (line :: earlier) ↔
    name = line.name.val ∧ line.isRecorded (recorded earlier) = true ∨ name ∈ recorded earlier :=
  mem_collect_cons

/-- A name depends on an expression by the last line or before it. -/
theorem mem_dependent_cons : name ∈ dependent (line :: earlier) ↔
    name = line.name.val ∧ line.depends earlier (dependent earlier) = true ∨
      name ∈ dependent earlier :=
  mem_collect_cons

/-- A line that is not recorded depends on an expression: it states one, or the name of an
earlier line that is not recorded either. -/
theorem dependent_of_not_recorded (member : name ∈ names lines)
    (unrecorded : name ∉ recorded lines) : name ∈ dependent lines := by
  induction lines generalizing name with
  | nil => cases member
  | cons line earlier inductionHypothesis =>
    rw [mem_recorded_cons, not_or] at unrecorded
    obtain ⟨notHere, notBefore⟩ := unrecorded
    rw [mem_dependent_cons]
    rcases List.mem_cons.mp member with rfl | old
    · have here : ¬ line.isRecorded (recorded earlier) = true := fun is => notHere ⟨rfl, is⟩
      refine .inl ⟨rfl, ?_⟩
      have comes := line.hasOrigin earlier
      unfold isRecorded at here
      unfold depends
      generalize line.origin earlier = origin at comes ⊢
      cases comes with
      | following stated => simp [stated] at here
      | literal stated integer => simp [stated, integer] at here
      | sameAs stated noInteger earlierName =>
        apply List.contains_iff_mem.mpr (inductionHypothesis earlierName ?_)
        simpa [stated, String.join, noInteger] using here
      | expression stated noInteger => rfl
    · exact .inr (inductionHypothesis old notBefore)

/-- A line that misleads the record is recorded and depends on an expression. -/
theorem Misleads.recorded_depends (misleads : line.Misleads earlier) :
    line.isRecorded (recorded earlier) = true ∧
      line.depends earlier (dependent earlier) = true := by
  have comes := line.hasOrigin earlier
  unfold Misleads at misleads
  unfold depends isRecorded
  generalize line.origin earlier = origin at comes misleads
  cases comes with
  | following stated =>
    obtain ⟨previous, last, unrecorded⟩ := misleads
    have member : previous.name.val ∈ names earlier :=
      List.mem_map_of_mem (List.mem_of_mem_head? last)
    have last : earlier.head? = some previous := last
    simp [stated, last, dependent_of_not_recorded member unrecorded]
  | literal stated integer => cases misleads
  | sameAs stated noInteger earlierName => cases misleads
  | expression stated noInteger =>
    obtain ⟨tokens, is, known⟩ := misleads
    have is : line.stated = some tokens := is
    simp [is, known]

/-- Where the record is misled, something is recorded that depends on an expression. -/
theorem Misled.recorded_dependent (misled : Misled lines) :
    ∃ name ∈ recorded lines, name ∈ dependent lines := by
  induction lines with
  | nil => cases misled
  | cons line earlier inductionHypothesis =>
    rcases misled with here | before
    · obtain ⟨isRecorded, depends⟩ := here.recorded_depends
      exact ⟨line.name.val, mem_recorded_cons.mpr (.inl ⟨rfl, isRecorded⟩),
        mem_dependent_cons.mpr (.inl ⟨rfl, depends⟩)⟩
    · obtain ⟨name, known, depends⟩ := inductionHypothesis before
      exact ⟨name, mem_recorded_cons.mpr (.inr known), mem_dependent_cons.mpr (.inr depends)⟩

/-! ## Lowering an expression -/

/-- Values that agree on the names of some lines fit them alike. -/
theorem Fits.congr (fits : Fits value lines)
    (agree : ∀ name ∈ names lines, value' name = value name) : Fits value' lines := by
  induction lines with
  | nil => trivial
  | cons line earlier inductionHypothesis =>
    obtain ⟨before, here⟩ := fits
    obtain ⟨own, old⟩ := List.forall_mem_cons.mp agree
    refine ⟨inductionHypothesis before old, ?_⟩
    have comes := line.hasOrigin earlier
    generalize line.origin earlier = origin at comes here
    cases comes with
    | following stated =>
      have same : valueBehind value' earlier = valueBehind value earlier := by
        cases earlier with
        | nil => rfl
        | cons previous _ => exact congrArg (· + 1) (old _ List.mem_cons_self)
      exact own.trans (here.trans same.symm)
    | literal stated integer => exact own.trans here
    | sameAs stated noInteger earlierName =>
      exact own.trans (here.trans (old _ earlierName).symm)
    | expression stated noInteger => trivial

/-- Values with those that depend on an expression lowered by one. -/
def lowered (value : String → Int) (lines : List Enumerator) (name : String) : Int :=
  if name ∈ dependent lines then value name - 1 else value name

/-- The values still fit the lines once all that depend on expressions are lowered. -/
theorem fits_lowered (distinct : (names lines).Nodup) (fits : Fits value lines) :
    Fits (lowered value lines) lines := by
  induction lines with
  | nil => trivial
  | cons line earlier inductionHypothesis =>
    obtain ⟨before, here⟩ := fits
    have fresh : line.name.val ∉ names earlier := (List.nodup_cons.mp distinct).1
    have old : ∀ name ∈ names earlier, lowered value (line :: earlier) name =
        lowered value earlier name := by
      intro name member
      have apart : name ≠ line.name.val := fun same => fresh (same ▸ member)
      simp [lowered, mem_dependent_cons, apart]
    have own : line.name.val ∈ dependent (line :: earlier) ↔
        line.depends earlier (dependent earlier) = true := by
      have notBefore : line.name.val ∉ dependent earlier := mt mem_names_of_collect fresh
      simp [mem_dependent_cons, notBefore]
    refine ⟨(inductionHypothesis (List.nodup_cons.mp distinct).2 before).congr old, ?_⟩
    have comes := line.hasOrigin earlier
    unfold depends at own
    generalize line.origin earlier = origin at comes here own
    -- A line goes down exactly when the one that its value is taken from does.
    cases comes with
    | following stated =>
      cases earlier with
      | nil => simpa [Origin.Allows, lowered, own, valueBehind] using here
      | cons previous others =>
        simp only [Origin.Allows, valueBehind] at here ⊢
        rw [old previous.name.val List.mem_cons_self]
        simp only [lowered, own, List.head?_cons, Option.any_some, List.contains_iff_mem, here]
        split <;> omega
    | literal stated integer => simpa [Origin.Allows, lowered, own] using here
    | sameAs stated noInteger earlierName =>
      simp only [Origin.Allows] at here ⊢
      rw [old _ earlierName]
      simp only [lowered, own, List.contains_iff_mem, here]
    | expression stated noInteger => trivial

end Lines

end Enumerator

/-! ## The record -/

namespace EnumRecord

/-- An added value is found under its own name, unless there was one. -/
theorem value?_addValue (record : EnumRecord) (name other : String) (value : Int) :
    (record.addValue name value).value? other =
      (record.value? other).or (if other = name then some value else none) := by
  unfold addValue value?
  split
  · next held =>
    by_cases same : other = name
    · obtain ⟨old, found⟩ := Option.isSome_iff_exists.mp held
      simp [same, found]
    · simp [same]
  · exact Table.get?_enter record.values other name value

/-- What is added is known by its name, and what was known still is. -/
theorem isSome_value?_addValue (record : EnumRecord) (name other : String) (value : Int) :
    ((record.addValue name value).value? other).isSome = true ↔
      other = name ∨ (record.value? other).isSome = true := by
  rw [value?_addValue]
  by_cases same : other = name <;> simp [same]

/-- Behind a value under a new name the count goes on from it. -/
theorem next_addValue {record : EnumRecord} {name : String} (fresh : record.value? name = none)
    (value : Int) : (record.addValue name value).next = Number.successor value := by
  have absent : ¬ record.values.contains name = true := by
    rw [Table.contains, ← value?, fresh]
    exact Bool.false_ne_true
  rw [addValue, if_neg absent]

/-- What recording a line makes of a record: the line is added with a value, or skipped. -/
inductive Records (record : EnumRecord) (line : Enumerator) : EnumRecord → Prop
  | counted (stated : line.stated = none) :
      Records record line (record.addValue line.name.val record.next)
  | literal {tokens : List Token} {value : Int} (stated : line.stated = some tokens)
      (integer : Number.readInteger (String.join tokens) = some value) :
      Records record line (record.addValue line.name.val value)
  | found {tokens : List Token} {value : Int} (stated : line.stated = some tokens)
      (noInteger : Number.readInteger (String.join tokens) = none)
      (held : record.value? (String.join tokens) = some value) :
      Records record line (record.addValue line.name.val value)
  | skipped {tokens : List Token} (stated : line.stated = some tokens)
      (noInteger : Number.readInteger (String.join tokens) = none)
      (absent : record.value? (String.join tokens) = none) : Records record line record

/-- Recording a line does one of the things that `Records` says. -/
theorem records (record : EnumRecord) (line : Enumerator) :
    record.Records line (record.record line.name.val (line.stated.map String.join)) := by
  unfold EnumRecord.record
  cases stated : line.stated with
  | none => exact .counted stated
  | some tokens =>
    simp only [Option.map_some]
    split
    · next value integer => exact .literal stated integer
    · next noInteger =>
      split
      · next value held => exact .found stated noInteger held
      · next absent => exact .skipped stated noInteger absent

/-- A record that agrees with the values of the enumerators. Behind the given lines the count
stands at the value that comes next, if the last of them is recorded. -/
structure Agrees (record : EnumRecord) (value : String → Int) (lines : List Enumerator) :
    Prop where
  values : ∀ {name given}, record.value? name = some given → given = value name
  next : (∀ last ∈ lines.head?, last.name.val ∈ Enumerator.recorded lines) →
    record.next = Enumerator.valueBehind value lines

/-- A line that is added with its own value keeps the record right. -/
theorem Agrees.addValue {record : EnumRecord} {value : String → Int} {line : Enumerator}
    {earlier : List Enumerator} (agrees : record.Agrees value earlier)
    (fresh : record.value? line.name.val = none)
    (below : value line.name.val < Number.largestInteger) :
    (record.addValue line.name.val (value line.name.val)).Agrees value (line :: earlier) := by
  refine ⟨fun {name given} held => ?_, fun _ => ?_⟩
  · rw [value?_addValue, Option.or_eq_some_iff] at held
    rcases held with old | ⟨-, new⟩
    · exact agrees.values old
    · split at new
      · next same => rw [same, ← Option.some.inj new]
      · cases new
  · rw [next_addValue fresh, Number.successor, Enumerator.valueBehind]
    omega

end EnumRecord

namespace Enumerator

section Record

variable {start : EnumRecord} {line : Enumerator} {lines earlier : List Enumerator}
  {value : String → Int}

/-- A record has values for the recorded names and for no others. -/
theorem recordAll_isSome (empty : start.values = {}) (lines : List Enumerator) (name : String) :
    ((recordAll start lines).value? name).isSome = true ↔ name ∈ recorded lines := by
  induction lines generalizing name with
  | nil => simp [recordAll, recorded, collect, EnumRecord.value?, empty]
  | cons line earlier inductionHypothesis =>
    rw [mem_recorded_cons, ← inductionHypothesis, recordAll, isRecorded]
    have steps := (recordAll start earlier).records line
    generalize (recordAll start earlier).record _ _ = after at steps ⊢
    cases steps with
    | counted stated => simp [EnumRecord.isSome_value?_addValue, stated]
    | literal stated integer => simp [EnumRecord.isSome_value?_addValue, stated, integer]
    | @found tokens value stated noInteger held =>
      have known : String.join tokens ∈ recorded earlier := by simp [← inductionHypothesis, held]
      simp [EnumRecord.isSome_value?_addValue, stated, known]
    | @skipped tokens stated noInteger absent =>
      have unknown : String.join tokens ∉ recorded earlier := by
        simp [← inductionHypothesis, absent]
      simp [stated, noInteger, unknown]

/-- The record is right about lines of which none misleads it. -/
theorem recordAll_agrees (empty : start.values = {}) (zero : start.next = 0)
    (distinct : (names lines).Nodup) (fits : Fits value lines) (bounded : Bounded value lines)
    (straight : ¬ Misled lines) : (recordAll start lines).Agrees value lines := by
  induction lines with
  | nil =>
    refine ⟨fun {name given} held => ?_, fun _ => zero⟩
    simp [recordAll, EnumRecord.value?, empty] at held
  | cons line earlier inductionHypothesis =>
    obtain ⟨before, here⟩ := fits
    obtain ⟨fresh, rest⟩ := List.nodup_cons.mp distinct
    obtain ⟨below, belowBefore⟩ := List.forall_mem_cons.mp bounded
    obtain ⟨notHere, notBefore⟩ := not_or.mp straight
    have agrees := inductionHypothesis rest before belowBefore notBefore
    have known := recordAll_isSome empty earlier
    have absent : (recordAll start earlier).value? line.name.val = none := by
      rw [← Option.not_isSome_iff_eq_none, known]
      exact mt mem_names_of_collect fresh
    have added : ∀ {given}, given = value line.name.val →
        ((recordAll start earlier).addValue line.name.val given).Agrees value (line :: earlier) :=
      fun same => same ▸ agrees.addValue absent below
    have steps := (recordAll start earlier).records line
    rw [recordAll]
    generalize (recordAll start earlier).record _ _ = after at steps ⊢
    cases steps with
    | counted stated =>
      have is : line.origin earlier = .following := by simp [origin, stated]
      simp only [is] at here
      refine added ((agrees.next fun last isLast => ?_).trans here.symm)
      by_contra unrecorded
      simp only [Misleads, is] at notHere
      exact notHere ⟨last, isLast, unrecorded⟩
    | @literal tokens given stated integer =>
      have is : line.origin earlier = .literal given := by simp [origin, stated, integer]
      simp only [is] at here
      exact added here.symm
    | @found tokens given stated noInteger held =>
      have comes := line.hasOrigin earlier
      unfold Misleads at notHere
      generalize line.origin earlier = origin at comes here notHere
      cases comes with
      | following bare => simp [stated] at bare
      | literal same integer =>
        obtain rfl := Option.some.inj (stated.symm.trans same)
        simp [noInteger] at integer
      | sameAs same =>
        obtain rfl := Option.some.inj (stated.symm.trans same)
        exact added ((agrees.values (by simpa [String.join] using held)).trans here.symm)
      | expression =>
        exact absurd ⟨tokens, stated, (known _).mp (by rw [held]; rfl)⟩ notHere
    | @skipped tokens stated noInteger unknown =>
      have unrecorded : line.name.val ∉ recorded (line :: earlier) := by
        have notTokens : String.join tokens ∉ recorded earlier := by simp [← known, unknown]
        have notName : line.name.val ∉ recorded earlier := by simp [← known, absent]
        simp [mem_recorded_cons, isRecorded, stated, noInteger, notTokens, notName]
      exact ⟨agrees.values, fun last => absurd (last line rfl) unrecorded⟩

/-- The record is right for all values that fit the lines, whatever the expressions among them
are, exactly if no line misleads it. -/
theorem recordAll_right_iff (empty : start.values = {}) (zero : start.next = 0)
    (distinct : (names lines).Nodup) (valued : ∃ value, Fits value lines ∧ Bounded value lines) :
    (∀ value, Fits value lines → Bounded value lines →
        ∀ name given, (recordAll start lines).value? name = some given → given = value name) ↔
      ¬ Misled lines := by
  refine ⟨fun right misled => ?_, fun straight value fits bounded name given held =>
    (recordAll_agrees empty zero distinct fits bounded straight).values held⟩
  obtain ⟨value, fits, bounded⟩ := valued
  obtain ⟨name, isRecorded, depends⟩ := misled.recorded_dependent
  obtain ⟨given, held⟩ := Option.isSome_iff_exists.mp
    ((recordAll_isSome empty lines name).mpr isRecorded)
  have still : Bounded (lowered value lines) lines := by
    intro other member
    have below := bounded other member
    unfold lowered
    split <;> omega
  have before := right value fits bounded name given held
  have after := right _ (fits_lowered distinct fits) still name given held
  rw [lowered, if_pos depends] at after
  omega

end Record

end Enumerator

/-! ## The lines of an enum -/

namespace Draft

variable {draft : Draft} {enum : String} {start : EnumRecord}

/-- A line inside an enum is recorded in it and written. -/
theorem convertLine_enumerator (opened : draft.nesting.enums.head? = some enum)
    (line : Enumerator) :
    ∃ after, draft.convertLine line.source.text = .ok after ∧ after.nesting = draft.nesting ∧
      after.output = draft.output.push (enumeratorLine line.tokens) ∧
      after.symbols.enums.get? enum = (draft.symbols.enums.get? enum).map
        (·.record line.name.val (line.stated.map String.join)) := by
  have inside : draft.nesting.insideEnum = true := by
    simpa [Nesting.insideEnum] using List.ne_nil_of_mem (List.mem_of_mem_head? opened)
  have passed : ((lineStatement line.source.text).rule line.source.text
      (lineTokens line.source.text)).run draft = .ok () (draft.passLine line.tokens) := by
    rw [line.passes, line.reads]
    exact Rule.passThrough_run _ draft
  have value : enumeratorValue line.tokens = line.stated.map String.join := by
    cases stated : line.stated with
    | none => simp [enumeratorValue, Enumerator.tokens, stated, valueTokens, tokenAt]
    | some tokens => simp [enumeratorValue, Enumerator.tokens, stated, valueTokens, tokenAt]
  refine ⟨_, convertLine_accepted passed, ?_⟩
  rw [passLine, if_pos inside, value]
  unfold recordEnumerator
  simp only [opened, Enumerator.tokens, tokenAt, List.getD_cons_zero, line.name.property, if_true]
  refine ⟨rfl, rfl, ?_⟩
  rw [emit, Table.get?_adjust, if_pos rfl]

/-- Lines inside an enum, behind earlier ones, are all recorded in it and written. -/
theorem convertFrom_enumerators (cursor : Nat) {earlier : List Enumerator}
    (opened : draft.nesting.enums.head? = some enum)
    (held : draft.symbols.enums.get? enum = some (Enumerator.recordAll start earlier))
    (lines : List Enumerator) :
    ∃ after, draft.convertFrom cursor (lines.map (·.source)) = .ok after ∧
      after.output.toList =
        draft.output.toList ++ lines.map (fun line => enumeratorLine line.tokens) ∧
      after.symbols.enums.get? enum =
        some (Enumerator.recordAll start (lines.reverse ++ earlier)) := by
  induction lines generalizing draft cursor earlier with
  | nil => exact ⟨draft, rfl, (List.append_nil _).symm, held⟩
  | cons line rest inductionHypothesis =>
    have moved : (draft.moveTo cursor line.source).nesting.enums.head? = some enum := opened
    obtain ⟨middle, converted, nesting, output, recorded⟩ := convertLine_enumerator moved line
    have stays : middle.nesting.enums.head? = some enum := by rw [nesting, moved]
    have added : middle.symbols.enums.get? enum =
        some (Enumerator.recordAll start (line :: earlier)) := by
      rw [recorded]
      exact congrArg (Option.map _) held
    obtain ⟨after, done, written, all⟩ := inductionHypothesis (cursor + 1) stays added
    refine ⟨after, ?_, ?_, ?_⟩
    · simp only [List.map_cons, convertFrom, converted, done]
    · rw [written, output, Array.toList_push, List.append_assoc]
      rfl
    · rw [all, List.reverse_cons, List.append_assoc]
      rfl

/-- A header that is accepted opens its enum and records it, if it is new, without
enumerators. -/
theorem convertLine_enumHeader {text : String} {keyword : Nat}
    (isHeader : lineStatement text = .enumHeader keyword) (accepted : draft.refusal text = none)
    (fresh : draft.symbols.isEnum (tokenAt (lineTokens text) (keyword + 1)) = false) :
    ∃ after header start, draft.convertLine text = .ok after ∧
      after.nesting.enums.head? = some (tokenAt (lineTokens text) (keyword + 1)) ∧
      after.output.toList = draft.output.toList ++ [header, "\x7b"] ∧
      after.symbols.enums.get? (tokenAt (lineTokens text) (keyword + 1)) = some start ∧
      start.values = {} ∧ start.next = 0 := by
  obtain ⟨after, ran, converted⟩ := accepted_of_refusal accepted
  rw [isHeader] at ran
  obtain ⟨header, reading, rfl⟩ := settle_ok
    ((Rule.enumHeader_run (lineTokens text) keyword draft).symm.trans ran)
  obtain ⟨-, kept, same⟩ := EnumHeader.read_record _ _ header reading
  have named : header.record.name = tokenAt (lineTokens text) (keyword + 1) := by rw [same]
  refine ⟨_, header.line, header.record, converted, ?_, ?_, ?_, by rw [same], by rw [same]⟩
  · simp [openBrace, emit, renest, resymbol, named]
  · simp [openBrace, emit, renest, resymbol]
  · have absent : draft.symbols.enums.get? (tokenAt (lineTokens text) (keyword + 1)) = none := by
      simpa [Symbols.isEnum, Table.contains] using fresh
    simp [openBrace, emit, renest, resymbol, Symbols.addEnum, Table.get?_enter, named, absent]

end Draft

open Enumerator

/-- From any draft, convert the header of a new enum, if it is accepted, then lines that each
name a new enumerator. Let there be values that fit the lines, none as large as the largest
integer. Each line is written, and recorded if it states nothing, an integer or something that
reads as the name of a recorded enumerator. What is recorded is the value that the enum gives,
for all values that its expressions can have, exactly if no line misleads the record: none that
states nothing stands behind a line that is not recorded, and none states an expression whose
tokens together are the name of a recorded enumerator. -/
theorem recorded_enumerators_right_iff {draft : Draft} {cursor keyword : Nat}
    {header : SourceLine} {lines : List Enumerator}
    (isHeader : lineStatement header.text = .enumHeader keyword)
    (accepted : (draft.moveTo cursor header).refusal header.text = none)
    (fresh : draft.symbols.isEnum (tokenAt (lineTokens header.text) (keyword + 1)) = false)
    (distinct : (names lines).Nodup)
    (valued : ∃ value, Fits value lines.reverse ∧ Bounded value lines.reverse) :
    ∃ after written record,
      draft.convertFrom cursor (header :: lines.map (·.source)) = .ok after ∧
      after.output.toList = draft.output.toList ++
        written :: "\x7b" :: lines.map (fun line => enumeratorLine line.tokens) ∧
      after.symbols.enums.get? (tokenAt (lineTokens header.text) (keyword + 1)) = some record ∧
      (∀ name, (record.value? name).isSome = true ↔ name ∈ recorded lines.reverse) ∧
      ((∀ value, Fits value lines.reverse → Bounded value lines.reverse →
          ∀ name given, record.value? name = some given → given = value name) ↔
        ¬ Misled lines.reverse) := by
  have unused : (draft.moveTo cursor header).symbols.isEnum
      (tokenAt (lineTokens header.text) (keyword + 1)) = false := fresh
  obtain ⟨entered, written, start, opened, current, begun, held, empty, zero⟩ :=
    Draft.convertLine_enumHeader isHeader accepted unused
  have noLines : entered.symbols.enums.get? (tokenAt (lineTokens header.text) (keyword + 1)) =
      some (recordAll start []) := held
  obtain ⟨after, converted, output, kept⟩ :=
    Draft.convertFrom_enumerators (cursor + 1) current noLines lines
  rw [List.append_nil] at kept
  have apart : (names lines.reverse).Nodup := by
    rw [names, List.map_reverse]
    exact List.nodup_reverse.mpr distinct
  refine ⟨after, written, recordAll start lines.reverse, ?_, ?_, kept,
    recordAll_isSome empty lines.reverse, recordAll_right_iff empty zero apart valued⟩
  · simp only [Draft.convertFrom, opened, converted]
  · rw [output, begun, List.append_assoc]
    rfl

/-- An enum with a line of each kind, of which the last is not recorded. -/
theorem recorded_enumerators_right_iff_level :
    let lines : List Enumerator :=
      [⟨⟨2, "Low"⟩, ⟨"Low", by decide⟩, none, by decide +kernel, by decide +kernel⟩,
       ⟨⟨3, "Mid = 40"⟩, ⟨"Mid", by decide⟩, some ["40"], by decide +kernel, by decide +kernel⟩,
       ⟨⟨4, "High"⟩, ⟨"High", by decide⟩, none, by decide +kernel, by decide +kernel⟩,
       ⟨⟨5, "Usual = Mid"⟩, ⟨"Usual", by decide⟩, some ["Mid"], by decide +kernel,
         by decide +kernel⟩,
       ⟨⟨6, "Top = High * 2"⟩, ⟨"Top", by decide⟩, some ["High", "*", "2"], by decide +kernel,
         by decide +kernel⟩]
    recorded lines.reverse = ["Usual", "High", "Mid", "Low"] ∧
    ∃ after record, (Draft.start {} []).convertFrom 0
        (⟨1, "Public Enum Level As Integer"⟩ :: lines.map (·.source)) = .ok after ∧
      after.symbols.enums.get? "Level" = some record ∧
      ∀ value, Fits value lines.reverse → Bounded value lines.reverse →
        ∀ name given, record.value? name = some given → given = value name := by
  intro lines
  have known : recorded lines.reverse = ["Usual", "High", "Mid", "Low"] := by decide +kernel
  obtain ⟨after, written, record, converted, -, held, -, right⟩ :=
    @recorded_enumerators_right_iff (Draft.start {} []) 0 1 ⟨1, "Public Enum Level As Integer"⟩
      lines (by decide +kernel) (by decide +kernel) (by decide +kernel) (by decide +kernel)
      ⟨fun name => if name = "Low" then 0 else if name = "High" then 41 else 40,
        by decide +kernel, by decide +kernel⟩
  have name : tokenAt (lineTokens "Public Enum Level As Integer") 2 = "Level" := by
    decide +kernel
  rw [name] at held
  exact ⟨known, after, record, converted, held, right.mpr (by decide +kernel)⟩

/-- Behind an expression the record goes on counting from the line before it: the last
enumerator is recorded as 5, and is 15 when the expression is 14. -/
theorem enumerator_behind_expression_recorded_wrong :
    let lines : List Enumerator :=
      [⟨⟨2, "A = 4"⟩, ⟨"A", by decide⟩, some ["4"], by decide +kernel, by decide +kernel⟩,
       ⟨⟨3, "B = A + 10"⟩, ⟨"B", by decide⟩, some ["A", "+", "10"], by decide +kernel,
         by decide +kernel⟩,
       ⟨⟨4, "C"⟩, ⟨"C", by decide⟩, none, by decide +kernel, by decide +kernel⟩]
    let value : String → Int := fun name => if name = "A" then 4 else if name = "B" then 14 else 15
    ((Draft.start {} []).convertFrom 0 (⟨1, "Enum E"⟩ :: lines.map (·.source))).toOption.bind
        (fun after => (after.symbols.enums.get? "E").bind (·.value? "C")) = some 5 ∧
      Fits value lines.reverse ∧ Bounded value lines.reverse ∧ value "C" = 15 := by
  decide +kernel

end BasicToSharp
