import BasicToSharp.Number.Integer
import BasicToSharp.Symbol.Table
import BasicToSharp.TypeRef

/-!
# Declared symbols

What a file has declared so far: classes with their fields, enums with the values of their
enumerators, functions, and variables outside any of them. Of two declarations of one
name the first is kept; only a local that is declared again takes the later type.
-/

namespace BasicToSharp

/-- A declared variable, field or parameter. -/
structure Variable where
  name : String
  type : String := TypeRef.defaultText
  modifiers : List String := []
  isArray : Bool := false
  /-- Whether its declaration constructs the value. -/
  isNew : Bool := false
  /-- The initial value as it is written; empty when there is none. -/
  initial : String := ""
  deriving DecidableEq, Repr

/-- A class or module with its fields. -/
structure ClassRecord where
  name : String
  fields : Table Variable := {}
  deriving DecidableEq, Repr

/-- Enter a field; the first declaration of a name is kept. -/
def ClassRecord.declare (record : ClassRecord) (declared : Variable) : ClassRecord :=
  { record with fields := record.fields.enter declared.name declared }

/-- An enum. -/
structure EnumRecord where
  name : String := ""
  modifiers : List String := []
  /-- The known values of its enumerators, which are 64-bit integers. -/
  values : Table Int := {}
  /-- The value of the next enumerator that states none. -/
  next : Int := 0
  deriving DecidableEq, Repr

namespace EnumRecord

/-- Add a modifier, unless it is there already. -/
def addModifier (record : EnumRecord) (modifier : String) : EnumRecord :=
  if record.modifiers.contains modifier then record
  else { record with modifiers := record.modifiers ++ [modifier] }

/-- Give the enum its name, unless it has one. -/
def setName (record : EnumRecord) (name : String) : EnumRecord :=
  if record.name.isEmpty then { record with name := name } else record

/-- Record an enumerator; the first value of a name is kept. The next enumerator without
a value of its own is one more. -/
def addValue (record : EnumRecord) (name : String) (value : Int) : EnumRecord :=
  if record.values.contains name then record
  else
    { record with values := record.values.enter name value, next := Number.successor value }

/-- Record an enumerator that states no value. -/
def addImplicit (record : EnumRecord) (name : String) : EnumRecord :=
  record.addValue name record.next

/-- The known value of an enumerator. -/
def value? (record : EnumRecord) (name : String) : Option Int := record.values.get? name

end EnumRecord

/-- A function, sub, constructor or property accessor. -/
structure FunctionRecord where
  name : String
  modifiers : List String := []
  /-- The type it returns; a constructor has none. -/
  returnType : Option String := some TypeRef.defaultText
  /-- Each parameter as tokens: passing words, type, name, and a default value behind
  `=`. -/
  parameters : List (List Token) := []
  /-- Parameters and locals. -/
  locals : Table Variable := {}
  deriving DecidableEq, Repr

namespace FunctionRecord

/-- Enter a local. A name declared again keeps its record and takes the new type. -/
def declare (record : FunctionRecord) (declared : Variable) : FunctionRecord :=
  if record.locals.contains declared.name then
    { record with locals :=
        record.locals.adjust declared.name ({ · with type := declared.type }) }
  else { record with locals := record.locals.enter declared.name declared }

/-- True of the name of a parameter or local. -/
def declares (record : FunctionRecord) (name : String) : Bool := record.locals.contains name

/-- The parameter or local of a name. -/
def local? (record : FunctionRecord) (name : String) : Option Variable :=
  record.locals.get? name

end FunctionRecord

/-- All symbols that a file has declared. -/
structure Symbols where
  classes : Table ClassRecord := {}
  enums : Table EnumRecord := {}
  functions : Table FunctionRecord := {}
  /-- Variables declared outside any class or function. -/
  globals : Table Variable := {}
  deriving DecidableEq, Repr

namespace Symbols

/-- Enter a class; an earlier one of the same name is kept. -/
def addClass (symbols : Symbols) (name : String) : Symbols :=
  { symbols with classes := symbols.classes.enter name ⟨name, {}⟩ }

/-- Enter an enum; an earlier one of the same name is kept. -/
def addEnum (symbols : Symbols) (record : EnumRecord) : Symbols :=
  { symbols with enums := symbols.enums.enter record.name record }

/-- Enter a function; an earlier one of the same name is kept. -/
def addFunction (symbols : Symbols) (record : FunctionRecord) : Symbols :=
  { symbols with functions := symbols.functions.enter record.name record }

/-- Enter a variable outside any class or function; an earlier one is kept. -/
def addVariable (symbols : Symbols) (declared : Variable) : Symbols :=
  { symbols with globals := symbols.globals.enter declared.name declared }

/-- Enter a field of a class, if there is such a class. -/
def addField (symbols : Symbols) (className : String) (declared : Variable) : Symbols :=
  { symbols with classes := symbols.classes.adjust className (·.declare declared) }

/-- True of the name of a class or module. -/
def isClass (symbols : Symbols) (name : String) : Bool := symbols.classes.contains name

/-- True of the name of an enum. -/
def isEnum (symbols : Symbols) (name : String) : Bool := symbols.enums.contains name

/-- True of the name of a function. -/
def isFunction (symbols : Symbols) (name : String) : Bool := symbols.functions.contains name

/-- True of the name of a type that the file declares. -/
def isUserType (symbols : Symbols) (name : String) : Bool :=
  symbols.isClass name || symbols.isEnum name

/-- True of the name of a field of any class. -/
def isField (symbols : Symbols) (name : String) : Bool :=
  symbols.classes.values.any (·.fields.contains name)

end Symbols

end BasicToSharp
