import BasicToSharp.Conversion

/-!
# Converters

A converter is described by the languages it joins and the file extensions it reads and
writes. Of several converters for one language or extension, the first in the catalogue
is taken.
-/

namespace BasicToSharp

/-- A way to convert files of one language into another. -/
structure Converter where
  source : String
  target : String
  /-- The extensions of the files it reads. -/
  extensions : List String
  /-- The extension of the files it writes. -/
  targetExtension : String
  convert : String → Options → Except ConversionError Conversion

namespace Converter

/-- The converter from VB to C#. -/
def basicToSharp : Converter where
  source := "vb"
  target := "csharp"
  extensions := ["vb", "bas", "cls"]
  targetExtension := "cs"
  convert := BasicToSharp.convert

/-- The converters that are there from the start. -/
def catalogue : List Converter := [basicToSharp]

/-- The first converter for a source language. -/
def forLanguage (converters : List Converter) (language : String) : Option Converter :=
  converters.find? (·.source == language)

/-- The first converter that reads an extension. -/
def forExtension (converters : List Converter) (extension : String) : Option Converter :=
  converters.find? (·.extensions.contains extension)

end Converter

end BasicToSharp
