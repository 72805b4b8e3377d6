/-!
# Conversion options

What a user may choose about a conversion.
-/

namespace BasicToSharp

/-- The choices for one conversion. -/
structure Options where
  /-- One step of indentation. -/
  indent : String := "\t"
  /-- Move `static` behind the visibility word it stands before. -/
  reorderStatic : Bool := true
  /-- Split a `Dim` of several names into one line per name. -/
  splitDeclarations : Bool := true
  /-- Report words of passed-through lines that nobody knows. -/
  reportUnregistered : Bool := true
  deriving DecidableEq, Repr

end BasicToSharp
