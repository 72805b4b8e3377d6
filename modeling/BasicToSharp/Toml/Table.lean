/-!
# Tables of TOML

A table holds values by name, and a value may be a table again. How a table came about
decides who may add to it: a table is opened by a header at most once, a table that a
dotted key has made takes further dotted keys, and a table written in braces is finished.
A header in double brackets opens one more table of a row, and keys that lead through a row
lead through its last table.
-/

namespace BasicToSharp.Toml

/-- How a table came about. -/
inductive Origin
  /-- A header of its own. -/
  | header
  /-- A header further inside. -/
  | implied
  /-- A dotted key. -/
  | dotted
  /-- Braces on one line. -/
  | inline
  deriving DecidableEq, Repr

/-- A value. Numbers with a point or exponent, and dates and times, are kept as they are
written. -/
inductive Value
  | text (value : String)
  | flag (value : Bool)
  | integer (value : Int)
  | decimal (written : String)
  | moment (written : String)
  | list (values : List Value)
  | table (origin : Origin) (entries : List (String × Value))
  /-- The tables of headers in double brackets, the last one apart. -/
  | tables (earlier : List (List (String × Value))) (last : List (String × Value))

/-- The values of a table by name. -/
abbrev Entries := List (String × Value)

namespace Entries

/-- Put a value in place of one that is there. -/
def replace (entries : Entries) (name : String) (value : Value) : Entries :=
  entries.map fun (held, old) => if held = name then (held, value) else (held, old)

/-- Enter a value under a dotted key. A name is given at most once, and the names before
the last lead through tables that dotted keys have made; only on the way there may a
header have implied one or opened one of a row. -/
def enter (value : Value) : List String → Entries → Option Entries
  | [], _ => none
  | [name], entries =>
    if (entries.lookup name).isSome then none else some (entries ++ [(name, value)])
  | name :: next :: rest, entries =>
    match entries.lookup name with
    | none =>
      (enter value (next :: rest) []).map fun inner => entries ++ [(name, .table .dotted inner)]
    | some (.table origin inner) =>
      if origin = .dotted ∨ (origin = .implied ∧ rest ≠ []) then
        (enter value (next :: rest) inner).map fun changed =>
          replace entries name (.table origin changed)
      else none
    | some (.tables earlier last) =>
      if rest = [] then none
      else
        (enter value (next :: rest) last).map fun changed =>
          replace entries name (.tables earlier changed)
    | some _ => none

/-- Open the table that a header names. -/
def openTable (entries : Entries) (name : String) : Option Entries :=
  match entries.lookup name with
  | none => some (entries ++ [(name, .table .header [])])
  | some (.table .implied inner) => some (replace entries name (.table .header inner))
  | some _ => none

/-- Open one more table of the row that a header in double brackets names. -/
def openRow (entries : Entries) (name : String) : Option Entries :=
  match entries.lookup name with
  | none => some (entries ++ [(name, .tables [] [])])
  | some (.tables earlier last) => some (replace entries name (.tables (earlier ++ [last]) []))
  | some _ => none

/-- Open what a header names in the table that the names before the last lead to. Tables
that are missing on the way are implied. -/
def openAt (opening : Entries → String → Option Entries) :
    List String → Entries → Option Entries
  | [], _ => none
  | [name], entries => opening entries name
  | name :: next :: rest, entries =>
    match entries.lookup name with
    | none =>
      (openAt opening (next :: rest) []).map fun inner =>
        entries ++ [(name, .table .implied inner)]
    | some (.table origin inner) =>
      if origin = .inline then none
      else
        (openAt opening (next :: rest) inner).map fun changed =>
          replace entries name (.table origin changed)
    | some (.tables earlier last) =>
      (openAt opening (next :: rest) last).map fun changed =>
        replace entries name (.tables earlier changed)
    | some _ => none

/-- Change the table at the end of a path. -/
def changeAt (change : Entries → Option Entries) : List String → Entries → Option Entries
  | [], entries => change entries
  | name :: rest, entries =>
    match entries.lookup name with
    | some (.table origin inner) =>
      (changeAt change rest inner).map fun changed =>
        replace entries name (.table origin changed)
    | some (.tables earlier last) =>
      (changeAt change rest last).map fun changed =>
        replace entries name (.tables earlier changed)
    | _ => none

end Entries

end BasicToSharp.Toml
