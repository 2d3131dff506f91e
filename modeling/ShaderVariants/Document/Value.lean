import ShaderVariants.Decimal.Basic

/-!
# TOML values

The values of a TOML document. A table remembers what made it, since that
decides whether a later line may add to it.
-/

namespace ShaderVariants.Document

/-- What made a table. -/
inductive Origin where
  /-- A longer header, which names it on the way. -/
  | implicit
  /-- A dotted key. -/
  | dotted
  /-- A header of its own. -/
  | header
  /-- Braces. -/
  | inline
deriving DecidableEq, Repr

/-- A number with a fraction or an exponent, or one of the special ones. -/
inductive Real where
  /-- The number as it is written. -/
  | decimal (negative : Bool) (magnitude : Decimal)
  | infinity (negative : Bool)
  | notANumber
deriving DecidableEq, Repr

inductive Value where
  | string (text : Text)
  | boolean (b : Bool)
  | integer (i : Int)
  /-- An integer by its form whose characters stand for no number. -/
  | unreadable
  | real (r : Real)
  /-- A date, a time or both. -/
  | moment
  | array (items : List Value)
  | table (origin : Origin) (entries : List (Text × Value))
  /-- An array whose tables stand under headers of their own. -/
  | tables (items : List (List (Text × Value)))

/-- The keys of a table and their values, in the order of the document. -/
abbrev Entries := List (Text × Value)

namespace Entries

/-- The entries with the value of a key changed. -/
def replace (entries : Entries) (key : Text) (v : Value) : Entries :=
  entries.map fun e => if e.1 = key then (key, v) else e

/-- Changes the last table of an array. -/
def changeLast (change : Entries → Option Entries) (items : List Entries) :
    Option (List Entries) := do
  let last ← items.getLast?
  let last ← change last
  some (items.dropLast ++ [last])

/-- Adds an entry for a dotted key. No key is written twice, and a dotted key adds only to
    tables that dotted keys have made. On the way there it passes the tables that no header has
    opened yet; of an array of tables it passes the last. -/
def assign (v : Value) : List Text → Entries → Option Entries
  | [], _ => none
  | [key], entries =>
    match entries.lookup key with
    | none => some (entries ++ [(key, v)])
    | some _ => none
  | key :: rest, entries =>
    match entries.lookup key with
    | none => (assign v rest []).map fun sub => entries ++ [(key, .table .dotted sub)]
    | some (.table origin sub) =>
      if origin = .dotted ∨ (origin = .implicit ∧ rest.length ≠ 1) then
        (assign v rest sub).map fun sub => replace entries key (.table origin sub)
      else none
    | some (.tables items) =>
      if rest.length = 1 then none
      else (changeLast (assign v rest) items).map fun items => replace entries key (.tables items)
    | some _ => none

/-- Changes the entries of the table at a path of headers. Tables on the way that do not exist
    are made; of an array of tables the last counts. -/
def under (change : Entries → Option Entries) : List Text → Entries → Option Entries
  | [], entries => change entries
  | key :: rest, entries =>
    match entries.lookup key with
    | none => (under change rest []).map fun sub => entries ++ [(key, .table .implicit sub)]
    | some (.table .inline _) => none
    | some (.table origin sub) =>
      (under change rest sub).map fun sub => replace entries key (.table origin sub)
    | some (.tables items) =>
      (changeLast (under change rest) items).map fun items => replace entries key (.tables items)
    | some _ => none

/-- Changes the entry of the last key of a path, in the table that the others lead to. -/
def atLast (change : Text → Entries → Option Entries) (path : List Text) (entries : Entries) :
    Option Entries := do
  let key ← path.getLast?
  under (change key) path.dropLast entries

/-- Opens the table at a path. It may have been made on the way to another header, but not
    otherwise. -/
def openTable : List Text → Entries → Option Entries :=
  atLast fun key entries =>
    match entries.lookup key with
    | none => some (entries ++ [(key, .table .header [])])
    | some (.table .implicit sub) => some (replace entries key (.table .header sub))
    | some _ => none

/-- Adds a table to the array of tables at a path. -/
def addItem (item : Entries) : List Text → Entries → Option Entries :=
  atLast fun key entries =>
    match entries.lookup key with
    | none => some (entries ++ [(key, .tables [item])])
    | some (.tables items) => some (replace entries key (.tables (items ++ [item])))
    | some _ => none

end Entries

end ShaderVariants.Document
