import ShaderVariants.Text.Quoted
import ShaderVariants.Decimal.Shortest
import ShaderVariants.Document.Value

/-!
# TOML values in messages

How a message names a value that it did not expect: its kind, and its content
where that is short.
-/

namespace ShaderVariants.Document

/-- The decimal digits of a number with a sign. -/
def signedDecimal (i : Int) : Text :=
  if i < 0 then '-' :: Text.decimal i.natAbs else Text.decimal i.natAbs

/-- How many numbers of a width have one sign. -/
def halfRange (width : Nat) : Int := Nat.pow 2 (width - 1)

/-- An integer with the width that it needs where that is more than 64 bits. Integers of more
    than 128 bits cannot be named. -/
def describeInteger? (i : Int) : Option Text :=
  let plain : Text := "integer `" ++ signedDecimal i ++ "`"
  if -halfRange 64 ≤ i ∧ i < 2 * halfRange 64 then some plain
  else if -halfRange 128 ≤ i ∧ i < halfRange 128 then some (plain ++ " as i128")
  else if 0 ≤ i ∧ i < 2 * halfRange 128 then some (plain ++ " as u128")
  else none

/-- The sign of a number that has one. -/
def sign (negative : Bool) : Text := if negative then ['-'] else []

/-- A number with a fraction as double precision holds it, in the fewest digits. A number beyond
    double precision cannot be named. -/
def Real.written? : Real → Option Text
  | .notANumber => some "NaN"
  | .infinity negative => some (sign negative ++ "inf")
  | .decimal negative magnitude =>
    (Double.nearest? magnitude).map fun x => sign negative ++ x.shortest.positional

/-- How a message names the value. -/
def Value.describe? : Value → Option Text
  | .string text => some ("string " ++ text.quoted)
  | .boolean b => some ("boolean `" ++ (if b then "true" else "false") ++ "`")
  | .integer i => describeInteger? i
  | .unreadable => none
  | .real r => r.written?.map fun written => "floating point `" ++ written ++ "`"
  | .array _ | .tables _ => some "sequence"
  | .moment | .table .. => some "map"

end ShaderVariants.Document
