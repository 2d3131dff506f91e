import ShaderVariants.Text.Basic

/-!
# Decimal numbers

Numbers as people write them: digits and a power of ten.
-/

namespace ShaderVariants

/-- The number `digits · 10 ^ exponent`. -/
structure Decimal where
  digits : Nat
  exponent : Int
deriving DecidableEq, Repr

namespace Decimal

/-- The number in positional notation. There is always a point with a digit on either side of
    it, and no zero behind the point that says nothing. -/
def positional (d : Decimal) : Text :=
  let written := Text.decimal d.digits
  if 0 ≤ d.exponent then written ++ List.replicate d.exponent.toNat '0' ++ ['.', '0']
  else
    let places := d.exponent.natAbs
    let padded := written.leftpad (places + 1) '0'
    let behind := ((padded.drop (padded.length - places)).reverse.dropWhile (· == '0')).reverse
    padded.take (padded.length - places) ++ '.' :: (if behind = [] then ['0'] else behind)

example : positional ⟨12, 1⟩ = ['1', '2', '0', '.', '0'] := by decide

example : positional ⟨120, -2⟩ = ['1', '.', '2'] := by decide

end Decimal

end ShaderVariants
