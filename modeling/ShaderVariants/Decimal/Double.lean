import ShaderVariants.Decimal.Basic

/-!
# Numbers of double precision

The finite numbers of double precision without their signs, and the one that is
nearest to a decimal number. All of them are multiples of the least positive
one, so each is given by a count, and rounding is exact arithmetic on counts.
-/

namespace ShaderVariants

/-- The whole number nearest to a quotient; of two that are equally near, the even one. -/
def roundQuotient (num den : Nat) : Nat :=
  let below := num / den
  let rest := num % den
  if 2 * rest < den ∨ (2 * rest = den ∧ below % 2 = 0) then below else below + 1

/-- The distance between the numbers with 53 significant bits around a count. -/
def spacing (count : Nat) : Nat := Nat.pow 2 (count.log2 - 52)

/-- The count of `2 ^ 1024`, where the numbers end. -/
def countLimit : Nat := Nat.pow 2 2098

/-- A finite number of double precision without its sign. -/
structure Double where
  /-- How many times the least positive number, `2 ^ -1074`, it is. -/
  count : Nat
deriving DecidableEq, Repr

namespace Double

def zero : Double := ⟨0⟩

/-- The number nearest to a quotient of counts. There is none where it lies beyond the greatest
    number. -/
def ofQuotient? (num den : Nat) : Option Double :=
  let s := spacing (num / den)
  let count := roundQuotient num (den * s) * s
  if count < countLimit then some ⟨count⟩ else none

/-- The number nearest to a decimal number. Of decimal numbers that are too great or nearly zero
    the exponent alone decides, so that no power of it is taken. -/
def nearest? (d : Decimal) : Option Double :=
  if d.digits = 0 ∨ d.exponent + d.digits.log2 < -324 then some zero
  else if 308 < d.exponent then none
  else ofQuotient? (d.digits * Nat.pow 10 d.exponent.toNat * Nat.pow 2 1074)
    (Nat.pow 10 (-d.exponent).toNat)

/-- The last of its 53 significant bits is zero. -/
def isEven (x : Double) : Bool := x.count / spacing x.count % 2 = 0

/-- The distance to the next smaller number is half of that to the next greater one. -/
def isNarrowBelow (x : Double) : Bool :=
  1 < spacing x.count ∧ x.count = Nat.pow 2 52 * spacing x.count

example : (nearest? ⟨9007199254740993, 0⟩).map Double.count = some (2 ^ 1074 * 2 ^ 53) := by
  decide +kernel

example : (nearest? ⟨24703282292062328, -340⟩).map Double.count = some 1 := by decide +kernel

example : (nearest? ⟨179769313486231580794, 288⟩).isNone = true := by decide +kernel

end Double

end ShaderVariants
