import ShaderVariants.Text.Basic

/-!
# Ranges of characters

A property of characters is given by the ranges of the codes that have it, in
ascending order and with gaps between them.
-/

namespace ShaderVariants

/-- The first and the last codes of ranges of characters. -/
abbrev CodeRanges := List (Nat × Nat)

namespace CodeRanges

/-- A range holds the character. -/
def hold (ranges : CodeRanges) (c : Char) : Bool :=
  ranges.any fun (low, high) => low ≤ c.toNat && c.toNat ≤ high

/-- No range is empty, and each begins behind a gap after the one before it. -/
def areApart : CodeRanges → Bool
  | [] => true
  | [(low, high)] => low ≤ high
  | (low, high) :: (next, last) :: rest =>
    low ≤ high && high + 1 < next && areApart ((next, last) :: rest)

/-- The number of codes in the ranges. -/
def size (ranges : CodeRanges) : Nat :=
  ranges.foldr (fun (low, high) n => high + 1 - low + n) 0

end CodeRanges

end ShaderVariants
