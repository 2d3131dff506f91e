import ShaderVariants.Decimal.Double

/-!
# Shortest decimals

The decimal number with the fewest digits that still tells a number of double
precision from all others. The points of a decimal grid are tried, from the
coarsest grid to the finest.
-/

namespace ShaderVariants.Double

/-- The grids are those of the powers of ten from this one down. -/
def coarsest : Nat := 308

/-- The finest grid, of `10 ^ -324`, is finer than any two numbers are apart. -/
def finest : Nat := 324

/-- The distance of the points of grid `g` on the scale of comparisons, where the least positive
    number is `4 · 10 ^ finest`. Grid `finest` has the whole numbers for its points. -/
def gridStep (g : Nat) : Nat := Nat.pow 10 g * Nat.pow 2 1076

/-- The point of a grid lies among the numbers that are nearer to `x` than to its neighbours;
    those halfway count where `x` is even. -/
def isReadBy (x : Double) (g point : Nat) : Bool :=
  let gap := 2 * spacing x.count
  let low := (4 * x.count - if x.isNarrowBelow then gap / 2 else gap) * Nat.pow 10 finest
  let high := (4 * x.count + gap) * Nat.pow 10 finest
  let place := point * gridStep g
  if x.isEven then low ≤ place && place ≤ high else low < place && place < high

/-- The nearest point of a grid that is read as `x`; of two equally near ones the greater. -/
def onGrid? (x : Double) (g : Nat) : Option Nat :=
  let place := 4 * x.count * Nat.pow 10 finest
  let below := place / gridStep g
  match x.isReadBy g below, x.isReadBy g (below + 1) with
  | true, true => some (if 2 * place < (2 * below + 1) * gridStep g then below else below + 1)
  | true, false => some below
  | false, true => some (below + 1)
  | false, false => none

/-- The number itself as a decimal number. -/
def exact (x : Double) : Decimal := ⟨x.count * Nat.pow 5 1074, -1074⟩

/-- The decimal number with the fewest digits that is read as `x`, and of those the nearest.
    Every grid has a point for zero, so zero is set apart; for the other numbers the finest grid
    has a point at the latest. -/
def shortest (x : Double) : Decimal :=
  let grids := (List.range (coarsest + finest + 1)).reverse
  if x.count = 0 then ⟨0, 0⟩
  else (grids.findSome? fun g => (x.onGrid? g).map (⟨·, g - finest⟩)).getD x.exact

end ShaderVariants.Double
