import ShaderVariants.Identifier
import ShaderVariants.Symbols

/-!
# Toggles

A toggle gives a symbol its bit in the mask and its accessor name in the
generated class. Bits follow the first-seen order; an accessor name that an
earlier toggle has taken gets the bit behind it, which no name in Pascal case
can contain.
-/

namespace ShaderVariants

/-- A symbol with the accessor name and the bit that the generated class has for it. -/
structure Toggle where
  symbol : Text
  accessor : Text
  bit : Nat
deriving DecidableEq, Repr

namespace Toggle

/-- The number of bits in a mask, and so the greatest number of toggles. -/
def maxCount : Nat := 64

/-- The mask with just the toggle's bit. -/
def mask (t : Toggle) : BitVec 64 := BitVec.twoPow 64 t.bit

/-- The toggles of the symbols from bit `bit` on, with the accessor names `taken` in use. -/
def bindFrom (bit : Nat) (taken : List Text) : List Text → List Toggle
  | [] => []
  | symbol :: rest =>
    let wanted := accessorName symbol
    let accessor := if wanted ∈ taken then wanted ++ '_' :: Text.decimal bit else wanted
    ⟨symbol, accessor, bit⟩ :: bindFrom (bit + 1) (accessor :: taken) rest

/-- The toggles of the symbols, in bit order. -/
def ofSymbols (s : Symbols) : List Toggle := bindFrom 0 [] s.names

theorem map_symbol_bindFrom (bit : Nat) (taken l : List Text) :
    (bindFrom bit taken l).map symbol = l := by
  induction l generalizing bit taken with
  | nil => rfl
  | cons a l ih => simp [bindFrom, ih]

theorem map_bit_bindFrom (bit : Nat) (taken l : List Text) :
    (bindFrom bit taken l).map Toggle.bit = List.range' bit l.length := by
  induction l generalizing bit taken with
  | nil => rfl
  | cons a l ih => simp [bindFrom, ih, List.range'_succ]

/-- Each symbol has one toggle, in the order of the symbols. -/
@[simp] theorem map_symbol_ofSymbols (s : Symbols) : (ofSymbols s).map symbol = s.names :=
  map_symbol_bindFrom 0 [] s.names

/-- The bits count up from zero. -/
@[simp] theorem map_bit_ofSymbols (s : Symbols) :
    (ofSymbols s).map Toggle.bit = List.range' 0 s.size :=
  map_bit_bindFrom 0 [] s.names

@[simp] theorem length_ofSymbols (s : Symbols) : (ofSymbols s).length = s.size := by
  rw [Symbols.size, ← map_symbol_ofSymbols s, List.length_map]

end Toggle

end ShaderVariants
