import ShaderVariants.Toggle

/-!
# Variants

A variant says which symbols are on, as a 64-bit mask. Variants are compared by
their masks alone.
-/

namespace ShaderVariants

/-- A choice of symbols, one bit each. -/
structure Variant where
  /-- The bits of the symbols that are on. -/
  mask : BitVec 64 := 0
deriving DecidableEq, Repr

namespace Variant

instance : EmptyCollection Variant := ⟨{}⟩

/-- Variants are ordered as their masks are as numbers. -/
instance : Ord Variant where
  compare v w := compare v.mask.toNat w.mask.toNat

/-- Turns a toggle on or off. -/
def set (v : Variant) (t : Toggle) (enabled : Bool) : Variant where
  mask := if enabled then v.mask ||| t.mask else v.mask &&& ~~~t.mask

/-- Whether a toggle is on. -/
def get (v : Variant) (t : Toggle) : Bool := v.mask &&& t.mask != 0

/-- The variant with exactly these toggles on. -/
def ofToggles (l : List Toggle) : Variant := l.foldl (fun v t => v.set t true) ∅

/-- A toggle reads its own bit of the mask. -/
theorem get_eq_getLsbD (v : Variant) {t : Toggle} (h : t.bit < 64) :
    v.get t = v.mask.getLsbD t.bit := by
  rw [get, Toggle.mask, BitVec.and_twoPow]
  have : BitVec.twoPow 64 t.bit ≠ 0 := by
    intro h0
    have := congrArg (fun x => BitVec.getLsbD x t.bit) h0
    simp [h] at this
  cases v.mask.getLsbD t.bit with
  | true => simpa using this
  | false => rfl

/-- Setting a toggle writes its own bit and no other. -/
theorem getLsbD_set (v : Variant) {t : Toggle} (h : t.bit < 64) (enabled : Bool) (i : Nat) :
    (v.set t enabled).mask.getLsbD i = if i = t.bit then enabled else v.mask.getLsbD i := by
  by_cases hi : i = t.bit
  · subst hi
    cases enabled <;> simp [set, Toggle.mask, h]
  · cases enabled
    · by_cases hlt : i < 64
      · simp [set, Toggle.mask, hi, hlt]
      · simp [set, hi, BitVec.getLsbD_of_ge _ _ (Nat.le_of_not_lt hlt)]
    · simp [set, Toggle.mask, BitVec.getLsbD_twoPow, hi, Ne.symm hi]

/-- The toggle that was set reads back. -/
theorem get_set_self (v : Variant) {t : Toggle} (h : t.bit < 64) (enabled : Bool) :
    (v.set t enabled).get t = enabled := by
  simp [get_eq_getLsbD _ h, getLsbD_set v h]

/-- A toggle of another bit keeps its value. -/
theorem get_set_of_ne (v : Variant) {t u : Toggle} (ht : t.bit < 64) (hu : u.bit < 64)
    (hne : u.bit ≠ t.bit) (enabled : Bool) : (v.set t enabled).get u = v.get u := by
  simp [get_eq_getLsbD _ hu, getLsbD_set v ht, hne]

end Variant

end ShaderVariants
