import Mathlib.Algebra.GroupWithZero.Nat
import Mathlib.Data.List.Induction
import Mathlib.Data.List.Nodup
import ShaderVariants.Proofs.BoundNames

/-!
# Setting toggles

The toggles of a shader have distinct bits below 64, so setting one writes its own bit and no
other. After any number of settings each bit of a toggle has the value that was set last, and
the bits beyond those of the toggles are as they were. With every toggle on, the mask is the
sum of the masks of the toggles.
-/

namespace ShaderVariants

variable {v w : Variant} {t : Toggle} {calls : List (Toggle × Bool)} {toggles : List Toggle}

namespace Variant

/-- The variant after toggles were set, one after the other. -/
def setAll (v : Variant) (calls : List (Toggle × Bool)) : Variant :=
  calls.foldl (fun v call => v.set call.1 call.2) v

/-- The value that the last setting of a toggle gives it. -/
def lastValue? (calls : List (Toggle × Bool)) (t : Toggle) : Option Bool := calls.reverse.lookup t

theorem setAll_concat (v : Variant) (calls : List (Toggle × Bool)) (call : Toggle × Bool) :
    v.setAll (calls ++ [call]) = (v.setAll calls).set call.1 call.2 := List.foldl_concat _ _ _ _

theorem lastValue?_concat (calls : List (Toggle × Bool)) (call : Toggle × Bool) (t : Toggle) :
    lastValue? (calls ++ [call]) t = if t = call.1 then some call.2 else lastValue? calls t := by
  rw [lastValue?, List.reverse_concat, List.lookup_cons, lastValue?]
  by_cases h : t = call.1
  · rw [if_pos h, beq_iff_eq.2 h]
  · rw [if_neg h, beq_eq_false_iff_ne.2 h]

/-- A bit that no call sets keeps its value. -/
theorem getLsbD_setAll_of_ne (v : Variant) {i : Nat} (hlt : ∀ call ∈ calls, call.1.bit < 64)
    (hne : ∀ call ∈ calls, i ≠ call.1.bit) :
    (v.setAll calls).mask.getLsbD i = v.mask.getLsbD i := by
  induction calls using List.reverseRecOn with
  | nil => rfl
  | append_singleton calls call ih =>
    rw [List.forall_mem_append, List.forall_mem_singleton] at hlt hne
    rw [setAll_concat, getLsbD_set _ hlt.2, if_neg hne.2, ih hlt.1 hne.1]

/-- The bit of a toggle has the value that was set last. No other toggle has that bit. -/
theorem getLsbD_setAll (v : Variant) (hlt : ∀ t ∈ toggles, t.bit < 64)
    (hnodup : (toggles.map Toggle.bit).Nodup) (hcalls : ∀ call ∈ calls, call.1 ∈ toggles)
    (ht : t ∈ toggles) :
    (v.setAll calls).mask.getLsbD t.bit = (lastValue? calls t).getD (v.mask.getLsbD t.bit) := by
  induction calls using List.reverseRecOn with
  | nil => rfl
  | append_singleton calls call ih =>
    rw [List.forall_mem_append, List.forall_mem_singleton] at hcalls
    -- the last call sets this bit or, since the bits are distinct, the bit of another toggle
    rw [setAll_concat, getLsbD_set _ (hlt _ hcalls.2), lastValue?_concat, ih hcalls.1]
    by_cases h : t = call.1
    · rw [if_pos (congrArg Toggle.bit h), if_pos h, Option.getD_some]
    · have hbit : t.bit ≠ call.1.bit := fun heq =>
        h (List.inj_on_of_nodup_map hnodup ht hcalls.2 heq)
      rw [if_neg hbit, if_neg h]

theorem eq_of_getLsbD_eq (h : ∀ i < 64, v.mask.getLsbD i = w.mask.getLsbD i) : v = w :=
  congrArg mk (BitVec.eq_of_getLsbD_eq h)

theorem ofToggles_eq_setAll (l : List Toggle) : ofToggles l = setAll ∅ (l.map (·, true)) := by
  rw [ofToggles, setAll, List.foldl_map]

theorem lastValue?_map_true {l : List Toggle} (h : t ∈ l) :
    lastValue? (l.map (·, true)) t = some true := by
  induction l using List.reverseRecOn with
  | nil => exact absurd h List.not_mem_nil
  | append_singleton l u ih =>
    rw [List.map_append, List.map_singleton, lastValue?_concat]
    by_cases heq : t = u
    · exact if_pos heq
    · rw [if_neg heq]
      refine ih ((List.mem_append.1 h).resolve_right fun hu => ?_)
      exact heq (List.mem_singleton.1 hu)

end Variant

/-- Consecutive powers of two add up to the next one but for the first. -/
theorem sum_two_pow_range' (start n : Nat) :
    ((List.range' start n).map (2 ^ ·)).sum + 2 ^ start = 2 ^ (start + n) := by
  induction n generalizing start with
  | zero => simp
  | succ n ih =>
    have hrest := ih (start + 1)
    rw [Nat.pow_succ, Nat.add_right_comm] at hrest
    rw [List.range'_succ, List.map_cons, List.sum_cons, ← Nat.add_assoc]
    omega

namespace VariantShader

variable {fileName : Text} {c : Capture} {s : VariantShader}

namespace Holds

theorem map_bit (h : Holds fileName c s) :
    s.toggles.map Toggle.bit = List.range' 0 s.toggles.length := by
  rw [h.toggles_eq, Toggle.map_bit_ofSymbols, Toggle.length_ofSymbols]

theorem nodup_bit (h : Holds fileName c s) : (s.toggles.map Toggle.bit).Nodup := by
  rw [h.toggles_eq]
  exact Toggle.nodup_bit_ofSymbols c.symbols

theorem length_toggles_le (h : Holds fileName c s) : s.toggles.length ≤ 64 := by
  rw [h.toggles_eq, Toggle.length_ofSymbols]
  exact h.size_le

theorem bit_lt_length (h : Holds fileName c s) (ht : t ∈ s.toggles) :
    t.bit < s.toggles.length := by
  have hbit : t.bit ∈ s.toggles.map Toggle.bit := List.mem_map_of_mem ht
  rw [h.map_bit, List.mem_range'_1] at hbit
  omega

theorem exists_bit_eq (h : Holds fileName c s) {i : Nat} (hi : i < s.toggles.length) :
    ∃ t ∈ s.toggles, t.bit = i := by
  have hmem : i ∈ s.toggles.map Toggle.bit := by
    rw [h.map_bit, List.mem_range'_1]
    omega
  exact List.mem_map.1 hmem

section

variable (h : Holds fileName c s) (hcalls : ∀ call ∈ calls, call.1 ∈ s.toggles)
include h hcalls

theorem getLsbD_setAll (v : Variant) (ht : t ∈ s.toggles) :
    (v.setAll calls).mask.getLsbD t.bit =
      (Variant.lastValue? calls t).getD (v.mask.getLsbD t.bit) :=
  v.getLsbD_setAll (fun _ => h.bit_lt) h.nodup_bit hcalls ht

theorem getLsbD_setAll_of_le (v : Variant) {i : Nat} (hi : s.toggles.length ≤ i) :
    (v.setAll calls).mask.getLsbD i = v.mask.getLsbD i := by
  refine v.getLsbD_setAll_of_ne (fun call hcall => h.bit_lt (hcalls call hcall)) ?_
  intro call hcall heq
  have hlt := h.bit_lt_length (hcalls call hcall)
  omega

/-- The order of settings of different toggles does not matter. -/
theorem setAll_congr (v : Variant) {calls' : List (Toggle × Bool)}
    (hcalls' : ∀ call ∈ calls', call.1 ∈ s.toggles)
    (hlast : ∀ t ∈ s.toggles, Variant.lastValue? calls t = Variant.lastValue? calls' t) :
    v.setAll calls = v.setAll calls' := by
  refine Variant.eq_of_getLsbD_eq fun i _ => ?_
  rcases Nat.lt_or_ge i s.toggles.length with hi | hi
  · obtain ⟨t, ht, rfl⟩ := h.exists_bit_eq hi
    rw [h.getLsbD_setAll hcalls v ht, h.getLsbD_setAll hcalls' v ht, hlast t ht]
  · rw [h.getLsbD_setAll_of_le hcalls v hi, h.getLsbD_setAll_of_le hcalls' v hi]

end

theorem two_pow_length_le (h : Holds fileName c s) : 2 ^ s.toggles.length ≤ 2 ^ 64 :=
  Nat.pow_le_pow_right (by decide) h.length_toggles_le

theorem getLsbD_allEnabled (h : Holds fileName c s) (i : Nat) :
    s.allEnabled.mask.getLsbD i = decide (i < s.toggles.length) := by
  have hcalls : ∀ call ∈ s.toggles.map (·, true), call.1 ∈ s.toggles := by
    intro call hcall
    obtain ⟨t, ht, rfl⟩ := List.mem_map.1 hcall
    exact ht
  rw [allEnabled, Variant.ofToggles_eq_setAll]
  rcases Nat.lt_or_ge i s.toggles.length with hi | hi
  · obtain ⟨t, ht, rfl⟩ := h.exists_bit_eq hi
    rw [h.getLsbD_setAll hcalls ∅ ht, Variant.lastValue?_map_true ht, decide_eq_true hi,
      Option.getD_some]
  · rw [h.getLsbD_setAll_of_le hcalls ∅ hi, decide_eq_false (Nat.not_lt.2 hi)]
    exact BitVec.getLsbD_zero

theorem toNat_allEnabled (h : Holds fileName c s) :
    s.allEnabled.mask.toNat = 2 ^ s.toggles.length - 1 := by
  have hmask : s.allEnabled.mask = BitVec.ofNat 64 (2 ^ s.toggles.length - 1) := by
    refine BitVec.eq_of_getLsbD_eq fun i hi => ?_
    rw [h.getLsbD_allEnabled, BitVec.getLsbD_ofNat, Nat.testBit_two_pow_sub_one,
      decide_eq_true hi, Bool.true_and]
  have hle := h.two_pow_length_le
  rw [hmask, BitVec.toNat_ofNat, Nat.mod_eq_of_lt]
  omega

theorem toNat_mask (h : Holds fileName c s) (ht : t ∈ s.toggles) : t.mask.toNat = 2 ^ t.bit :=
  BitVec.toNat_twoPow_of_lt (h.bit_lt ht)

theorem sum_toNat_mask (h : Holds fileName c s) :
    (s.toggles.map fun t => t.mask.toNat).sum = 2 ^ s.toggles.length - 1 := by
  have hmasks : (s.toggles.map fun t => t.mask.toNat) =
      (List.range' 0 s.toggles.length).map (2 ^ ·) := by
    rw [← h.map_bit, List.map_map]
    exact List.map_congr_left fun t ht => h.toNat_mask ht
  have hsum := sum_two_pow_range' 0 s.toggles.length
  rw [Nat.zero_add] at hsum
  rw [hmasks, ← hsum]
  rfl

end Holds

end VariantShader

/-- The bits of a shader's toggles are below 64. After any settings of its toggles, on any variant,
    each toggle has the value that was set last, or the one it had if none was; the bits beyond the
    toggles are as they were, and runs that set the same last values end in the same variant. With
    every toggle on, the mask is the sum of the masks of the toggles, which is less than `2 ^ 64`
    even with 64 of them. -/
theorem get_setAll {fileName : Text} {c : Capture} {s : VariantShader}
    (hshader : VariantShader.ofCapture fileName c = .ok s) :
    (∀ t ∈ s.toggles, t.bit < 64 ∧ t.mask.toNat = 2 ^ t.bit) ∧
    (∀ (start : Variant) (calls : List (Toggle × Bool)),
      (∀ call ∈ calls, call.1 ∈ s.toggles) →
        (∀ t ∈ s.toggles, (start.setAll calls).get t =
          (Variant.lastValue? calls t).getD (start.mask.getLsbD t.bit)) ∧
        (∀ i, s.toggles.length ≤ i → i < 64 →
          (start.setAll calls).mask.getLsbD i = start.mask.getLsbD i) ∧
        ∀ calls' : List (Toggle × Bool), (∀ call ∈ calls', call.1 ∈ s.toggles) →
          (∀ t ∈ s.toggles, Variant.lastValue? calls t = Variant.lastValue? calls' t) →
            start.setAll calls = start.setAll calls') ∧
    s.allEnabled.mask.toNat = 2 ^ s.toggles.length - 1 ∧
    (s.toggles.map fun t => t.mask.toNat).sum = 2 ^ s.toggles.length - 1 ∧
    2 ^ s.toggles.length - 1 < 2 ^ 64 := by
  have h := VariantShader.holds_of_ofCapture hshader
  refine ⟨fun t ht => ⟨h.bit_lt ht, h.toNat_mask ht⟩, ?_, h.toNat_allEnabled, h.sum_toNat_mask, ?_⟩
  · intro start calls hcalls
    refine ⟨fun t ht => ?_, fun i hi _ => h.getLsbD_setAll_of_le hcalls start hi, ?_⟩
    · rw [Variant.get_eq_getLsbD _ (h.bit_lt ht), h.getLsbD_setAll hcalls start ht]
    · intro calls' hcalls' hlast
      exact h.setAll_congr hcalls start hcalls' hlast
  · have hle := h.two_pow_length_le
    omega

/-- The names of as many symbols as a mask has bits. -/
def fullNames : List Text := (List.range 64).map (Toggle.numbered "SYM")

/-- As many symbols as a mask has bits. -/
def fullSymbols : Symbols where
  names := fullNames
  index := .ofList fullNames
  nodup := List.nodup_range.map fun _ _ heq => (Toggle.numbered_inj (by decide +kernel) heq).2
  mem_index _ := NameSet.mem_ofList

/-- With all bits in use, the first and the last toggle are set in turns. -/
theorem get_setAll_full :
    ∃ s first last, VariantShader.ofCapture "s.glsl" ⟨[], ["v\n"], ["f\n"], fullSymbols⟩ = .ok s ∧
      s.toggles.length = 64 ∧
      first ∈ s.toggles ∧ first.bit = 0 ∧ last ∈ s.toggles ∧ last.bit = 63 ∧
      let start : Variant := ⟨1⟩
      let v := start.setAll [(last, false), (first, false), (last, true)]
      v.get last = true ∧ v.get first = false ∧
      v = start.setAll [(last, true), (first, true), (first, false)] ∧
      s.allEnabled.mask.toNat = 2 ^ 64 - 1 ∧
      (s.toggles.map fun t => t.mask.toNat).sum = 2 ^ 64 - 1 := by
  have hsize : fullSymbols.size = 64 := List.length_map _ |>.trans List.length_range
  have hbound : ∃ s, VariantShader.ofCapture "s.glsl" ⟨[], ["v\n"], ["f\n"], fullSymbols⟩ = .ok s ∧
      s.toggles = Toggle.ofSymbols fullSymbols :=
    VariantShader.exists_ofCapture_eq_ok (by decide +kernel) nofun nofun hsize.le
  obtain ⟨s, hs, htoggles⟩ := hbound
  have hlength : s.toggles.length = 64 := by rw [htoggles, Toggle.length_ofSymbols, hsize]
  have h := VariantShader.holds_of_ofCapture hs
  obtain ⟨first, hfirst, hfirstbit⟩ := h.exists_bit_eq (i := 0) (by omega)
  obtain ⟨last, hlast, hlastbit⟩ := h.exists_bit_eq (i := 63) (by omega)
  have hne : first ≠ last := fun heq => by rw [heq, hlastbit] at hfirstbit; omega
  obtain ⟨-, hset, hall, hsum, -⟩ := get_setAll hs
  have hcalls : ∀ call ∈ [(last, false), (first, false), (last, true)], call.1 ∈ s.toggles := by
    simp [hfirst, hlast]
  have hcalls' : ∀ call ∈ [(last, true), (first, true), (first, false)], call.1 ∈ s.toggles := by
    simp [hfirst, hlast]
  obtain ⟨hget, -, hcongr⟩ := hset ⟨1⟩ _ hcalls
  rw [hlength] at hall hsum
  refine ⟨s, first, last, hs, hlength, hfirst, hfirstbit, hlast, hlastbit, ?_, ?_, ?_, hall, hsum⟩
  · rw [hget last hlast]
    simp [Variant.lastValue?]
  · rw [hget first hfirst]
    simp [Variant.lastValue?, List.lookup_cons, beq_eq_false_iff_ne.2 hne]
  · refine hcongr _ hcalls' fun t _ => ?_
    by_cases ht : t = last
    · simp [Variant.lastValue?, List.lookup_cons, ht, beq_eq_false_iff_ne.2 hne.symm]
    · simp only [Variant.lastValue?, List.reverse_cons, List.reverse_nil, List.nil_append,
        List.cons_append, List.lookup_cons, beq_eq_false_iff_ne.2 ht]
      cases t == first <;> rfl

end ShaderVariants
