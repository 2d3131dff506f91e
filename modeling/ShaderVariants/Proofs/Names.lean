import Mathlib.Data.List.Basic
import ShaderVariants.Toggle

/-!
# Names in Pascal case

A name in Pascal case begins with a capital and goes on in letters and digits, so it
holds no underscore. That is what tells an accessor with its bit behind it from every
accessor without one, and it makes the accessors of a shader distinct.
-/

namespace ShaderVariants

/-- The name begins with a capital and goes on in letters and digits. -/
def IsPascal (name : Text) : Prop :=
  ∃ c t, name = c :: t ∧ c.isUpper = true ∧ ∀ d ∈ t, d.isAlphanum = true

/-! ## Characters -/

theorem toNat_lt_of_isAlphanum {c : Char} (h : c.isAlphanum = true) : c.toNat < 128 := by
  rcases Bool.or_eq_true_iff.1 h with h | hdigit
  · rcases Bool.or_eq_true_iff.1 h with hupper | hlower
    · exact Nat.lt_of_le_of_lt (UInt32.le_iff_toNat_le.1 (of_decide_eq_true hupper).2) (by decide)
    · have hlast := of_decide_eq_true (Bool.and_eq_true_iff.1 hlower).2
      exact Nat.lt_of_le_of_lt (UInt32.le_iff_toNat_le.1 hlast) (by decide)
  · exact Nat.lt_of_le_of_lt (Char.isDigit_iff_toNat.1 hdigit).2 (by decide)

/-- What holds of the letters and digits of ASCII holds of all letters and digits. -/
theorem forall_isAlphanum {P : Char → Prop}
    (h : ∀ n < 128, (Char.ofNat n).isAlphanum = true → P (Char.ofNat n)) {c : Char}
    (hc : c.isAlphanum = true) : P c := by
  have hcode := h c.toNat (toNat_lt_of_isAlphanum hc)
  rw [Char.ofNat_toNat] at hcode
  exact hcode hc

theorem isAlphanum_toUpper {c : Char} (h : c.isAlphanum = true) : c.toUpper.isAlphanum = true :=
  forall_isAlphanum (P := fun c => c.toUpper.isAlphanum = true) (by decide) h

theorem isAlphanum_toLower {c : Char} (h : c.isAlphanum = true) : c.toLower.isAlphanum = true :=
  forall_isAlphanum (P := fun c => c.toLower.isAlphanum = true) (by decide) h

theorem isUpper_or_isDigit_toUpper {c : Char} (h : c.isAlphanum = true) :
    c.toUpper.isUpper = true ∨ c.toUpper.isDigit = true :=
  forall_isAlphanum (P := fun c => c.toUpper.isUpper = true ∨ c.toUpper.isDigit = true)
    (by decide) h

theorem isIdentifierPart_of_isAlphanum {c : Char} (h : c.isAlphanum = true) :
    isIdentifierPart c = true := by
  rw [isIdentifierPart, h, Bool.true_or]

theorem isAlphanum_of_isUpper {c : Char} (h : c.isUpper = true) : c.isAlphanum = true := by
  show (c.isUpper || c.isLower || c.isDigit) = true
  rw [h, Bool.true_or, Bool.true_or]

theorem isAlphanum_of_isDigit {c : Char} (h : c.isDigit = true) : c.isAlphanum = true := by
  show (c.isAlpha || c.isDigit) = true
  rw [h, Bool.or_true]

/-! ## Words of a name -/

namespace Text

theorem isAlphanum_of_mem_splitOnP {name word : Text}
    (hword : word ∈ name.splitOnP (!·.isAlphanum)) {c : Char} (hc : c ∈ word) :
    c.isAlphanum = true := by
  induction name generalizing word with
  | nil =>
    rw [List.splitOnP_nil, List.mem_singleton] at hword
    rw [hword] at hc
    exact absurd hc List.not_mem_nil
  | cons d name ih =>
    rw [List.splitOnP_cons_eq_if_modifyHead] at hword
    by_cases hd : d.isAlphanum = true
    · simp only [hd, Bool.not_true, Bool.false_eq_true, if_false] at hword
      obtain ⟨first, rest, hsplit⟩ := List.exists_cons_of_ne_nil
        (List.splitOnP_ne_nil (fun c : Char => !c.isAlphanum) name)
      rw [hsplit, List.modifyHead_cons, List.mem_cons] at hword
      rcases hword with rfl | hword
      · rcases List.mem_cons.1 hc with rfl | hc
        · exact hd
        · exact ih (by rw [hsplit]; exact List.mem_cons_self) hc
      · exact ih (by rw [hsplit]; exact List.mem_cons_of_mem _ hword) hc
    · simp only [Bool.not_eq_true] at hd
      simp only [hd, Bool.not_false, if_true, List.mem_cons] at hword
      rcases hword with rfl | hword
      · exact absurd hc List.not_mem_nil
      · exact ih hword hc

theorem isAlphanum_of_mem_capitalize {word : Text} (hword : ∀ c ∈ word, c.isAlphanum = true)
    {c : Char} (hc : c ∈ word.capitalize) : c.isAlphanum = true := by
  cases word with
  | nil => exact absurd hc List.not_mem_nil
  | cons d word =>
    have htail := fun c hc => hword c (List.mem_cons_of_mem d hc)
    rcases List.mem_cons.1 hc with rfl | hc
    · exact isAlphanum_toUpper (hword d List.mem_cons_self)
    · split at hc
      · exact htail c hc
      · obtain ⟨b, hb, rfl⟩ := List.mem_map.1 hc
        exact isAlphanum_toLower (htail b hb)

theorem capitalize_head {word t : Text} {c : Char} (hword : ∀ c ∈ word, c.isAlphanum = true)
    (h : word.capitalize = c :: t) : c.isUpper = true ∨ c.isDigit = true := by
  cases word with
  | nil => exact absurd h (List.cons_ne_nil c t).symm
  | cons d word =>
    rw [capitalize, List.cons.injEq] at h
    rw [← h.1]
    exact isUpper_or_isDigit_toUpper (hword d List.mem_cons_self)

theorem isAlphanum_of_mem_pascalCase {name : Text} {c : Char} (hc : c ∈ name.pascalCase) :
    c.isAlphanum = true := by
  obtain ⟨word, hword, hc⟩ := List.mem_flatMap.1 hc
  exact isAlphanum_of_mem_capitalize (fun _ => isAlphanum_of_mem_splitOnP hword) hc

theorem flatMap_capitalize_head {words : List Text} {t : Text} {c : Char}
    (hwords : ∀ word ∈ words, ∀ c ∈ word, c.isAlphanum = true)
    (h : words.flatMap capitalize = c :: t) : c.isUpper = true ∨ c.isDigit = true := by
  induction words with
  | nil => exact absurd h (List.cons_ne_nil c t).symm
  | cons word words ih =>
    rw [List.flatMap_cons] at h
    cases hword : word.capitalize with
    | nil =>
      rw [hword, List.nil_append] at h
      exact ih (fun w hw => hwords w (List.mem_cons_of_mem word hw)) h
    | cons d u =>
      rw [hword, List.cons_append, List.cons.injEq] at h
      rw [← h.1]
      exact capitalize_head (hwords word List.mem_cons_self) hword

/-- A name in Pascal case begins with a capital or with a digit. -/
theorem pascalCase_head {name t : Text} {c : Char} (h : name.pascalCase = c :: t) :
    c.isUpper = true ∨ c.isDigit = true :=
  flatMap_capitalize_head (fun _ hword _ => isAlphanum_of_mem_splitOnP hword) h

end Text

/-! ## Names that the generator makes -/

/-- Behind a first part in Pascal case, or alone if it is an identifier, the Pascal case of a name
    is a name in Pascal case. -/
theorem isPascal_identifierBehind {first : Text} (hfirst : IsPascal first) (name : Text) :
    IsPascal (Text.identifierBehind first name.pascalCase) := by
  have hpart : ∀ c ∈ name.pascalCase, c.isAlphanum = true :=
    fun _ => Text.isAlphanum_of_mem_pascalCase
  rw [Text.identifierBehind]
  split
  · next hname =>
    cases hcase : name.pascalCase with
    | nil =>
      rw [hcase] at hname
      exact absurd hname Bool.false_ne_true
    | cons c t =>
      rw [hcase] at hpart hname
      refine ⟨c, t, rfl, ?_, fun d hd => hpart d (List.mem_cons_of_mem c hd)⟩
      rcases Text.pascalCase_head hcase with hupper | hdigit
      · exact hupper
      · exfalso
        revert hname
        refine forall_isAlphanum (P := fun c => c.isDigit = true → ¬isIdentifierStart c = true)
          (by decide) (isAlphanum_of_isDigit hdigit) hdigit ∘ ?_
        intro hname
        exact (Bool.and_eq_true _ _ ▸ hname).1
  · obtain ⟨c, t, rfl, hc, ht⟩ := hfirst
    refine ⟨c, t ++ name.pascalCase, rfl, hc, fun d hd => ?_⟩
    rcases List.mem_append.1 hd with hd | hd
    · exact ht d hd
    · exact hpart d hd

theorem isPascal_accessorName (symbol : Text) : IsPascal (accessorName symbol) :=
  isPascal_identifierBehind ⟨'S', ['y', 'm'], by rw [Text.ofString_eq_toList]; rfl,
    by decide, List.all_eq_true.1 (by decide)⟩ symbol

theorem isPascal_typeName (fileName : Text) : IsPascal (typeName fileName) :=
  isPascal_identifierBehind ⟨'S', ['h', 'a', 'd', 'e', 'r'], by rw [Text.ofString_eq_toList]; rfl,
    by decide, List.all_eq_true.1 (by decide)⟩ (fileName.takeWhile (· ≠ '.'))

namespace IsPascal

variable {name : Text}

theorem ne_nil (h : IsPascal name) : name ≠ [] := by
  obtain ⟨c, t, rfl, -, -⟩ := h
  exact List.cons_ne_nil c t

theorem isAlphanum (h : IsPascal name) : ∀ c ∈ name, c.isAlphanum = true := by
  obtain ⟨c, t, rfl, hc, ht⟩ := h
  intro d hd
  rcases List.mem_cons.1 hd with rfl | hd
  · exact isAlphanum_of_isUpper hc
  · exact ht d hd

theorem isIdentifierPart (h : IsPascal name) : ∀ c ∈ name, isIdentifierPart c = true :=
  fun c hc => isIdentifierPart_of_isAlphanum (h.isAlphanum c hc)

theorem underscore_notMem (h : IsPascal name) : '_' ∉ name := by
  intro hmem
  exact absurd (h.isAlphanum '_' hmem) (by decide)

end IsPascal

end ShaderVariants
