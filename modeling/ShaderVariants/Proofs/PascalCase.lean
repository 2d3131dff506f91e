import ShaderVariants.Proofs.Names

/-!
# What Pascal case keeps of a name

Pascal case changes each longest run of letters and digits by itself and drops what stands
between them. A name can therefore be taken apart at any other character. In a run letters
change their case only, so no letter or digit of the name is lost, added or moved, and names
with the same Pascal case have the same letters and digits up to case.
-/

namespace ShaderVariants

/-! ## Characters -/

theorem toLower_toUpper_of_isAlphanum {c : Char} (h : c.isAlphanum = true) :
    c.toUpper.toLower = c.toLower :=
  forall_isAlphanum (P := fun c => c.toUpper.toLower = c.toLower) (by decide) h

theorem toLower_toLower_of_isAlphanum {c : Char} (h : c.isAlphanum = true) :
    c.toLower.toLower = c.toLower :=
  forall_isAlphanum (P := fun c => c.toLower.toLower = c.toLower) (by decide) h

namespace Text

variable {name word before after t : Text}

/-! ## Segments -/

/-- A longest run of letters and digits in the name `before ++ word ++ after`. -/
structure IsSegment (before word after : Text) : Prop where
  isAlphanum : ∀ c ∈ word, c.isAlphanum = true
  before_ends : ∀ c ∈ before.getLast?, c.isAlphanum = false
  after_begins : ∀ c ∈ after.head?, c.isAlphanum = false

instance (before word after : Text) : Decidable (IsSegment before word after) :=
  decidable_of_iff
    (word.all Char.isAlphanum ∧ before.getLast?.all (!·.isAlphanum) ∧
      after.head?.all (!·.isAlphanum)) <| by
    simp only [List.all_eq_true, Option.all_eq_true, Bool.not_eq_true']
    exact ⟨fun ⟨hword, hbefore, hafter⟩ => ⟨hword, hbefore, hafter⟩,
      fun h => ⟨h.isAlphanum, h.before_ends, h.after_begins⟩⟩

theorem flatten_splitOnP {α : Type} (p : α → Bool) (l : List α) :
    (l.splitOnP p).flatten = l.filter (!p ·) := by
  induction l with
  | nil => rfl
  | cons a l ih =>
    obtain ⟨first, others, hsplit⟩ := List.exists_cons_of_ne_nil (List.splitOnP_ne_nil p l)
    rw [hsplit, List.flatten_cons] at ih
    rw [List.splitOnP_cons_eq_if_modifyHead, hsplit]
    by_cases h : p a
    · simp [h, ih]
    · simp [h, ← ih]

@[simp] theorem pascalCase_nil : pascalCase [] = [] := rfl

/-- Any other character ends a segment, so what stands on its two sides is changed apart. -/
theorem pascalCase_append_cons {c : Char} (hc : c.isAlphanum = false) (a b : Text) :
    pascalCase (a ++ c :: b) = pascalCase a ++ pascalCase b := by
  have hsplit : (!c.isAlphanum) = true := by simp [hc]
  rw [pascalCase, List.splitOnP_append_cons a b hsplit, List.flatMap_append]
  rfl

theorem pascalCase_of_isAlphanum (hword : ∀ c ∈ word, c.isAlphanum = true) :
    pascalCase word = capitalize word := by
  have hwhole : word.splitOnP (!·.isAlphanum) = [word] := by
    apply List.splitOnP_eq_singleton
    intro c hc
    simp [hword c hc]
  rw [pascalCase, hwhole, List.flatMap_singleton]

theorem pascalCase_append_left (h : ∀ c ∈ before.getLast?, c.isAlphanum = false) (t : Text) :
    pascalCase (before ++ t) = pascalCase before ++ pascalCase t := by
  rcases List.eq_nil_or_concat before with rfl | ⟨a, c, rfl⟩
  · rfl
  · have hc : c.isAlphanum = false := h c (by simp)
    have hbefore : pascalCase (a ++ [c]) = pascalCase a ++ [] := pascalCase_append_cons hc a []
    rw [List.concat_eq_append, hbefore, List.append_assoc, List.append_nil]
    exact pascalCase_append_cons hc a t

theorem pascalCase_append_right (h : ∀ c ∈ after.head?, c.isAlphanum = false) (t : Text) :
    pascalCase (t ++ after) = pascalCase t ++ pascalCase after := by
  cases after with
  | nil => simp
  | cons c b =>
    have hc : c.isAlphanum = false := h c (by simp)
    have hafter : pascalCase (c :: b) = [] ++ pascalCase b := pascalCase_append_cons hc [] b
    rw [hafter, List.nil_append]
    exact pascalCase_append_cons hc t b

/-- A segment is changed by itself. -/
theorem IsSegment.pascalCase_append (h : IsSegment before word after) :
    pascalCase (before ++ word ++ after) =
      pascalCase before ++ capitalize word ++ pascalCase after := by
  rw [pascalCase_append_right h.after_begins, pascalCase_append_left h.before_ends,
    pascalCase_of_isAlphanum h.isAlphanum]

/-! ## Letters and digits -/

theorem map_toLower_capitalize (hword : ∀ c ∈ word, c.isAlphanum = true) :
    word.capitalize.map Char.toLower = word.map Char.toLower := by
  cases word with
  | nil => rfl
  | cons first rest =>
    obtain ⟨hfirst, hrest⟩ := List.forall_mem_cons.1 hword
    rw [capitalize, List.map_cons, List.map_cons, toLower_toUpper_of_isAlphanum hfirst]
    split
    · rfl
    · rw [List.map_map]
      have hlowered : rest.map (Char.toLower ∘ Char.toLower) = rest.map Char.toLower := by
        apply List.map_congr_left
        intro c hc
        exact toLower_toLower_of_isAlphanum (hrest c hc)
      rw [hlowered]

/-- Pascal case leaves the letters and digits, up to their case. -/
theorem map_toLower_pascalCase (name : Text) :
    name.pascalCase.map Char.toLower = (name.filter Char.isAlphanum).map Char.toLower := by
  have hwords : name.filter Char.isAlphanum = (name.splitOnP (!·.isAlphanum)).flatten := by
    simp [flatten_splitOnP]
  rw [pascalCase, hwords, List.flatMap_def, List.map_flatten, List.map_map, List.map_flatten]
  congr 1
  apply List.map_congr_left
  intro word hword
  exact map_toLower_capitalize fun c hc => isAlphanum_of_mem_splitOnP hword hc

end Text

open Text in
/-- Pascal case leaves the letters and digits of a name in their order, up to their case, and
    nothing else. It changes apart what stands on the two sides of any other character. Behind the
    first character of a segment all is kept as it is if there is a small letter in it, and lowered
    if there is none. So names that have the same Pascal case have the same letters and digits up
    to case. -/
theorem pascalCase_keeps (name : Text) :
    name.pascalCase.map Char.toLower = (name.filter Char.isAlphanum).map Char.toLower ∧
    (∀ c ∈ name.pascalCase, c.isAlphanum = true) ∧
    (∀ a b : Text, ∀ c : Char, c.isAlphanum = false →
      pascalCase (a ++ c :: b) = pascalCase a ++ pascalCase b) ∧
    (∀ before after rest : Text, ∀ first : Char, name = before ++ first :: rest ++ after →
      IsSegment before (first :: rest) after →
      ∃ kept, name.pascalCase =
          pascalCase before ++ first.toUpper :: kept ++ pascalCase after ∧
        ((∃ c ∈ rest, c.isLower = true) → kept = rest) ∧
        ((∀ c ∈ rest, c.isLower = false) → kept = rest.map Char.toLower)) ∧
    ∀ other : Text, name.pascalCase = other.pascalCase →
      (name.filter Char.isAlphanum).map Char.toLower =
        (other.filter Char.isAlphanum).map Char.toLower := by
  refine ⟨map_toLower_pascalCase name, fun c hc => isAlphanum_of_mem_pascalCase hc, ?_, ?_, ?_⟩
  · intro a b c hc
    exact pascalCase_append_cons hc a b
  · intro before after rest first hname hsegment
    refine ⟨if rest.any Char.isLower then rest else rest.map Char.toLower, ?_, ?_, ?_⟩
    · rw [hname, hsegment.pascalCase_append, capitalize]
    · intro hsmall
      exact if_pos (List.any_eq_true.2 hsmall)
    · intro hnone
      have hany : rest.any Char.isLower = false := by simpa using hnone
      rw [hany, if_neg Bool.false_ne_true]
  · intro other hsame
    rw [← map_toLower_pascalCase, hsame, map_toLower_pascalCase]

/-- A name with a segment that has no small letter and one that has a capital inside it. -/
def mixedName : Text := "USE_normalMapé2D"

open Text in
/-- The name at the cut behind `USE`, at its first two segments, and beside another name with the
    same Pascal case. -/
theorem pascalCase_keeps_inner_capital :
    mixedName.pascalCase = pascalCase "USE" ++ pascalCase "normalMapé2D" ∧
      mixedName.pascalCase = pascalCase "" ++ 'U' :: "se" ++ pascalCase "_normalMapé2D" ∧
      mixedName.pascalCase = pascalCase "USE_" ++ 'N' :: "ormalMap" ++ pascalCase "é2D" ∧
      mixedName.pascalCase = pascalCase "use normalMap-2d" ∧
      (mixedName.filter Char.isAlphanum).map Char.toLower =
        (("use normalMap-2d" : Text).filter Char.isAlphanum).map Char.toLower := by
  have hcut : mixedName = "USE" ++ '_' :: "normalMapé2D" := by decide +kernel
  have hcapitals : mixedName = "" ++ 'U' :: "SE" ++ "_normalMapé2D" := by decide +kernel
  have hinner : mixedName = "USE_" ++ 'n' :: "ormalMap" ++ "é2D" := by decide +kernel
  have hsame : mixedName.pascalCase = pascalCase "use normalMap-2d" := by decide +kernel
  obtain ⟨-, -, hapart, hsegment, hother⟩ := pascalCase_keeps mixedName
  refine ⟨?_, ?_, ?_, hsame, hother _ hsame⟩
  · rw [hcut]
    exact hapart _ _ '_' (by decide)
  · obtain ⟨kept, hcase, -, hlowered⟩ := hsegment _ _ _ _ hcapitals (by decide +kernel)
    have hnone : ∀ c ∈ ("SE" : Text), c.isLower = false := by simp [Text.ofString_eq_toList]
    have hkept : kept = "se" := (hlowered hnone).trans (by decide +kernel)
    rw [hcase, hkept]
    rfl
  · obtain ⟨kept, hcase, hverbatim, -⟩ := hsegment _ _ _ _ hinner (by decide +kernel)
    have hsmall : ∃ c ∈ ("ormalMap" : Text), c.isLower = true := by
      simp [Text.ofString_eq_toList]
    rw [hcase, hverbatim hsmall]
    rfl

end ShaderVariants
