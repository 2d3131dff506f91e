import ShaderVariants.Text.Basic

/-!
# Greedy packing

Weighted items are packed into groups in their order: an item opens a new group
exactly when the current group has no room for it. A text cut into pieces and
pieces gathered into statements are both packings, of characters and of pieces.
-/

namespace ShaderVariants.Packing

variable {α : Type}

/-- The weight of all items of a list. -/
def total (weight : α → Nat) (l : List α) : Nat := l.foldr (fun a n => weight a + n) 0

@[simp] theorem total_nil (weight : α → Nat) : total weight [] = 0 := rfl

@[simp] theorem total_cons (weight : α → Nat) (a : α) (l : List α) :
    total weight (a :: l) = weight a + total weight l := rfl

/-- Packs the items behind a group that still has `room`: the items that join that group, and
    the groups after it. -/
def fill (weight : α → Nat) (limit : Nat) (room : Nat) : List α → List α × List (List α)
  | [] => ([], [])
  | a :: l =>
    if weight a ≤ room then
      let (joined, later) := fill weight limit (room - weight a) l
      (a :: joined, later)
    else
      let (joined, later) := fill weight limit (limit - weight a) l
      ([], (a :: joined) :: later)

/-- Packs the items into groups of at most `limit`; no group is empty. -/
def pack (weight : α → Nat) (limit : Nat) : List α → List (List α)
  | [] => []
  | a :: l =>
    let (joined, later) := fill weight limit (limit - weight a) l
    (a :: joined) :: later

theorem flatten_fill (weight : α → Nat) (limit room : Nat) (l : List α) :
    (fill weight limit room l).1 ++ (fill weight limit room l).2.flatten = l := by
  induction l generalizing room with
  | nil => rfl
  | cons a l ih =>
    by_cases h : weight a ≤ room
    · simp [fill, h, ih]
    · simp [fill, h, ih]

/-- No item is lost, repeated or moved. -/
@[simp] theorem flatten_pack (weight : α → Nat) (limit : Nat) (l : List α) :
    (pack weight limit l).flatten = l := by
  cases l with
  | nil => rfl
  | cons a l => simp [pack, flatten_fill]

theorem ne_nil_of_mem_fill {weight : α → Nat} {limit room : Nat} {l group : List α}
    (h : group ∈ (fill weight limit room l).2) : group ≠ [] := by
  induction l generalizing room with
  | nil => simp [fill] at h
  | cons a l ih =>
    by_cases ha : weight a ≤ room
    · simp only [fill, ha, if_true] at h
      exact ih h
    · simp only [fill, ha, if_false, List.mem_cons] at h
      rcases h with rfl | h
      · simp
      · exact ih h

/-- No group is empty. -/
theorem ne_nil_of_mem_pack {weight : α → Nat} {limit : Nat} {l group : List α}
    (h : group ∈ pack weight limit l) : group ≠ [] := by
  cases l with
  | nil => simp [pack] at h
  | cons a l =>
    simp only [pack, List.mem_cons] at h
    rcases h with rfl | h
    · simp
    · exact ne_nil_of_mem_fill h

theorem weight_le_of_fill {weight : α → Nat} {limit : Nat} {l : List α}
    (hl : ∀ a ∈ l, weight a ≤ limit) (room : Nat) :
    total weight (fill weight limit room l).1 ≤ room ∧
      ∀ group ∈ (fill weight limit room l).2, total weight group ≤ limit := by
  induction l generalizing room with
  | nil => simp [fill]
  | cons a l ih =>
    have hrest : ∀ b ∈ l, weight b ≤ limit := fun b hb => hl b (List.mem_cons_of_mem _ hb)
    have ha : weight a ≤ limit := hl a List.mem_cons_self
    by_cases h : weight a ≤ room
    · obtain ⟨h₁, h₂⟩ := ih hrest (room - weight a)
      simp only [fill, h, if_true, total_cons]
      exact ⟨by omega, h₂⟩
    · obtain ⟨h₁, h₂⟩ := ih hrest (limit - weight a)
      simp only [fill, h, if_false, total_nil, List.mem_cons]
      refine ⟨by omega, ?_⟩
      rintro group (rfl | hg)
      · simp only [total_cons]
        omega
      · exact h₂ group hg

/-- Where each item alone is within the limit, so is each group. -/
theorem weight_le_of_mem_pack {weight : α → Nat} {limit : Nat} {l group : List α}
    (hl : ∀ a ∈ l, weight a ≤ limit) (h : group ∈ pack weight limit l) :
    total weight group ≤ limit := by
  cases l with
  | nil => simp [pack] at h
  | cons a l =>
    have hrest : ∀ b ∈ l, weight b ≤ limit := fun b hb => hl b (List.mem_cons_of_mem _ hb)
    have ha : weight a ≤ limit := hl a List.mem_cons_self
    obtain ⟨h₁, h₂⟩ := weight_le_of_fill hrest (limit - weight a)
    simp only [pack, List.mem_cons] at h
    rcases h with rfl | h
    · simp only [total_cons]
      omega
    · exact h₂ group h

example : pack id 5 [2, 3, 1, 4, 5] = [[2, 3], [1, 4], [5]] := by decide

end ShaderVariants.Packing

namespace ShaderVariants.Text

/-- Cuts a text into pieces of at most `limit` bytes, each as long as whole characters allow.
    The empty text is one empty piece. -/
def pieces (limit : Nat) (t : Text) : List Text :=
  match Packing.pack Char.utf8Size limit t with
  | [] => [[]]
  | cut => cut

/-- The pieces make up the text. -/
@[simp] theorem flatten_pieces (limit : Nat) (t : Text) : (t.pieces limit).flatten = t := by
  have h := Packing.flatten_pack Char.utf8Size limit t
  unfold pieces
  split
  · next heq => simpa [heq] using h
  · exact h

end ShaderVariants.Text
