import ShaderVariants.Text.Basic

/-!
# Sets of names

A set of names is the list of its members in the order of their codes, each once. Sets with
the same members are equal, whatever order the members came in.
-/

namespace ShaderVariants

/-- A finite set of names. -/
structure NameSet where
  /-- The members, the least one first. -/
  members : List Text := []
  sorted : members.Pairwise (· < ·) := by simp
deriving DecidableEq

namespace NameSet

instance : EmptyCollection NameSet := ⟨{}⟩

instance : Membership Text NameSet where
  mem s name := name ∈ s.members

instance (s : NameSet) (name : Text) : Decidable (name ∈ s) :=
  inferInstanceAs (Decidable (name ∈ s.members))

/-- Puts a name at its place among names in order, unless it is there. -/
def insertSorted (name : Text) : List Text → List Text
  | [] => [name]
  | other :: rest =>
    if name < other then name :: other :: rest
    else if name = other then other :: rest
    else other :: insertSorted name rest

theorem mem_insertSorted {name other : Text} {l : List Text} :
    other ∈ insertSorted name l ↔ other = name ∨ other ∈ l := by
  induction l with
  | nil => simp [insertSorted]
  | cons a l ih =>
    rw [insertSorted]
    split
    · exact List.mem_cons
    · split
      · next heq => simp [heq]
      · simp only [List.mem_cons, ih, or_left_comm]

theorem sorted_insertSorted {name : Text} {l : List Text} (h : l.Pairwise (· < ·)) :
    (insertSorted name l).Pairwise (· < ·) := by
  induction l with
  | nil => simp [insertSorted]
  | cons a l ih =>
    obtain ⟨ha, hl⟩ := List.pairwise_cons.1 h
    rw [insertSorted]
    split
    · next hlt =>
      refine List.pairwise_cons.2 ⟨fun b hb => ?_, h⟩
      rcases List.mem_cons.1 hb with rfl | hb
      · exact hlt
      · exact List.lt_trans hlt (ha b hb)
    · next hnlt =>
      split
      · exact h
      · next hne =>
        refine List.pairwise_cons.2 ⟨fun b hb => ?_, ih hl⟩
        rcases mem_insertSorted.1 hb with rfl | hb
        · exact Decidable.byContradiction fun hnlt' => hne (List.le_antisymm hnlt' hnlt)
        · exact ha b hb

/-- The set with a name added. -/
def insert (s : NameSet) (name : Text) : NameSet where
  members := insertSorted name s.members
  sorted := sorted_insertSorted s.sorted

/-- The set of the names in a list. -/
def ofList (l : List Text) : NameSet := l.foldl insert ∅

@[simp] theorem not_mem_empty (name : Text) : name ∉ (∅ : NameSet) := List.not_mem_nil

@[simp] theorem mem_insert {s : NameSet} {name other : Text} :
    other ∈ s.insert name ↔ other = name ∨ other ∈ s := mem_insertSorted

theorem mem_foldl_insert {s : NameSet} {l : List Text} {name : Text} :
    name ∈ l.foldl insert s ↔ name ∈ s ∨ name ∈ l := by
  induction l generalizing s with
  | nil => simp
  | cons a l ih => simp [ih, or_assoc, or_left_comm]

@[simp] theorem mem_ofList {l : List Text} {name : Text} : name ∈ ofList l ↔ name ∈ l := by
  simp [ofList, mem_foldl_insert]

theorem nodup_members (s : NameSet) : s.members.Nodup := by
  refine s.sorted.imp fun hlt heq => ?_
  exact List.lt_irrefl _ (heq ▸ hlt)

/-- The order leaves one list for each set. -/
@[ext] theorem ext {s t : NameSet} (h : ∀ name, name ∈ s ↔ name ∈ t) : s = t := by
  have hperm : s.members.Perm t.members :=
    (List.perm_ext_iff_of_nodup s.nodup_members t.nodup_members).2 h
  have hmembers : s.members = t.members := by
    refine hperm.eq_of_pairwise (fun a b _ _ hlt hlt' => ?_) s.sorted t.sorted
    exact absurd hlt' (List.lt_asymm hlt)
  cases s
  cases t
  simp_all

end NameSet

end ShaderVariants
