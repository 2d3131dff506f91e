import ShaderVariants.NameTable

/-!
# Symbols in first-seen order

A symbol's position is its bit in the generated mask, so the order is part of
the value: it is the order of first occurrence and depends on nothing else.
-/

namespace ShaderVariants

/-- Distinct symbol names in first-seen order: a table whose list and set are in step. -/
structure Symbols extends NameTable, NameTable.InStep toNameTable
deriving DecidableEq

namespace Symbols

instance : EmptyCollection Symbols := ⟨⟨∅, .empty⟩⟩

instance : Inhabited Symbols := ⟨∅⟩

/-- Membership: `name ∈ s` holds when the name is listed. -/
instance : Membership Text Symbols where
  mem s name := name ∈ s.names

instance (s : Symbols) (name : Text) : Decidable (name ∈ s) :=
  decidable_of_iff (name ∈ s.index) (s.mem_index name)

def size (s : Symbols) : Nat := s.names.length

/-- Lists a name behind the others, unless it is listed already. -/
def insert (s : Symbols) (name : Text) : Symbols :=
  { toNameTable := (s.toNameTable.insert name).2
    toInStep := s.toInStep.insert name }

/-- The distinct names of a list, in order of first occurrence. -/
def ofList (l : List Text) : Symbols := l.foldl insert ∅

theorem mem_iff {s : Symbols} {name : Text} : name ∈ s ↔ name ∈ s.names := Iff.rfl

theorem names_insert (s : Symbols) (name : Text) :
    (s.insert name).names = if name ∈ s then s.names else s.names ++ [name] := by
  rw [insert, s.toInStep.names_insert]
  by_cases h : name ∈ s.names <;> simp [mem_iff, h]

theorem mem_insert {s : Symbols} {name other : Text} :
    other ∈ s.insert name ↔ other ∈ s ∨ other = name := by
  rw [mem_iff, mem_iff, names_insert]
  by_cases h : name ∈ s
  · simp only [h, if_true]
    exact ⟨Or.inl, fun ho => ho.elim id fun he => he ▸ h⟩
  · simp [h]

@[ext] theorem ext {s t : Symbols} (h : s.names = t.names) : s = t := by
  have htable : s.toNameTable = t.toNameTable := s.toInStep.eq_of_names_eq t.toInStep h
  cases s
  cases t
  simp_all

end Symbols

end ShaderVariants
