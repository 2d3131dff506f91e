import ShaderVariants.NameSet

/-!
# Tables of names

A table lists names in the order in which they came and keeps the set of them beside the
list. The set tells whether a name is there, the list where. Both have to be changed in step.
-/

namespace ShaderVariants

/-- Names in order, and the set of them. -/
@[ext] structure NameTable where
  names : List Text := []
  index : NameSet := ∅
deriving DecidableEq

namespace NameTable

instance : EmptyCollection NameTable := ⟨{}⟩

/-- The name is in the set. -/
def contains (t : NameTable) (name : Text) : Bool := decide (name ∈ t.index)

def size (t : NameTable) : Nat := t.names.length

/-- Lists a name behind the others, unless it is there, and tells whether it was new. -/
def insert (t : NameTable) (name : Text) : Bool × NameTable :=
  if t.contains name then (false, t)
  else (true, { names := t.names ++ [name], index := t.index.insert name })

/-- The table of the names in a list, inserted one after the other. -/
def ofList (l : List Text) : NameTable := l.foldl (fun t name => (t.insert name).2) ∅

/-- The list has no name twice and the set has the listed names. -/
structure InStep (t : NameTable) : Prop where
  nodup : t.names.Nodup
  mem_index : ∀ name, name ∈ t.index ↔ name ∈ t.names

theorem InStep.empty : InStep ∅ where
  nodup := List.nodup_nil
  mem_index name := iff_of_false (NameSet.not_mem_empty name) List.not_mem_nil

/-- The set of a table in step is known from its list. -/
theorem InStep.eq_of_names_eq {t u : NameTable} (ht : t.InStep) (hu : u.InStep)
    (h : t.names = u.names) : t = u := by
  refine NameTable.ext h (NameSet.ext fun name => ?_)
  rw [ht.mem_index, hu.mem_index, h]

theorem InStep.contains_eq {t : NameTable} (h : t.InStep) (name : Text) :
    t.contains name = decide (name ∈ t.names) :=
  decide_eq_decide.2 (h.mem_index name)

theorem InStep.names_insert {t : NameTable} (h : t.InStep) (name : Text) :
    (t.insert name).2.names = if name ∈ t.names then t.names else t.names ++ [name] := by
  rw [NameTable.insert, h.contains_eq]
  by_cases hmem : name ∈ t.names <;> simp [hmem]

theorem InStep.mem_index_insert {t : NameTable} (h : t.InStep) (name other : Text) :
    other ∈ (t.insert name).2.index ↔ other ∈ t.names ∨ other = name := by
  rw [NameTable.insert, h.contains_eq]
  by_cases hmem : name ∈ t.names
  · simp only [hmem, decide_true, if_true, h.mem_index]
    exact ⟨Or.inl, fun ho => ho.elim id fun heq => heq ▸ hmem⟩
  · simp [hmem, h.mem_index, or_comm]

/-- An insertion changes both parts or none. -/
theorem InStep.insert {t : NameTable} (h : t.InStep) (name : Text) : (t.insert name).2.InStep where
  nodup := by
    rw [h.names_insert]
    by_cases hmem : name ∈ t.names
    · rw [if_pos hmem]
      exact h.nodup
    · rw [if_neg hmem]
      refine List.nodup_append.2 ⟨h.nodup, by simp, ?_⟩
      rintro a ha b hb rfl
      exact hmem (List.mem_singleton.1 hb ▸ ha)
  mem_index other := by
    rw [h.mem_index_insert, h.names_insert]
    by_cases hmem : name ∈ t.names
    · rw [if_pos hmem]
      exact ⟨fun ho => ho.elim id fun heq => heq ▸ hmem, Or.inl⟩
    · rw [if_neg hmem, List.mem_append, List.mem_singleton]

end NameTable

end ShaderVariants
