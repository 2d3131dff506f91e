import Mathlib.Data.List.Induction
import ShaderVariants.Proofs.ScannedParts

/-!
# Runs on tables of names

A table is changed by inserting a name and by collecting the names of a list into a new one.
Each change keeps its list and its set in step, so after any run the set has the listed names
and no others, and the list is known from the names that were given: it has their first
occurrences. Tables of runs are therefore equal as soon as their lists are.
-/

namespace ShaderVariants.NameTable

/-- A change of a table. -/
inductive Operation where
  | insert (name : Text)
  /-- A table of the names in a list takes the place of the old one. -/
  | collect (names : List Text)

/-- The table after a change. -/
def after (t : NameTable) : Operation → NameTable
  | .insert name => (t.insert name).2
  | .collect names => ofList names

/-- The table after changes of an empty one. -/
def run (operations : List Operation) : NameTable := operations.foldl after ∅

/-- The names that a table has been given after a change, where `before` were given before. -/
def givenAfter (before : List Text) : Operation → List Text
  | .insert name => before ++ [name]
  | .collect names => names

/-- The names that a run gives to its table: those of the last collection, and those inserted
    since. -/
def given (operations : List Operation) : List Text := operations.foldl givenAfter []

variable {t : NameTable} {l : List Text}

/-- Nothing in a table but the names given to it: the list has their first occurrences, and the set
    is in step with it. -/
structure Holds (t : NameTable) (l : List Text) : Prop where
  names_eq : t.names = firstOccurrences l
  inStep : t.InStep

namespace Holds

theorem empty : Holds ∅ [] := ⟨rfl, .empty⟩

theorem insert (h : t.Holds l) (name : Text) : (t.insert name).2.Holds (l ++ [name]) where
  names_eq := by
    rw [h.inStep.names_insert, h.names_eq, firstOccurrences_concat]
    by_cases hmem : name ∈ l
    · rw [if_pos hmem, if_pos (mem_firstOccurrences.2 hmem), List.append_nil]
    · rw [if_neg hmem, if_neg (mem_firstOccurrences.not.2 hmem)]
  inStep := h.inStep.insert name

theorem ofList (l : List Text) : (ofList l).Holds l := by
  induction l using List.reverseRecOn with
  | nil => exact .empty
  | append_singleton l name ih =>
    rw [NameTable.ofList, List.foldl_concat]
    exact ih.insert name

theorem after (h : t.Holds l) (operation : Operation) :
    (t.after operation).Holds (givenAfter l operation) := by
  cases operation with
  | insert name => exact h.insert name
  | collect names => exact .ofList names

theorem run (operations : List Operation) : (run operations).Holds (given operations) := by
  induction operations using List.reverseRecOn with
  | nil => exact .empty
  | append_singleton operations operation ih =>
    rw [NameTable.run, given, List.foldl_concat, List.foldl_concat]
    exact ih.after operation

theorem contains_eq_true_iff (h : t.Holds l) (name : Text) : t.contains name = true ↔ name ∈ l := by
  rw [h.inStep.contains_eq, decide_eq_true_iff, h.names_eq, mem_firstOccurrences]

theorem size_eq (h : t.Holds l) : t.size = l.toFinset.card := by
  rw [size, h.names_eq, length_firstOccurrences]

end Holds

theorem fst_insert (t : NameTable) (name : Text) : (t.insert name).1 = !t.contains name := by
  rw [insert]
  cases t.contains name <;> rfl

/-- A name that is not there is listed, so only one that is there changes nothing. -/
theorem snd_insert_eq_self_iff (t : NameTable) (name : Text) :
    (t.insert name).2 = t ↔ t.contains name = true := by
  rw [insert]
  cases h : t.contains name with
  | true => exact iff_of_true rfl rfl
  | false =>
    refine iff_of_false (fun heq => ?_) Bool.false_ne_true
    have hnames : t.names ++ [name] = t.names := congrArg names heq
    simp at hnames

/-- After any run the list of a table has no name twice, and it has the first occurrences of the
    names that were given since the last collection, the collected ones first. The set has the
    listed names, an insertion says whether the name is new and changes nothing if it is not, and
    tables of two runs are equal exactly if their lists are. -/
theorem names_run (operations : List Operation) :
    (run operations).names.Nodup ∧
    (run operations).names = firstOccurrences (given operations) ∧
    (∀ name, name ∈ (run operations).index ↔ name ∈ (run operations).names) ∧
    (∀ name, ((run operations).contains name = true ↔ name ∈ given operations) ∧
      ((run operations).insert name).1 = !(run operations).contains name ∧
      (((run operations).insert name).2 = run operations ↔
        (run operations).contains name = true)) ∧
    (run operations).size = (given operations).toFinset.card ∧
    ∀ operations', run operations = run operations' ↔
      (run operations).names = (run operations').names := by
  have h := Holds.run operations
  refine ⟨h.inStep.nodup, h.names_eq, h.inStep.mem_index, fun name => ?_, h.size_eq, ?_⟩
  · exact ⟨h.contains_eq_true_iff name, fst_insert _ name, snd_insert_eq_self_iff _ name⟩
  · intro operations'
    exact ⟨congrArg names, h.inStep.eq_of_names_eq (Holds.run operations').inStep⟩

example : (run [.insert ['C'], .collect [['B'], ['A']], .insert ['B']]).names = [['B'], ['A']] := by
  decide +kernel

end ShaderVariants.NameTable
