import Mathlib.Algebra.GroupWithZero.Nat
import Mathlib.Data.List.Chain
import ShaderVariants.Proofs.RoundTrip

/-!
# Statements for a body

The lines of a body are cut into pieces and the pieces packed into statements. Both are
greedy packings: a group is as full as the item behind it allows. So the limits hold, no
literal is opened too early, and read back in their order the literals are the body.
-/

namespace ShaderVariants

/-! ## Greedy packing -/

namespace Packing

variable {α : Type} {weight : α → Nat} {limit room : Nat} {group l : List α}

theorem total_append (weight : α → Nat) (l l' : List α) :
    total weight (l ++ l') = total weight l + total weight l' := by
  induction l with
  | nil => simp
  | cons a l ih =>
    rw [List.cons_append, total_cons, total_cons, ih]
    omega

theorem total_eq_sum (weight : α → Nat) (l : List α) : total weight l = (l.map weight).sum := by
  induction l with
  | nil => rfl
  | cons a l ih => rw [total_cons, List.map_cons, List.sum_cons, ih]

/-- The first item of the next group is too much for the group. -/
def Overflows (weight : α → Nat) (limit : Nat) (group next : List α) : Prop :=
  ∃ a ∈ next.head?, limit < total weight group + weight a

/-- Behind a group that leaves at most `room`, each group is full for the next one. -/
theorem isChain_fill (hroom : limit ≤ total weight group + room) (l : List α) :
    ((group ++ (fill weight limit room l).1) :: (fill weight limit room l).2).IsChain
      (Overflows weight limit) := by
  induction l generalizing room group with
  | nil => exact List.isChain_singleton _
  | cons a l ih =>
    by_cases ha : weight a ≤ room
    · have hjoined : limit ≤ total weight (group ++ [a]) + (room - weight a) := by
        rw [total_append, total_cons, total_nil]
        omega
      have hchain := ih hjoined
      rw [List.append_assoc, List.singleton_append] at hchain
      simpa only [fill, ha, if_true] using hchain
    · have hopened : limit ≤ total weight [a] + (limit - weight a) := by
        rw [total_cons, total_nil]
        omega
      have hfull : Overflows weight limit group
          (a :: (fill weight limit (limit - weight a) l).1) := by
        refine ⟨a, rfl, ?_⟩
        omega
      have hchain := ih hopened
      simp only [fill, ha, if_false, List.append_nil]
      exact List.isChain_cons_cons.2 ⟨hfull, hchain⟩

/-- A group is opened only where the group before has no room for its first item. -/
theorem isChain_pack (weight : α → Nat) (limit : Nat) (l : List α) :
    (pack weight limit l).IsChain (Overflows weight limit) := by
  cases l with
  | nil => exact List.isChain_nil
  | cons a l =>
    have hopened : limit ≤ total weight [a] + (limit - weight a) := by
      rw [total_cons, total_nil]
      omega
    exact isChain_fill hopened l

theorem pack_eq_nil_iff : pack weight limit l = [] ↔ l = [] := by
  cases l with
  | nil => simp [pack]
  | cons a l => simp [pack]

theorem fill_of_total_le (h : total weight l ≤ room) : fill weight limit room l = (l, []) := by
  induction l generalizing room with
  | nil => rfl
  | cons a l ih =>
    rw [total_cons] at h
    have ha : weight a ≤ room := by omega
    have hrest : total weight l ≤ room - weight a := by omega
    simp only [fill, if_pos ha, ih hrest]

/-- Items that fit into one group are one group. -/
theorem pack_of_total_le (hne : l ≠ []) (h : total weight l ≤ limit) :
    pack weight limit l = [l] := by
  obtain ⟨a, l, rfl⟩ := List.exists_cons_of_ne_nil hne
  rw [total_cons] at h
  have hrest : total weight l ≤ limit - weight a := by omega
  simp only [pack, fill_of_total_le hrest]

end Packing

/-! ## Pieces of lines -/

namespace Text

/-- The text of lines that stand in a row among others stands in the text of them all. -/
theorem unlines_isInfix {l l' : List Text} (h : l <:+: l') : unlines l <:+: unlines l' := by
  obtain ⟨before, after, rfl⟩ := h
  refine ⟨unlines before, unlines after, ?_⟩
  rw [unlines_append, unlines_append]

theorem utf8Size_flatten (l : List Text) : utf8Size l.flatten = (l.map utf8Size).sum := by
  induction l with
  | nil => rfl
  | cons t l ih => rw [List.flatten_cons, utf8Size_append, List.map_cons, List.sum_cons, ih]

theorem utf8Size_replicate (n : Nat) (c : Char) :
    utf8Size (List.replicate n c) = n * c.utf8Size := by
  induction n with
  | zero => exact (Nat.zero_mul _).symm
  | succ n ih => rw [List.replicate_succ, utf8Size_cons, ih, Nat.succ_mul, Nat.add_comm]

variable {limit : Nat} {t piece : Text}

theorem pieces_ne_nil (limit : Nat) (t : Text) : t.pieces limit ≠ [] := by
  unfold pieces
  split
  · exact List.cons_ne_nil _ _
  · next hne => exact hne

/-- A limit that takes any character holds for each piece. -/
theorem utf8Size_le_of_mem_pieces (hlimit : 4 ≤ limit) (h : piece ∈ t.pieces limit) :
    piece.utf8Size ≤ limit := by
  unfold pieces at h
  split at h
  · rw [List.mem_singleton.1 h]
    exact Nat.zero_le limit
  · apply Packing.weight_le_of_mem_pack _ h
    intro c _
    exact c.utf8Size_le_four.trans hlimit

end Text

namespace Code.Statement

variable {body : List Text} {piece : Text}

theorem bodyPieces_eq_nil_iff : bodyPieces body = [] ↔ body = [] := by
  rw [bodyPieces, List.flatMap_eq_nil_iff]
  constructor
  · intro hnone
    apply List.eq_nil_iff_forall_not_mem.2
    intro line hline
    exact Text.pieces_ne_nil literalLimit line (hnone line hline)
  · rintro rfl line hline
    exact absurd hline List.not_mem_nil

theorem utf8Size_le_of_mem_bodyPieces (h : piece ∈ bodyPieces body) :
    piece.utf8Size ≤ literalLimit := by
  obtain ⟨line, -, hpiece⟩ := List.mem_flatMap.1 h
  exact Text.utf8Size_le_of_mem_pieces (by decide) hpiece

/-- The pieces that the statement appends as they are. -/
def pieces? : Statement → Option (List Text)
  | append _ pieces => some pieces
  | _ => none

end Code.Statement

/-! ## Statements of a stage -/

namespace Definition

open Code Statement

variable {s : VariantShader} {stage : Stage}

/-- The pieces of a stage's body by the statements that append them. -/
def bodyGroups (s : VariantShader) (stage : Stage) : List (List Text) :=
  (stageStatements s stage).filterMap pieces?

/-- The statements in front of those of the body: the assignment and the directives. -/
def openingStatements (s : VariantShader) (stage : Stage) : List Statement :=
  assign stage (s.stageText stage).prologue ::
    s.toggles.map fun t => appendIf t.accessor stage (StageText.define t.symbol ++ ['\n'])

theorem pieces?_of_mem_openingStatements {a : Statement} (h : a ∈ openingStatements s stage) :
    a.pieces? = none := by
  rcases List.mem_cons.1 h with rfl | h
  · rfl
  · obtain ⟨t, -, rfl⟩ := List.mem_map.1 h
    rfl

theorem bodyGroups_eq_pack (s : VariantShader) (stage : Stage) :
    bodyGroups s stage =
      Packing.pack Text.utf8Size statementLimit (bodyPieces (s.stageText stage).body) := by
  have hopening : (openingStatements s stage).filterMap pieces? = [] := by
    apply List.filterMap_eq_nil_iff.2
    intro a ha
    exact pieces?_of_mem_openingStatements ha
  have hstatements : stageStatements s stage = openingStatements s stage ++
      (Packing.pack Text.utf8Size statementLimit (bodyPieces (s.stageText stage).body)).map
        (append stage) := rfl
  have hpieces : pieces? ∘ append stage = some := rfl
  rw [bodyGroups, hstatements, List.filterMap_append, hopening, List.filterMap_map, hpieces,
    List.filterMap_some, List.nil_append]

/-- The statements of the body are the last ones of their stage. -/
theorem stageStatements_eq (s : VariantShader) (stage : Stage) :
    stageStatements s stage =
      openingStatements s stage ++ (bodyGroups s stage).map (append stage) := by
  rw [bodyGroups_eq_pack]
  rfl

theorem flatten_bodyGroups (s : VariantShader) (stage : Stage) :
    (bodyGroups s stage).flatten = bodyPieces (s.stageText stage).body := by
  rw [bodyGroups_eq_pack, Packing.flatten_pack]

theorem bodyGroups_eq_nil_iff : bodyGroups s stage = [] ↔ (s.stageText stage).body = [] := by
  rw [bodyGroups_eq_pack, Packing.pack_eq_nil_iff, bodyPieces_eq_nil_iff]

theorem isChain_bodyGroups (s : VariantShader) (stage : Stage) :
    (bodyGroups s stage).IsChain (Packing.Overflows Text.utf8Size statementLimit) := by
  rw [bodyGroups_eq_pack]
  exact Packing.isChain_pack _ _ _

/-- No statement of the body is without a piece, and both limits hold. -/
theorem limits_of_mem_bodyGroups {group : List Text} (h : group ∈ bodyGroups s stage) :
    group ≠ [] ∧ (∀ piece ∈ group, piece.utf8Size ≤ literalLimit) ∧
      (group.map Text.utf8Size).sum ≤ statementLimit := by
  have hpiece : ∀ piece ∈ bodyPieces (s.stageText stage).body, piece.utf8Size ≤ literalLimit :=
    fun _ => utf8Size_le_of_mem_bodyPieces
  refine ⟨?_, ?_, ?_⟩
  · rw [bodyGroups_eq_pack] at h
    exact Packing.ne_nil_of_mem_pack h
  · intro piece hmem
    apply hpiece
    rw [← flatten_bodyGroups]
    exact List.mem_flatten.2 ⟨group, h, hmem⟩
  · rw [bodyGroups_eq_pack] at h
    rw [← Packing.total_eq_sum]
    apply Packing.weight_le_of_mem_pack _ h
    intro piece hmem
    exact (hpiece piece hmem).trans (by decide)

/-- The text of statements is read as their tokens, in their order. -/
theorem tokens?_bodyGroups (s : VariantShader) (stage : Stage) :
    Cpp.tokens? (Text.unlines ((bodyGroups s stage).flatMap fun group =>
      (append stage group).lines)) =
        some ((bodyGroups s stage).flatMap fun group => (append stage group).tokens) := by
  apply tokens?_of_spells
  apply Cpp.Spells.unlines
  intro group hgroup
  exact spells_append stage (limits_of_mem_bodyGroups hgroup).1

theorem unlines_bodyGroups_isInfix (s : VariantShader) (stage : Stage) (settings : Settings) :
    Text.unlines ((bodyGroups s stage).flatMap fun group => (append stage group).lines) <:+:
      text s settings := by
  have hgroups : ((bodyGroups s stage).flatMap fun group => (append stage group).lines) <:+:
      (stageStatements s stage).flatMap lines := by
    rw [stageStatements_eq, List.flatMap_append, List.flatMap_map]
    exact (List.suffix_append _ _).isInfix
  have hstage : [] :: (stageStatements s stage).flatMap lines <:+:
      Stage.all.flatMap fun stage => [] :: (stageStatements s stage).flatMap lines := by
    rw [List.flatMap_def]
    apply List.infix_of_mem_flatten
    apply List.mem_map_of_mem
    cases stage <;> decide
  have hfunction : ((bodyGroups s stage).flatMap fun group => (append stage group).lines) <:+:
      functionLines s :=
    hgroups.trans ((List.suffix_cons _ _).isInfix.trans (hstage.trans ⟨_, _, rfl⟩))
  exact (Text.unlines_isInfix hfunction).trans (unlines_isInfix_frameLines settings _ _ _)

end Definition

/-- The body of a stage is appended by the last statements of the stage, for any shader. Each
    appends at least one literal, of at most 2048 bytes each and 16384 bytes together, and begins
    only where its first literal is too much for the statement before it. Read back, the literals
    are the pieces of the lines in their order, and so the body. There is a statement exactly if
    there is a line. -/
theorem body_statements (s : VariantShader) (stage : Stage) (settings : Settings) :
    let body := (s.stageText stage).body
    let groups := Definition.bodyGroups s stage
    let code := Text.unlines (groups.flatMap fun group => (Code.Statement.append stage group).lines)
    (∃ opening, Definition.stageStatements s stage = opening ++ groups.map (.append stage) ∧
      ∀ a ∈ opening, a.pieces? = none) ∧
    code <:+: Definition.text s settings ∧
    Cpp.tokens? code = some (groups.flatMap fun group =>
      .word "sources" :: .mark "." :: .word stage.keyword :: .mark "+=" ::
        (group.map .literal ++ [.mark ";"])) ∧
    (∀ group ∈ groups, group ≠ [] ∧ (∀ piece ∈ group, piece.utf8Size ≤ 2048) ∧
      (group.map Text.utf8Size).sum ≤ 16384) ∧
    (groups.IsChain fun group next => ∃ piece ∈ next.head?,
      16384 < (group.map Text.utf8Size).sum + piece.utf8Size) ∧
    groups.flatten = body.flatMap (Text.pieces 2048) ∧
    groups.flatten.flatten = body.flatten ∧
    (groups ≠ [] ↔ body ≠ []) := by
  intro body groups code
  refine ⟨?_, ?_, ?_, ?_, ?_, ?_, ?_, ?_⟩
  · refine ⟨Definition.openingStatements s stage, Definition.stageStatements_eq s stage, ?_⟩
    intro a ha
    exact Definition.pieces?_of_mem_openingStatements ha
  · exact Definition.unlines_bodyGroups_isInfix s stage settings
  · exact Definition.tokens?_bodyGroups s stage
  · intro group hgroup
    exact Definition.limits_of_mem_bodyGroups hgroup
  · apply (Definition.isChain_bodyGroups s stage).imp
    rintro group next ⟨piece, hpiece, hfull⟩
    rw [Packing.total_eq_sum] at hfull
    exact ⟨piece, hpiece, hfull⟩
  · exact Definition.flatten_bodyGroups s stage
  · rw [Definition.flatten_bodyGroups, flatten_bodyPieces]
  · rw [ne_eq, Definition.bodyGroups_eq_nil_iff]

end ShaderVariants
