import ShaderVariants.Proofs.Generated.Object

/-!
# Running the function

A statement of the function changes the text of its stage and no other: it assigns a
text or adds one behind. From one statement follows the whole body, and from it the
texts that the function returns: each is put together from what the strings take of the
literals, whatever a string takes of a literal.
-/

namespace ShaderVariants

open Cpp

variable {s : VariantShader} {v : Variant} {object : Store} {around : Surroundings} {f : Frame}
  {texts : Stage → Text}

/-! ## Statements -/

/-- The field of each stage holds its text. -/
def HoldsTexts (texts : Stage → Text) (f : Frame) : Prop :=
  ∀ stage, f.locals ["sources", stage.keyword] = some (.text (texts stage))

theorem keyword_injective : Function.Injective Stage.keyword := by
  rintro (_ | _) (_ | _) h
  all_goals first | rfl | exact absurd h (by simp [Stage.keyword])

/-- An assignment to the field of a stage changes its text. -/
theorem HoldsTexts.exec (h : HoldsTexts texts f) {stage : Stage} {op : AssignOp}
    {value after : Text}
    (hop : op.apply (.text (texts stage)) (.text (around.view value)) = some (.text after)) :
    ∃ f', Assignment.exec around ⟨["sources", stage.keyword], op, .text value⟩ f = some f' ∧
      HoldsTexts (Function.update texts stage after) f' := by
  refine ⟨{ f with locals := f.locals.set ["sources", stage.keyword] (.text after) }, ?_, ?_⟩
  · simp [Assignment.exec, Frame.read, Frame.write, h stage, Expr.eval, hop]
  · intro other
    by_cases heq : other = stage
    · subst heq
      rw [Function.update_self]
      exact if_pos rfl
    · have hne : other.keyword ≠ stage.keyword := fun hkey => heq (keyword_injective hkey)
      rw [Function.update_of_ne heq, ← h other]
      exact if_neg (by simp [hne])

namespace Code.Statement

/-- The stage whose text the statement changes. -/
def stage : Statement → Stage
  | assign stage _ | appendIf _ stage _ | append stage _ => stage

/-- The statement drops the text before it. -/
def isAssign : Statement → Bool
  | assign .. => true
  | _ => false

/-- What the statement adds, where a string takes `view` of a literal and these accessors answer
    true. -/
def added (view : Text → Text) (on : Text → Bool) : Statement → Text
  | assign _ value => view value
  | appendIf accessor _ value => if on accessor then view value else []
  | append _ pieces => view pieces.flatten

/-- The texts behind the statement. -/
def effect (view : Text → Text) (on : Text → Bool) (texts : Stage → Text) (a : Statement) :
    Stage → Text :=
  Function.update texts a.stage ((if a.isAssign then [] else texts a.stage) ++ a.added view on)

/-- The accessor that the statement asks is answered. -/
def Answered (around : Surroundings) (on : Text → Bool) : Statement → Prop
  | appendIf accessor .. => around.call (Member.getterName accessor) = some (.truth (on accessor))
  | _ => True

theorem exec_asCpp {on : Text → Bool} (h : HoldsTexts texts f) {a : Statement}
    (ha : a.Answered around on) :
    ∃ f', a.asCpp.exec around f = some f' ∧ HoldsTexts (effect around.view on texts a) f' := by
  cases a with
  | assign stage value => exact h.exec rfl
  | append stage pieces => exact h.exec rfl
  | appendIf accessor stage value =>
    have hcall : Expr.eval around f (.call (Member.getterName accessor)) =
        some (.truth (on accessor)) := ha
    cases hon : on accessor with
    | true =>
      have happend : AssignOp.append.apply (.text (texts stage)) (.text (around.view value)) =
          some (.text (texts stage ++ around.view value)) := rfl
      obtain ⟨f', hexec, hf'⟩ := h.exec happend
      refine ⟨f', ?_, ?_⟩
      · simpa only [asCpp, Stmt.exec, hcall, hon] using hexec
      · simpa [effect, added, isAssign, Statement.stage, hon] using hf'
    | false =>
      refine ⟨f, ?_, ?_⟩
      · simp only [asCpp, Stmt.exec, hcall, hon]
      · simpa [effect, added, isAssign, Statement.stage, hon] using h

theorem runBody_asCpp {on : Text → Bool} (h : HoldsTexts texts f) {l : List Statement}
    (hl : ∀ a ∈ l, a.Answered around on) (rest : List Stmt) :
    ∃ f', runBody around (l.map asCpp ++ rest) f = runBody around rest f' ∧
      HoldsTexts (l.foldl (effect around.view on) texts) f' := by
  induction l generalizing texts f with
  | nil => exact ⟨f, rfl, h⟩
  | cons a l ih =>
    obtain ⟨f₁, hexec, h₁⟩ := exec_asCpp h (hl a List.mem_cons_self)
    obtain ⟨f₂, hrun, h₂⟩ := ih h₁ fun b hb => hl b (List.mem_cons_of_mem a hb)
    refine ⟨f₂, ?_, h₂⟩
    rw [List.map_cons, List.cons_append, runBody_cons hexec, hrun]

/-! ## The text of a stage -/

/-- Statements that add to one stage leave the others as they are. -/
theorem foldl_effect {view : Text → Text} {on : Text → Bool} {stage : Stage} {l : List Statement}
    (hl : ∀ a ∈ l, a.stage = stage ∧ a.isAssign = false) (texts : Stage → Text) :
    l.foldl (effect view on) texts =
      Function.update texts stage (texts stage ++ l.flatMap (added view on)) := by
  induction l generalizing texts with
  | nil => rw [List.foldl_nil, List.flatMap_nil, List.append_nil, Function.update_eq_self]
  | cons a l ih =>
    obtain ⟨rfl, hassign⟩ := hl a List.mem_cons_self
    have hfirst : effect view on texts a =
        Function.update texts a.stage (texts a.stage ++ a.added view on) := by
      rw [effect, hassign]
      rfl
    rw [List.foldl_cons, hfirst, ih (fun b hb => hl b (List.mem_cons_of_mem a hb)),
      Function.update_idem, Function.update_self, List.flatMap_cons, List.append_assoc]

/-- What the directives add: those of the toggles that are on. -/
theorem flatMap_added_appendIf {view : Text → Text} {on : Text → Bool} {toggles : List Toggle}
    (hon : ∀ t ∈ toggles, on t.accessor = v.get t) (stage : Stage) (value : Toggle → Text) :
    (toggles.map fun t => appendIf t.accessor stage (value t)).flatMap (added view on) =
      (toggles.filter v.get).flatMap fun t => view (value t) := by
  induction toggles with
  | nil => rfl
  | cons t toggles ih =>
    have hrest := ih fun u hu => hon u (List.mem_cons_of_mem t hu)
    have ht := hon t List.mem_cons_self
    rw [List.map_cons, List.flatMap_cons, hrest, added, ht, List.filter_cons]
    cases v.get t <;> rfl

end Code.Statement

/-- The literals that the function puts together for a stage in a variant, each with all that one
    statement adds. -/
def VariantShader.literals (s : VariantShader) (stage : Stage) (v : Variant) : List Text :=
  (s.stageText stage).prologue ::
    ((s.toggles.filter v.get).map (fun t => StageText.define t.symbol ++ ['\n']) ++
      (Packing.pack Text.utf8Size Code.Statement.statementLimit
        (Code.Statement.bodyPieces (s.stageText stage).body)).map List.flatten)

open Code.Statement in
/-- The statements of a stage put its text together. -/
theorem foldl_stageStatements {view : Text → Text} {on : Text → Bool}
    (hon : ∀ t ∈ s.toggles, on t.accessor = v.get t) (stage : Stage) (texts : Stage → Text) :
    (Definition.stageStatements s stage).foldl (effect view on) texts =
      Function.update texts stage ((s.literals stage v).flatMap view) := by
  have hassign : effect view on texts (assign stage (s.stageText stage).prologue) =
      Function.update texts stage (view (s.stageText stage).prologue) := rfl
  rw [Definition.stageStatements, ofStage, List.cons_append, List.foldl_cons, hassign,
    foldl_effect, Function.update_idem, Function.update_self, List.flatMap_append,
    flatMap_added_appendIf hon, List.flatMap_map, VariantShader.literals, List.flatMap_cons,
    List.flatMap_append, List.flatMap_map, List.flatMap_map]
  · rfl
  · intro a ha
    rcases List.mem_append.1 ha with ha | ha
    · obtain ⟨t, -, rfl⟩ := List.mem_map.1 ha
      exact ⟨rfl, rfl⟩
    · obtain ⟨group, -, rfl⟩ := List.mem_map.1 ha
      exact ⟨rfl, rfl⟩

/-! ## The result of the function -/

/-- The function declares its result with empty texts. -/
theorem exec_declare (s : VariantShader) (view : Text → Text) (object : Store) :
    ∃ f, Stmt.exec (s.program.surroundings view object) (.declare (.named s.sourcesType) "sources")
        ⟨.empty, object⟩ = some f ∧ HoldsTexts (fun _ => []) f := by
  have hfields : (s.program.surroundings view object).fields s.sourcesType =
      some (Stage.all.map Stage.keyword) := by
    simp [Program.surroundings, VariantShader.program, Header.sourcesRecord,
      Cpp.Member.emptyString?, Function.comp_def]
  refine ⟨_, by rw [Stmt.exec, hfields]; rfl, ?_⟩
  rintro (_ | _) <;> simp [Stage.all, Stage.keyword, Store.set]

/-- On an object that stands for a variant the function returns what the strings take of the
    literals of the variant. -/
theorem Represents.assembled (h : Represents s v object) (view : Text → Text) (stage : Stage) :
    s.program.assembled view object stage.keyword =
      some ((s.literals stage v).flatMap view) := by
  let around := s.program.surroundings view object
  let on : Text → Bool := fun accessor =>
    around.call (Code.Member.getterName accessor) == some (.truth true)
  have hcall : ∀ t ∈ s.toggles,
      around.call (Code.Member.getterName t.accessor) = some (.truth (v.get t)) :=
    fun t ht => h.get ht
  have hon : ∀ t ∈ s.toggles, on t.accessor = v.get t := by
    intro t ht
    simp only [on, hcall t ht]
    cases v.get t <;> rfl
  have hanswered : ∀ a ∈ Definition.statements s, a.Answered around on := by
    intro a ha
    obtain ⟨stage, -, ha⟩ := List.mem_flatMap.1 ha
    simp only [Definition.stageStatements, Code.Statement.ofStage, List.cons_append,
      List.mem_cons, List.mem_append, List.mem_map] at ha
    rcases ha with rfl | ⟨t, ht, rfl⟩ | ⟨group, -, rfl⟩
    · trivial
    · rw [Code.Statement.Answered, hcall t ht, hon t ht]
    · trivial
  obtain ⟨f₀, hdeclare, h₀⟩ := exec_declare s view object
  obtain ⟨f, hrun, hf⟩ := Code.Statement.runBody_asCpp h₀ hanswered [.give (.name ["sources"])]
  have htexts :
      ((Definition.statements s).foldl (Code.Statement.effect view on) fun _ => []) stage =
        (s.literals stage v).flatMap view := by
    rw [Definition.statements, Stage.all, List.flatMap_cons, List.flatMap_cons, List.flatMap_nil,
      List.append_nil, List.foldl_append, foldl_stageStatements hon, foldl_stageStatements hon]
    cases stage <;> rfl
  have hbody : runBody around s.program.assemble.body ⟨.empty, object⟩ =
      some (f, some (.name ["sources"])) := by
    rw [VariantShader.program, Definition.assembleDefinition, runBody_cons hdeclare]
    exact hrun
  have hfield := hf stage
  rw [Program.assembled, hbody]
  simp only [hfield]
  exact congrArg some htexts

end ShaderVariants
