import ShaderVariants.Proofs.Cpp.Grammar

/-!
# What the readers take

One lemma for each way in which a reader can take its part. The part of an inner
reader is a hypothesis, so the lemmas compose as the grammar does.
-/

namespace ShaderVariants.Cpp.Reader

variable {α β : Type} {tokens tokens₁ tokens₂ rest rest₁ : List Token} {w m : Text}

/-! ## Expressions -/

/-- The word is neither a number nor the start of a type of the standard library. -/
def IsName (w : Text) : Prop := w ≠ "std" ∧ number? w = none

theorem operand_of_isName (hw : IsName w) :
    operand (.word w :: rest) = nameOrCall (.word w :: rest) := by
  obtain ⟨hstd, hnumber⟩ := hw
  simp [operand, conversion, number, hstd, hnumber]

theorem operand_name (hw : IsName w) (hdot : m ≠ ".") (hopen : m ≠ "(") :
    operand (.word w :: .mark m :: rest) = some (.name [w], .mark m :: rest) := by
  rw [operand_of_isName hw]
  simp [nameOrCall, hdot, hopen]

theorem operand_field (hw : IsName w) (field : Text) :
    operand (.word w :: .mark "." :: .word field :: rest) = some (.name [w, field], rest) := by
  rw [operand_of_isName hw]
  simp [nameOrCall]

theorem operand_call (hw : IsName w) :
    operand (.word w :: .mark "(" :: .mark ")" :: rest) = some (.call w, rest) := by
  rw [operand_of_isName hw]
  simp [nameOrCall]

theorem operand_number {n : Nat} (hw : w ≠ "std") (hn : number? w = some n) :
    operand (.word w :: rest) = some (.number n, rest) := by
  simp [operand, conversion, number, hw, hn]

theorem operand_conversion {n : Nat} (hn : number? w = some n) :
    operand (.word "std" :: .mark "::" :: .word "uint64_t" :: .mark "\x7b" :: .word w ::
      .mark "\x7d" :: rest) = some (.uint64 (.number n), rest) := by
  simp [operand, conversion, number, hn]

theorem literals_append (values : List Text) :
    literals (values.map .literal ++ .mark m :: rest) = (values.flatten, .mark m :: rest) := by
  induction values with
  | nil => rfl
  | cons value values ih => rw [List.map_cons, List.cons_append, literals, ih, List.flatten_cons]

/-- Adjacent literals are one text. -/
theorem operand_text (value : Text) (values : List Text) :
    operand ((value :: values).map .literal ++ .mark m :: rest) =
      some (.text (value :: values).flatten, .mark m :: rest) := by
  have h : text ((value :: values).map .literal ++ .mark m :: rest) =
      some ((value :: values).flatten, .mark m :: rest) := by
    rw [List.map_cons, List.cons_append, text, literals_append, List.flatten_cons]
  rw [operand, either_apply, bind_apply, h]
  rfl

theorem factor_word : factor (.word w :: rest) = operand (.word w :: rest) := by
  simp [factor]

theorem factor_literal (value : Text) :
    factor (.literal value :: rest) = operand (.literal value :: rest) := by
  simp [factor, mark, token]

theorem factor_complement {e : Expr} (h : operand tokens = some (e, rest)) :
    factor (.mark "~" :: tokens) = some (.complement e, rest) := by
  simp [factor, h]

theorem factor_parenthesised {e : Expr} (h : binary operand tokens = some (e, .mark ")" :: rest)) :
    factor (.mark "(" :: tokens) = some (e, rest) := by
  simp [factor, h]

theorem binary_of_part {part : Reader Expr} {e : Expr}
    (h : part tokens = some (e, .mark m :: rest)) (hm : Operator.ofMark? m = none) :
    binary part tokens = some (e, .mark m :: rest) := by
  simp [binary, h, hm]

theorem binary_of_parts {part : Reader Expr} {left right : Expr} {op : Operator}
    (hleft : part tokens = some (left, .mark m :: tokens₁)) (hm : Operator.ofMark? m = some op)
    (hright : part tokens₁ = some (right, rest)) :
    binary part tokens = some (.binary op left right, rest) := by
  simp [binary, hleft, hm, hright]

theorem expr_of_word {e : Expr} (h : operand (.word w :: tokens) = some (e, .mark m :: rest))
    (hm : Operator.ofMark? m = none) : expr (.word w :: tokens) = some (e, .mark m :: rest) :=
  binary_of_part (factor_word.trans h) hm

theorem expr_of_words {v : Text} {left right : Expr} {op : Operator}
    (hleft : operand (.word w :: tokens) = some (left, .mark m :: .word v :: tokens₁))
    (hm : Operator.ofMark? m = some op)
    (hright : operand (.word v :: tokens₁) = some (right, rest)) :
    expr (.word w :: tokens) = some (.binary op left right, rest) :=
  binary_of_parts (factor_word.trans hleft) hm (factor_word.trans hright)

/-- A name by itself, up to the end of a condition or of a statement. -/
theorem expr_name (hw : IsName w) (hm : m = ")" ∨ m = ";") :
    expr (.word w :: .mark m :: rest) = some (.name [w], .mark m :: rest) := by
  rcases hm with rfl | rfl
  all_goals exact expr_of_word (operand_name hw (by simp) (by simp)) (by simp [Operator.ofMark?])

/-! ## Types -/

theorem ctype_uint64 (rest : List Token) :
    ctype (.word "std" :: .mark "::" :: .word "uint64_t" :: rest) = some (.uint64, rest) := by
  simp [ctype, CType.ofStandard?]

theorem ctype_string (rest : List Token) :
    ctype (.word "std" :: .mark "::" :: .word "string" :: rest) = some (.string, rest) := by
  simp [ctype, CType.ofStandard?]

theorem ctype_bool (rest : List Token) : ctype (.word "bool" :: rest) = some (.bool, rest) := by
  simp [ctype, CType.ofKeyword?]

theorem ctype_void (rest : List Token) : ctype (.word "void" :: rest) = some (.void, rest) := by
  simp [ctype, CType.ofKeyword?]

/-- The word can begin a name where a statement or a member may stand. -/
def IsPlain (w : Text) : Prop :=
  w ∉ (["if", "return", "std", "void", "bool", "static", "operator", "const"] : List Text)

theorem ctype_named (hw : IsPlain w) (rest : List Token) :
    ctype (.word w :: rest) = some (.named w, rest) := by
  simp only [IsPlain, List.mem_cons, not_or] at hw
  simp [ctype, CType.ofKeyword?, hw]

/-! ## Statements -/

theorem target_name (hm : m ≠ ".") :
    target (.word w :: .mark m :: rest) = some ([w], .mark m :: rest) := by
  simp [target, hm]

theorem target_field (field : Text) :
    target (.word w :: .mark "." :: .word field :: rest) = some ([w, field], rest) := by
  simp [target]

theorem assignment_of {path : List Text} {op : AssignOp} {e : Expr}
    (hpath : target tokens = some (path, .mark m :: tokens₁)) (hm : AssignOp.ofMark? m = some op)
    (he : expr tokens₁ = some (e, .mark ";" :: rest)) :
    assignment tokens = some (⟨path, op, e⟩, rest) := by
  simp [assignment, hpath, hm, he]

theorem block_of {a : Assignment} (h : assignment tokens = some (a, .mark "\x7d" :: rest)) :
    block (.mark "\x7b" :: tokens) = some (a, rest) := by
  simp [block, h]

theorem stmt_branch {condition : Expr} {yes : Assignment}
    (hcondition : expr tokens = some (condition, .mark ")" :: tokens₁))
    (hyes : block tokens₁ = some (yes, rest)) (helse : keyword "else" rest = none) :
    stmt (.word "if" :: .mark "(" :: tokens) = some (.branch condition yes none, rest) := by
  simp [stmt, branch, hcondition, hyes, helse]

theorem stmt_branch_else {condition : Expr} {yes no : Assignment}
    (hcondition : expr tokens = some (condition, .mark ")" :: tokens₁))
    (hyes : block tokens₁ = some (yes, .word "else" :: tokens₂))
    (hno : block tokens₂ = some (no, rest)) :
    stmt (.word "if" :: .mark "(" :: tokens) = some (.branch condition yes (some no), rest) := by
  simp [stmt, branch, hcondition, hyes, hno]

theorem stmt_give {e : Expr} (h : expr tokens = some (e, .mark ";" :: rest)) :
    stmt (.word "return" :: tokens) = some (.give e, rest) := by
  simp [stmt, branch, give, h]

theorem stmt_declare (hw : IsPlain w) (name : Text) :
    stmt (.word w :: .word name :: .mark "\x7b" :: .mark "\x7d" :: .mark ";" :: rest) =
      some (.declare (.named w) name, rest) := by
  have htype := ctype_named hw
  simp only [IsPlain, List.mem_cons, not_or] at hw
  simp [stmt, branch, give, declaration, htype, hw]

theorem stmt_assign {a : Assignment} (hw : IsPlain w)
    (h : assignment (.word w :: .mark m :: tokens) = some (a, rest)) :
    stmt (.word w :: .mark m :: tokens) = some (.assign a, rest) := by
  have htype := ctype_named hw
  simp only [IsPlain, List.mem_cons, not_or] at hw
  simp [stmt, branch, give, declaration, htype, hw, h]

/-! ## Items -/

theorem manyUpTo_le {item : Reader α} {l : List α} {fuel fuel' : Nat} (hle : fuel ≤ fuel')
    (h : manyUpTo item fuel tokens = some (l, rest)) :
    manyUpTo item fuel' tokens = some (l, rest) := by
  induction fuel generalizing fuel' tokens l rest with
  | zero => exact absurd h (Option.some_ne_none _).symm
  | succ fuel ih =>
    obtain ⟨fuel', rfl⟩ := Nat.exists_eq_add_of_lt hle
    simp only [manyUpTo, either_apply, bind_apply, pure_apply] at h ⊢
    cases hclose : mark "\x7d" tokens with
    | some r =>
      rw [hclose] at h
      exact h
    | none =>
      rw [hclose] at h
      cases hitem : item tokens with
      | none =>
        rw [hitem] at h
        exact absurd h (Option.some_ne_none _).symm
      | some r =>
        rw [hitem] at h
        simp only [Option.bind_none, Option.none_or, Option.bind_some] at h ⊢
        obtain ⟨⟨as, rest'⟩, hrest, heq⟩ := Option.bind_eq_some_iff.1 h
        rw [ih (by omega) hrest]
        exact heq

theorem many_nil {item : Reader α} : many item (.mark "\x7d" :: rest) = some ([], rest) := by
  simp [many, manyUpTo]

/-- A sequence of items is read item by item. -/
theorem many_cons {item : Reader α} {a : α} {l : List α} (hopen : mark "\x7d" tokens = none)
    (hitem : item tokens = some (a, tokens₁)) (hlength : tokens₁.length < tokens.length)
    (hmany : many item tokens₁ = some (l, rest)) : many item tokens = some (a :: l, rest) := by
  have hrest := manyUpTo_le hlength hmany
  rw [many, manyUpTo]
  simp [hopen, hitem, hrest]

/-- Items in a row, each read whatever stands behind it that `ok` allows. -/
theorem many_append {item : Reader β} {enc : α → List Token} {value : α → β} {l : List α}
    {l' : List β} (ok : List Token → Prop)
    (hitem : ∀ a ∈ l, ∀ rest, ok rest → item (enc a ++ rest) = some (value a, rest))
    (hopen : ∀ a ∈ l, ∀ rest, mark "\x7d" (enc a ++ rest) = none ∧ ok (enc a ++ rest))
    (hok : ok tokens) (hmany : many item tokens = some (l', rest)) :
    many item (l.flatMap enc ++ tokens) = some (l.map value ++ l', rest) := by
  induction l with
  | nil => exact hmany
  | cons a l ih =>
    have hl := ih (fun b hb => hitem b (List.mem_cons_of_mem a hb))
      fun b hb => hopen b (List.mem_cons_of_mem a hb)
    have hnext : ok (l.flatMap enc ++ tokens) := by
      cases l with
      | nil => exact hok
      | cons b l =>
        rw [List.flatMap_cons, List.append_assoc]
        exact (hopen b (List.mem_cons_of_mem a List.mem_cons_self) _).2
    have hne : enc a ≠ [] := by
      intro h
      have hclose := (hopen a List.mem_cons_self [.mark "\x7d"]).1
      simp [h] at hclose
    rw [List.flatMap_cons, List.append_assoc]
    refine many_cons (hopen a List.mem_cons_self _).1 (hitem a List.mem_cons_self _ hnext) ?_ hl
    have hpos := List.length_pos_iff.2 hne
    simp only [List.length_append]
    omega

/-- A block of one statement. -/
theorem many_one {item : Reader α} {a : α} {t : Token} (ht : t ≠ .mark "\x7d")
    (h : item (t :: tokens) = some (a, .mark "\x7d" :: rest)) :
    many item (t :: tokens) = some ([a], rest) := by
  simp [many, manyUpTo, mark, token, ht, h]

/-! ## Members -/

theorem functionName_word (hw : w ≠ "operator") :
    functionName (.word w :: rest) = some (w, rest) := by
  simp [functionName, hw]

theorem functionName_operator (m : Text) :
    functionName (.word "operator" :: .mark m :: rest) = some ("operator" ++ m, rest) := by
  simp [functionName]

theorem parameters_none : parameters (.mark ")" :: rest) = some (none, rest) := by
  simp [parameters]

theorem parameters_bool (name : Text) :
    parameters (.word "bool" :: .word name :: .mark ")" :: rest) =
      some (some (.bool, name), rest) := by
  simp [parameters, parameter, ctype, CType.ofKeyword?]

theorem parameters_reference (hw : IsPlain w) (name : Text) :
    parameters (.word "const" :: .word w :: .mark "&" :: .word name :: .mark ")" :: rest) =
      some (some (.named w, name), rest) := by
  simp [parameters, parameter, ctype_named hw]

theorem body_none : body (.mark ";" :: rest) = some (none, rest) := by
  simp [body]

theorem body_of {b : List Stmt} (h : many stmt tokens = some (b, rest)) :
    body (.mark "\x7b" :: tokens) = some (some b, rest) := by
  simp [body, h]

theorem function_of {result : CType} {name : Text} {parameter : Option (CType × Text)}
    {b : Option (List Stmt)} (hresult : ctype tokens = some (result, tokens₁))
    (hname : functionName tokens₁ = some (name, .mark "(" :: tokens₂))
    (hparameters : parameters tokens₂ = some (parameter, .mark m :: rest₁))
    (hbody : body (.mark m :: rest₁) = some (b, rest)) :
    function tokens = some (.function result name parameter b, rest) := by
  simp [function, hresult, hname, hparameters, hbody]

theorem function_const_of {result : CType} {name : Text} {parameter : Option (CType × Text)}
    {b : Option (List Stmt)} (hresult : ctype tokens = some (result, tokens₁))
    (hname : functionName tokens₁ = some (name, .mark "(" :: tokens₂))
    (hparameters : parameters tokens₂ = some (parameter, .word "const" :: rest₁))
    (hbody : body rest₁ = some (b, rest)) :
    function tokens = some (.function result name parameter b, rest) := by
  simp [function, hresult, hname, hparameters, hbody]

theorem member_label (access : Text) :
    member (.word access :: .mark ":" :: rest) = some (.label access, rest) := by
  simp [member, label]

theorem member_constant {type : CType} {name : Text} {e : Expr}
    (htype : ctype tokens = some (type, .word name :: .mark "=" :: tokens₁))
    (he : expr tokens₁ = some (e, .mark ";" :: rest)) :
    member (.word "static" :: .word "constexpr" :: tokens) =
      some (.constant type name e, rest) := by
  simp [member, label, constant, htype, he]

theorem member_field {type : CType} {name : Text} {e : Expr} {v : Text}
    (htype : ctype tokens = some (type, .word name :: .mark "\x7b" :: .word v :: tokens₁))
    (he : expr (.word v :: tokens₁) = some (e, .mark "\x7d" :: .mark ";" :: rest))
    (hlabel : label tokens = none) (hconstant : keyword "static" tokens = none) :
    member tokens = some (.field type name (some e), rest) := by
  have hfunction : function tokens = none := by
    by_cases hname : name = "operator" <;> simp [function, htype, functionName, hname]
  simp [member, hlabel, constant, hconstant, hfunction, field, htype, he]

theorem member_empty_field {type : CType} {name : Text}
    (htype : ctype tokens = some (type, .word name :: .mark "\x7b" :: .mark "\x7d" ::
      .mark ";" :: rest))
    (hlabel : label tokens = none) (hconstant : keyword "static" tokens = none) :
    member tokens = some (.field type name none, rest) := by
  have hfunction : function tokens = none := by
    by_cases hname : name = "operator" <;> simp [function, htype, functionName, hname]
  simp [member, hlabel, constant, hconstant, hfunction, field, htype]

theorem member_function {f : Member} (hlabel : label tokens = none)
    (hconstant : keyword "static" tokens = none) (h : function tokens = some (f, rest)) :
    member tokens = some (f, rest) := by
  simp [member, hlabel, constant, hconstant, h]

/-! ## Records and definitions -/

theorem record_of {kind name : Text} {members : List Member}
    (h : many member tokens = some (members, .mark ";" :: rest)) :
    record kind (.word kind :: .word name :: .mark "\x7b" :: tokens) =
      some (⟨name, members⟩, rest) := by
  simp [record, h]

theorem definition_of {result recordName name : Text} {b : List Stmt} (hresult : IsPlain result)
    (h : many stmt tokens = some (b, rest)) :
    definition (.word result :: .word recordName :: .mark "::" :: .word name :: .mark "(" ::
      .mark ")" :: .word "const" :: .mark "\x7b" :: tokens) =
        some (⟨.named result, recordName, name, b⟩, rest) := by
  simp [definition, ctype_named hresult, h]

end ShaderVariants.Cpp.Reader
