import ShaderVariants.Code.Member
import ShaderVariants.Proofs.Accessors
import ShaderVariants.Proofs.Cpp.Reading
import ShaderVariants.Proofs.Cpp.Spelling

/-!
# Members as C++

Each member of the class is a declaration of C++: its lines spell certain tokens, and
the reader makes that declaration of them. A doc comment spells nothing.
-/

namespace ShaderVariants.Code

open Cpp

/-- The operator of a comparison in C++. -/
def Comparison.asCpp : Comparison → Operator
  | .less => .less
  | .equal => .equal
  | .notEqual => .notEqual

namespace Member

variable {accessor symbol type body : Text} {bit : Nat} {rest : List Token} {m : Member}

def tokens : Member → List Token
  | bitConstant accessor bit =>
    [.word "static", .word "constexpr", .word "std", .mark "::", .word "uint64_t",
      .word (bitName accessor), .mark "=", .word "std", .mark "::", .word "uint64_t",
      .mark "\x7b", .word "1", .mark "\x7d", .mark "<<", .word (Text.decimal bit), .mark ";"]
  | setter accessor _ =>
    [.word "void", .word (setterName accessor), .mark "(", .word "bool", .word "enabled",
      .mark ")", .mark "\x7b", .word "if", .mark "(", .word "enabled", .mark ")", .mark "\x7b",
      .word "mask_", .mark "|=", .word (bitName accessor), .mark ";", .mark "\x7d",
      .word "else", .mark "\x7b", .word "mask_", .mark "&=", .mark "~",
      .word (bitName accessor), .mark ";", .mark "\x7d", .mark "\x7d"]
  | getter accessor =>
    [.word "bool", .word (getterName accessor), .mark "(", .mark ")", .word "const",
      .mark "\x7b", .word "return", .mark "(", .word "mask_", .mark "&",
      .word (bitName accessor), .mark ")", .mark "!=", .word "0", .mark ";", .mark "\x7d"]
  | maskGetter =>
    [.word "std", .mark "::", .word "uint64_t", .word "GetMask", .mark "(", .mark ")",
      .word "const", .mark "\x7b", .word "return", .word "mask_", .mark ";", .mark "\x7d"]
  | comparison op type =>
    [.word "bool", .word "operator", .mark op.symbol, .mark "(", .word "const", .word type,
      .mark "&", .word "other", .mark ")", .word "const", .mark "\x7b", .word "return",
      .word "mask_", .mark op.symbol, .word "other", .mark ".", .word "mask_", .mark ";",
      .mark "\x7d"]
  | assembler type =>
    [.word type, .word "Assemble", .mark "(", .mark ")", .word "const", .mark ";"]
  | maskField =>
    [.word "std", .mark "::", .word "uint64_t", .word "mask_", .mark "\x7b", .word "0",
      .mark "\x7d", .mark ";"]

def asCpp : Member → Cpp.Member
  | bitConstant accessor bit =>
    .constant .uint64 (bitName accessor) (.binary .shiftLeft (.uint64 (.number 1)) (.number bit))
  | setter accessor _ =>
    .function .void (setterName accessor) (some (.bool, "enabled"))
      (some [.branch (.name ["enabled"]) ⟨["mask_"], .bitOr, .name [bitName accessor]⟩
        (some ⟨["mask_"], .bitAnd, .complement (.name [bitName accessor])⟩)])
  | getter accessor =>
    .function .bool (getterName accessor) none
      (some [.give (.binary .notEqual
        (.binary .bitAnd (.name ["mask_"]) (.name [bitName accessor])) (.number 0))])
  | maskGetter => .function .uint64 "GetMask" none (some [.give (.name ["mask_"])])
  | comparison op type =>
    .function .bool ("operator" ++ op.symbol) (some (.named type, "other"))
      (some [.give (.binary op.asCpp (.name ["mask_"]) (.name ["other", "mask_"]))])
  | assembler type => .function (.named type) "Assemble" none none
  | maskField => .field .uint64 "mask_" (some (.number 0))

/-- The names in the declaration are names of C++. -/
def IsSound : Member → Prop
  | bitConstant accessor _ | setter accessor _ | getter accessor => IsWhole accessor
  | comparison _ type | assembler type => IsPascal type
  | maskGetter | maskField => True

/-- A symbol in the declaration's comment does not close the comment. -/
def KeepsComment : Member → Prop
  | setter _ symbol => ¬closeMark <:+: symbol
  | _ => True

/-! ## Names -/

theorem isWhole_bitName (h : IsWhole accessor) : IsWhole (bitName accessor) :=
  ((isWhole_fixed (by decide)).append h.2).append (isWhole_fixed (by decide)).2

theorem isWhole_setterName (h : IsWhole accessor) : IsWhole (setterName accessor) :=
  (isWhole_fixed (by decide)).append h.2

theorem isWhole_getterName (h : IsWhole accessor) : IsWhole (getterName accessor) :=
  (isWhole_fixed (by decide)).append h.2

@[simp] theorem bitName_inj {a b : Text} : bitName a = bitName b ↔ a = b := by
  rw [bitName, bitName, List.append_left_inj, List.append_right_inj]

@[simp] theorem setterName_inj {a b : Text} : setterName a = setterName b ↔ a = b := by
  rw [setterName, setterName, List.append_right_inj]

@[simp] theorem getterName_inj {a b : Text} : getterName a = getterName b ↔ a = b := by
  rw [getterName, getterName, List.append_right_inj]

theorem isWhole_of_isPascal (h : IsPascal type) : IsWhole type :=
  ⟨h.ne_nil, h.isIdentifierPart⟩

theorem isWhole_decimal (n : Nat) : IsWhole (Text.decimal n) := by
  refine ⟨Nat.toDigits_ne_nil, fun c hc => ?_⟩
  exact isIdentifierPart_of_isAlphanum (isAlphanum_of_isDigit (Text.isDigit_of_mem_decimal hc))

/-! ## The comment of a setter -/

/-- The comment above the setter of a symbol. -/
def toggleComment (symbol : Text) : Text := "    /** Toggle `#define " ++ symbol ++ "` */"

theorem opening_eq :
    ("    /** Toggle `#define " : Text) = "    " ++ '/' :: '*' :: "* Toggle `#define " := by
  repeat rw [Text.ofString_ofList]
  rfl

theorem toggleComment_eq (symbol : Text) :
    toggleComment symbol =
      "    " ++ '/' :: '*' :: ("* Toggle `#define " ++ symbol ++ "` " ++ closeMark) := by
  have hclose : ("` */" : Text) = "` " ++ closeMark := by
    repeat rw [Text.ofString_ofList]
    rfl
  rw [toggleComment, opening_eq, hclose]
  simp only [List.append_assoc, List.cons_append]

/-- The words in front of a symbol bring no mark. -/
theorem closeMark_notIn_behind (h : ¬closeMark <:+: body) :
    ¬closeMark <:+: "* Toggle `#define " ++ body := by
  have hopen : ¬closeMark <:+: ("* Toggle `#define " : Text) := by
    apply closeMark_notIn_of_slash_notMem
    rw [Text.ofString_eq_toList]
    decide
  apply closeMark_notIn_append hopen h
  left
  rw [Text.ofString_eq_toList]
  decide

/-- Neither do those behind it. -/
theorem closeMark_isInfix_iff (symbol : Text) :
    closeMark <:+: "* Toggle `#define " ++ symbol ++ "` " ++ ['*'] ↔ closeMark <:+: symbol := by
  have hclose : ("` " : Text) ++ ['*'] = ['`', ' ', '*'] := by
    rw [Text.ofString_ofList]
    rfl
  constructor
  · intro h
    by_contra hsymbol
    rw [List.append_assoc, hclose] at h
    refine closeMark_notIn_append (closeMark_notIn_behind hsymbol) ?_ (.inr (by decide)) h
    exact closeMark_notIn_of_slash_notMem (by decide)
  · intro h
    exact h.trans ⟨_, _, (List.append_assoc _ _ _).symm⟩

/-! ## Spelling -/

theorem spells_bitConstant (h : IsWhole accessor) (bit : Nat) :
    Spells (Text.unlines (bitConstant accessor bit).lines) (bitConstant accessor bit).tokens := by
  have hopen : Spells "    static constexpr std::uint64_t "
      [.word "static", .word "constexpr", .word "std", .mark "::", .word "uint64_t"] := by
    repeat rw [Text.ofString_ofList]
    exact (rfl : run _ _ = _)
  have hvalue : Spells " = std::uint64_t \x7b 1 \x7d << "
      [.mark "=", .word "std", .mark "::", .word "uint64_t", .mark "\x7b", .word "1",
        .mark "\x7d", .mark "<<"] := by
    repeat rw [Text.ofString_ofList]
    exact (rfl : run _ _ = _)
  have hclose : Spells (";" ++ ['\n']) [.mark ";"] := by
    repeat rw [Text.ofString_ofList]
    exact (rfl : run _ _ = _)
  have hbit := hclose.word (isWhole_decimal bit) ((ends_fixed rfl rfl).append _)
  have hname := (hvalue.append hbit).word (isWhole_bitName h) ((ends_fixed rfl rfl).append _)
  simpa only [lines, tokens, Text.unlines_cons, Text.unlines_nil, List.append_assoc,
    List.cons_append, List.nil_append] using hopen.append hname

/-- The reader takes the line above a setter for a comment to its end. -/
theorem spells_toggleComment (h : ¬closeMark <:+: symbol) :
    Spells (toggleComment symbol ++ ['\n']) [] := by
  have hopen : run .blank ("    " ++ ['/', '*']) = ([], .comment .block) := by
    rw [Text.ofString_ofList]
    rfl
  have hline := (Spells.comment hopen (mt (closeMark_isInfix_iff symbol).1 h)).append Spells.newline
  rw [toggleComment_eq]
  simpa only [List.append_assoc, List.cons_append, List.nil_append] using hline

theorem spells_setter (haccessor : IsWhole accessor) (hsymbol : ¬closeMark <:+: symbol) :
    Spells (Text.unlines (setter accessor symbol).lines) (setter accessor symbol).tokens := by
  have hopen : Spells "    void " [.word "void"] := by
    repeat rw [Text.ofString_ofList]
    exact (rfl : run _ _ = _)
  have hparameter : Spells ("(bool enabled)" ++ '\n' :: ("    \x7b" ++ ['\n']))
      [.mark "(", .word "bool", .word "enabled", .mark ")", .mark "\x7b"] := by
    repeat rw [Text.ofString_ofList]
    exact (rfl : run _ _ = _)
  have hyes : Spells ("        if (enabled) \x7b" ++ '\n' :: "            mask_ |= ")
      [.word "if", .mark "(", .word "enabled", .mark ")", .mark "\x7b", .word "mask_",
        .mark "|="] := by
    repeat rw [Text.ofString_ofList]
    exact (rfl : run _ _ = _)
  have hno : Spells (";" ++ '\n' :: ("        \x7d else \x7b" ++ '\n' ::
      "            mask_ &= ~"))
      [.mark ";", .mark "\x7d", .word "else", .mark "\x7b", .word "mask_", .mark "&=",
        .mark "~"] := by
    repeat rw [Text.ofString_ofList]
    exact (rfl : run _ _ = _)
  have hclose : Spells (";" ++ '\n' :: ("        \x7d" ++ '\n' :: ("    \x7d" ++ ['\n'])))
      [.mark ";", .mark "\x7d", .mark "\x7d"] := by
    repeat rw [Text.ofString_ofList]
    exact (rfl : run _ _ = _)
  have hbit := isWhole_bitName haccessor
  have hoff := hno.append (hclose.word hbit ((ends_fixed rfl rfl).append _))
  have hon := hyes.append (hoff.word hbit (((ends_fixed rfl rfl).append _).append _))
  have hname := (hparameter.append hon).word (isWhole_setterName haccessor)
    (((ends_fixed rfl rfl).append _).append _)
  simpa only [lines, toggleComment, tokens, Text.unlines_cons, Text.unlines_nil, List.append_assoc,
    List.cons_append, List.nil_append] using
    (spells_toggleComment hsymbol).append (hopen.append hname)

theorem spells_getter (h : IsWhole accessor) :
    Spells (Text.unlines (getter accessor).lines) (getter accessor).tokens := by
  have hopen : Spells "    bool " [.word "bool"] := by
    repeat rw [Text.ofString_ofList]
    exact (rfl : run _ _ = _)
  have hmask : Spells "() const \x7b return (mask_ & "
      [.mark "(", .mark ")", .word "const", .mark "\x7b", .word "return", .mark "(",
        .word "mask_", .mark "&"] := by
    repeat rw [Text.ofString_ofList]
    exact (rfl : run _ _ = _)
  have hclose : Spells (") != 0; \x7d" ++ ['\n'])
      [.mark ")", .mark "!=", .word "0", .mark ";", .mark "\x7d"] := by
    repeat rw [Text.ofString_ofList]
    exact (rfl : run _ _ = _)
  have hbit := hclose.word (isWhole_bitName h) ((ends_fixed rfl rfl).append _)
  have hname := (hmask.append hbit).word (isWhole_getterName h) ((ends_fixed rfl rfl).append _)
  simpa only [lines, tokens, Text.unlines_cons, Text.unlines_nil, List.append_assoc,
    List.cons_append, List.nil_append] using hopen.append hname

theorem spells_maskGetter : Spells (Text.unlines maskGetter.lines) maskGetter.tokens := by
  simp only [lines, tokens, Text.unlines_cons, Text.unlines_nil]
  repeat rw [Text.ofString_ofList]
  exact (rfl : run _ _ = _)

theorem spells_comparison (op : Comparison) (h : IsWhole type) :
    Spells (Text.unlines (comparison op type).lines) (comparison op type).tokens := by
  have hopen : Spells ("    bool operator" ++ (op.symbol ++ "(const "))
      [.word "bool", .word "operator", .mark op.symbol, .mark "(", .word "const"] := by
    cases op <;> simp only [Comparison.symbol] <;> repeat rw [Text.ofString_ofList]
    all_goals exact (rfl : run _ _ = _)
  have hbody : Spells ("& other) const \x7b return mask_ " ++ (op.symbol ++ (" other.mask_; \x7d" ++
      ['\n'])))
      [.mark "&", .word "other", .mark ")", .word "const", .mark "\x7b", .word "return",
        .word "mask_", .mark op.symbol, .word "other", .mark ".", .word "mask_", .mark ";",
        .mark "\x7d"] := by
    cases op <;> simp only [Comparison.symbol] <;> repeat rw [Text.ofString_ofList]
    all_goals exact (rfl : run _ _ = _)
  have htype := hbody.word h ((ends_fixed rfl rfl).append _)
  simpa only [lines, tokens, Text.unlines_cons, Text.unlines_nil, List.append_assoc,
    List.cons_append, List.nil_append] using hopen.append htype

theorem spells_assembler (h : IsWhole type) :
    Spells (Text.unlines (assembler type).lines) (assembler type).tokens := by
  have hopen : Spells "    " [] := Spells.spaces (by decide)
  have hclose : Spells (" Assemble() const;" ++ ['\n'])
      [.word "Assemble", .mark "(", .mark ")", .word "const", .mark ";"] := by
    repeat rw [Text.ofString_ofList]
    exact (rfl : run _ _ = _)
  simpa only [lines, tokens, Text.unlines_cons, Text.unlines_nil, List.append_assoc,
    List.cons_append, List.nil_append] using
    hopen.append (hclose.word h ((ends_fixed rfl rfl).append _))

theorem spells_maskField : Spells (Text.unlines maskField.lines) maskField.tokens := by
  simp only [lines, tokens, Text.unlines_cons, Text.unlines_nil]
  repeat rw [Text.ofString_ofList]
  exact (rfl : run _ _ = _)

theorem IsSound.spells (h : m.IsSound) (hcomment : m.KeepsComment) :
    Spells (Text.unlines m.lines) m.tokens := by
  cases m with
  | bitConstant accessor bit => exact spells_bitConstant h bit
  | setter accessor symbol => exact spells_setter h hcomment
  | getter accessor => exact spells_getter h
  | maskGetter => exact spells_maskGetter
  | comparison op type => exact spells_comparison op (isWhole_of_isPascal h)
  | assembler type => exact spells_assembler (isWhole_of_isPascal h)
  | maskField => exact spells_maskField

/-! ## Reading -/

theorem isName_of_cons {c : Char} {t : Text} (hdigit : c.isDigit = false) (hs : c ≠ 's') :
    Reader.IsName (c :: t) := by
  constructor
  · rw [Text.ofString_eq_toList]
    intro h
    exact hs (List.cons.inj h).1
  · simp [number?, hdigit]

theorem isName_bitName (accessor : Text) : Reader.IsName (bitName accessor) := by
  have h : bitName accessor = 'k' :: (accessor ++ "Bit") := by
    rw [bitName, Text.ofString_eq_toList]
    rfl
  rw [h]
  exact isName_of_cons (by decide) (by decide)

theorem isName_getterName (accessor : Text) : Reader.IsName (getterName accessor) := by
  have h : getterName accessor = 'G' :: 'e' :: 't' :: accessor := by
    rw [getterName, Text.ofString_eq_toList]
    rfl
  rw [h]
  exact isName_of_cons (by decide) (by decide)

theorem isName_fixed {s : String} {c : Char} {t : Text} (h : s.toList = c :: t)
    (hdigit : c.isDigit = false) (hs : c ≠ 's') : Reader.IsName s := by
  rw [Text.ofString_eq_toList, h]
  exact isName_of_cons hdigit hs

theorem isName_mask : Reader.IsName "mask_" := isName_fixed rfl (by decide) (by decide)

theorem number?_decimal (n : Nat) : number? (Text.decimal n) = some n := by
  have hdigits : (Text.decimal n).all Char.isDigit = true :=
    List.all_eq_true.2 fun _ hc => Text.isDigit_of_mem_decimal hc
  rw [number?, if_pos ⟨Nat.toDigits_ne_nil, hdigits⟩, Text.decimal, Nat.ofDigitChars_ten_toDigits]

theorem number?_zero : number? "0" = some 0 := by
  rw [Text.ofString_eq_toList]
  decide

theorem decimal_ne_std (n : Nat) : Text.decimal n ≠ "std" := by
  intro h
  have hs : 's' ∈ Text.decimal n := by
    rw [h, Text.ofString_eq_toList]
    decide
  exact absurd (Text.isDigit_of_mem_decimal hs) (by decide)

theorem reads_bitConstant (accessor : Text) (bit : Nat) (rest : List Token) :
    Reader.member ((bitConstant accessor bit).tokens ++ rest) =
      some ((bitConstant accessor bit).asCpp, rest) := by
  have hone : number? "1" = some 1 := by
    rw [Text.ofString_eq_toList]
    decide
  have hbit : Reader.operand (.word (Text.decimal bit) :: .mark ";" :: rest) =
      some (.number bit, .mark ";" :: rest) :=
    Reader.operand_number (decimal_ne_std bit) (number?_decimal bit)
  exact Reader.member_constant (Reader.ctype_uint64 _)
    (Reader.expr_of_words (Reader.operand_conversion hone) (by simp [Operator.ofMark?]) hbit)

theorem reads_setter (accessor symbol : Text) (rest : List Token) :
    Reader.member ((setter accessor symbol).tokens ++ rest) =
      some ((setter accessor symbol).asCpp, rest) := by
  have henabled : Reader.IsName "enabled" := isName_fixed rfl (by decide) (by decide)
  have hbit := isName_bitName accessor
  have hon : ∀ rest, Reader.assignment (.word "mask_" :: .mark "|=" :: .word (bitName accessor) ::
      .mark ";" :: rest) = some (⟨["mask_"], .bitOr, .name [bitName accessor]⟩, rest) :=
    fun rest => Reader.assignment_of (Reader.target_name (by simp)) (by simp [AssignOp.ofMark?])
      (Reader.expr_name hbit (.inr rfl))
  have hoff : ∀ rest, Reader.assignment (.word "mask_" :: .mark "&=" :: .mark "~" ::
      .word (bitName accessor) :: .mark ";" :: rest) =
        some (⟨["mask_"], .bitAnd, .complement (.name [bitName accessor])⟩, rest) := by
    intro rest
    have hname : Reader.operand (.word (bitName accessor) :: .mark ";" :: rest) =
        some (.name [bitName accessor], .mark ";" :: rest) :=
      Reader.operand_name hbit (by simp) (by simp)
    exact Reader.assignment_of (Reader.target_name (by simp)) (by simp [AssignOp.ofMark?])
      (Reader.binary_of_part (Reader.factor_complement hname) (by simp [Operator.ofMark?]))
  have hbody := Reader.stmt_branch_else (Reader.expr_name henabled (.inl rfl))
    (Reader.block_of (hon _)) (Reader.block_of (hoff (.mark "\x7d" :: .mark "\x7d" :: rest)))
  have hname : setterName accessor ≠ "operator" := by
    simp [setterName, Text.ofString_eq_toList]
  simp only [tokens, List.cons_append, List.nil_append]
  exact Reader.member_function (by simp [Reader.label]) (by simp)
    (Reader.function_of (Reader.ctype_void _) (Reader.functionName_word hname)
      (Reader.parameters_bool "enabled") (Reader.body_of (Reader.many_one (by simp) hbody)))

theorem reads_getter (accessor : Text) (rest : List Token) :
    Reader.member ((getter accessor).tokens ++ rest) = some ((getter accessor).asCpp, rest) := by
  have hzero : Reader.operand (.word "0" :: .mark ";" :: .mark "\x7d" :: rest) =
      some (.number 0, .mark ";" :: .mark "\x7d" :: rest) :=
    Reader.operand_number (by simp) number?_zero
  have hleft : Reader.factor (.mark "(" :: .word "mask_" :: .mark "&" ::
      .word (bitName accessor) :: .mark ")" :: .mark "!=" :: .word "0" :: .mark ";" ::
      .mark "\x7d" :: rest) =
        some (.binary .bitAnd (.name ["mask_"]) (.name [bitName accessor]),
          .mark "!=" :: .word "0" :: .mark ";" :: .mark "\x7d" :: rest) :=
    Reader.factor_parenthesised (Reader.binary_of_parts
      (Reader.operand_name isName_mask (by simp) (by simp)) (by simp [Operator.ofMark?])
      (Reader.operand_name (isName_bitName accessor) (by simp) (by simp)))
  have hvalue : Reader.expr _ = some (.binary .notEqual _ _, _) :=
    Reader.binary_of_parts hleft (by simp [Operator.ofMark?]) (Reader.factor_word.trans hzero)
  have hname : getterName accessor ≠ "operator" := by
    simp [getterName, Text.ofString_eq_toList]
  simp only [tokens, List.cons_append, List.nil_append]
  exact Reader.member_function (by simp [Reader.label]) (by simp)
    (Reader.function_const_of (Reader.ctype_bool _) (Reader.functionName_word hname)
      Reader.parameters_none
      (Reader.body_of (Reader.many_one (by simp) (Reader.stmt_give hvalue))))

theorem reads_maskGetter (rest : List Token) :
    Reader.member (maskGetter.tokens ++ rest) = some (maskGetter.asCpp, rest) := by
  have hbody : Reader.stmt (.word "return" :: .word "mask_" :: .mark ";" :: .mark "\x7d" :: rest) =
      some (.give (.name ["mask_"]), .mark "\x7d" :: rest) :=
    Reader.stmt_give (Reader.expr_name isName_mask (.inr rfl))
  simp only [tokens, List.cons_append, List.nil_append]
  exact Reader.member_function (by simp [Reader.label]) (by simp)
    (Reader.function_const_of (Reader.ctype_uint64 _) (Reader.functionName_word (by simp))
      Reader.parameters_none (Reader.body_of (Reader.many_one (by simp) hbody)))

theorem reads_comparison (op : Comparison) (htype : Reader.IsPlain type) (rest : List Token) :
    Reader.member ((comparison op type).tokens ++ rest) =
      some ((comparison op type).asCpp, rest) := by
  have hother : Reader.IsName "other" := isName_fixed rfl (by decide) (by decide)
  have hop : Operator.ofMark? op.symbol = some op.asCpp := by
    cases op <;> simp [Comparison.symbol, Operator.ofMark?, Comparison.asCpp]
  have hleft : ∀ rest, Reader.operand (.word "mask_" :: .mark op.symbol :: rest) =
      some (.name ["mask_"], .mark op.symbol :: rest) := by
    intro rest
    cases op <;> exact Reader.operand_name isName_mask (by simp [Comparison.symbol])
      (by simp [Comparison.symbol])
  have hright : Reader.operand (.word "other" :: .mark "." :: .word "mask_" :: .mark ";" ::
      .mark "\x7d" :: rest) =
        some (.name ["other", "mask_"], .mark ";" :: .mark "\x7d" :: rest) :=
    Reader.operand_field hother "mask_"
  have hbody := Reader.stmt_give (Reader.expr_of_words (hleft _) hop hright)
  simp only [tokens, List.cons_append, List.nil_append]
  exact Reader.member_function (by simp [Reader.label]) (by simp)
    (Reader.function_const_of (Reader.ctype_bool _) (Reader.functionName_operator op.symbol)
      (Reader.parameters_reference htype "other")
      (Reader.body_of (Reader.many_one (by simp) hbody)))

theorem reads_assembler (htype : Reader.IsPlain type) (rest : List Token) :
    Reader.member ((assembler type).tokens ++ rest) = some ((assembler type).asCpp, rest) := by
  have hstatic : type ≠ "static" := by
    intro h
    simp [Reader.IsPlain, h] at htype
  simp only [tokens, List.cons_append, List.nil_append]
  exact Reader.member_function (by simp [Reader.label]) (by simp [hstatic])
    (Reader.function_const_of (Reader.ctype_named htype _) (Reader.functionName_word (by simp))
      Reader.parameters_none Reader.body_none)

theorem reads_maskField (rest : List Token) :
    Reader.member (maskField.tokens ++ rest) = some (maskField.asCpp, rest) := by
  have hzero : Reader.operand (.word "0" :: .mark "\x7d" :: .mark ";" :: rest) =
      some (.number 0, .mark "\x7d" :: .mark ";" :: rest) :=
    Reader.operand_number (by simp) number?_zero
  simp only [tokens, List.cons_append, List.nil_append]
  exact Reader.member_field (Reader.ctype_uint64 _)
    (Reader.expr_of_word hzero (by simp [Operator.ofMark?])) (by simp [Reader.label]) (by simp)

/-- A name in Pascal case is no keyword. -/
theorem isPlain_of_isPascal (h : IsPascal type) : Reader.IsPlain type := by
  obtain ⟨c, t, rfl, hc, -⟩ := h
  rw [Reader.IsPlain]
  simp only [Text.ofString_eq_toList, List.mem_cons, List.not_mem_nil, or_false]
  rintro (h | h | h | h | h | h | h | h)
  all_goals
    obtain rfl := (List.cons.inj h).1
    exact absurd hc (by decide)

theorem IsSound.reads (h : m.IsSound) (rest : List Token) :
    Reader.member (m.tokens ++ rest) = some (m.asCpp, rest) := by
  cases m with
  | bitConstant accessor bit => exact reads_bitConstant accessor bit rest
  | setter accessor symbol => exact reads_setter accessor symbol rest
  | getter accessor => exact reads_getter accessor rest
  | maskGetter => exact reads_maskGetter rest
  | comparison op type => exact reads_comparison op (isPlain_of_isPascal h) rest
  | assembler type => exact reads_assembler (isPlain_of_isPascal h) rest
  | maskField => exact reads_maskField rest

end Member

end ShaderVariants.Code
