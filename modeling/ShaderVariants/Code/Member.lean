import ShaderVariants.Text.Basic

/-!
# Members of the configuration class

The generated class keeps the mask of a variant and reads and writes it through
one constant, one setter and one getter per symbol.
-/

namespace ShaderVariants.Code

/-- A comparison that the class has. -/
inductive Comparison where
  | less
  | equal
  | notEqual
deriving DecidableEq, Repr

namespace Comparison

/-- All comparisons, in the order of their declarations. -/
def all : List Comparison := [less, equal, notEqual]

/-- The operator of the comparison. -/
def symbol : Comparison → Text
  | less => "<"
  | equal => "=="
  | notEqual => "!="

end Comparison

/-- A member of the class. -/
inductive Member where
  | bitConstant (accessor : Text) (bit : Nat)
  | setter (accessor symbol : Text)
  | getter (accessor : Text)
  | maskGetter
  | comparison (op : Comparison) (configType : Text)
  | assembler (sourcesType : Text)
  | maskField
deriving DecidableEq, Repr

namespace Member

/-- The name of the constant with a symbol's bit. -/
def bitName (accessor : Text) : Text := "k" ++ accessor ++ "Bit"

/-- The name of the function that writes a symbol's bit. -/
def setterName (accessor : Text) : Text := "Set" ++ accessor

/-- The name of the function that reads a symbol's bit. -/
def getterName (accessor : Text) : Text := "Get" ++ accessor

/-- The lines of the declaration. -/
def lines : Member → List Text
  | bitConstant accessor bit =>
    ["    static constexpr std::uint64_t " ++ bitName accessor ++
      " = std::uint64_t \x7b 1 \x7d << " ++ Text.decimal bit ++ ";"]
  | setter accessor symbol =>
    ["    /** Toggle `#define " ++ symbol ++ "` */",
      "    void " ++ setterName accessor ++ "(bool enabled)",
      "    \x7b",
      "        if (enabled) \x7b",
      "            mask_ |= " ++ bitName accessor ++ ";",
      "        \x7d else \x7b",
      "            mask_ &= ~" ++ bitName accessor ++ ";",
      "        \x7d",
      "    \x7d"]
  | getter accessor =>
    ["    bool " ++ getterName accessor ++ "() const \x7b return (mask_ & " ++ bitName accessor ++
      ") != 0; \x7d"]
  | maskGetter => ["    std::uint64_t GetMask() const \x7b return mask_; \x7d"]
  | comparison op configType =>
    ["    bool operator" ++ op.symbol ++ "(const " ++ configType ++
      "& other) const \x7b return mask_ " ++ op.symbol ++ " other.mask_; \x7d"]
  | assembler sourcesType => ["    " ++ sourcesType ++ " Assemble() const;"]
  | maskField => ["    std::uint64_t mask_ \x7b 0 \x7d;"]

end Member

end ShaderVariants.Code
