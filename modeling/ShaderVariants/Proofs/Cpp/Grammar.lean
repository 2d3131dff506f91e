import ShaderVariants.Proofs.Cpp.Token

/-!
# A fragment of C++

The syntax of what a small class and one function need: 64-bit words, truth values,
strings and structs of strings. An expression has one operator, whose operands may
have one in parentheses, so no precedence comes in. A block behind `if` or `else`
holds one assignment.

A reader takes its part from the front of a list of tokens, or fails.
-/

namespace ShaderVariants.Cpp

inductive CType where
  | void
  | bool
  | uint64
  | string
  | named (name : Text)
deriving DecidableEq, Repr

inductive Operator where
  | shiftLeft
  | bitAnd
  | less
  | equal
  | notEqual
deriving DecidableEq, Repr

inductive Expr where
  | number (n : Nat)
  /-- Adjacent string literals, as one. -/
  | text (t : Text)
  /-- A variable, or a field of one. -/
  | name (path : List Text)
  | call (function : Text)
  | uint64 (e : Expr)
  | complement (e : Expr)
  | binary (op : Operator) (left right : Expr)
deriving DecidableEq, Repr

/-- How an assignment changes its target. -/
inductive AssignOp where
  | set
  | append
  | bitOr
  | bitAnd
deriving DecidableEq, Repr

/-- An assignment to a variable or to a field of one. -/
structure Assignment where
  target : List Text
  op : AssignOp
  value : Expr
deriving DecidableEq, Repr

inductive Stmt where
  | assign (a : Assignment)
  | branch (condition : Expr) (yes : Assignment) (no : Option Assignment)
  /-- A variable with the initial values of its type. -/
  | declare (type : CType) (name : Text)
  | give (value : Expr)
deriving DecidableEq, Repr

/-- A member of a struct or a class. -/
inductive Member where
  | label (access : Text)
  | constant (type : CType) (name : Text) (value : Expr)
  | field (type : CType) (name : Text) (value : Option Expr)
  /-- A function with at most one parameter. Without a body it is only declared. -/
  | function (result : CType) (name : Text) (parameter : Option (CType × Text))
      (body : Option (List Stmt))
  /-- A constructor without parameters. -/
  | constructor (name : Text) (body : List Stmt)
deriving DecidableEq, Repr

structure Record where
  name : Text
  members : List Member
deriving DecidableEq, Repr

/-- A member function that is defined outside its class. -/
structure Definition where
  result : CType
  record : Text
  name : Text
  body : List Stmt
deriving DecidableEq, Repr

/-! ## Readers -/

/-- Takes its part from the front of the tokens. -/
abbrev Reader := StateT (List Token) Option

namespace Reader

variable {α β : Type}

@[simp] theorem bind_apply (reader : Reader α) (next : α → Reader β) (tokens : List Token) :
    (reader >>= next) tokens = (reader tokens).bind fun r => next r.1 r.2 := rfl

@[simp] theorem pure_apply (a : α) (tokens : List Token) :
    (pure a : Reader α) tokens = some (a, tokens) := rfl

@[simp] theorem map_apply (f : α → β) (reader : Reader α) (tokens : List Token) :
    (f <$> reader) tokens = (reader tokens).map fun r => (f r.1, r.2) := by
  rw [← bind_pure_comp, bind_apply]
  cases reader tokens <;> rfl

@[simp] theorem failure_apply (tokens : List Token) : (failure : Reader α) tokens = none := rfl

def token (t : Token) : Reader Unit
  | u :: rest => if u = t then some ((), rest) else none
  | [] => none

def keyword (w : Text) : Reader Unit := token (.word w)

def mark (m : Text) : Reader Unit := token (.mark m)

@[simp] theorem keyword_word (w v : Text) (rest : List Token) :
    keyword w (.word v :: rest) = if v = w then some ((), rest) else none := by
  simp [keyword, token]

@[simp] theorem keyword_mark (w m : Text) (rest : List Token) :
    keyword w (.mark m :: rest) = none := by
  simp [keyword, token]

@[simp] theorem mark_mark (m n : Text) (rest : List Token) :
    mark m (.mark n :: rest) = if n = m then some ((), rest) else none := by
  simp [mark, token]

@[simp] theorem mark_word (m w : Text) (rest : List Token) : mark m (.word w :: rest) = none := by
  simp [mark, token]

def word : Reader Text
  | .word w :: rest => some (w, rest)
  | _ => none

def anyMark : Reader Text
  | .mark m :: rest => some (m, rest)
  | _ => none

@[simp] theorem word_word (w : Text) (rest : List Token) :
    word (.word w :: rest) = some (w, rest) := rfl

@[simp] theorem word_mark (m : Text) (rest : List Token) : word (.mark m :: rest) = none := rfl

@[simp] theorem anyMark_mark (m : Text) (rest : List Token) :
    anyMark (.mark m :: rest) = some (m, rest) := rfl

@[simp] theorem anyMark_word (w : Text) (rest : List Token) :
    anyMark (.word w :: rest) = none := rfl

/-- Takes the first alternative that can be taken. -/
def either (first second : Reader α) : Reader α := fun tokens =>
  (first tokens).or (second tokens)

@[simp] theorem either_apply (first second : Reader α) (tokens : List Token) :
    either first second tokens = (first tokens).or (second tokens) := rfl

/-- Items up to a closing brace, at most `fuel` of them. -/
def manyUpTo (item : Reader α) : Nat → Reader (List α)
  | 0 => fun _ => none
  | fuel + 1 => either (do mark "\x7d"; pure []) do
      let a ← item
      let rest ← manyUpTo item fuel
      pure (a :: rest)

/-- Items up to a closing brace. There are no more items than tokens. -/
def many (item : Reader α) : Reader (List α) := fun tokens =>
  manyUpTo item (tokens.length + 1) tokens

/-- The literals in front, as one text. -/
def literals : List Token → Text × List Token
  | .literal value :: rest => (value ++ (literals rest).1, (literals rest).2)
  | rest => ([], rest)

/-- Takes one string literal or several adjacent ones. -/
def text : Reader Text
  | .literal value :: rest => some (value ++ (literals rest).1, (literals rest).2)
  | _ => none

@[simp] theorem text_word (w : Text) (rest : List Token) : text (.word w :: rest) = none := rfl

@[simp] theorem text_mark (m : Text) (rest : List Token) : text (.mark m :: rest) = none := rfl

end Reader

open Reader

/-- The number that a word is in decimal digits. -/
def number? (w : Text) : Option Nat :=
  if w ≠ [] ∧ w.all Char.isDigit then some (Nat.ofDigitChars 10 w 0) else none

def Reader.number : Reader Expr := do
  let w ← word
  match number? w with
  | some n => pure (.number n)
  | none => failure

def CType.ofKeyword? (w : Text) : Option CType :=
  if w = "void" then some .void else if w = "bool" then some .bool else none

def CType.ofStandard? (w : Text) : Option CType :=
  if w = "uint64_t" then some .uint64 else if w = "string" then some .string else none

def Reader.ctype : Reader CType := do
  let w ← word
  if w = "std" then
    mark "::"
    let name ← word
    match CType.ofStandard? name with
    | some type => pure type
    | none => failure
  else
    match CType.ofKeyword? w with
    | some type => pure type
    | none => pure (.named w)

def Operator.ofMark? (m : Text) : Option Operator :=
  if m = "<<" then some .shiftLeft
  else if m = "&" then some .bitAnd
  else if m = "<" then some .less
  else if m = "==" then some .equal
  else if m = "!=" then some .notEqual
  else none

/-- Reads a name, a field of a name or a call. -/
def Reader.nameOrCall : Reader Expr := do
  let w ← word
  either (do mark "."; let field ← word; pure (.name [w, field])) <|
    either (do mark "("; mark ")"; pure (.call w)) (pure (.name [w]))

def Reader.conversion : Reader Expr := do
  keyword "std"
  mark "::"
  keyword "uint64_t"
  mark "\x7b"
  let e ← number
  mark "\x7d"
  pure (.uint64 e)

/-- Reads an expression without an operator. -/
def Reader.operand : Reader Expr :=
  either (do let t ← text; pure (.text t)) (either conversion (either number nameOrCall))

/-- Reads an expression with at most one operator between two operands. -/
def Reader.binary (part : Reader Expr) : Reader Expr := do
  let left ← part
  either (do
    let m ← anyMark
    match Operator.ofMark? m with
    | some op =>
      let right ← part
      pure (.binary op left right)
    | none => failure) (pure left)

/-- Reads an operand, a complement or an expression in parentheses. -/
def Reader.factor : Reader Expr :=
  either (do mark "~"; let e ← operand; pure (.complement e)) <|
    either (do mark "("; let e ← Reader.binary operand; mark ")"; pure e) operand

def Reader.expr : Reader Expr := Reader.binary factor

def AssignOp.ofMark? (m : Text) : Option AssignOp :=
  if m = "=" then some .set
  else if m = "+=" then some .append
  else if m = "|=" then some .bitOr
  else if m = "&=" then some .bitAnd
  else none

def Reader.target : Reader (List Text) := do
  let w ← word
  either (do mark "."; let field ← word; pure [w, field]) (pure [w])

def Reader.assignment : Reader Assignment := do
  let target ← target
  let m ← anyMark
  match AssignOp.ofMark? m with
  | some op =>
    let value ← expr
    mark ";"
    pure ⟨target, op, value⟩
  | none => failure

def Reader.block : Reader Assignment := do
  mark "\x7b"
  let a ← assignment
  mark "\x7d"
  pure a

def Reader.branch : Reader Stmt := do
  keyword "if"
  mark "("
  let condition ← expr
  mark ")"
  let yes ← block
  let no ← either (do keyword "else"; let a ← block; pure (some a)) (pure none)
  pure (.branch condition yes no)

/-- Reads the end of a function. -/
def Reader.give : Reader Stmt := do
  keyword "return"
  let value ← expr
  mark ";"
  pure (.give value)

def Reader.declaration : Reader Stmt := do
  let type ← ctype
  let name ← word
  mark "\x7b"
  mark "\x7d"
  mark ";"
  pure (.declare type name)

def Reader.stmt : Reader Stmt :=
  either branch <| either give <| either declaration do
    let a ← assignment
    pure (.assign a)

def Reader.label : Reader Member := do
  let w ← word
  mark ":"
  pure (.label w)

def Reader.constant : Reader Member := do
  keyword "static"
  keyword "constexpr"
  let type ← ctype
  let name ← word
  mark "="
  let value ← expr
  mark ";"
  pure (.constant type name value)

/-- Reads the name of a function, which may be an operator. -/
def Reader.functionName : Reader Text := do
  let w ← word
  if w = "operator" then
    let m ← anyMark
    pure (w ++ m)
  else pure w

/-- Reads the parameter of a function, by value or by reference. -/
def Reader.parameter : Reader (CType × Text) :=
  either
    (do
      keyword "const"
      let type ← ctype
      mark "&"
      let name ← word
      pure (type, name))
    (do
      let type ← ctype
      let name ← word
      pure (type, name))

/-- Reads the parameters of a function up to the end of their parentheses. -/
def Reader.parameters : Reader (Option (CType × Text)) :=
  either (do mark ")"; pure none) (do let p ← parameter; mark ")"; pure (some p))

/-- Reads the body of a function, or the end of its declaration. -/
def Reader.body : Reader (Option (List Stmt)) :=
  either (do mark ";"; pure none) (do mark "\x7b"; let b ← many stmt; pure (some b))

def Reader.function : Reader Member := do
  let result ← ctype
  let name ← functionName
  mark "("
  let parameter ← parameters
  either (keyword "const") (pure ())
  let body ← body
  pure (.function result name parameter body)

def Reader.field : Reader Member := do
  let type ← ctype
  let name ← word
  mark "\x7b"
  let value ← either (do mark "\x7d"; pure none) (do let e ← expr; mark "\x7d"; pure (some e))
  mark ";"
  pure (.field type name value)

def Reader.constructor : Reader Member := do
  let name ← word
  mark "("
  mark ")"
  mark "\x7b"
  let body ← many stmt
  pure (.constructor name body)

def Reader.member : Reader Member :=
  either label <| either constant <| either function <| either field constructor

def Reader.record (kind : Text) : Reader Record := do
  keyword kind
  let name ← word
  mark "\x7b"
  let members ← many member
  mark ";"
  pure ⟨name, members⟩

/-- Reads the definition of a member function that has no parameter. -/
def Reader.definition : Reader Definition := do
  let result ← ctype
  let record ← word
  mark "::"
  let name ← word
  mark "("
  mark ")"
  keyword "const"
  mark "\x7b"
  let body ← many stmt
  pure ⟨result, record, name, body⟩

/-- Takes words with `::` between them. -/
def Reader.path : Reader (List Text)
  | .word w :: .mark m :: rest =>
    if m = "::" then (path rest).map fun r => (w :: r.1, r.2) else some ([w], .mark m :: rest)
  | .word w :: rest => some ([w], rest)
  | _ => none

/-- Reads what may stand in a namespace, and the path of that namespace. -/
def Reader.scoped {α : Type} (content : Reader α) : Reader (List Text × α) :=
  either
    (do
      keyword "namespace"
      let path ← path
      mark "\x7b"
      let a ← content
      mark "\x7d"
      pure (path, a))
    (do let a ← content; pure ([], a))

/-- What a reader makes of a whole text. -/
def Reader.ofText? {α : Type} (reader : Reader α) (t : Text) : Option α := do
  match reader (← tokens? t) with
  | some (a, []) => some a
  | _ => none

end ShaderVariants.Cpp
