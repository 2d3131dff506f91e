import ShaderVariants.Document.Outline
import ShaderVariants.Document.Token

/-!
# Reading outlines

The grammar of TOML 1.1 on tokens. A reader takes tokens to what it read and the
tokens behind it. Lists of things are read with a bound that the number of
tokens gives, and values with a bound on how deep they nest. A missing word
breaks no rule here: the missing parts of a key, the missing value of an
assignment in a line of its own or right before a closing brace, and a header
that breaks off where a part of its key should stand are left to those who read
the words.
-/

namespace ShaderVariants.Document

/-- The deepest that arrays and inline tables nest. -/
def nestingLimit : Nat := 80

namespace Token

/-- The token is made of blanks. -/
def isBlank : Token → Bool
  | blank _ => true
  | _ => false

/-- The token stands for nothing between two words: blanks, a newline or a comment. -/
def isGap : Token → Bool
  | blank _ | newline | comment => true
  | _ => false

/-- The token is the end of a line or a comment before it. -/
def endsLine : Token → Bool
  | newline | comment => true
  | _ => false

/-- A key can start with the token; before a dot or an equals sign its first part is missing. -/
def startsKey : Token → Bool
  | word _ | dot | equals => true
  | _ => false

end Token

/-- What follows a token that has to come first. -/
def expectToken? (token : Token) : List Token → Option (List Token)
  | [] => none
  | other :: tokens => if other = token then some tokens else none

/-- The tokens behind the blanks at the start. -/
def skipBlanks (tokens : List Token) : List Token := tokens.dropWhile Token.isBlank

/-- The tokens behind blanks, newlines and comments. -/
def skipGaps (tokens : List Token) : List Token := tokens.dropWhile Token.isGap

/-! ## Keys -/

/-- Reads the rest of a key, where a part of it comes next or a dot, and the blanks in it and
    behind it. -/
def keyRest : (needsPart : Bool) → List Token → Key × List Token
  | needsPart, .blank _ :: tokens => keyRest needsPart tokens
  | true, .word w :: tokens =>
    let (parts, rest) := keyRest false tokens
    (w :: parts, rest)
  | true, .dot :: tokens =>
    let (parts, rest) := keyRest true tokens
    (.missing :: parts, rest)
  | false, .dot :: tokens => keyRest true tokens
  | true, tokens => ([.missing], tokens)
  | false, tokens => ([], tokens)

/-- Reads a key and the blanks around it. -/
def key (tokens : List Token) : Key × List Token := keyRest true tokens

/-- Reads a key where one can start. -/
def key? : List Token → Option (Key × List Token)
  | [] => none
  | token :: tokens => if token.startsKey then some (key (token :: tokens)) else none

/-- The key breaks off where a part of it should stand. -/
def Key.isBroken (key : Key) : Bool := key.getLast? = some .missing

/-! ## Values -/

/-- Joins the words without quotes, the dots and the blanks between words that follow each other
    into one text. -/
def joined : List Token → Text × List Token
  | .dot :: tokens =>
    let (text, rest) := joined tokens
    ('.' :: text, rest)
  | .word (.bare part) :: tokens =>
    let (text, rest) := joined tokens
    (part ++ text, rest)
  | .blank blanks :: .word (.bare part) :: tokens =>
    let (text, rest) := joined tokens
    (blanks ++ part ++ text, rest)
  | tokens => ([], tokens)

/-- Reads a scalar. Points, and the blank between a date and a time, do not end it. -/
def scalarWord? : List Token → Option (Word × List Token)
  | .word (.quoted style body) :: tokens => some (.quoted style body, tokens)
  | tokens =>
    match joined tokens with
    | ([], _) => none
    | (text, rest) => some (.bare text, rest)

/-- Reads at most `bound` items with commas between them, to the closing token. -/
def items? {α : Type} (item? : List Token → Option (α × List Token)) (close : Token) :
    Nat → List Token → Option (List α × List Token)
  | 0, _ => none
  | bound + 1, tokens =>
    let tokens := skipGaps tokens
    match expectToken? close tokens with
    | some rest => some ([], rest)
    | none => do
      let (a, rest) ← item? tokens
      match skipGaps rest with
      | .comma :: rest =>
        let (l, rest) ← items? item? close bound rest
        some (a :: l, rest)
      | rest =>
        let rest ← expectToken? close rest
        some ([a], rest)

/-- Reads a value, which is missing where the assignment ends in its place. -/
def valueBefore? (isEnd : Option Token → Bool)
    (value? : List Token → Option (Expression × List Token)) (tokens : List Token) :
    Option (Expression × List Token) :=
  if isEnd tokens.head? then some (.missing, tokens) else value? tokens

/-- Reads an assignment between braces. Its value, and the equals sign with it, may be missing
    if the braces close in their place. -/
def inlineAssignment? (value? : List Token → Option (Expression × List Token))
    (tokens : List Token) : Option ((Key × Expression) × List Token) := do
  let (key, rest) ← key? tokens
  let rest := skipGaps rest
  let rest ← if rest.head? = some .closeBrace then some rest else expectToken? .equals rest
  let (v, rest) ← valueBefore? (· == some .closeBrace) value? (skipGaps rest)
  some ((key, v), rest)

/-- Reads a value whose arrays and inline tables nest at most `depth` deep and hold at most
    `bound` items each. Within them newlines and comments may stand where blanks may, but not
    inside a key. -/
def value? (bound : Nat) : (depth : Nat) → List Token → Option (Expression × List Token)
  | depth + 1, .openBracket :: rest => do
    let (l, rest) ← items? (value? bound depth) .closeBracket bound rest
    some (.array l, rest)
  | depth + 1, .openBrace :: rest => do
    let (l, rest) ← items? (inlineAssignment? (value? bound depth)) .closeBrace bound rest
    some (.table l, rest)
  | _, tokens => (scalarWord? tokens).map fun (w, rest) => (.word w, rest)

/-! ## Statements -/

/-- Reads an assignment in a line of its own, at whose end the value may be missing. -/
def assignment? (bound : Nat) (tokens : List Token) : Option (Statement × List Token) := do
  let (key, rest) ← key? tokens
  let rest ← expectToken? .equals rest
  let value? := value? bound nestingLimit
  let (v, rest) ← valueBefore? (·.all Token.endsLine) value? (skipBlanks rest)
  some (.assign key v, rest)

/-- Reads the key of a header and the closing brackets. A broken key may stand without brackets,
    and then takes the rest of its line along. -/
def header? (close tokens : List Token) : Option (Key × List Token) :=
  let (key, rest) := key tokens
  match close.isPrefixOf? rest with
  | some rest => some (key, rest)
  | none =>
    if key.isBroken ∧ rest.head? ≠ some .closeBracket then
      some (key, rest.dropWhile (!·.endsLine))
    else none

/-- Reads one statement, whose arrays and inline tables hold at most `bound` items each. -/
def statement? (bound : Nat) : List Token → Option (Statement × List Token)
  | .openBracket :: .openBracket :: tokens =>
    (header? [.closeBracket, .closeBracket] tokens).map fun (key, rest) => (.openItem key, rest)
  | .openBracket :: tokens =>
    (header? [.closeBracket] tokens).map fun (key, rest) => (.openTable key, rest)
  | tokens => assignment? bound tokens

/-- Reads at most `count` statements, to the end of the tokens. Each ends its line. -/
def statements? (bound : Nat) : (count : Nat) → List Token → Option Outline
  | 0, _ => none
  | count + 1, tokens =>
    match skipGaps tokens with
    | [] => some []
    | tokens => do
      let (s, rest) ← statement? bound tokens
      let rest := skipBlanks rest
      if rest.head?.all Token.endsLine then (statements? bound count rest).map (s :: ·) else none

/-! ## Texts -/

/-- The text without the mark that may stand before a document. -/
def dropByteOrderMark : Text → Text
  | '\uFEFF' :: t => t
  | t => t

/-- The outline of a text. Each statement and each item of a list takes a token, so their number
    stays below the bound. -/
def outline? (t : Text) : Option Outline := do
  let tokens ← Token.ofText? (dropByteOrderMark t)
  let bound := tokens.length + 1
  statements? bound bound tokens

end ShaderVariants.Document
