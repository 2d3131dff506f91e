import ShaderVariants.Document.Word

/-!
# Tokens of a document

A document is cut into tokens: words, blanks, newlines, comments and single
signs. Quotes start a string only where a token may start, so a word without
quotes may hold them. What a word means is of no concern here.
-/

namespace ShaderVariants.Document

/-- A token of a document. -/
inductive Token where
  | dot
  | equals
  | comma
  | openBracket
  | closeBracket
  | openBrace
  | closeBrace
  | blank (text : Text)
  | newline
  /-- A comment, up to the end of its line. -/
  | comment
  | word (w : Word)
deriving DecidableEq, Repr

namespace Token

/-- The character can go on a word without quotes. -/
def isWordPart (c : Char) : Bool :=
  !(isBlank c || ['.', '=', ',', '[', ']', '\x7b', '\x7d', '#', '\r', '\n'].contains c)

/-- The character can stand in a comment. -/
def isCommentPart (c : Char) : Bool := c == '\t' || !isAsciiControl c

/-- The character goes on the line that it stands in. -/
def isLinePart (c : Char) : Bool := c != '\r' && c != '\n'

/-- The comment behind its sign, and what follows it. -/
def comment? (t : Text) : Option (Token × Text) :=
  if (t.takeWhile isLinePart).all isCommentPart then some (comment, t.dropWhile isLinePart)
  else none

/-- The first token of a text that starts with `c`, and what follows it. A carriage return
    stands before a newline only. -/
def first? (c : Char) (t : Text) : Option (Token × Text) :=
  match c with
  | '.' => some (dot, t)
  | '=' => some (equals, t)
  | ',' => some (comma, t)
  | '[' => some (openBracket, t)
  | ']' => some (closeBracket, t)
  | '\x7b' => some (openBrace, t)
  | '\x7d' => some (closeBrace, t)
  | '\n' => some (newline, t)
  | '\r' => if t.head? = some '\n' then some (newline, t.tail) else none
  | '#' => comment? t
  | _ =>
    if isBlank c then some (blank (c :: t.takeWhile isBlank), t.dropWhile isBlank)
    else
      match QuoteStyle.opening? (c :: t) with
      | some (style, t) =>
        let (body, rest) := style.split false t
        some (word (.quoted style body), rest)
      | none => some (word (.bare (c :: t.takeWhile isWordPart)), t.dropWhile isWordPart)

/-- What follows the first token is shorter than the text. -/
theorem length_of_first? {c : Char} {t rest : Text} {token : Token}
    (h : first? c t = some (token, rest)) : rest.length < (c :: t).length := by
  have hdrop (p : Char → Bool) : (t.dropWhile p).length < (c :: t).length :=
    Nat.lt_succ_of_le (List.dropWhile_sublist p).length_le
  unfold first? at h
  split at h
  case h_9 =>
    split at h <;> cases h
    simp only [List.length_tail, List.length_cons]
    omega
  case h_10 =>
    unfold comment? at h
    split at h <;> cases h
    exact hdrop _
  case h_11 =>
    split at h
    · cases h
      exact hdrop _
    split at h
    · next style t' ht =>
      cases h
      exact Nat.lt_of_le_of_lt (style.length_split_le false t') (QuoteStyle.length_of_opening? ht)
    · cases h
      exact hdrop _
  all_goals cases h; simp

/-- The tokens of a text. -/
def ofText? : Text → Option (List Token)
  | [] => some []
  | c :: t =>
    match _h : first? c t with
    | none => none
    | some (token, rest) => (ofText? rest).map (token :: ·)
termination_by t => t.length
decreasing_by exact length_of_first? _h

end Token

end ShaderVariants.Document
