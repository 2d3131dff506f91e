import ShaderVariants.Text.Control

/-!
# TOML strings

The four kinds of TOML strings: between double or single quotes, and in one line
or in several. Escapes count between double quotes only. `QuoteStyle.split`
finds the end of a string, and `QuoteStyle.content?` reads the body between its
quotes.
-/

namespace ShaderVariants.Document

/-- A blank within a line. -/
def isBlank (c : Char) : Bool := c == ' ' || c == '\t'

/-- The value of a digit in bases up to sixteen. -/
def digitValue? (c : Char) : Option Nat :=
  let n := c.toNat
  if '0' ≤ c ∧ c ≤ '9' then some (n - 48)
  else if 'a' ≤ c ∧ c ≤ 'f' then some (n - 87)
  else if 'A' ≤ c ∧ c ≤ 'F' then some (n - 55)
  else none

/-- The character is a digit in a base. -/
def isDigitIn (base : Nat) (c : Char) : Bool := (digitValue? c).any (· < base)

/-- The number that digits stand for in a base. -/
def number (base : Nat) (digits : Text) : Nat :=
  digits.foldl (fun n c => n * base + (digitValue? c).getD 0) 0

/-! ## Escapes -/

/-- The character whose code is written in the first `count` digits. -/
def codedCharacter? (count : Nat) (t : Text) : Option Char :=
  let digits := t.take count
  let n := number 16 digits
  if digits.length = count ∧ digits.all (isDigitIn 16) ∧ n.isValidChar then some (Char.ofNat n)
  else none

/-- The character that an escape stands for and the number of characters behind the backslash
    that make it up. -/
def escape? : Text → Option (Char × Nat)
  | [] => none
  | c :: t =>
    match c with
    | 'b' => some ('\x08', 1)
    | 't' => some ('\t', 1)
    | 'n' => some ('\n', 1)
    | 'f' => some ('\x0c', 1)
    | 'r' => some ('\r', 1)
    | 'e' => some ('\x1b', 1)
    | '"' => some ('"', 1)
    | '\\' => some ('\\', 1)
    | 'x' => (codedCharacter? 2 t).map (·, 3)
    | 'u' => (codedCharacter? 4 t).map (·, 5)
    | 'U' => (codedCharacter? 8 t).map (·, 9)
    | _ => none

/-- The number of characters that a backslash at the end of a line skips: all blanks and
    newlines behind it. A carriage return stands before a newline only. -/
def continuation? (t : Text) : Option Nat :=
  let isGap (c : Char) : Bool := isBlank c || c == '\r'
  if (t.dropWhile isGap).head? = some '\n' then
    some (t.takeWhile fun c => isGap c || c == '\n').length
  else none

/-! ## Styles -/

/-- The kind of a string. -/
structure QuoteStyle where
  /-- The quotes are double, and backslashes start escapes. -/
  double : Bool
  /-- There are three quotes at either end, and newlines may stand between them. -/
  multiline : Bool
deriving DecidableEq, Repr

namespace QuoteStyle

/-- The quote, which stands once or three times at either end. -/
def quote (style : QuoteStyle) : Char := if style.double then '"' else '\''

/-- The style of the quotes at the start of a text, and what follows them. -/
def opening? : Text → Option (QuoteStyle × Text)
  | '"' :: '"' :: '"' :: t => some (⟨true, true⟩, t)
  | '\'' :: '\'' :: '\'' :: t => some (⟨false, true⟩, t)
  | '"' :: t => some (⟨true, false⟩, t)
  | '\'' :: t => some (⟨false, false⟩, t)
  | _ => none

/-- Puts a character in front of a body. -/
def push (c : Char) (found : Option Text × Text) : Option Text × Text :=
  (found.1.map (c :: ·), found.2)

/-- The body before the closing quotes, and what follows them. Without closing quotes there is
    no body, and the string goes on to the end of its line or of the text. Of a string of
    several lines, up to two quotes right before the closing ones are part of the body. A
    backslash that is not `escaped` takes the quote or the backslash behind it along. -/
def split (style : QuoteStyle) (escaped : Bool) : Text → Option Text × Text
  | [] => (none, [])
  | c :: t =>
    if escaped ∧ (c = '\\' ∨ c = '"') then push c (split style false t)
    else if c = style.quote then
      if style.multiline then
        let run := (((c :: t).take 5).takeWhile (· == c)).length
        if run < 3 then push c (split style false t)
        else (some (List.replicate (run - 3) c), t.drop (run - 1))
      else (some [], t)
    else if c = '\n' ∧ !style.multiline then (none, c :: t)
    else push c (split style (style.double && c == '\\') t)

/-- What follows a string is no longer than what follows its opening quotes. -/
theorem length_split_le (style : QuoteStyle) (escaped : Bool) (t : Text) :
    (style.split escaped t).2.length ≤ t.length := by
  induction t generalizing escaped with
  | nil => simp [split]
  | cons c t ih =>
    have hpush (escaped' : Bool) :
        (push c (style.split escaped' t)).2.length ≤ (c :: t).length :=
      Nat.le_succ_of_le (ih escaped')
    unfold split
    split
    · exact hpush _
    split
    · split
      · dsimp only
        split
        · exact hpush _
        · simp only [List.length_drop, List.length_cons]
          omega
      · simp
    split
    · simp
    · exact hpush _

/-- What follows opening quotes is shorter than the text. -/
theorem length_of_opening? {t rest : Text} {style : QuoteStyle}
    (h : opening? t = some (style, rest)) : rest.length < t.length := by
  unfold opening? at h
  split at h <;> cases h <;> simp <;> omega

/-! ## Bodies -/

/-- Control characters are tabs only or, in several lines, belong to newlines. -/
def hasPlainControls (multiline : Bool) : Text → Bool
  | [] => true
  | '\r' :: '\n' :: t => multiline && hasPlainControls multiline t
  | c :: t =>
    (!isAsciiControl c || c == '\t' || (multiline && c == '\n')) && hasPlainControls multiline t

/-- The text that a body stands for, once its control characters have been checked. -/
def decode? (style : QuoteStyle) : Text → Option Text
  | [] => some []
  | c :: t =>
    if c = '\\' ∧ style.double then
      match if style.multiline then continuation? t else none with
      | some skipped => decode? style (t.drop skipped)
      | none =>
        match escape? t with
        | none => none
        | some (meant, length) => (decode? style (t.drop length)).map (meant :: ·)
    else (decode? style t).map (c :: ·)
termination_by t => t.length

/-- A newline at the very start of a string of several lines does not count. -/
def dropFirstNewline : Text → Text
  | '\n' :: t => t
  | '\r' :: '\n' :: t => t
  | t => t

/-- The text that a body stands for. -/
def content? (style : QuoteStyle) (body : Text) : Option Text :=
  if hasPlainControls style.multiline body then
    decode? style (if style.multiline then dropFirstNewline body else body)
  else none

end QuoteStyle

end ShaderVariants.Document
