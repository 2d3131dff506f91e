import ShaderVariants.Document.Value
import ShaderVariants.Document.Word

/-!
# TOML scalars

What a word means as a value. Without quotes it is a boolean, a number, a date
or a time; the characters behind its first digits decide which of them, and only
then is the word checked as a whole.
-/

namespace ShaderVariants.Document

/-- Whether there is a minus, and what follows the sign. -/
def splitSign : Text → Bool × Text
  | '-' :: t => (true, t)
  | '+' :: t => (false, t)
  | t => (false, t)

/-- The number of digits, below zero if the sign says so. -/
def signedNumber (negative : Bool) (digits : Text) : Int :=
  if negative then -(number 10 digits : Int) else number 10 digits

/-! ## Underscores -/

def dropUnderscores (t : Text) : Text := t.filter (· != '_')

/-- Every underscore has a digit on either side. -/
def hasPlainUnderscores (isDigit : Char → Bool) (word : Text) : Bool :=
  let groups := word.splitOn '_'
  groups.tail.all (fun group => group.head?.any isDigit) &&
    groups.dropLast.all fun group => group.getLast?.any isDigit

/-- The digits of a text that holds no other characters than digits and underscores. -/
def digits? (base : Nat) (t : Text) : Option Text :=
  let digits := dropUnderscores t
  if digits ≠ [] ∧ digits.all (isDigitIn base) then some digits else none

/-! ## Numbers -/

/-- An integer in base two, eight or sixteen, by what follows the sign of the base. Without any
    digits it stands for no number. -/
def basedInteger? (base : Nat) (t : Text) : Option Value :=
  if t = [] then some .unreadable
  else if hasPlainUnderscores (isDigitIn base) t then
    (digits? base t).map fun digits => .integer (number base digits)
  else none

/-- An integer in base ten, without zeros in front. What follows its first underscore may be
    anything that leaves the underscores between hexadecimal digits, but then the integer stands
    for no number. -/
def integer? (word : Text) : Option Value :=
  let (negative, t) := splitSign word
  let rest := t.dropWhile Char.isDigit
  if t = [] ∨ (t ≠ ['0'] ∧ t.head? = some '0') then none
  else if rest.head?.all (· == '_') ∧ hasPlainUnderscores (isDigitIn 16) word then
    match digits? 10 t with
    | some digits => some (.integer (signedNumber negative digits))
    | none => some .unreadable
  else none

/-- The digits behind the point; none is nothing. -/
def fraction? : Text → Option Text
  | [] => some []
  | _ :: t => digits? 10 t

/-- The exponent of a number with a fraction; none is zero. -/
def exponent? : Text → Option Int
  | [] => some 0
  | _ :: t =>
    let (negative, t) := splitSign t
    (digits? 10 t).map (signedNumber negative)

/-- A number with a fraction, an exponent or both, without zeros in front. -/
def real? (word : Text) : Option Real := do
  let (negative, t) := splitSign word
  let (mantissa, power) := t.span fun c => c != 'e' && c != 'E'
  let (whole, behind) := mantissa.span (· != '.')
  let whole ← digits? 10 whole
  let behind ← fraction? behind
  let power ← exponent? power
  if hasPlainUnderscores Char.isDigit word ∧ (t.head? ≠ some '0' ∨ whole.length = 1) then
    some (.decimal negative ⟨number 10 (whole ++ behind), power - behind.length⟩)
  else none

/-! ## Dates and times -/

/-- The number in the first `count` digits, and what follows them. -/
def fixedDigits? (count : Nat) (t : Text) : Option (Nat × Text) :=
  let digits := t.take count
  if digits.length = count ∧ digits.all Char.isDigit then some (number 10 digits, t.drop count)
  else none

/-- What follows a character that has to come first. -/
def expect? (c : Char) : Text → Option Text
  | [] => none
  | d :: t => if d = c then some t else none

/-- The number of days of a month. -/
def daysOfMonth (year month : Nat) : Nat :=
  if month = 2 then
    if year % 4 = 0 ∧ (year % 100 ≠ 0 ∨ year % 400 = 0) then 29 else 28
  else if month ∈ [4, 6, 9, 11] then 30 else 31

/-- What follows a date. -/
def date? (t : Text) : Option Text := do
  let (year, t) ← fixedDigits? 4 t
  let (month, t) ← fixedDigits? 2 (← expect? '-' t)
  let (day, t) ← fixedDigits? 2 (← expect? '-' t)
  if 1 ≤ month ∧ month ≤ 12 ∧ 1 ≤ day ∧ day ≤ daysOfMonth year month then some t else none

/-- What follows an hour and a minute. -/
def hourMinute? (t : Text) : Option Text := do
  let (hour, t) ← fixedDigits? 2 t
  let (minute, t) ← fixedDigits? 2 (← expect? ':' t)
  if hour ≤ 23 ∧ minute ≤ 59 then some t else none

/-- What follows the parts of a second, if there are any. -/
def secondParts? : Text → Option Text
  | '.' :: t => if (t.takeWhile Char.isDigit) = [] then none else some (t.dropWhile Char.isDigit)
  | t => some t

/-- What follows the seconds, if there are any. -/
def seconds? : Text → Option Text
  | ':' :: t => do
    let (second, t) ← fixedDigits? 2 t
    if second ≤ 60 then secondParts? t else none
  | t => some t

/-- What follows a time. -/
def time? (t : Text) : Option Text := (hourMinute? t).bind seconds?

/-- The text is nothing or an offset from universal time. -/
def isOffset : Text → Bool
  | [] => true
  | c :: t =>
    if c = 'Z' ∨ c = 'z' then t = []
    else (c = '+' ∨ c = '-') && hourMinute? t == some []

/-- The word is a date, a time or both. -/
def isMoment (word : Text) : Bool :=
  time? word == some [] ||
    match date? word with
    | none => false
    | some [] => true
    | some (c :: t) => (c == 'T' || c == 't' || c == ' ') && (time? t).any isOffset

/-! ## Words -/

/-- A number, a date or a time. A minus or a colon behind the first digits makes a date or a
    time, a point or the sign of an exponent anywhere behind them a number with a fraction. -/
def quantity? (word : Text) : Option Value :=
  let rest := (splitSign word).2.dropWhile Char.isDigit
  if rest.head? = some '-' ∨ rest.head? = some ':' then
    if isMoment word then some .moment else none
  else if ' ' ∈ rest then none
  else if rest.any fun c => c == '.' || c == 'e' || c == 'E' then (real? word).map .real
  else integer? word

/-- A number without digits. -/
def specialReal? (word : Text) : Option Real :=
  let (negative, t) := splitSign word
  if t = ['i', 'n', 'f'] then some (.infinity negative)
  else if t = ['n', 'a', 'n'] then some .notANumber
  else none

/-- The value of a word without quotes. -/
def scalar? (word : Text) : Option Value :=
  if word = ['t', 'r', 'u', 'e'] then some (.boolean true)
  else if word = ['f', 'a', 'l', 's', 'e'] then some (.boolean false)
  else
    match specialReal? word, word with
    | some r, _ => some (.real r)
    | none, '0' :: 'x' :: t => basedInteger? 16 t
    | none, '0' :: 'o' :: t => basedInteger? 8 t
    | none, '0' :: 'b' :: t => basedInteger? 2 t
    | none, _ => quantity? word

/-- The value that the word spells. -/
def Word.value? : Word → Option Value
  | .bare text => scalar? text
  | .quoted style body => (body.bind style.content?).map .string

end ShaderVariants.Document
