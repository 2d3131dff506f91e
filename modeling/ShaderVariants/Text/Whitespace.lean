import ShaderVariants.Text.Basic

/-!
# Whitespace

The characters of the Unicode property `White_Space`, and the cuts made at them:
trimming a text and taking its first word.
-/

namespace ShaderVariants

/-- The character has the Unicode property `White_Space`. -/
def isWhitespace (c : Char) : Bool :=
  let n := c.toNat
  (0x09 ≤ n && n ≤ 0x0D) || n == 0x20 || n == 0x85 || n == 0xA0 || n == 0x1680 ||
    (0x2000 ≤ n && n ≤ 0x200A) || n == 0x2028 || n == 0x2029 || n == 0x202F || n == 0x205F ||
    n == 0x3000

namespace Text

/-- The text without the whitespace at its start. -/
def trimStart (t : Text) : Text := t.dropWhile isWhitespace

/-- The text without the whitespace at its end. -/
def trimEnd (t : Text) : Text := (t.reverse.dropWhile isWhitespace).reverse

/-- The text without the whitespace at either end. -/
def trim (t : Text) : Text := t.trimStart.trimEnd

/-- The first word: the longest run without whitespace after the whitespace at the start. -/
def firstWord? (t : Text) : Option Text :=
  match t.trimStart.takeWhile (!isWhitespace ·) with
  | [] => none
  | word => some word

end Text

end ShaderVariants
