import ShaderVariants.Text.Basic

/-!
# Control characters

The Unicode category `Cc`, its ASCII part, and the number of a character written
in a base, as the escapes of the formats in this library need it.
-/

namespace ShaderVariants

/-- The character is a control character: U+0000 to U+001F or U+007F to U+009F. -/
def isControl (c : Char) : Bool :=
  let n := c.toNat
  n < 0x20 || (0x7F ≤ n && n ≤ 0x9F)

/-- The character is a control character of ASCII. -/
def isAsciiControl (c : Char) : Bool :=
  let n := c.toNat
  n < 0x20 || n == 0x7F

namespace Text

/-- The three octal digits of a number below 512. -/
def octal3 (n : Nat) : Text :=
  [Nat.digitChar (n / 64 % 8), Nat.digitChar (n / 8 % 8), Nat.digitChar (n % 8)]

/-- The number in lower-case hexadecimal digits. -/
def hexadecimal (n : Nat) : Text := Nat.toDigits 16 n

end Text

end ShaderVariants
