import ShaderVariants.Text.Control
import ShaderVariants.Text.GraphemeExtenders
import ShaderVariants.Text.Unassigned

/-!
# Quoted texts in messages

A message shows a text between double quotes so that every character can be
seen: quotes, backslashes and characters without a shape of their own are
escaped.
-/

namespace ShaderVariants

/-- The ranges of the format characters, the separators other than the plain space, the private
    characters and the letters that are shown as nothing. -/
def hiddenRanges : CodeRanges :=
  [(0xA0, 0xA0), (0xAD, 0xAD), (0x600, 0x605), (0x61C, 0x61C), (0x6DD, 0x6DD), (0x70F, 0x70F),
    (0x890, 0x891), (0x8E2, 0x8E2), (0x115F, 0x1160), (0x1680, 0x1680), (0x180E, 0x180E),
    (0x2000, 0x200F), (0x2028, 0x202F), (0x205F, 0x2064), (0x2066, 0x206F), (0x3000, 0x3000),
    (0x3164, 0x3164), (0xE000, 0xF8FF), (0xFEFF, 0xFEFF), (0xFFA0, 0xFFA0), (0xFFF9, 0xFFFB),
    (0x110BD, 0x110BD), (0x110CD, 0x110CD), (0x13430, 0x1343F), (0x1BCA0, 0x1BCA3),
    (0x1D173, 0x1D17A), (0xE0001, 0xE0001), (0xE0020, 0xE007F), (0xF0000, 0xFFFFD),
    (0x100000, 0x10FFFD)]

example : hiddenRanges.areApart = true := by decide +kernel

/-- The character has no shape of its own: it is a control character, hidden, an extender of the
    character before it, or no character at all. The ranges begin at U+00A0. -/
def isShapeless (c : Char) : Bool :=
  isControl c || 0xA0 ≤ c.toNat &&
    (hiddenRanges.hold c || graphemeExtenderRanges.hold c || unassignedRanges.hold c)

namespace Text

/-- How a character is shown between the quotes. -/
def visible (c : Char) : Text :=
  if c = '\x00' then ['\\', '0']
  else if c = '\t' then ['\\', 't']
  else if c = '\n' then ['\\', 'n']
  else if c = '\r' then ['\\', 'r']
  else if c = '"' ∨ c = '\\' then ['\\', c]
  else if isShapeless c then '\\' :: 'u' :: '\x7b' :: hexadecimal c.toNat ++ ['\x7d']
  else [c]

/-- The text between quotes, every character visible. -/
def quoted (t : Text) : Text := '"' :: t.flatMap visible ++ ['"']

end Text

end ShaderVariants
