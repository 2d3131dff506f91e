import ShaderVariants.Text.Control

/-!
# Texts on a terminal

A line of the log is shown on a terminal, so the control characters that
terminals act on are shown as escapes. Tabs, newlines and the other controls
pass.
-/

namespace ShaderVariants.Text

/-- How a character is shown on a terminal. -/
def terminalForm (c : Char) : Text :=
  let n := c.toNat
  if n = 0x07 ∨ n = 0x08 ∨ n = 0x0C ∨ n = 0x1B ∨ n = 0x7F then
    '\\' :: 'x' :: (hexadecimal n).leftpad 2 '0'
  else if 0x80 ≤ n ∧ n ≤ 0x9F then '\\' :: 'u' :: '\x7b' :: hexadecimal n ++ ['\x7d']
  else [c]

/-- The first line of a text as a terminal shows it. -/
def terminalLine (t : Text) : Text := (t.flatMap terminalForm).takeWhile (· != '\n')

end ShaderVariants.Text
