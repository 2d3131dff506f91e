import ShaderVariants.Text.Control

/-!
# C++ string literals

A text between double quotes, with escapes for the characters that cannot stand
there. A control character without an escape of its own is written in exactly
three octal digits, so that a digit after it is never read into the escape.
-/

namespace ShaderVariants.Code

/-- How a character is written within a literal. -/
def escape (c : Char) : Text :=
  if c = '\\' then ['\\', '\\']
  else if c = '"' then ['\\', '"']
  else if c = '\n' then ['\\', 'n']
  else if c = '\r' then ['\\', 'r']
  else if c = '\t' then ['\\', 't']
  else if isAsciiControl c then '\\' :: Text.octal3 c.toNat
  else [c]

/-- The literal of a text. -/
def literal (t : Text) : Text := '"' :: t.flatMap escape ++ ['"']

example : literal ['a', '\x01', '1'] = ['"', 'a', '\\', '0', '0', '1', '1', '"'] := by decide

/-- A character that needs no escape stands for itself. -/
theorem escape_of_printable {c : Char} (h : isAsciiControl c = false) (hq : c ≠ '"')
    (hb : c ≠ '\\') : escape c = [c] := by
  have hn : c ≠ '\n' := by rintro rfl; simp [isAsciiControl] at h
  have hr : c ≠ '\r' := by rintro rfl; simp [isAsciiControl] at h
  have ht : c ≠ '\t' := by rintro rfl; simp [isAsciiControl] at h
  simp [escape, hq, hb, hn, hr, ht, h]

end ShaderVariants.Code
