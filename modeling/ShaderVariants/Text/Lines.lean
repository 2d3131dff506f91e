import ShaderVariants.Text.Basic

/-!
# Lines

A text is cut after every newline, so each line keeps its own terminator and
only the last line may lack one.
-/

namespace ShaderVariants.Text

/-- Cuts a text after every newline. -/
def lines : Text → List Text
  | [] => []
  | c :: t =>
    if c = '\n' then [c] :: lines t
    else
      match lines t with
      | [] => [[c]]
      | line :: rest => (c :: line) :: rest

/-- Nothing is lost by the cuts. -/
theorem flatten_lines (t : Text) : t.lines.flatten = t := by
  induction t with
  | nil => rfl
  | cons c t ih =>
    by_cases h : c = '\n'
    · simp [lines, h, ih]
    · simp only [lines, h, if_false]
      split
      · next heq => simp_all
      · next heq => simp_all

example : lines ['a', '\n', '\r', '\n', 'b'] = [['a', '\n'], ['\r', '\n'], ['b']] := by decide

end ShaderVariants.Text
