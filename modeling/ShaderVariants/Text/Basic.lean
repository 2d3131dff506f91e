/-!
# Texts

A text is the list of its characters, so what is said of texts is said of lists.
String literals enter through `Text.ofString`, which stays folded in proofs
until a proof asks for its characters.
-/

namespace ShaderVariants

/-- A text is the list of its characters. -/
abbrev Text := List Char

namespace Text

/-- The characters of a string. -/
@[irreducible] def ofString (s : String) : Text := s.toList

instance : Coe String Text := ⟨ofString⟩

instance : LawfulBEq Text := inferInstance

theorem ofString_eq_toList (s : String) : ofString s = s.toList := by
  rw [ofString]

theorem ofString_ofList (l : List Char) : ofString (String.ofList l) = l := by
  rw [ofString_eq_toList, String.toList_ofList]

@[simp] theorem ofString_inj {s t : String} : ofString s = ofString t ↔ s = t := by
  rw [ofString_eq_toList, ofString_eq_toList, String.toList_inj]

/-- The number of bytes that the text takes in UTF-8. -/
def utf8Size (t : Text) : Nat := t.foldr (fun c n => c.utf8Size + n) 0

@[simp] theorem utf8Size_nil : utf8Size [] = 0 := rfl

@[simp] theorem utf8Size_cons (c : Char) (t : Text) :
    utf8Size (c :: t) = c.utf8Size + utf8Size t := rfl

@[simp] theorem utf8Size_append (s t : Text) :
    utf8Size (s ++ t) = utf8Size s + utf8Size t := by
  induction s with
  | nil => simp
  | cons c s ih => simp [ih, Nat.add_assoc]

/-- The text stands no later than another one where texts are in the order of their codes. -/
def isAtMost (s t : Text) : Bool := !t.lex s fun a b => a.toNat < b.toNat

/-- The decimal digits of a number. -/
def decimal (n : Nat) : Text := Nat.toDigits 10 n

/-- The lines one after the other, each with its newline. -/
def unlines (l : List Text) : Text := l.flatMap (· ++ ['\n'])

@[simp] theorem unlines_nil : unlines [] = [] := rfl

@[simp] theorem unlines_cons (t : Text) (l : List Text) :
    unlines (t :: l) = t ++ '\n' :: unlines l := by
  simp [unlines]

@[simp] theorem unlines_append (l₁ l₂ : List Text) :
    unlines (l₁ ++ l₂) = unlines l₁ ++ unlines l₂ := by
  simp [unlines]

/-- What follows a prefix is exactly the rest of the text. -/
theorem isPrefixOf?_eq_some_iff {p t r : Text} : p.isPrefixOf? t = some r ↔ t = p ++ r := by
  induction p generalizing t with
  | nil =>
    show some t = some r ↔ t = r
    rw [Option.some.injEq]
  | cons a p ih =>
    cases t with
    | nil =>
      show none = some r ↔ [] = a :: (p ++ r)
      simp
    | cons b t =>
      show (if a == b then p.isPrefixOf? t else none) = some r ↔ b :: t = a :: (p ++ r)
      by_cases h : a = b
      · simp [h, ih]
      · simp [h, Ne.symm h]

end Text

end ShaderVariants
