import ShaderVariants.Text.Basic

/-!
# Names that need not be texts

A system gives names as bytes, and not all bytes are a text. A name is taken here as
a decoder takes it: the characters that it finds, and between them bytes that are no
part of one. Such bytes are shown as the replacement character, so that different
names may be shown alike.
-/

namespace ShaderVariants

/-- What a decoder takes from the bytes of a name in one piece. -/
inductive Glyph where
  | char (c : Char)
  /-- Bytes that are no part of a character. -/
  | stray (bytes : List UInt8)
deriving DecidableEq, Repr

namespace Glyph

instance : Coe Char Glyph := ⟨char⟩

/-- How many bytes it is. -/
def size : Glyph → Nat
  | char c => c.utf8Size
  | stray bytes => bytes.length

/-- The character that is shown for it. -/
def shown : Glyph → Char
  | char c => c
  | stray _ => '\uFFFD'

/-- Only the replacement character may be shown for something else. -/
theorem eq_char_of_shown {g : Glyph} {c : Char} (h : g.shown = c) (hc : c ≠ '\uFFFD') :
    g = char c := by
  cases g with
  | char c' => exact congrArg char h
  | stray bytes => exact absurd h.symm hc

end Glyph

/-- A name or a path as the system has it. -/
abbrev Glyphs := List Glyph

namespace Glyphs

/-- A text as a name. -/
def ofText (t : Text) : Glyphs := t.map .char

instance : Coe Text Glyphs := ⟨ofText⟩

/-- The number of bytes. -/
def size (name : Glyphs) : Nat := name.foldr (fun g n => g.size + n) 0

/-- The text that is shown for a name. -/
def shown (name : Glyphs) : Text := name.map Glyph.shown

@[simp] theorem ofText_nil : ofText [] = [] := rfl

@[simp] theorem ofText_append (s t : Text) : ofText (s ++ t) = ofText s ++ ofText t :=
  List.map_append

@[simp] theorem length_ofText (t : Text) : (ofText t).length = t.length := List.length_map _

@[simp] theorem ofText_inj {s t : Text} : ofText s = ofText t ↔ s = t :=
  List.map_inj_right fun _ _ => Glyph.char.inj

@[simp] theorem ofText_eq_nil_iff {t : Text} : ofText t = [] ↔ t = [] := List.map_eq_nil_iff

@[simp] theorem size_append (a b : Glyphs) : size (a ++ b) = size a + size b := by
  induction a with
  | nil => exact (Nat.zero_add _).symm
  | cons g a ih => exact (congrArg (g.size + ·) ih).trans (Nat.add_assoc ..).symm

/-- A text has its size in UTF-8. -/
@[simp] theorem size_ofText (t : Text) : (ofText t).size = t.utf8Size := by
  induction t with
  | nil => rfl
  | cons c t ih => exact congrArg (c.utf8Size + ·) ih

/-- A text is shown as it is. -/
@[simp] theorem shown_ofText (t : Text) : (ofText t).shown = t := by
  induction t with
  | nil => rfl
  | cons c t ih => exact congrArg (c :: ·) ih

theorem eq_ofText_of_shown {name : Glyphs} {t : Text} (h : name.shown = t) (ht : '\uFFFD' ∉ t) :
    name = ofText t := by
  subst h
  induction name with
  | nil => rfl
  | cons g name ih =>
    rw [shown, List.map_cons, List.mem_cons, not_or] at ht
    have hg : g = .char g.shown := Glyph.eq_char_of_shown rfl (Ne.symm ht.1)
    exact (congrArg (· :: name) hg).trans (congrArg (.char g.shown :: ·) (ih ht.2))

/-- A part of a text is a text. -/
theorem ofText_shown_of_subset {name : Glyphs} {t : Text} (h : name ⊆ ofText t) :
    ofText name.shown = name := by
  rw [ofText, shown, List.map_map]
  refine (List.map_congr_left fun g hg => ?_).trans (List.map_id name)
  obtain ⟨c, -, rfl⟩ := List.mem_map.1 (h hg)
  rfl

@[simp] theorem shown_append (a b : Glyphs) : shown (a ++ b) = shown a ++ shown b :=
  List.map_append

end Glyphs

end ShaderVariants
