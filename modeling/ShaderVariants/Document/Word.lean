import ShaderVariants.Document.Quoted

/-!
# Words of a document

A part of a key and a scalar are each spelled as one word, without quotes or in
quotes. Where a word should stand and does not, the empty word without quotes
takes its place: it means nothing, neither as part of a key nor as a scalar.
-/

namespace ShaderVariants.Document

/-- The spelling of a part of a key or of a scalar. -/
inductive Word where
  /-- Without quotes. -/
  | bare (text : Text)
  /-- In quotes. Where the closing ones are missing there is no body. -/
  | quoted (style : QuoteStyle) (body : Option Text)
deriving DecidableEq, Repr

namespace Word

/-- The word that takes the place of a missing one. -/
def missing : Word := bare []

/-- The character can stand in a key without quotes. -/
def isKeyPart (c : Char) : Bool := c.isAlphanum || c == '_' || c == '-'

/-- The part of a key that the word spells. Strings of several lines are none. -/
def key? : Word → Option Text
  | bare text => if text ≠ [] ∧ text.all isKeyPart then some text else none
  | quoted style body => if style.multiline then none else body.bind style.content?

end Word

end ShaderVariants.Document
