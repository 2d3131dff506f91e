import ShaderVariants.Document.Reader
import ShaderVariants.Document.Scalar

/-!
# TOML documents

A document is the table that the statements of its outline build up. The whole
text has to have an outline before any of its words is read; then the words are
read and the statements carried out one after the other, up to the first fault.
-/

namespace ShaderVariants.Document

/-- The most parts that a key has. -/
def keyLimit : Nat := 80

/-- Why a text is no TOML document. -/
inductive Fault where
  /-- It breaks the grammar, nests too deep, has a word without a meaning or defines something
      twice. -/
  | malformed
  | longKey
deriving DecidableEq, Repr

/-- A part without an answer makes the text malformed. -/
instance : MonadLift Option (Except Fault) := ⟨fun answer => answer.elim (.error .malformed) .ok⟩

/-! ## Keys and values -/

/-- The parts of a key. They are read before they are counted. -/
def Key.path (key : Key) : Except Fault (List Text) := do
  let path ← (key.mapM Word.key? : Option (List Text))
  if path.length ≤ keyLimit then pure path else throw .longKey

namespace Expression

mutual

/-- The value that the expression stands for. -/
def value : Expression → Except Fault Value
  | .word w => w.value?
  | .array items => (values items).map .array
  | .table assignments => (entries [] assignments).map (.table .inline)

/-- The values that expressions stand for. -/
def values : List Expression → Except Fault (List Value)
  | [] => pure []
  | item :: rest => do
    let v ← item.value
    let l ← values rest
    pure (v :: l)

/-- The entries to which assignments add theirs. -/
def entries (before : Entries) : List (Key × Expression) → Except Fault Entries
  | [] => pure before
  | (key, e) :: rest => do
    let path ← key.path
    let v ← e.value
    let before ← before.assign v path
    entries before rest

end

end Expression

/-! ## Statements -/

/-- Where the assignments below a header go. -/
inductive Place where
  | table (path : List Text)
  /-- To a table of its own, which joins the array of tables at a path at the next header or the
      end of the document. -/
  | item (path : List Text) (entries : Entries)

/-- The entries so far, and the place of those to come. -/
structure Draft where
  entries : Entries := []
  place : Place := .table []

namespace Draft

/-- The entries at a header or at the end of the document. -/
def settled (d : Draft) : Option Entries :=
  match d.place with
  | .table _ => some d.entries
  | .item path item => Entries.addItem item path d.entries

def assign (v : Value) (path : List Text) (d : Draft) : Option Draft :=
  match d.place with
  | .table header =>
    (d.entries.under (Entries.assign v path) header).map fun entries => { d with entries }
  | .item header item =>
    (item.assign v path).map fun item => { d with place := .item header item }

def add (d : Draft) : Statement → Except Fault Draft
  | .assign key e => do
    let path ← key.path
    let v ← e.value
    d.assign v path
  | .openTable key => do
    let entries ← d.settled
    let path ← key.path
    let entries ← entries.openTable path
    pure ⟨entries, .table path⟩
  | .openItem key => do
    let entries ← d.settled
    let path ← key.path
    pure ⟨entries, .item path []⟩

end Draft

/-- The entries of a document. -/
def read (t : Text) : Except Fault Entries := do
  let outline ← outline? t
  let draft ← outline.foldlM Draft.add {}
  draft.settled

end ShaderVariants.Document
