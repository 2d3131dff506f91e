import ShaderVariants.Text.Glyphs

/-!
# File trees

A file system as a value: directories hold nodes under their names, from the
root on, so whatever stands somewhere stands in a directory. The tree is seen
through `find?` alone, which tells what stands at a location; `find?_insert` and
`find?_erase` say what the two changes do to it.
-/

namespace ShaderVariants

/-- A place in a file tree: the names from the root on. -/
abbrev Location := List Glyphs

instance : Coe (List Text) Location := ⟨List.map Glyphs.ofText⟩

instance decidableEqBytes : DecidableEq ByteArray := ByteArray.instDecidableEq

/-- What stands at a location. -/
inductive Entry where
  | file (bytes : ByteArray)
  | directory
deriving DecidableEq

/-- A file, or a directory with all that it holds. -/
inductive Node where
  | file (bytes : ByteArray)
  | directory (children : List (Glyphs × Node))

namespace Node

/-- The node without what it holds. -/
def entry : Node → Entry
  | file bytes => .file bytes
  | directory _ => .directory

/-- The node of an entry; a directory is empty. -/
def ofEntry : Entry → Node
  | .file bytes => file bytes
  | .directory => directory []

/-- What a directory holds under a name. -/
def child? (n : Node) (name : Glyphs) : Option Node :=
  match n with
  | file _ => none
  | directory children => children.lookup name

/-- What stands at a location below a node. -/
def descendant? : Location → Node → Option Node
  | [], n => some n
  | name :: rest, n => (n.child? name).bind (descendant? rest)

/-- The children of a directory with nothing but `found` under a name. -/
def withChild (name : Glyphs) (found : Option Node) (children : List (Glyphs × Node)) :
    List (Glyphs × Node) :=
  let others := children.filter (·.1 != name)
  match found with
  | none => others
  | some n => (name, n) :: others

/-- Changes what stands at a location below a node that may be missing. Where a directory is
    missing on the way, nothing changes. -/
def change (f : Option Node → Option Node) : Location → Option Node → Option Node
  | [], found => f found
  | name :: rest, some (directory children) =>
    some (directory (withChild name (change f rest (children.lookup name)) children))
  | _ :: _, found => found

@[simp] theorem entry_ofEntry (e : Entry) : (ofEntry e).entry = e := by
  cases e <;> rfl

theorem lookup_filter_ne (children : List (Glyphs × Node)) (name m : Glyphs) :
    (children.filter (·.1 != name)).lookup m = if m = name then none else children.lookup m := by
  induction children with
  | nil => simp
  | cons p children ih =>
    obtain ⟨k, n⟩ := p
    by_cases hk : k = name
    · subst hk
      rw [List.filter_cons_of_neg (by simp), ih]
      by_cases hm : m = k
      · simp [hm]
      · simp [hm, List.lookup_cons, beq_eq_false_iff_ne.2 hm]
    · rw [List.filter_cons_of_pos (by simpa using hk)]
      by_cases hm : m = k
      · simp [hm, hk]
      · simp [List.lookup_cons, beq_eq_false_iff_ne.2 hm, ih]

/-- Only what stands under the name changes. -/
theorem lookup_withChild (name : Glyphs) (found : Option Node) (children : List (Glyphs × Node))
    (m : Glyphs) :
    (withChild name found children).lookup m = if m = name then found else children.lookup m := by
  unfold withChild
  cases found with
  | none => exact lookup_filter_ne children name m
  | some n =>
    by_cases hm : m = name
    · simp [hm]
    · simp [hm, List.lookup_cons, beq_eq_false_iff_ne.2 hm, lookup_filter_ne]

theorem descendant?_append (l m : Location) (n : Node) :
    descendant? (l ++ m) n = (descendant? l n).bind (descendant? m) := by
  induction l generalizing n with
  | nil => rfl
  | cons name l ih =>
    simp only [List.cons_append, descendant?, Option.bind_assoc]
    exact congrArg _ (funext ih)

/-- A change leaves all entries that are not at its location or below. -/
theorem entry_change_of_not_prefix (f : Option Node → Option Node) {l m : Location}
    (found : Option Node) (h : ¬ l <+: m) :
    ((change f l found).bind (descendant? m)).map entry =
      (found.bind (descendant? m)).map entry := by
  induction l generalizing m found with
  | nil => exact absurd List.nil_prefix h
  | cons name l ih =>
    match found with
    | none => rfl
    | some (file _) => rfl
    | some (directory children) =>
      cases m with
      | nil => rfl
      | cons k m =>
        simp only [change, Option.bind_some, descendant?, child?, lookup_withChild]
        by_cases hk : k = name
        · subst hk
          rw [if_pos rfl]
          exact ih _ fun hp => h (List.cons_prefix_cons.2 ⟨rfl, hp⟩)
        · rw [if_neg hk]

/-- In a directory that is there, a change puts what `f` gives in the place of what stood at its
    location. -/
theorem descendant?_change (f : Option Node → Option Node) {l : Location} (m : Location)
    (found : Option Node) (hl : l ≠ [])
    (hd : (found.bind (descendant? l.dropLast)).map entry = some .directory) :
    (change f l found).bind (descendant? (l ++ m)) =
      (f (found.bind (descendant? l))).bind (descendant? m) := by
  induction l generalizing found with
  | nil => exact absurd rfl hl
  | cons name l ih =>
    match found with
    | none => simp at hd
    | some (file bytes) => cases l <;> simp [descendant?, child?, entry] at hd
    | some (directory children) =>
      simp only [change, Option.bind_some, List.cons_append, descendant?, child?,
        lookup_withChild, if_true]
      cases l with
      | nil =>
        simp only [change, List.nil_append]
        cases children.lookup name <;> rfl
      | cons k l => exact ih _ (by simp) (by simpa [descendant?, child?] using hd)

/-- Where everything is taken away nothing stands, nor below. -/
theorem descendant?_change_none {l : Location} (m : Location) (found : Option Node)
    (hl : l ≠ []) : (change (fun _ => none) l found).bind (descendant? (l ++ m)) = none := by
  induction l generalizing found with
  | nil => exact absurd rfl hl
  | cons name l ih =>
    match found with
    | none => rfl
    | some (file bytes) => rfl
    | some (directory children) =>
      simp only [change, Option.bind_some, List.cons_append, descendant?, child?,
        lookup_withChild, if_true]
      cases l with
      | nil => rfl
      | cons k l => exact ih _ (by simp)

end Node

structure FileTree where
  children : List (Glyphs × Node) := []
  /-- Where relative paths start. -/
  current : Location := []

namespace FileTree

/-- The root is a directory. -/
def root (t : FileTree) : Node := .directory t.children

/-- What stands at a location, with all below it. -/
def node? (t : FileTree) (l : Location) : Option Node := t.root.descendant? l

/-- What stands at a location. -/
def find? (t : FileTree) (l : Location) : Option Entry := (t.node? l).map Node.entry

/-- Changes what stands at a location. The root stays a directory. -/
def change (t : FileTree) (f : Option Node → Option Node) (l : Location) : FileTree :=
  match Node.change f l (some t.root) with
  | some (.directory children) => { t with children }
  | _ => { t with children := [] }

/-- The tree with nothing at a location or below. -/
def erase (t : FileTree) (l : Location) : FileTree := t.change (fun _ => none) l

/-- The tree with an entry at a location, whose directory is there. -/
def insert (t : FileTree) (l : Location) (e : Entry) : FileTree :=
  t.change (fun _ => some (.ofEntry e)) l

@[simp] theorem find?_nil (t : FileTree) : t.find? [] = some .directory := rfl

/-- What has something below it is a directory. -/
theorem find?_eq_directory {t : FileTree} {l m : Location} (hm : m ≠ [])
    (h : (t.find? (l ++ m)).isSome) : t.find? l = some .directory := by
  obtain ⟨name, m, rfl⟩ := List.exists_cons_of_ne_nil hm
  simp only [find?, node?, Node.descendant?_append, Option.isSome_map] at h ⊢
  cases hl : t.root.descendant? l with
  | none => simp [hl] at h
  | some n =>
    cases n with
    | file _ => simp [hl, Node.descendant?, Node.child?] at h
    | directory _ => rfl

/-- Below what is no directory there is nothing. -/
theorem find?_append_eq_none {t : FileTree} {l m : Location} (hm : m ≠ [])
    (h : t.find? l ≠ some .directory) : t.find? (l ++ m) = none := by
  cases hf : t.find? (l ++ m) with
  | none => rfl
  | some _ => exact absurd (find?_eq_directory hm (by simp [hf])) h

theorem node?_change (t : FileTree) (f : Option Node → Option Node) {l : Location} (hl : l ≠ [])
    (m : Location) :
    (t.change f l).node? m = (Node.change f l (some t.root)).bind (Node.descendant? m) := by
  obtain ⟨name, l, rfl⟩ := List.exists_cons_of_ne_nil hl
  rfl

/-- A change leaves all that is not at its location or below. -/
theorem find?_change_of_not_prefix (t : FileTree) (f : Option Node → Option Node)
    {l m : Location} (hl : l ≠ []) (h : ¬ l <+: m) : (t.change f l).find? m = t.find? m := by
  rw [find?, node?_change t f hl]
  exact Node.entry_change_of_not_prefix f (some t.root) h

/-- Erasing clears a location and all below it, and leaves the others. -/
theorem find?_erase (t : FileTree) {l : Location} (hl : l ≠ []) (m : Location) :
    (t.erase l).find? m = if l <+: m then none else t.find? m := by
  by_cases hp : l <+: m
  · obtain ⟨r, rfl⟩ := hp
    rw [if_pos (List.prefix_append l r), find?, erase, node?_change _ _ hl,
      Node.descendant?_change_none _ _ hl]
    rfl
  · rw [if_neg hp, erase, find?_change_of_not_prefix t _ hl hp]

/-- Erasing what is no directory clears one location only. -/
theorem find?_erase_of_ne_directory (t : FileTree) {l : Location}
    (hn : t.find? l ≠ some .directory) (m : Location) :
    (t.erase l).find? m = if m = l then none else t.find? m := by
  rw [find?_erase t (by rintro rfl; simp at hn)]
  by_cases hp : l <+: m
  · obtain ⟨r, rfl⟩ := hp
    by_cases h : r = []
    · simp [h]
    · rw [if_pos (List.prefix_append l r), find?_append_eq_none h hn, ite_self]
  · rw [if_neg hp, if_neg]
    rintro rfl
    exact hp List.prefix_rfl

/-- Inserting over what is no directory fills one location and leaves the others. -/
theorem find?_insert (t : FileTree) {l : Location} (e : Entry)
    (hd : t.find? l.dropLast = some .directory) (hn : t.find? l ≠ some .directory)
    (m : Location) : (t.insert l e).find? m = if m = l then some e else t.find? m := by
  have hl : l ≠ [] := by rintro rfl; simp at hn
  by_cases hp : l <+: m
  · obtain ⟨r, rfl⟩ := hp
    have hr : (t.insert l e).find? (l ++ r) = ((Node.ofEntry e).descendant? r).map Node.entry := by
      rw [find?, insert, node?_change _ _ hl, Node.descendant?_change _ _ (some t.root) hl hd]
      rfl
    by_cases h : r = []
    · subst h
      simpa [Node.descendant?] using hr
    · obtain ⟨name, r, rfl⟩ := List.exists_cons_of_ne_nil h
      rw [hr, if_neg (by simp), find?_append_eq_none (by simp) hn]
      cases e <;> rfl
  · rw [insert, find?_change_of_not_prefix t _ hl hp, if_neg]
    rintro rfl
    exact hp List.prefix_rfl

end FileTree

end ShaderVariants
