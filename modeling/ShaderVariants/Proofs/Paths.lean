import Mathlib.Data.List.Basic
import ShaderVariants.Path

/-!
# Components of paths

Paths are taken apart at the separators and put together again. What a walk takes from a
path are its names, and whether it starts at the root; here both are found for the path
above, for a name joined to a path, and for all paths above.
-/

namespace ShaderVariants.Path

variable {p q : Path} {parts rest : List Glyphs} {part name : Glyphs} {above : List Glyphs}

/-! ## Parts -/

theorem separator_notMem_of_mem_splitOn {t : Glyphs} (h : part ∈ t.splitOn separator) :
    separator ∉ part := by
  induction t generalizing part with
  | nil =>
    rw [List.splitOn_nil, List.mem_singleton] at h
    exact h ▸ List.not_mem_nil
  | cons c t ih =>
    rw [List.splitOn_cons_eq_if_modifyHead] at h
    split at h
    · rcases List.mem_cons.1 h with rfl | h
      · exact List.not_mem_nil
      · exact ih h
    · next hc =>
      obtain ⟨first, others, hsplit⟩ := List.exists_cons_of_ne_nil (List.splitOn_ne_nil separator t)
      rw [hsplit] at h ih
      rcases List.mem_cons.1 h with rfl | h
      · intro hmem
        rcases List.mem_cons.1 hmem with heq | hmem
        · exact hc (heq ▸ BEq.refl separator)
        · exact ih List.mem_cons_self hmem
      · exact ih (List.mem_cons_of_mem first h)

theorem subset_of_mem_splitOn {t : Glyphs} (h : part ∈ t.splitOn separator) : part ⊆ t := by
  induction t generalizing part with
  | nil =>
    rw [List.splitOn_nil, List.mem_singleton] at h
    exact h ▸ List.Subset.refl []
  | cons c t ih =>
    rw [List.splitOn_cons_eq_if_modifyHead] at h
    split at h
    · rcases List.mem_cons.1 h with rfl | h
      · exact List.nil_subset _
      · exact List.subset_cons_of_subset c (ih h)
    · obtain ⟨first, others, hsplit⟩ := List.exists_cons_of_ne_nil (List.splitOn_ne_nil separator t)
      rw [hsplit] at h ih
      rcases List.mem_cons.1 h with rfl | h
      · exact List.cons_subset_cons c (ih List.mem_cons_self)
      · exact List.subset_cons_of_subset c (ih (List.mem_cons_of_mem first h))

theorem separator_notMem_of_mem_partsBackward (h : part ∈ p.partsBackward) : separator ∉ part :=
  separator_notMem_of_mem_splitOn (List.mem_reverse.1 h)

/-- The names among parts that are given last first. -/
def names (parts : List Glyphs) : List Glyphs := (parts.filter (· ≠ [])).reverse

/-- The first part is empty, as before a separator at the start. -/
def isRooted (parts : List Glyphs) : Bool := parts.getLast? == some []

theorem segments_eq (p : Path) : p.segments = names p.partsBackward := by
  rw [segments, names, partsBackward, List.filter_reverse, List.reverse_reverse]

theorem names_cons (part : Glyphs) (parts : List Glyphs) :
    names (part :: parts) = names parts ++ if part = [] then [] else [part] := by
  rw [names, List.filter_cons]
  by_cases h : part = [] <;> simp [h, names]

theorem isAbsolute_eq (p : Path) : p.isAbsolute = (p.glyphs != [] && isRooted p.partsBackward) := by
  have hfirst : isRooted p.partsBackward = ((p.glyphs.splitOn separator).head? == some []) := by
    rw [isRooted, partsBackward, List.getLast?_reverse]
  rw [hfirst, isAbsolute]
  cases p.glyphs with
  | nil => rfl
  | cons c t =>
    rw [List.splitOn_cons_eq_if_modifyHead]
    obtain ⟨first, others, hsplit⟩ := List.exists_cons_of_ne_nil (List.splitOn_ne_nil separator t)
    by_cases h : c = separator <;> simp [h, hsplit]

/-- The parts of a path that is put together from them. -/
theorem splitOn_ofBackward (hne : parts ≠ []) (hroot : parts ≠ [[]])
    (hparts : ∀ part ∈ parts, separator ∉ part) :
    (ofBackward parts).partsBackward = parts := by
  have hglyphs : (ofBackward parts).glyphs = [separator].intercalate parts.reverse := by
    unfold ofBackward
    split
    · exact absurd rfl hne
    · exact absurd rfl hroot
    · rfl
  have hsplit := List.splitOn_intercalate separator
    (fun part hpart => hparts part (List.mem_reverse.1 hpart)) (List.reverse_ne_nil_iff.2 hne)
  rw [partsBackward, hglyphs, hsplit, List.reverse_reverse]

theorem segments_ofBackward (hparts : ∀ part ∈ parts, separator ∉ part) :
    (ofBackward parts).segments = names parts := by
  by_cases hne : parts = []
  · subst hne
    rfl
  · by_cases hroot : parts = [[]]
    · subst hroot
      decide
    · rw [segments_eq, splitOn_ofBackward hne hroot hparts]

theorem isAbsolute_ofBackward (hparts : ∀ part ∈ parts, separator ∉ part) :
    (ofBackward parts).isAbsolute = isRooted parts := by
  by_cases hne : parts = []
  · subst hne
    rfl
  · by_cases hroot : parts = [[]]
    · subst hroot
      rfl
    · have hback := splitOn_ofBackward hne hroot hparts
      have hglyphs : (ofBackward parts).glyphs ≠ [] := by
        intro heq
        rw [partsBackward, heq] at hback
        exact hroot hback.symm
      rw [isAbsolute_eq, hback, bne_iff_ne.2 hglyphs, Bool.true_and]

theorem eq_separator_of_splitOn {t : Glyphs} (h : ∀ part ∈ t.splitOn separator, part = [])
    {c : Glyph} (hc : c ∈ t) : c = separator := by
  induction t with
  | nil => exact absurd hc List.not_mem_nil
  | cons a t ih =>
    rw [List.splitOn_cons_eq_if_modifyHead] at h
    split at h
    · next ha =>
      rcases List.mem_cons.1 hc with rfl | hc
      · exact eq_of_beq ha
      · exact ih (fun part hpart => h part (List.mem_cons_of_mem [] hpart)) hc
    · obtain ⟨first, others, hsplit⟩ := List.exists_cons_of_ne_nil (List.splitOn_ne_nil separator t)
      rw [hsplit] at h
      exact absurd (h (a :: first) List.mem_cons_self) (List.cons_ne_nil a first)

/-- A path without components is the root. -/
theorem endsInSeparator_of_segments_eq_nil (hglyphs : p.glyphs ≠ []) (h : p.segments = []) :
    p.endsInSeparator = true := by
  have hparts : ∀ part ∈ p.glyphs.splitOn separator, part = [] := fun part hpart => by
    simpa using List.filter_eq_nil_iff.1 h part hpart
  have hlast := eq_separator_of_splitOn hparts (List.getLast_mem hglyphs)
  rw [endsInSeparator, List.getLast?_eq_some_getLast hglyphs, hlast]
  rfl

/-! ## Idle parts -/

theorem dropIdle_suffix (parts : List Glyphs) : dropIdle parts <:+ parts := by
  induction parts with
  | nil => exact List.suffix_refl []
  | cons part rest ih =>
    rw [dropIdle]
    split
    · exact ih.trans (List.suffix_cons part rest)
    · exact List.suffix_refl _

theorem dropIdle_cons_of_name (h : part ≠ []) (hhere : part ≠ here) :
    dropIdle (part :: rest) = part :: rest := by
  rw [dropIdle, if_neg]
  rintro ⟨-, heq | heq⟩
  · exact h heq
  · exact hhere heq

theorem dropIdle_cons_nil (hne : rest ≠ []) : dropIdle ([] :: rest) = dropIdle rest := by
  rw [dropIdle, if_pos ⟨hne, .inl rfl⟩]

theorem dropIdle_ne_nil (h : parts ≠ []) : dropIdle parts ≠ [] := by
  induction parts with
  | nil => exact absurd rfl h
  | cons part rest ih =>
    rw [dropIdle]
    split
    · next hidle => exact ih hidle.1
    · exact List.cons_ne_nil part rest

/-- What is dropped are components that stay where they are. -/
theorem exists_names_eq (parts : List Glyphs) :
    ∃ k, names parts = names (dropIdle parts) ++ List.replicate k here := by
  induction parts with
  | nil => exact ⟨0, rfl⟩
  | cons part rest ih =>
    rw [dropIdle]
    split
    · next hidle =>
      obtain ⟨k, hk⟩ := ih
      rw [names_cons, hk]
      rcases hidle.2 with rfl | rfl
      · exact ⟨k, by rw [if_pos rfl, List.append_nil]⟩
      · refine ⟨k + 1, ?_⟩
        rw [if_neg (by decide), List.append_assoc, List.replicate_succ']
    · exact ⟨0, (List.append_nil _).symm⟩

theorem isRooted_of_suffix (h : rest <:+ parts) (hne : rest ≠ []) :
    isRooted rest = isRooted parts := by
  obtain ⟨others, rfl⟩ := h
  rw [isRooted, isRooted, List.getLast?_append_of_ne_nil others hne]

/-! ## The name of a file and the path above -/

/-- The glyphs can be the name of an entry of a directory. -/
structure IsName (name : Glyphs) : Prop where
  ne_nil : name ≠ []
  separator_notMem : separator ∉ name
  ne_here : name ≠ here
  ne_above : name ≠ Path.above

/-- The name of a file is its last part that counts. -/
theorem exists_dropIdle_eq (h : p.fileName? = some name) :
    ∃ rest, dropIdle p.partsBackward = name :: rest ∧
      ¬(name = [] ∨ name = here ∨ name = Path.above) := by
  unfold fileName? at h
  split at h
  · cases h
  · next part rest hparts =>
    split at h
    · cases h
    · next hnot =>
      obtain rfl := Option.some.inj h
      exact ⟨rest, hparts, hnot⟩

theorem isName_of_fileName? (h : p.fileName? = some name) : IsName name := by
  obtain ⟨rest, hparts, hnot⟩ := exists_dropIdle_eq h
  have hmem : name ∈ p.partsBackward :=
    (dropIdle_suffix p.partsBackward).subset (hparts ▸ List.mem_cons_self)
  exact ⟨fun h => hnot (.inl h), separator_notMem_of_mem_partsBackward hmem,
    fun h => hnot (.inr (.inl h)), fun h => hnot (.inr (.inr h))⟩

theorem isName_of_segments (h : p.segments = above ++ [name]) (hhere : name ≠ here)
    (habove : name ≠ Path.above) : IsName name := by
  have hmem : name ∈ p.segments := h ▸ List.mem_append_right above List.mem_cons_self
  obtain ⟨hsplit, hne⟩ := List.mem_filter.1 hmem
  exact ⟨by simpa using hne, separator_notMem_of_mem_splitOn hsplit, hhere, habove⟩

/-- What is shown for a name can be a name as well. -/
theorem IsName.shown (h : IsName name) : IsName (.ofText name.shown) := by
  refine ⟨?_, fun hmem => ?_, fun heq => ?_, fun heq => ?_⟩
  · rw [ne_eq, Glyphs.ofText_eq_nil_iff]
    exact mt List.map_eq_nil_iff.1 h.ne_nil
  · obtain ⟨c, hc, hseparator⟩ := List.mem_map.1 hmem
    obtain ⟨g, hg, rfl⟩ := List.mem_map.1 hc
    rw [Glyph.eq_char_of_shown (Glyph.char.inj hseparator) (by decide)] at hg
    exact h.separator_notMem hg
  · exact h.ne_here (Glyphs.eq_ofText_of_shown (t := ['.']) (Glyphs.ofText_inj.1 heq) (by decide))
  · exact h.ne_above
      (Glyphs.eq_ofText_of_shown (t := ['.', '.']) (Glyphs.ofText_inj.1 heq) (by decide))

theorem IsName.append (h : IsName name) {ending : Glyphs} (hlength : 1 < ending.length)
    (hending : separator ∉ ending) : IsName (name ++ ending) := by
  have hpos := List.length_pos_iff.2 h.ne_nil
  refine ⟨List.append_ne_nil_of_left_ne_nil h.ne_nil ending, fun hmem => ?_, fun heq => ?_,
    fun heq => ?_⟩
  · exact (List.mem_append.1 hmem).elim h.separator_notMem hending
  · have := congrArg List.length heq
    simp only [List.length_append, here, List.length_singleton] at this
    omega
  · have := congrArg List.length heq
    simp only [List.length_append, Path.above, List.length_cons, List.length_nil] at this
    omega

/-- A path whose last component is a name: the parts behind it are empty. -/
theorem exists_partsBackward_eq (h : p.segments = above ++ [name]) :
    ∃ rest, (∃ k, p.partsBackward = List.replicate k [] ++ name :: rest) ∧ names rest = above := by
  have hfilter : p.partsBackward.filter (· ≠ []) = name :: above.reverse := by
    have := congrArg List.reverse h
    rwa [segments_eq, names, List.reverse_reverse, List.reverse_append] at this
  obtain ⟨empties, rest, hparts, hempties, -, hrest⟩ := List.filter_eq_cons_iff.1 hfilter
  refine ⟨rest, ⟨empties.length, ?_⟩, ?_⟩
  · rw [hparts]
    refine congrArg (· ++ name :: rest) (List.eq_replicate_of_mem fun part hpart => ?_)
    simpa using hempties part hpart
  · rw [names, hrest, List.reverse_reverse]

theorem dropIdle_replicate_append (k : Nat) (h : parts ≠ []) :
    dropIdle (List.replicate k [] ++ parts) = dropIdle parts := by
  induction k with
  | zero => rfl
  | succ k ih =>
    rw [List.replicate_succ, List.cons_append, dropIdle_cons_nil, ih]
    exact List.append_ne_nil_of_right_ne_nil _ h

theorem separator_notMem_of_dropIdle (hdrop : dropIdle p.partsBackward = name :: rest) :
    ∀ part ∈ dropIdle rest, separator ∉ part := by
  intro part hpart
  have hmem : part ∈ dropIdle p.partsBackward :=
    hdrop ▸ List.mem_cons_of_mem name ((dropIdle_suffix rest).subset hpart)
  exact separator_notMem_of_mem_partsBackward ((dropIdle_suffix p.partsBackward).subset hmem)

/-- A path that ends in a name is a file of that name, and the path above has the other
    components, but for some at the end that stay where they are. -/
theorem fileName?_and_parent (hsegments : p.segments = above ++ [name]) (hname : IsName name) :
    p.fileName? = some name ∧ p.parent.isAbsolute = p.isAbsolute ∧
      ∃ k, above = p.parent.segments ++ List.replicate k here := by
  obtain ⟨rest, ⟨k, hparts⟩, hrest⟩ := exists_partsBackward_eq hsegments
  have hdrop : dropIdle p.partsBackward = name :: rest := by
    rw [hparts, dropIdle_replicate_append k (List.cons_ne_nil name rest),
      dropIdle_cons_of_name hname.ne_nil hname.ne_here]
  have hmem := separator_notMem_of_dropIdle hdrop
  have hparent : p.parent = ofBackward (dropIdle rest) := by rw [parent, hdrop, List.tail_cons]
  refine ⟨?_, ?_, ?_⟩
  · rw [fileName?, hdrop]
    refine if_neg ?_
    rintro (heq | heq | heq)
    · exact hname.ne_nil heq
    · exact hname.ne_here heq
    · exact hname.ne_above heq
  · have hglyphs : p.glyphs ≠ [] := by
      intro heq
      rw [segments, heq] at hsegments
      exact absurd hsegments.symm (by simp)
    rw [hparent, isAbsolute_ofBackward hmem, isAbsolute_eq, bne_iff_ne.2 hglyphs, Bool.true_and]
    cases rest with
    | nil =>
      rw [hparts, isRooted, isRooted, List.getLast?_append]
      simp [dropIdle, hname.ne_nil]
    | cons part rest =>
      have hsuffix : part :: rest <:+ p.partsBackward :=
        hparts ▸ (List.suffix_cons name (part :: rest)).trans (List.suffix_append _ _)
      rw [isRooted_of_suffix (dropIdle_suffix (part :: rest)) (dropIdle_ne_nil (by simp)),
        isRooted_of_suffix hsuffix (List.cons_ne_nil part rest)]
  · rw [← hrest, hparent, segments_ofBackward hmem]
    exact exists_names_eq rest

/-! ## Joined names -/

/-- A name is joined behind the parts of a path, but for an empty one at its end. -/
theorem partsBackward_join (hname : separator ∉ name) :
    ∃ rest, (q.join name).partsBackward = name :: rest ∧
      (q.partsBackward = rest ∨ q.partsBackward = [] :: rest) := by
  have hsplit : name.splitOn separator = [name] := List.splitOn_eq_singleton hname
  unfold join
  split
  · next h =>
    by_cases hempty : q.glyphs = []
    · refine ⟨[], ?_, .inr ?_⟩
      · rw [partsBackward, hempty, List.nil_append, hsplit]
        rfl
      · rw [partsBackward, hempty]
        rfl
    · have hlast : q.glyphs.getLast? = some separator := by
        simpa [hempty, endsInSeparator] using h
      obtain ⟨t, ht⟩ : ∃ t, q.glyphs = t ++ [separator] := List.getLast?_eq_some_iff.1 hlast
      refine ⟨(t.splitOn separator).reverse, ?_, .inr ?_⟩
      · rw [partsBackward, ht, List.append_assoc, List.singleton_append,
          List.splitOn_append_cons_self, hsplit, List.reverse_append, List.reverse_singleton,
          List.singleton_append]
      · rw [partsBackward, ht, List.splitOn_append_cons_self, List.splitOn_nil,
          List.reverse_append, List.reverse_singleton, List.singleton_append]
  · refine ⟨q.partsBackward, ?_, .inl rfl⟩
    rw [partsBackward, List.splitOn_append_cons_self, hsplit, List.reverse_append,
      List.reverse_singleton, List.singleton_append, partsBackward]

theorem segments_join (hname : IsName name) : (q.join name).segments = q.segments ++ [name] := by
  obtain ⟨rest, hparts, hrest⟩ := partsBackward_join (q := q) hname.separator_notMem
  have hnames : q.segments = names rest := by
    rw [segments_eq]
    rcases hrest with h | h
    · rw [h]
    · rw [h, names_cons, if_pos rfl, List.append_nil]
  rw [segments_eq, hparts, names_cons, if_neg hname.ne_nil, hnames]

theorem isAbsolute_join (hname : IsName name) : (q.join name).isAbsolute = q.isAbsolute := by
  have hhead : name.head? ≠ some separator := fun h =>
    hname.separator_notMem (List.mem_of_mem_head? h)
  rw [isAbsolute, isAbsolute, join]
  by_cases hempty : q.glyphs = []
  · simp [hempty, hhead]
  · obtain ⟨c, t, ht⟩ := List.exists_cons_of_ne_nil hempty
    split <;> rw [ht] <;> rfl

theorem endsInSeparator_join (hname : IsName name) : (q.join name).endsInSeparator = false := by
  obtain ⟨t, c, rfl⟩ : ∃ t c, name = t ++ [c] :=
    ⟨_, _, (List.dropLast_concat_getLast hname.ne_nil).symm⟩
  have hc : c ≠ separator := fun heq =>
    hname.separator_notMem (heq ▸ List.mem_append_right t List.mem_cons_self)
  have hglyphs : ∃ s, (q.join (t ++ [c])).glyphs = s ++ [c] := by
    unfold join
    split
    · exact ⟨q.glyphs ++ t, (List.append_assoc _ _ _).symm⟩
    · exact ⟨q.glyphs ++ separator :: t, by rw [List.append_assoc, List.cons_append]⟩
  obtain ⟨s, hs⟩ := hglyphs
  rw [endsInSeparator, hs, List.getLast?_concat]
  exact beq_eq_false_iff_ne.2 fun heq => hc (Option.some.inj heq)

/-! ## Paths above -/

theorem mem_ancestorsBackward (h : q ∈ ancestorsBackward parts) :
    ∃ rest, rest <:+ parts ∧ rest ≠ [] ∧ q = ofBackward rest := by
  induction parts with
  | nil => exact absurd h List.not_mem_nil
  | cons part rest ih =>
    rw [ancestorsBackward] at h
    split at h
    · obtain ⟨others, hsuffix, hne, heq⟩ := ih h
      exact ⟨others, hsuffix.trans (List.suffix_cons part rest), hne, heq⟩
    · split at h
      · exact absurd h List.not_mem_nil
      · rcases List.mem_cons.1 h with rfl | h
        · exact ⟨_, List.suffix_refl _, List.cons_ne_nil part rest, rfl⟩
        · obtain ⟨others, hsuffix, hne, heq⟩ := ih h
          exact ⟨others, hsuffix.trans (List.suffix_cons part rest), hne, heq⟩

/-- A path above starts where the path does and takes some of its steps. -/
theorem segments_prefix_of_mem_ancestors (h : q ∈ p.ancestors) :
    q.isAbsolute = p.isAbsolute ∧ q.segments <+: p.segments := by
  obtain ⟨rest, hsuffix, hne, rfl⟩ := mem_ancestorsBackward h
  have hsuffix : rest <:+ p.partsBackward :=
    hsuffix.trans ((List.tail_suffix _).trans (dropIdle_suffix _))
  have hmem : ∀ part ∈ rest, separator ∉ part := fun part hpart =>
    separator_notMem_of_mem_partsBackward (hsuffix.subset hpart)
  constructor
  · have hglyphs : p.glyphs ≠ [] := by
      intro heq
      rw [ancestors, partsBackward, heq] at h
      exact List.not_mem_nil h
    rw [isAbsolute_ofBackward hmem, isRooted_of_suffix hsuffix hne, isAbsolute_eq,
      bne_iff_ne.2 hglyphs, Bool.true_and]
  · rw [segments_ofBackward hmem, segments_eq, names, names, List.reverse_prefix]
    exact hsuffix.filter _

end ShaderVariants.Path
