import Mathlib.Data.List.Induction
import Mathlib.Data.List.Nodup
import ShaderVariants.Proofs.InSync

/-!
# Where outputs go

The name of a file, a name joined to a directory and a name put beside a path are each read off
the text of a path in a way of their own. Here all three are said of the components of the path,
and of where walks along it lead. With that the two outputs and their temporary files are four
names in the output directory, whatever the input and the directory look like.
-/

namespace ShaderVariants

namespace Path

variable {p q : Path} {name : Glyphs} {parts : List Glyphs}

/-! ## Components -/

/-- The components of a path behind the root, if it starts there: empty ones count for nothing,
    and neither does `.` except at the start. -/
def components (p : Path) : List Glyphs :=
  match p.glyphs.splitOn separator with
  | [] => []
  | first :: rest =>
    [first].filter (· ≠ []) ++ rest.filter fun part => part ≠ [] ∧ part ≠ here

/-- The components among parts that are given last first. -/
def solid : List Glyphs → List Glyphs
  | [] => []
  | part :: rest =>
    if part = [] ∨ (part = here ∧ rest ≠ []) then solid rest else part :: solid rest

theorem solid_reverse (first : Glyphs) (rest : List Glyphs) :
    (solid (first :: rest).reverse).reverse =
      [first].filter (· ≠ []) ++ rest.filter fun part => part ≠ [] ∧ part ≠ here := by
  induction rest using List.reverseRecOn with
  | nil => by_cases h : first = [] <;> simp [solid, h]
  | append_singleton rest part ih =>
    have hreverse : (first :: (rest ++ [part])).reverse = part :: (first :: rest).reverse := by simp
    rw [hreverse, solid, List.filter_append, ← List.append_assoc, ← ih]
    by_cases hpart : part = [] ∨ part = here
    · rcases hpart with rfl | rfl <;> simp [here]
    · obtain ⟨hne, hhere⟩ := not_or.1 hpart
      simp [hne, hhere]

theorem components_eq (p : Path) : p.components = (solid p.partsBackward).reverse := by
  obtain ⟨first, rest, hsplit⟩ :=
    List.exists_cons_of_ne_nil (List.splitOn_ne_nil separator p.glyphs)
  rw [components, partsBackward, hsplit, solid_reverse]

theorem solid_dropIdle (parts : List Glyphs) : solid (dropIdle parts) = solid parts := by
  induction parts with
  | nil => rfl
  | cons part rest ih =>
    rw [dropIdle]
    split
    · next hidle =>
      rw [ih, solid, if_pos (hidle.2.imp_right fun hhere => ⟨hhere, hidle.1⟩)]
    · rfl

theorem solid_cons_of_name (hname : IsName name) (rest : List Glyphs) :
    solid (name :: rest) = name :: solid rest := by
  rw [solid, if_neg]
  rintro (h | ⟨h, -⟩)
  · exact hname.ne_nil h
  · exact hname.ne_here h

theorem exists_dropIdle_eq_of_solid (h : (solid parts).head? = some name) (hhere : name ≠ here) :
    name ≠ [] ∧ ∃ rest, dropIdle parts = name :: rest := by
  induction parts with
  | nil => cases h
  | cons part rest ih =>
    rw [solid] at h
    by_cases hidle : part = [] ∨ (part = here ∧ rest ≠ [])
    · rw [if_pos hidle] at h
      have hrest : rest ≠ [] := by
        rintro rfl
        cases h
      rw [dropIdle, if_pos ⟨hrest, hidle.imp_right And.left⟩]
      exact ih h
    · rw [if_neg hidle] at h
      obtain rfl := Option.some.inj h
      have hne : part ≠ [] := fun hempty => hidle (.inl hempty)
      exact ⟨hne, rest, dropIdle_cons_of_name hne hhere⟩

/-- The name of a file is the last component, unless that is `.` or `..`. -/
theorem fileName?_eq_some_iff :
    p.fileName? = some name ↔
      p.components.getLast? = some name ∧ name ≠ here ∧ name ≠ Path.above := by
  rw [components_eq, List.getLast?_reverse]
  constructor
  · intro h
    have hname := isName_of_fileName? h
    obtain ⟨rest, hdrop, -⟩ := exists_dropIdle_eq h
    rw [← solid_dropIdle, hdrop, solid_cons_of_name hname]
    exact ⟨rfl, hname.ne_here, hname.ne_above⟩
  · rintro ⟨hlast, hhere, habove⟩
    obtain ⟨hne, rest, hdrop⟩ := exists_dropIdle_eq_of_solid hlast hhere
    rw [fileName?, hdrop]
    exact if_neg (by simp [hne, hhere, habove])

theorem components_ofBackward (hparts : ∀ part ∈ parts, separator ∉ part) :
    (ofBackward parts).components = (solid parts).reverse := by
  by_cases hne : parts = []
  · subst hne
    rfl
  · by_cases hroot : parts = [[]]
    · subst hroot
      decide
    · rw [components_eq, splitOn_ofBackward hne hroot hparts]

/-- Above the name of a file are the components of the path above. -/
theorem components_eq_concat (h : p.fileName? = some name) :
    p.components = p.parent.components ++ [name] := by
  obtain ⟨rest, hdrop, -⟩ := exists_dropIdle_eq h
  rw [parent, hdrop, List.tail_cons,
    components_ofBackward (separator_notMem_of_dropIdle hdrop), solid_dropIdle, components_eq,
    ← solid_dropIdle, hdrop, solid_cons_of_name (isName_of_fileName? h), List.reverse_cons]

theorem components_join (hname : IsName name) :
    (q.join name).components = q.components ++ [name] := by
  obtain ⟨rest, hparts, hrest⟩ := partsBackward_join (q := q) hname.separator_notMem
  have hsolid : solid q.partsBackward = solid rest := by
    rcases hrest with h | h
    · rw [h]
    · rw [h, solid, if_pos (.inl rfl)]
  rw [components_eq, components_eq, hparts, solid_cons_of_name hname, List.reverse_cons, hsolid]

theorem join_eq_join_iff {name' : Glyphs} (hname : IsName name) (hname' : IsName name') :
    q.join name = q.join name' ↔ name = name' := by
  refine ⟨fun h => ?_, congrArg q.join⟩
  have hcomponents := congrArg components h
  rw [components_join hname, components_join hname'] at hcomponents
  exact List.singleton_inj.1 (List.append_cancel_left hcomponents)

/-- Without a name for a file the last component is `.` or `..`, if there is one. -/
theorem fileName?_eq_none_iff :
    p.fileName? = none ↔ ∀ name, p.components.getLast? = some name →
      name = here ∨ name = Path.above := by
  rw [Option.eq_none_iff_forall_ne_some]
  refine forall_congr' fun name => ?_
  rw [ne_eq, fileName?_eq_some_iff, not_and, ← not_or, not_not]

end Path

/-! ## Children of a directory -/

open FileTree

/-- The path denotes the entry `name` of a directory, which need not be there: its components are
    those of the directory and the name, and in every tree where the system takes it, it leads to
    that name in the directory and nowhere else. -/
structure IsChild (p directory : Path) (name : Glyphs) : Prop where
  isAbsolute_eq : p.isAbsolute = directory.isAbsolute
  components_eq : p.components = directory.components ++ [name]
  /-- It asks for no directory. -/
  endsInSeparator_eq : p.endsInSeparator = false
  place_eq_ok_iff : ∀ {t : FileTree} {place : Place}, t.place p = .ok place ↔
    (∃ origin, t.start p = .ok origin) ∧
      ∃ D, t.directory? directory = some D ∧ place = .child D name
  resolve_eq : ∀ {t : FileTree} {l : Location}, t.resolve p = .ok l →
    ∃ D, t.directory? directory = some D ∧ l = D ++ [name]

section

variable {p q : Path} {name file : Glyphs} {t : FileTree} {l : Location}

theorem FileTree.place_join_eq_ok_iff (hname : Path.IsName name) {place : Place} :
    t.place (q.join name) = .ok place ↔
      (∃ origin, t.start (q.join name) = .ok origin) ∧
        ∃ D, t.directory? q = some D ∧ place = .child D name := by
  have hsegments := Path.segments_join (q := q) hname
  have horigin : t.origin (q.join name) = t.origin q := by
    rw [origin, origin, Path.isAbsolute_join hname]
  constructor
  · intro h
    cases hstart : t.start (q.join name) with
    | error _ => simp [FileTree.place, hstart, bind, Except.bind] at h
    | ok origin =>
      obtain rfl := start_eq_ok hstart
      rw [place_of_segments hstart hsegments] at h
      obtain ⟨D, hwalk, h⟩ := Except.exists_of_bind_eq_ok h
      obtain ⟨_, hcheck, h⟩ := Except.exists_of_bind_eq_ok h
      rw [if_neg (not_or.2 ⟨hname.ne_here, hname.ne_above⟩)] at h
      refine ⟨⟨_, rfl⟩, D, ?_, (Except.ok.inj h).symm⟩
      rw [directory?, ← horigin]
      exact reach?_eq_some_iff.2 ⟨hwalk, (checkDirectory_eq_ok t D).1 hcheck⟩
  · rintro ⟨⟨l, hstart⟩, D, hD, rfl⟩
    obtain rfl := start_eq_ok hstart
    refine place_eq_child_iff.2 ⟨hstart, q.segments, hsegments, hname.ne_here, hname.ne_above, ?_⟩
    rw [horigin]
    exact hD

theorem FileTree.resolve_join (hname : Path.IsName name) (h : t.resolve (q.join name) = .ok l) :
    ∃ D, t.directory? q = some D ∧ l = D ++ [name] := by
  rw [resolve_eq (start_of_resolve h), Path.endsInSeparator_join hname, if_neg Bool.false_ne_true,
    List.append_nil, Path.segments_join hname, walk_append] at h
  obtain ⟨D, hwalk, hstep⟩ := Except.exists_of_bind_eq_ok h
  rw [walk_singleton] at hstep
  obtain ⟨hD, way, hturn, rfl⟩ := step_eq_ok.1 hstep
  rw [turn_of_name hname.ne_here hname.ne_above] at hturn
  split at hturn
  · obtain rfl := Except.ok.inj hturn
    refine ⟨D, ?_, rfl⟩
    rw [directory?, origin, ← Path.isAbsolute_join hname]
    exact reach?_eq_some_iff.2 ⟨hwalk, hD⟩
  · cases hturn

theorem isChild_join (hname : Path.IsName name) : IsChild (q.join name) q name where
  isAbsolute_eq := Path.isAbsolute_join hname
  components_eq := Path.components_join hname
  endsInSeparator_eq := Path.endsInSeparator_join hname
  place_eq_ok_iff := place_join_eq_ok_iff hname
  resolve_eq := resolve_join hname

/-- Above a name joined to a directory is the directory, though it may be written differently. -/
theorem isChild_join_parent (hfile : Path.IsName file) (hname : Path.IsName name) :
    IsChild ((q.join file).parent.join name) q name := by
  have hsegments := Path.segments_join (q := q) hfile
  obtain ⟨hfileName, habsolute, k, habove⟩ := Path.fileName?_and_parent hsegments hfile
  rw [Path.isAbsolute_join hfile] at habsolute
  have hcomponents : (q.join file).parent.components = q.components := by
    have h := (Path.components_eq_concat hfileName).symm.trans (Path.components_join hfile)
    exact List.append_cancel_right h
  have hdirectory (t : FileTree) : t.directory? (q.join file).parent = t.directory? q := by
    rw [directory?, directory?, habove, reach?_append_here, origin, origin, habsolute]
  have hchild : IsChild ((q.join file).parent.join name) (q.join file).parent name :=
    isChild_join hname
  refine ⟨hchild.isAbsolute_eq.trans habsolute, ?_, hchild.endsInSeparator_eq, ?_, ?_⟩
  · rw [hchild.components_eq, hcomponents]
  · intro t place
    rw [← hdirectory]
    exact hchild.place_eq_ok_iff
  · intro t l hl
    rw [← hdirectory]
    exact hchild.resolve_eq hl

/-- A name in a directory has its temporary file in the same directory. -/
theorem exists_temporary?_join (hfile : Path.IsName file) :
    ∃ temporary, Publish.temporary? (q.join file) = some temporary ∧
      IsChild temporary q (file ++ .ofText Publish.ending) := by
  have hname : Path.IsName (file ++ .ofText Publish.ending) :=
    hfile.append (by simp [Publish.ending_eq]) (by rw [Publish.ending_eq]; decide)
  refine ⟨(q.join file).parent.join (file ++ .ofText Publish.ending), ?_,
    isChild_join_parent hfile hname⟩
  rw [Publish.temporary?, Path.sibling?,
    (Path.fileName?_and_parent (Path.segments_join hfile) hfile).1, Option.map_some]

end

/-! ## The outputs of an input -/

section

variable {input outputDir : Path} {name : Text}

theorem fileName?_of_ofInput_eq_error {f : Failure}
    (h : OutputPaths.ofInput input outputDir = .error f) : input.fileName? = none := by
  cases hname : input.fileName? with
  | none => rfl
  | some file =>
    rw [OutputPaths.ofInput, Run.inputName_eq_ok_iff.2 ⟨file, hname, rfl⟩] at h
    cases h

theorem isName_header (hname : Path.IsName (.ofText name)) :
    Path.IsName (.ofText (Header.fileName name)) :=
  Run.isName_of_mem_fileNames hname List.mem_cons_self

theorem isName_definition (hname : Path.IsName (.ofText name)) :
    Path.IsName (.ofText (Definition.fileName name)) :=
  Run.isName_of_mem_fileNames hname (List.mem_cons_of_mem _ List.mem_cons_self)

/-- In one directory each output tells the name that it is for. -/
theorem ofName_eq_ofName_iff {name' : Text} (hname : Path.IsName (.ofText name))
    (hname' : Path.IsName (.ofText name')) :
    ((OutputPaths.ofName name outputDir).header = (OutputPaths.ofName name' outputDir).header ↔
      name = name') ∧
    ((OutputPaths.ofName name outputDir).definition =
      (OutputPaths.ofName name' outputDir).definition ↔ name = name') := by
  constructor
  · rw [OutputPaths.ofName, OutputPaths.ofName,
      Path.join_eq_join_iff (isName_header hname) (isName_header hname'), Glyphs.ofText_inj]
    exact List.append_left_inj _
  · rw [OutputPaths.ofName, OutputPaths.ofName,
      Path.join_eq_join_iff (isName_definition hname) (isName_definition hname'),
      Glyphs.ofText_inj]
    exact List.append_left_inj _

theorem nodup_outputNames (name : Text) :
    [name ++ ".h", name ++ ".cpp", name ++ ".h.tmp", name ++ ".cpp.tmp"].Nodup := by
  have hendings : ([".h", ".cpp", ".h.tmp", ".cpp.tmp"] : List Text).Nodup := by decide +kernel
  exact List.Nodup.map (List.append_right_injective name) hendings

end

/-- A path that is written as a text has a text for its file name. -/
theorem fileName?_ofText {input name : Text}
    (h : inputName (input : Path) = .ok name) :
    (input : Path).fileName? = some (.ofText name) := by
  obtain ⟨file, hfile, rfl⟩ := Run.inputName_eq_ok_iff.1 h
  obtain ⟨rest, hdrop, -⟩ := Path.exists_dropIdle_eq hfile
  have hmem : file ∈ (Glyphs.ofText input).splitOn Path.separator := by
    have hsuffix := Path.dropIdle_suffix (input : Path).partsBackward
    exact List.mem_reverse.1 (hsuffix.subset (hdrop ▸ List.mem_cons_self))
  rw [hfile, Glyphs.ofText_shown_of_subset (Path.subset_of_mem_splitOn hmem)]

/-- Whatever the paths look like, the two outputs and their temporary files are four names in the
    output directory, and they go by the last component of the input alone. Without outputs that
    component is missing, or it is `.` or `..`. -/
theorem outputs_isChild (input : Text) (outputDir : Path) :
    (∀ paths, OutputPaths.ofInput input outputDir = .ok paths →
      ∃ name headerTemporary definitionTemporary,
        inputName input = .ok name ∧
        (input : Path).components.getLast? = some (.ofText name) ∧ Path.IsName (.ofText name) ∧
        Publish.temporary? paths.header = some headerTemporary ∧
        Publish.temporary? paths.definition = some definitionTemporary ∧
        IsChild paths.header outputDir (.ofText (name ++ ".h")) ∧
        IsChild paths.definition outputDir (.ofText (name ++ ".cpp")) ∧
        IsChild headerTemporary outputDir (.ofText (name ++ ".h.tmp")) ∧
        IsChild definitionTemporary outputDir (.ofText (name ++ ".cpp.tmp")) ∧
        [name ++ ".h", name ++ ".cpp", name ++ ".h.tmp", name ++ ".cpp.tmp"].Nodup ∧
        ∀ (input' : Text) paths', OutputPaths.ofInput input' outputDir = .ok paths' →
          (paths'.header = paths.header ↔
            (input' : Path).components.getLast? = (input : Path).components.getLast?) ∧
          (paths'.definition = paths.definition ↔
            (input' : Path).components.getLast? = (input : Path).components.getLast?)) ∧
    ∀ f, OutputPaths.ofInput input outputDir = .error f →
      ∀ last, (input : Path).components.getLast? = some last →
        last = Path.here ∨ last = Path.above := by
  refine ⟨fun paths hpaths => ?_, fun f hf => ?_⟩
  · obtain ⟨name, hinput, rfl⟩ := Run.ofInput_eq_ok_iff.1 hpaths
    have hname := Run.isName_of_inputName hinput
    have hlast := (Path.fileName?_eq_some_iff.1 (fileName?_ofText hinput)).1
    obtain ⟨headerTemporary, hheaderTemporary, hheaderChild⟩ :=
      exists_temporary?_join (q := outputDir) (isName_header hname)
    obtain ⟨definitionTemporary, hdefinitionTemporary, hdefinitionChild⟩ :=
      exists_temporary?_join (q := outputDir) (isName_definition hname)
    have hheaderEnding : Header.fileName name ++ Publish.ending = name ++ ".h.tmp" := by
      rw [Header.fileName, List.append_assoc]
      exact congrArg (name ++ ·) (by decide +kernel)
    have hdefinitionEnding : Definition.fileName name ++ Publish.ending = name ++ ".cpp.tmp" := by
      rw [Definition.fileName, List.append_assoc]
      exact congrArg (name ++ ·) (by decide +kernel)
    rw [← Glyphs.ofText_append, hheaderEnding] at hheaderChild
    rw [← Glyphs.ofText_append, hdefinitionEnding] at hdefinitionChild
    refine ⟨name, headerTemporary, definitionTemporary, hinput, hlast, hname, hheaderTemporary,
      hdefinitionTemporary, isChild_join (isName_header hname),
      isChild_join (isName_definition hname), hheaderChild, hdefinitionChild,
      nodup_outputNames name, ?_⟩
    intro input' paths' hpaths'
    obtain ⟨name', hinput', rfl⟩ := Run.ofInput_eq_ok_iff.1 hpaths'
    have hname' := Run.isName_of_inputName hinput'
    have hlast' := (Path.fileName?_eq_some_iff.1 (fileName?_ofText hinput')).1
    rw [hlast, hlast', Option.some.injEq, Glyphs.ofText_inj]
    exact ofName_eq_ofName_iff hname' hname
  · exact Path.fileName?_eq_none_iff.1 (fileName?_of_ofInput_eq_error hf)

/-- An input and a directory that end in `.`, another input with the same name, and one that ends
    in `..`. -/
theorem outputs_isChild_dots :
    (∃ temporary, Publish.temporary? ⟨"gen/./basic.glsl.h"⟩ = some temporary ∧
      IsChild temporary ⟨"gen/."⟩ "basic.glsl.h.tmp") ∧
    (Path.components ⟨"/basic.glsl"⟩).getLast? =
      (Path.components ⟨"shaders//basic.glsl/./"⟩).getLast? ∧
    OutputPaths.ofInput ⟨"shaders/.."⟩ ⟨"gen/."⟩ = .error (.io ⟨"shaders/.."⟩ .noInputName) ∧
    ∀ last, (Path.components ⟨"shaders/.."⟩).getLast? = some last →
      last = Path.here ∨ last = Path.above := by
  have hpaths : OutputPaths.ofInput ⟨"shaders//basic.glsl/./"⟩ ⟨"gen/."⟩ =
      .ok ⟨⟨"gen/./basic.glsl.h"⟩, ⟨"gen/./basic.glsl.cpp"⟩⟩ := by decide +kernel
  have hpaths' : OutputPaths.ofInput ⟨"/basic.glsl"⟩ ⟨"gen/."⟩ =
      .ok ⟨⟨"gen/./basic.glsl.h"⟩, ⟨"gen/./basic.glsl.cpp"⟩⟩ := by decide +kernel
  have hnone : OutputPaths.ofInput ⟨"shaders/.."⟩ ⟨"gen/."⟩ =
      .error (.io ⟨"shaders/.."⟩ .noInputName) := by decide +kernel
  have hinput : inputName ⟨"shaders//basic.glsl/./"⟩ = .ok "basic.glsl" := by decide +kernel
  have htext : ("basic.glsl" : Text) ++ ".h.tmp" = "basic.glsl.h.tmp" := by decide +kernel
  obtain ⟨name, temporary, -, hname, -, -, htemporary, -, -, -, hchild, -, -, hsame⟩ :=
    (outputs_isChild _ _).1 _ hpaths
  obtain rfl : "basic.glsl" = name := Except.ok.inj (hinput.symm.trans hname)
  refine ⟨⟨temporary, htemporary, htext ▸ hchild⟩, ?_, hnone, (outputs_isChild _ _).2 _ hnone⟩
  exact (hsame _ _ hpaths').1.1 rfl

end ShaderVariants
