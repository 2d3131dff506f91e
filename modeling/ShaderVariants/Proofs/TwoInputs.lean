import ShaderVariants.Proofs.InSync
import ShaderVariants.Proofs.ReadyOutputs

/-!
# Two inputs

The files of two inputs whose names are shown differently never meet in an output directory,
nor do their temporary files. So the files of both can be generated in either order, with the
same tree in the end, and there both are in sync. Names that are no texts may be shown alike,
and then the files of both inputs go to the same places.
-/

namespace ShaderVariants

namespace FileTree

variable {t : FileTree} {q : Path} {d l : Location} {name : Glyphs}

theorem start_of_join (h : t.start (q.join name) = .ok l) (hne : q.glyphs ≠ []) :
    t.start q = .ok (t.origin q) := by
  have hprefix : ∃ rest, (q.join name).glyphs = q.glyphs ++ rest := by
    unfold Path.join
    split
    · exact ⟨name, rfl⟩
    · exact ⟨Path.separator :: name, rfl⟩
  obtain ⟨rest, hrest⟩ := hprefix
  unfold start at h
  split at h
  · exact absurd h nofun
  next hnul =>
  split at h
  · exact absurd h nofun
  split at h
  · exact absurd h nofun
  next hsize =>
  rw [hrest, List.mem_append, not_or] at hnul
  rw [hrest, Glyphs.size_append] at hsize
  rw [start, if_neg hnul.1, if_neg hne, if_neg (by omega)]
  rfl

/-- A directory in which the system takes a path is there, unless its own path is empty. -/
theorem isDirectory_of_location?_join (hl : t.location? (q.join name) = some l)
    (hd : t.directory? q = some d) : q.glyphs = [] ∨ t.isDirectory q = true := by
  by_cases hne : q.glyphs = []
  · exact .inl hne
  right
  obtain ⟨hjoin, -⟩ := walk_of_location? hl
  have hstart := start_of_join hjoin hne
  obtain ⟨hwalk, hdirectory⟩ := reach?_eq_some_iff.1 hd
  have hresolve : t.resolve q = .ok d := by
    rw [resolve_eq hstart, walk_append, hwalk, Except.bind]
    split
    · rw [walk_singleton]
      exact step_here_eq_ok.2 ⟨hdirectory, rfl⟩
    · exact t.walk_nil d
  rw [isDirectory, entryAt?_eq_directory_iff.2 ⟨d, hresolve, hdirectory⟩]
  rfl

end FileTree

namespace Run

open FileTree Publish

variable {t u g g' : FileTree} {w w' w₁ w₂ : Workspace} {input input' outputDir : Path}
  {settings settings' : Settings} {paths : OutputPaths} {artifacts artifacts' : Artifacts}
  {name name' e e' source : Text} {D D' l : Location}

/-! ## Names that are touched -/

/-- What the names of the files and of their temporary files have behind the name of the input. -/
def endings : List Text :=
  [['.', 'h'], ['.', 'c', 'p', 'p'], ['.', 'h', '.', 't', 'm', 'p'],
    ['.', 'c', 'p', 'p', '.', 't', 'm', 'p']]

/-- No ending is the end of another, so the name of the input is known from that of a file. -/
theorem name_eq_of_append_eq (he : e ∈ endings) (he' : e' ∈ endings)
    (h : name ++ e = name' ++ e') : name = name' := by
  have hapart : ∀ e ∈ endings, ∀ e' ∈ endings, e <:+ e' → e = e' := by decide
  have heq : e = e' := by
    rcases List.suffix_or_suffix_of_suffix (List.suffix_append name e)
      (h ▸ List.suffix_append name' e') with hsuffix | hsuffix
    · exact hapart e he e' he' hsuffix
    · exact (hapart e' he' e he hsuffix).symm
  rw [heq] at h
  exact List.append_cancel_right h

theorem exists_of_touches (hname : Path.IsName (.ofText name))
    (hD : t.directory? outputDir = some D)
    (h : Touches t (outputs (.ofName name outputDir) artifacts) l) :
    ∃ e ∈ endings, l = D ++ [.ofText (name ++ e)] := by
  obtain ⟨o, ho, k, hk, hl⟩ := h
  obtain ⟨file, hfile, hpath⟩ := exists_of_mem_outputs ho
  rw [hpath, site?_join_fileName hname t hfile, hD, Option.map_some, Option.some.injEq] at hk
  obtain ⟨e, he, rfl⟩ := exists_of_mem_fileNames hfile
  rw [← hk, temporarySite_concat, ← Glyphs.ofText_append, List.append_assoc, ending_eq] at hl
  rcases he with rfl | rfl <;> rcases hl with rfl | rfl <;> exact ⟨_, by decide, rfl⟩

/-! ## Generating as two changes -/

/-- Generating first makes directories, which gives `g`, and then publishes the two files, which
    gives `u`. -/
structure Produced (t : FileTree) (input outputDir : Path) (settings : Settings) (name : Text)
    (artifacts : Artifacts) (g u : FileTree) (D : Location) : Prop where
  inputName_eq : inputName input = .ok name
  artifactsIn_eq : artifactsIn t input settings = .ok artifacts
  grown : Grown t outputDir g
  directory?_eq : g.directory? outputDir = some D
  ready : ∀ o ∈ outputs (.ofName name outputDir) artifacts, Ready g o
  published : Published g (outputs (.ofName name outputDir) artifacts) u

theorem exists_produced (h : w.run (generate input outputDir settings) = (.ok paths, w')) :
    ∃ name artifacts g D, paths = .ofName name outputDir ∧
      Produced w.files input outputDir settings name artifacts g w'.files D := by
  rcases generate_run h with ⟨f, -, hr, -⟩ | ⟨paths', artifacts, hpaths, hartifacts, hwrite⟩
  · exact absurd hr nofun
  rcases hwrite with ⟨cause, hr, -⟩ | ⟨w₁, s, hgrown, hpublish, hr⟩
  · exact absurd hr nofun
  cases s with
  | error f => exact absurd hr nofun
  | ok _ =>
    obtain rfl := Except.ok.inj hr
    obtain ⟨name, hname, rfl⟩ := ofInput_eq_ok_iff.1 hpaths
    have hisName := isName_of_inputName hname
    have hdistinct : Distinct w₁.files (outputs (.ofName name outputDir) artifacts) :=
      distinct_outputs hisName
    have hready := (exists_publish_eq_ok_iff hdistinct).1 ⟨w', hpublish⟩
    obtain ⟨-, q, l, -, hl, -⟩ := hready _ List.mem_cons_self
    have hsite := site?_of_location? hl
    rw [OutputPaths.ofName, site?_join_fileName hisName _ List.mem_cons_self] at hsite
    obtain ⟨D, hD, -⟩ := Option.map_eq_some_iff.1 hsite
    exact ⟨name, artifacts, w₁.files, D, rfl, hname, hartifacts, hgrown, hD, hready,
      published_of_publish_eq_ok hdistinct
        (fun a ha b hb => not_takesTemporary_outputs hisName ha hb) hpublish⟩

/-- Into a directory that is there files can be generated if they can be published. -/
theorem exists_generate_eq_ok (hname : inputName input = .ok name)
    (hartifacts : artifactsIn w.files input settings = .ok artifacts)
    (hD : w.files.directory? outputDir = some D)
    (hready : ∀ o ∈ outputs (.ofName name outputDir) artifacts, Ready w.files o) :
    ∃ w', w.run (generate input outputDir settings) = (.ok (.ofName name outputDir), w') := by
  rcases hrun : w.run (generate input outputDir settings) with ⟨r, w'⟩
  rcases generate_cases hrun with
    ⟨f, herror, -⟩ | ⟨paths, artifacts', w₁, hpaths, hartifacts', hfiles, hwrite⟩
  · exact absurd (hartifacts.symm.trans herror) nofun
  obtain rfl := Except.ok.inj (hartifacts.symm.trans hartifacts')
  obtain ⟨name', hname', rfl⟩ := ofInput_eq_ok_iff.1 hpaths
  obtain rfl := Except.ok.inj (hname.symm.trans hname')
  rw [← hfiles] at hD hready
  obtain ⟨-, q, l, -, hl, -⟩ := hready _ List.mem_cons_self
  have hmake := Session.makeDirectories_of_isDirectory (isDirectory_of_location?_join hl hD)
  obtain ⟨w₂, hpublish⟩ :=
    (exists_publish_eq_ok_iff (distinct_outputs (isName_of_inputName hname))).2 hready
  rw [write_eq_ok _ hmake hpublish] at hwrite
  obtain ⟨rfl, -⟩ := Prod.mk.inj hwrite
  exact ⟨w', rfl⟩

/-! ## Inputs that stay -/

/-- The input is not where one of the files goes, nor where its temporary file goes. -/
def Avoids (t : FileTree) (input : Path) (paths : OutputPaths) : Prop :=
  ∀ p ∈ [paths.header, paths.definition], t.location? input ≠ t.location? p ∧
    ∀ q ∈ temporary? p, t.location? input ≠ t.location? q

instance (t : FileTree) (input : Path) (paths : OutputPaths) : Decidable (Avoids t input paths) :=
  inferInstanceAs (Decidable (∀ p ∈ [_, _], _ ∧ ∀ q ∈ temporary? p, _ ≠ _))

theorem Produced.readText (h : Produced t input outputDir settings name artifacts g u D)
    (havoids : Avoids u input' (.ofName name outputDir))
    (hread : t.readText input' = .ok source) : u.readText input' = .ok source := by
  have hgrown := h.grown.directoriesIn
  have hsame := h.published.sameDirectories
  have hin := hgrown.trans hsame.forth
  refine readText_of_directoriesIn hin ?_ hread
  intro l bytes hl hfile
  rw [h.published.find?_eq l, h.grown.find?_of_eq_some hfile]
  rintro ⟨o, ho, k, hk, hkl⟩
  have hl' := hin.location? hl
  obtain ⟨-, q, k', hq, hk', htemporary, -⟩ := h.ready o ho
  obtain rfl := Option.some.inj (hk.symm.trans (site?_of_location? hk'))
  obtain ⟨hne, hne'⟩ := havoids o.path (List.mem_map_of_mem ho)
  rcases hkl with rfl | rfl
  · exact hne (hl'.trans (hsame.forth.location? hk').symm)
  · exact hne' q hq (hl'.trans (hsame.forth.location? htemporary).symm)

theorem Produced.artifactsIn (h : Produced t input outputDir settings name artifacts g u D)
    (havoids : Avoids u input' (.ofName name outputDir))
    (h' : artifactsIn t input' settings' = .ok artifacts') :
    artifactsIn u input' settings' = .ok artifacts' := by
  obtain ⟨name', source, hname, hread, hresult⟩ := artifactsIn_eq_ok_iff.1 h'
  exact artifactsIn_eq_ok_iff.2 ⟨name', source, hname, h.readText havoids hread, hresult⟩

theorem artifactsIn_of_sameFiles (hsame : SameFiles t u)
    (h : artifactsIn t input settings = .ok artifacts) :
    artifactsIn u input settings = .ok artifacts := by
  obtain ⟨name, source, hname, hread, hresult⟩ := artifactsIn_eq_ok_iff.1 h
  exact artifactsIn_eq_ok_iff.2 ⟨name, source, hname, hsame.readText hread, hresult⟩

/-! ## One after the other -/

/-- After the files of one input those of another are generated as they would have been alone. -/
theorem Produced.exists_generate
    (h : Produced w.files input outputDir settings name artifacts g w₁.files D)
    (h' : Produced w.files input' outputDir settings' name' artifacts' g' u D')
    (havoids : Avoids w₁.files input' (.ofName name outputDir)) :
    ∃ w', w₁.run (generate input' outputDir settings') = (.ok (.ofName name' outputDir), w') ∧
      Published w₁.files (outputs (.ofName name' outputDir) artifacts') w'.files := by
  have hsame := h.published.sameDirectories
  have hD : w₁.files.directory? outputDir = some D := hsame.forth.directory? h.directory?_eq
  have hartifacts := h.artifactsIn havoids h'.artifactsIn_eq
  have hready : ∀ o ∈ outputs (.ofName name' outputDir) artifacts', Ready w₁.files o := by
    intro o ho
    have hgrown := h'.grown.sameFiles h.grown h'.directory?_eq h.directory?_eq
    exact (h'.ready o ho).congr (hgrown.sameDirectories.trans hsame)
  obtain ⟨w', hrun⟩ := exists_generate_eq_ok h'.inputName_eq hartifacts hD hready
  refine ⟨w', hrun, ?_⟩
  obtain ⟨name₁, artifacts₁, g₁, D₁, -, hproduced⟩ := exists_produced hrun
  obtain rfl := Except.ok.inj (h'.inputName_eq.symm.trans hproduced.inputName_eq)
  obtain rfl := Except.ok.inj (hartifacts.symm.trans hproduced.artifactsIn_eq)
  -- The directory is there, so nothing is made before publishing.
  exact hproduced.published.congr
    (hproduced.grown.sameFiles (.refl w₁.files outputDir) hproduced.directory?_eq hD)

theorem checkIn_of_sameFiles (hsame : SameFiles t u)
    (h : checkIn t input outputDir settings = .ok paths) :
    checkIn u input outputDir settings = .ok paths := by
  obtain ⟨hpaths, artifacts, hartifacts, hheader, hdefinition⟩ := checkIn_eq_ok_iff.1 h
  exact checkIn_eq_ok_iff.2 ⟨hpaths, artifacts, artifactsIn_of_sameFiles hsame hartifacts,
    hsame.readText hheader, hsame.readText hdefinition⟩

/-- The two inputs give the same texts. -/
def GiveSameTexts (t : FileTree) (input input' : Path) (settings settings' : Settings) : Prop :=
  (artifactsIn t input settings).map (fun a => (a.header, a.definition)) =
    (artifactsIn t input' settings').map fun a => (a.header, a.definition)

theorem outputs_eq_of_giveSameTexts (hartifacts : artifactsIn t input settings = .ok artifacts)
    (hartifacts' : artifactsIn t input' settings' = .ok artifacts')
    (h : GiveSameTexts t input input' settings settings') :
    outputs (.ofName name outputDir) artifacts = outputs (.ofName name outputDir) artifacts' := by
  rw [GiveSameTexts, hartifacts, hartifacts'] at h
  obtain ⟨hheader, hdefinition⟩ := Prod.mk.inj (Except.ok.inj h)
  rw [outputs, outputs, hheader, hdefinition]

/-- Two inputs that are in sync with the same files give the same texts. -/
theorem giveSameTexts_of_checkIn (h : checkIn t input outputDir settings = .ok paths)
    (h' : checkIn t input' outputDir settings' = .ok paths) :
    GiveSameTexts t input input' settings settings' := by
  obtain ⟨-, artifacts, hartifacts, hheader, hdefinition⟩ := checkIn_eq_ok_iff.1 h
  obtain ⟨-, artifacts', hartifacts', hheader', hdefinition'⟩ := checkIn_eq_ok_iff.1 h'
  rw [GiveSameTexts, hartifacts, hartifacts']
  refine congrArg Except.ok (Prod.ext ?_ ?_)
  · exact Except.ok.inj (hheader.symm.trans hheader')
  · exact Except.ok.inj (hdefinition.symm.trans hdefinition')

/-! ## In either order -/

section Orders

variable {v v' : FileTree}
  (h : Produced t input outputDir settings name artifacts g u D)
  (h' : Produced t input' outputDir settings' name' artifacts' g' u' D')
include h h'

theorem Produced.sameFiles_grown : SameFiles g' g :=
  h'.grown.sameFiles h.grown h'.directory?_eq h.directory?_eq

theorem Produced.not_touches (hne : name ≠ name') :
    ∀ l, Touches g (outputs (.ofName name outputDir) artifacts) l →
      ¬ Touches g (outputs (.ofName name' outputDir) artifacts') l := by
  intro l hl hl'
  obtain ⟨e, he, hle⟩ :=
    exists_of_touches (isName_of_inputName h.inputName_eq) h.directory?_eq hl
  obtain ⟨e', he', hle'⟩ :=
    exists_of_touches (isName_of_inputName h'.inputName_eq) h.directory?_eq hl'
  have hnames := List.singleton_inj.1 (List.append_cancel_left (hle.symm.trans hle'))
  exact hne (name_eq_of_append_eq he he' (Glyphs.ofText_inj.1 hnames))

theorem Produced.sameFiles_of_ne
    (hv : Published u (outputs (.ofName name' outputDir) artifacts') v)
    (hv' : Published u' (outputs (.ofName name outputDir) artifacts) v') (hne : name ≠ name') :
    SameFiles v v' :=
  Published.comm (h.not_touches h' hne) h.published hv
    (h'.published.congr (h.sameFiles_grown h')) hv'

/-- Where both have the same outputs, those are there whichever comes last. -/
theorem Produced.sameFiles_of_outputs_eq
    (hv : Published u (outputs (.ofName name' outputDir) artifacts') v)
    (hv' : Published u' (outputs (.ofName name outputDir) artifacts) v')
    (houtputs : outputs (.ofName name outputDir) artifacts =
      outputs (.ofName name' outputDir) artifacts') : SameFiles v v' := by
  have hpublished := h.published
  rw [houtputs] at hpublished hv'
  have hfirst := hpublished.again hv
  have hsecond := h'.published.again hv'
  have hbetween := hpublished.unique h'.published (h.sameFiles_grown h').symm
  exact (hfirst.symm.trans hbetween).trans hsecond

end Orders

section InSync

variable {v v' : Workspace} {paths' : OutputPaths}
  (hv : w₁.run (generate input' outputDir settings') = (.ok paths', v))
  (hv' : w₂.run (generate input outputDir settings) = (.ok paths, v'))
include hv hv'

/-- Each input is in sync where it was generated last, so both are where the files are the same. -/
theorem check_of_sameFiles (hsame : SameFiles v.files v'.files) :
    ∀ u ∈ [v, v'], (u.run (check input outputDir settings)).1 = .ok paths ∧
      (u.run (check input' outputDir settings')).1 = .ok paths' := by
  have hsync := checkIn_of_generate_eq_ok hv'
  have hsync' := checkIn_of_generate_eq_ok hv
  intro u hu
  rcases List.mem_pair.1 hu with rfl | rfl
  · exact ⟨(reads_check _ _ _ u).1.trans (checkIn_of_sameFiles hsame.symm hsync),
      (reads_check _ _ _ u).1.trans hsync'⟩
  · exact ⟨(reads_check _ _ _ u).1.trans hsync,
      (reads_check _ _ _ u).1.trans (checkIn_of_sameFiles hsame hsync')⟩

/-- Inputs that give their texts in the end as before, and are in sync with the same files there,
    gave the same texts before. -/
theorem giveSameTexts_of_check (hsame : SameFiles v.files v'.files)
    (hbefore : artifactsIn w₂.files input settings = .ok artifacts)
    (hbefore' : artifactsIn w₁.files input' settings' = .ok artifacts')
    (hcheck : (v.run (check input outputDir settings)).1 = .ok paths)
    (hcheck' : (v.run (check input' outputDir settings')).1 = .ok paths) :
    (artifacts.header, artifacts.definition) = (artifacts'.header, artifacts'.definition) := by
  have hgive := giveSameTexts_of_checkIn ((reads_check _ _ _ v).1.symm.trans hcheck)
    ((reads_check _ _ _ v).1.symm.trans hcheck')
  have hartifacts : artifactsIn v.files input settings = .ok artifacts :=
    artifactsIn_of_sameFiles hsame.symm ((artifactsIn_of_generate_eq_ok hv').trans hbefore)
  have hartifacts' : artifactsIn v.files input' settings' = .ok artifacts' :=
    (artifactsIn_of_generate_eq_ok hv).trans hbefore'
  rw [GiveSameTexts, hartifacts, hartifacts'] at hgive
  exact Except.ok.inj hgive

end InSync

/-- The files of two inputs can be generated in either order. The same files are there in the end,
    with both inputs in sync, just if the names of the inputs are shown differently or the two
    give the same texts. Where the files of an input go is asked after they were generated, since
    the output directory need not be there before. -/
theorem generate_comm {paths' : OutputPaths}
    (h : w.run (generate input outputDir settings) = (.ok paths, w₁))
    (h' : w.run (generate input' outputDir settings') = (.ok paths', w₂))
    (havoids : Avoids w₂.files input paths') (havoids' : Avoids w₁.files input' paths) :
    ∃ v v', w₁.run (generate input' outputDir settings') = (.ok paths', v) ∧
      w₂.run (generate input outputDir settings) = (.ok paths, v') ∧
      ((SameFiles v.files v'.files ∧
        ∀ u ∈ [v, v'], (u.run (check input outputDir settings)).1 = .ok paths ∧
          (u.run (check input' outputDir settings')).1 = .ok paths') ↔
        inputName input ≠ inputName input' ∨
          GiveSameTexts w.files input input' settings settings') := by
  obtain ⟨name, artifacts, g, D, rfl, hproduced⟩ := exists_produced h
  obtain ⟨name', artifacts', g', D', rfl, hproduced'⟩ := exists_produced h'
  obtain ⟨v, hv, hafter'⟩ := hproduced.exists_generate hproduced' havoids'
  obtain ⟨v', hv', hafter⟩ := hproduced'.exists_generate hproduced havoids
  have hnames : inputName input ≠ inputName input' ↔ name ≠ name' := by
    rw [hproduced.inputName_eq, hproduced'.inputName_eq, ne_eq, Except.ok.injEq]
  refine ⟨v, v', hv, hv', fun ⟨hsame, hchecks⟩ => ?_, fun hcases => ?_⟩
  · rw [hnames, or_iff_not_imp_left, not_not]
    rintro rfl
    obtain ⟨hcheck, hcheck'⟩ := hchecks v List.mem_cons_self
    rw [GiveSameTexts, hproduced.artifactsIn_eq, hproduced'.artifactsIn_eq]
    exact congrArg Except.ok (giveSameTexts_of_check hv hv' hsame
      (hproduced'.artifactsIn havoids hproduced.artifactsIn_eq)
      (hproduced.artifactsIn havoids' hproduced'.artifactsIn_eq) hcheck hcheck')
  · have hsame : SameFiles v.files v'.files := by
      by_cases hname : name = name'
      · subst hname
        have hgive := hcases.resolve_left fun hne => hnames.1 hne rfl
        exact hproduced.sameFiles_of_outputs_eq hproduced' hafter' hafter
          (outputs_eq_of_giveSameTexts hproduced.artifactsIn_eq hproduced'.artifactsIn_eq hgive)
      · exact hproduced.sameFiles_of_ne hproduced' hafter' hafter hname
    exact ⟨hsame, check_of_sameFiles hv hv' hsame⟩

/-- A name that is no text: one byte of it is no part of a character. -/
def strayInput (byte : UInt8) : Path := ⟨['a', .stray [byte], '.', 'g', 'l', 's', 'l']⟩

/-- A workspace with two inputs of different names, which are shown alike. -/
def strayWorkspace : Workspace :=
  { files := (({} : FileTree).insert (strayInput 0xff).segments
      (.file (Text.ofString "#shader vertex\nv\n#shader fragment\nf\n").toUtf8)).insert
        (strayInput 0xfe).segments
        (.file (Text.ofString "#shader vertex\nw\n#shader fragment\nf\n").toUtf8) }

/-- There the files of each can be generated, but not those of both: the last take the places of
    the others. -/
theorem generate_comm_stray :
    (strayInput 0xff).fileName? ≠ (strayInput 0xfe).fileName? ∧
    ∃ paths w₁ w₂ v v',
      strayWorkspace.run (generate (strayInput 0xff) ⟨"out"⟩ {}) = (.ok paths, w₁) ∧
      strayWorkspace.run (generate (strayInput 0xfe) ⟨"out"⟩ {}) = (.ok paths, w₂) ∧
      Avoids w₂.files (strayInput 0xff) paths ∧ Avoids w₁.files (strayInput 0xfe) paths ∧
      w₁.run (generate (strayInput 0xfe) ⟨"out"⟩ {}) = (.ok paths, v) ∧
      w₂.run (generate (strayInput 0xff) ⟨"out"⟩ {}) = (.ok paths, v') ∧
      ¬ (SameFiles v.files v'.files ∧
        ∀ u ∈ [v, v'], (u.run (check (strayInput 0xff) ⟨"out"⟩ {})).1 = .ok paths ∧
          (u.run (check (strayInput 0xfe) ⟨"out"⟩ {})).1 = .ok paths) := by
  have hok : (strayWorkspace.run (generate (strayInput 0xff) ⟨"out"⟩ {})).1.toOption =
      some (.ofName "a\uFFFD.glsl" ⟨"out"⟩) := by
    decide +kernel
  have hok' : (strayWorkspace.run (generate (strayInput 0xfe) ⟨"out"⟩ {})).1.toOption =
      some (.ofName "a\uFFFD.glsl" ⟨"out"⟩) := by
    decide +kernel
  have havoids : Avoids (strayWorkspace.run (generate (strayInput 0xfe) ⟨"out"⟩ {})).2.files
      (strayInput 0xff) (.ofName "a\uFFFD.glsl" ⟨"out"⟩) := by
    decide +kernel
  have havoids' : Avoids (strayWorkspace.run (generate (strayInput 0xff) ⟨"out"⟩ {})).2.files
      (strayInput 0xfe) (.ofName "a\uFFFD.glsl" ⟨"out"⟩) := by
    decide +kernel
  have hname : inputName (strayInput 0xff) = inputName (strayInput 0xfe) := rfl
  have htexts : ¬ GiveSameTexts strayWorkspace.files (strayInput 0xff) (strayInput 0xfe) {} {} := by
    unfold GiveSameTexts
    decide +kernel
  refine ⟨by decide, ?_⟩
  rcases h : strayWorkspace.run (generate (strayInput 0xff) ⟨"out"⟩ {}) with ⟨f | paths, w₁⟩ <;>
    rw [h] at hok havoids'
  · exact absurd hok nofun
  rcases h' : strayWorkspace.run (generate (strayInput 0xfe) ⟨"out"⟩ {}) with
    ⟨f | paths', w₂⟩ <;> rw [h'] at hok' havoids
  · exact absurd hok' nofun
  obtain rfl := Option.some.inj hok
  obtain rfl := Option.some.inj hok'
  obtain ⟨v, v', hv, hv', hiff⟩ := generate_comm h h' havoids havoids'
  refine ⟨_, w₁, w₂, v, v', rfl, rfl, havoids, havoids', hv, hv', fun hboth => ?_⟩
  exact (hiff.1 hboth).elim (fun hne => hne hname) htexts

end Run

end ShaderVariants
