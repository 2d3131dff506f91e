import ShaderVariants.Proofs.Generating

/-!
# Generated files are in sync

Generating and checking compute the same two texts. What generating leaves is what a check
looks for, and files that a check finds in sync are not changed by generating again.
-/

namespace ShaderVariants.Run

open FileTree Publish

variable {t u v : FileTree} {w w' : Workspace} {input outputDir p : Path} {settings : Settings}
  {paths : OutputPaths} {artifacts : Artifacts} {name : Text} {file : Glyphs} {f : Failure}
  {o a b : Output}
  {l D : Location}

/-! ## The two files -/

/-- The names of the two files. -/
def fileNames (name : Text) : List Glyphs :=
  [.ofText (Header.fileName name), .ofText (Definition.fileName name)]

theorem exists_of_mem_fileNames (h : file ∈ fileNames name) :
    ∃ e : Text, (e = ['.', 'h'] ∨ e = ['.', 'c', 'p', 'p']) ∧ file = .ofText (name ++ e) := by
  rcases List.mem_pair.1 h with rfl | rfl
  · refine ⟨['.', 'h'], .inl rfl, ?_⟩
    rw [Header.fileName, Text.ofString_eq_toList]
    rfl
  · refine ⟨['.', 'c', 'p', 'p'], .inr rfl, ?_⟩
    rw [Definition.fileName, Text.ofString_eq_toList]
    rfl

theorem header_ne_definition (name : Text) : Header.fileName name ≠ Definition.fileName name := by
  rw [Header.fileName, Definition.fileName, Text.ofString_eq_toList, Text.ofString_eq_toList]
  simp

theorem isName_of_mem_fileNames (hname : Path.IsName (.ofText name)) (h : file ∈ fileNames name) :
    Path.IsName file := by
  obtain ⟨e, rfl | rfl, rfl⟩ := exists_of_mem_fileNames h <;> rw [Glyphs.ofText_append]
  · exact hname.append (by decide) (by decide)
  · exact hname.append (by decide) (by decide)

/-- Neither file is shown as the input, and neither has the name of a temporary file. -/
theorem ne_of_mem_fileNames (h : file ∈ fileNames name) :
    file.shown ≠ name ∧ (file ++ .ofText ending).shown ≠ name ∧
      ∀ file' ∈ fileNames name, file ≠ file' ++ .ofText ending := by
  rw [ending_eq]
  obtain ⟨e, he, rfl⟩ := exists_of_mem_fileNames h
  refine ⟨?_, ?_, fun file' h' => ?_⟩
  · rcases he with rfl | rfl <;> simp
  · rcases he with rfl | rfl <;> simp
  · obtain ⟨e', he', rfl⟩ := exists_of_mem_fileNames h'
    rw [← Glyphs.ofText_append, List.append_assoc, ne_eq, Glyphs.ofText_inj]
    refine fun heq => absurd (List.append_cancel_left heq) ?_
    rcases he with rfl | rfl <;> rcases he' with rfl | rfl <;> decide

theorem exists_of_mem_outputs (h : o ∈ outputs (.ofName name outputDir) artifacts) :
    ∃ file ∈ fileNames name, o.path = outputDir.join file := by
  rcases List.mem_pair.1 h with rfl | rfl
  · exact ⟨_, List.mem_cons_self, rfl⟩
  · exact ⟨_, List.mem_cons_of_mem _ List.mem_cons_self, rfl⟩

theorem exists_output_of_mem_fileNames (artifacts : Artifacts) (h : file ∈ fileNames name) :
    ∃ o ∈ outputs (.ofName name outputDir) artifacts, o.path = outputDir.join file := by
  rcases List.mem_pair.1 h with rfl | rfl
  · exact ⟨_, List.mem_cons_self, rfl⟩
  · exact ⟨_, List.mem_cons_of_mem _ List.mem_cons_self, rfl⟩

section Outputs

variable (hname : Path.IsName (.ofText name))
include hname

/-- Both files are in the output directory. -/
theorem site?_join_fileName (t : FileTree) (hfile : file ∈ fileNames name) :
    t.site? (outputDir.join file) = (t.directory? outputDir).map (· ++ [file]) :=
  site?_join outputDir (isName_of_mem_fileNames hname hfile)

theorem distinct_outputs : Distinct t (outputs (.ofName name outputDir) artifacts) := by
  refine List.pairwise_pair.2 fun l hl hl' => ?_
  have hheader : .ofText (Header.fileName name) ∈ fileNames name := List.mem_cons_self
  have hdefinition : .ofText (Definition.fileName name) ∈ fileNames name :=
    List.mem_cons_of_mem _ List.mem_cons_self
  rw [OutputPaths.ofName, site?_join_fileName hname t hheader] at hl
  rw [OutputPaths.ofName, site?_join_fileName hname t hdefinition] at hl'
  obtain ⟨D, hD, rfl⟩ := Option.map_eq_some_iff.1 hl
  rw [hD, Option.map_some, Option.some.injEq, List.append_cancel_left_eq] at hl'
  exact header_ne_definition name (Glyphs.ofText_inj.1 (List.singleton_inj.1 hl').symm)

theorem not_takesTemporary_outputs (ha : a ∈ outputs (.ofName name outputDir) artifacts)
    (hb : b ∈ outputs (.ofName name outputDir) artifacts) : ¬ TakesTemporary t a b := by
  rintro ⟨l, hl, hl'⟩
  obtain ⟨file, hfile, ha⟩ := exists_of_mem_outputs ha
  obtain ⟨file', hfile', hb⟩ := exists_of_mem_outputs hb
  rw [hb, site?_join_fileName hname t hfile'] at hl
  rw [ha, site?_join_fileName hname t hfile] at hl'
  obtain ⟨D, hD, rfl⟩ := Option.map_eq_some_iff.1 hl
  rw [hD, Option.map_some, temporarySite_concat] at hl'
  have heq := Option.some.inj hl'
  exact (ne_of_mem_fileNames hfile).2.2 file' hfile' (by simpa using heq)

theorem ordered_outputs (t : FileTree) :
    (outputs (.ofName name outputDir) artifacts).Pairwise fun a b => ¬ TakesTemporary t a b :=
  List.pairwise_of_forall_mem_list fun _ ha _ hb => not_takesTemporary_outputs hname ha hb

/-- What is left when the two files are staged and placed. -/
theorem placed_outputs (hstaged : Staged t (outputs (.ofName name outputDir) artifacts) u)
    (hplaced : Placed u (outputs (.ofName name outputDir) artifacts) v) :
    ∃ D, v.directory? outputDir = some D ∧
      (∀ o ∈ outputs (.ofName name outputDir) artifacts, v.readText o.path = .ok o.text) ∧
      (∀ file ∈ fileNames name, v.find? (D ++ [file ++ .ofText ending]) = none) ∧
      ∀ l, (∀ file ∈ fileNames name, l ≠ D ++ [file] ∧ l ≠ D ++ [file ++ .ofText ending]) →
        v.find? l = t.find? l := by
  have hsame := hstaged.sameDirectories.trans hplaced.sameDirectories
  obtain ⟨-, l, hl⟩ := location?_of_placed hstaged hplaced _ List.mem_cons_self
  have hsite := site?_of_location? hl
  rw [OutputPaths.ofName, site?_join_fileName hname t List.mem_cons_self] at hsite
  obtain ⟨D, hD, -⟩ := Option.map_eq_some_iff.1 hsite
  have hsites {file} (hfile : file ∈ fileNames name) :
      t.site? (outputDir.join file) = some (D ++ [file]) := by
    rw [site?_join_fileName hname t hfile, hD, Option.map_some]
  refine ⟨D, hsame.forth.directory? hD, ?_, fun file hfile => ?_, fun l hl => ?_⟩
  · exact (readText_of_placed_iff (distinct_outputs hname) hstaged hplaced).2
      (ordered_outputs hname t)
  · obtain ⟨o, ho, hpath⟩ := exists_output_of_mem_fileNames artifacts hfile
    rw [← temporarySite_concat]
    exact find?_temporarySite_of_placed hstaged hplaced ho
      (fun b hb => not_takesTemporary_outputs hname hb ho) (hpath ▸ hsites hfile)
  · refine find?_of_placed hstaged hplaced (fun o ho => ?_) (fun o ho => ?_) (List.prefix_refl _)
    · obtain ⟨file, hfile, hpath⟩ := exists_of_mem_outputs ho
      rw [hpath, hsites hfile]
      exact fun heq => (hl file hfile).1 (Option.some.inj heq).symm
    · obtain ⟨file, hfile, hpath⟩ := exists_of_mem_outputs ho
      rw [hpath, hsites hfile, Option.map_some, temporarySite_concat]
      exact fun heq => (hl file hfile).2 (Option.some.inj heq).symm

/-- Texts that are in sync stay so when they are published again, even if that fails. -/
theorem readText_of_published {s : Except Failure Unit}
    (h : (publish (outputs (.ofName name outputDir) artifacts) : Session _) w = (s, w'))
    (hsync : ∀ o ∈ outputs (.ofName name outputDir) artifacts,
      w.files.readText o.path = .ok o.text) :
    ∀ o ∈ outputs (.ofName name outputDir) artifacts, w'.files.readText o.path = .ok o.text := by
  have hdistinct : Distinct w.files (outputs (.ofName name outputDir) artifacts) :=
    distinct_outputs hname
  cases s with
  | ok _ =>
    obtain ⟨t, hstaged, hplaced, -⟩ := publish_eq_ok h
    exact (readText_of_placed_iff hdistinct hstaged hplaced).2 (ordered_outputs hname w.files)
  | error f =>
    obtain ⟨moved, hgiven, -⟩ := publish_eq_error h
    have hbegun := begun_prefix_self w.files (outputs (.ofName name outputDir) artifacts)
    intro o ho
    rw [readText_eq_ok, (hgiven.entryAt?_eq_iff hbegun hdistinct ho).2 ⟨?_, ?_⟩, ← readText_eq_ok]
    · exact hsync o ho
    · intro b hb htakes
      exact absurd htakes (not_takesTemporary_outputs hname ho (hbegun.subset hb))
    · intro before after hsplit
      rw [arriving_of_not_takesTemporary]
      · exact .inr (hsync o ho)
      · intro a ha
        have hmem : a ∈ moved := by
          rw [hsplit]
          exact List.mem_append_left _ (List.mem_reverse.1 ha)
        exact not_takesTemporary_outputs hname
          (hbegun.subset (hgiven.moved_prefix_begun.subset hmem)) ho

end Outputs

/-! ## After generating -/

theorem inputName_eq_ok_iff :
    inputName input = .ok name ↔ ∃ file, input.fileName? = some file ∧ file.shown = name := by
  rw [inputName]
  cases input.fileName? <;> simp

theorem isName_of_inputName (h : inputName input = .ok name) : Path.IsName (.ofText name) := by
  obtain ⟨file, hfile, rfl⟩ := inputName_eq_ok_iff.1 h
  exact (Path.isName_of_fileName? hfile).shown

/-- The location of an input ends in its name. -/
theorem location?_eq_of_inputName (hname : inputName input = .ok name)
    (hl : t.location? input = some l) : ∃ d file, file.shown = name ∧ l = d ++ [file] := by
  obtain ⟨file, hfile, hshown⟩ := inputName_eq_ok_iff.1 hname
  have hsite := site?_of_location? hl
  rw [site?, hfile, Option.bind_some] at hsite
  obtain ⟨d, -, rfl⟩ := Option.map_eq_some_iff.1 hsite
  exact ⟨d, file, hshown, rfl⟩

theorem artifactsIn_eq_ok_iff : artifactsIn t input settings = .ok artifacts ↔
    ∃ name source, inputName input = .ok name ∧ t.readText input = .ok source ∧
      (Artifacts.ofSource name source settings).result = .ok artifacts := by
  rw [artifactsIn]
  cases inputName input <;> cases t.readText input <;>
    simp [bind, Except.bind, Except.mapError]

/-- `u` is `t` with two files in the directory `D` that an output path leads to, their temporary
    files gone, and with new directories on the way to it. -/
structure Generated (t : FileTree) (name : Text) (outputDir : Path) (artifacts : Artifacts)
    (D : Location) (u : FileTree) : Prop where
  directory?_eq : u.directory? outputDir = some D
  header : u.readText (outputDir.join (.ofText (Header.fileName name))) = .ok artifacts.header
  definition :
    u.readText (outputDir.join (.ofText (Definition.fileName name))) = .ok artifacts.definition
  find?_temporary : ∀ file ∈ fileNames name, u.find? (D ++ [file ++ .ofText ending]) = none
  find?_eq : ∀ l, (∀ file ∈ fileNames name, l ≠ D ++ [file] ∧ l ≠ D ++ [file ++ .ofText ending]) →
    u.find? l = t.find? l ∨ t.find? l = none ∧ u.find? l = some .directory ∧ u.OnWay outputDir l

/-- What generating leaves when it succeeds. -/
theorem generate_eq_ok
    (h : w.run (generate input outputDir settings) = (.ok paths, w')) :
    ∃ name source artifacts D, inputName input = .ok name ∧
      w.files.readText input = .ok source ∧
      (Artifacts.ofSource name source settings).result = .ok artifacts ∧
      paths = .ofName name outputDir ∧ DirectoriesIn w.files w'.files ∧
      Generated w.files name outputDir artifacts D w'.files := by
  rcases generate_run h with ⟨f, -, hr, -⟩ | ⟨paths', artifacts, hpaths, hartifacts, hwrite⟩
  · exact absurd hr nofun
  rcases hwrite with ⟨cause, hr, -⟩ | ⟨w₁, s, hgrown, hpublish, hr⟩
  · exact absurd hr nofun
  cases s with
  | error f => exact absurd hr nofun
  | ok _ =>
    obtain rfl := Except.ok.inj hr
    obtain ⟨name, source, hname, hsource, hresult⟩ := artifactsIn_eq_ok_iff.1 hartifacts
    obtain ⟨name', hname', rfl⟩ := ofInput_eq_ok_iff.1 hpaths
    obtain rfl := Except.ok.inj (hname.symm.trans hname')
    obtain ⟨t, hstaged, hplaced, -⟩ := publish_eq_ok hpublish
    obtain ⟨D, hD, htexts, htemporary, hkept⟩ :=
      placed_outputs (isName_of_inputName hname) hstaged hplaced
    have hin : DirectoriesIn w₁.files w'.files :=
      (hstaged.sameDirectories.trans hplaced.sameDirectories).forth
    refine ⟨name, source, artifacts, D, hname, hsource, hresult, rfl,
      hgrown.directoriesIn.trans hin, hD, htexts _ List.mem_cons_self,
      htexts _ (List.mem_cons_of_mem _ List.mem_cons_self), htemporary, fun l hl => ?_⟩
    rw [hkept l hl]
    rcases hgrown.find?_eq l with heq | ⟨hnone, hdirectory, hway⟩
    · exact .inl heq
    · exact .inr ⟨hnone, hdirectory, hway.mono hin⟩

/-- Generating leaves its input as it was. -/
theorem Generated.readText_input {D : Location} {source : Text}
    (h : Generated t name outputDir artifacts D u) (hin : DirectoriesIn t u)
    (hname : inputName input = .ok name) (hsource : t.readText input = .ok source) :
    u.readText input = .ok source := by
  refine readText_of_directoriesIn hin (fun l bytes hl hfile => ?_) hsource
  obtain ⟨d, last, rfl, rfl⟩ := location?_eq_of_inputName hname hl
  have hother : ∀ file ∈ fileNames last.shown,
      d ++ [last] ≠ D ++ [file] ∧ d ++ [last] ≠ D ++ [file ++ .ofText ending] := by
    intro file hmem
    obtain ⟨hne, hne', -⟩ := ne_of_mem_fileNames hmem
    refine ⟨fun heq => hne ?_, fun heq => hne' ?_⟩
    · rw [List.singleton_inj.1 (List.append_inj' heq rfl).2]
    · rw [List.singleton_inj.1 (List.append_inj' heq rfl).2]
  rcases h.find?_eq (d ++ [last]) hother with heq | ⟨hnone, -⟩
  · rw [heq, hfile]
  · exact absurd (hnone.symm.trans hfile) (Option.some_ne_none _).symm

/-- After generating, the input gives what it gave before. -/
theorem artifactsIn_of_generate_eq_ok
    (h : w.run (generate input outputDir settings) = (.ok paths, w')) :
    artifactsIn w'.files input settings = artifactsIn w.files input settings := by
  obtain ⟨name, source, artifacts, D, hname, hsource, hresult, -, hin, hgenerated⟩ :=
    generate_eq_ok h
  have hinput := hgenerated.readText_input hin hname hsource
  exact (artifactsIn_eq_ok_iff.2 ⟨name, source, hname, hinput, hresult⟩).trans
    (artifactsIn_eq_ok_iff.2 ⟨name, source, hname, hsource, hresult⟩).symm

/-- Generated files are in sync. -/
theorem checkIn_of_generate_eq_ok
    (h : w.run (generate input outputDir settings) = (.ok paths, w')) :
    checkIn w'.files input outputDir settings = .ok paths := by
  obtain ⟨name, source, artifacts, D, hname, hsource, hresult, rfl, hin, hgenerated⟩ :=
    generate_eq_ok h
  have hinput := hgenerated.readText_input hin hname hsource
  exact checkIn_eq_ok_iff.2 ⟨ofInput_eq_ok_iff.2 ⟨name, hname, rfl⟩, artifacts,
    artifactsIn_eq_ok_iff.2 ⟨name, source, hname, hinput, hresult⟩,
    hgenerated.header, hgenerated.definition⟩

/-! ## After a check -/

/-- Files that are in sync are the same after generating, whether it succeeds or not. -/
theorem readText_of_generate {r : Except Failure OutputPaths}
    (hcheck : checkIn w.files input outputDir settings = .ok paths)
    (h : w.run (generate input outputDir settings) = (r, w')) :
    ∃ artifacts, ∀ o ∈ outputs paths artifacts,
      w.files.readText o.path = .ok o.text ∧ w'.files.readText o.path = .ok o.text := by
  obtain ⟨hpaths, artifacts, hartifacts, hheader, hdefinition⟩ := checkIn_eq_ok_iff.1 hcheck
  have hsync : ∀ o ∈ outputs paths artifacts, w.files.readText o.path = .ok o.text := by
    intro o ho
    rcases List.mem_pair.1 ho with rfl | rfl
    · exact hheader
    · exact hdefinition
  refine ⟨artifacts, fun o ho => ⟨hsync o ho, ?_⟩⟩
  rcases generate_run h with ⟨f, herror, -⟩ | ⟨paths', artifacts', hpaths', hartifacts', hwrite⟩
  · exact absurd (hartifacts.symm.trans herror) nofun
  obtain rfl := Except.ok.inj (hpaths.symm.trans hpaths')
  obtain rfl := Except.ok.inj (hartifacts.symm.trans hartifacts')
  rcases hwrite with ⟨cause, -, hgrown⟩ | ⟨w₁, s, hgrown, hpublish, -⟩
  · exact hgrown.readText (hsync o ho)
  · obtain ⟨name, hname, rfl⟩ := ofInput_eq_ok_iff.1 hpaths
    exact readText_of_published (isName_of_inputName hname) hpublish
      (fun a ha => hgrown.readText (hsync a ha)) o ho

/-! ## Inputs that give no files -/

theorem checkIn_of_artifactsIn_eq_error (h : artifactsIn t input settings = .error f) :
    checkIn t input outputDir settings = .error f := by
  rw [checkIn, OutputPaths.ofInput]
  cases hname : inputName input with
  | error g =>
    rw [artifactsIn, hname] at h
    exact congrArg Except.error (Except.error.inj h)
  | ok name =>
    simp only [Except.map, bind, Except.bind, h]

theorem generate_of_artifactsIn_eq_error (h : artifactsIn w.files input settings = .error f) :
    ∃ w', w.run (generate input outputDir settings) = (.error f, w') ∧
      w'.files = w.files := by
  rcases hrun : w.run (generate input outputDir settings) with ⟨r, w'⟩
  rcases generate_run hrun with ⟨g, herror, rfl, hfiles⟩ | ⟨-, artifacts, -, hartifacts, -⟩
  · obtain rfl := Except.error.inj (h.symm.trans herror)
    exact ⟨w', rfl, hfiles⟩
  · exact absurd (h.symm.trans hartifacts) nofun

/-! ## Generating and checking -/

/-- Generating and checking fit together: what is generated is in sync, what is in sync stays so,
    and an input that gives no files fails both in the same way and changes nothing. -/
theorem generate_check_agree (w : Workspace) (input outputDir : Path) (settings : Settings) :
    (∀ paths w',
      w.run (generate input outputDir settings) = (.ok paths, w') →
      (∃ name source artifacts D, inputName input = .ok name ∧
        w.files.readText input = .ok source ∧
        (Artifacts.ofSource name source settings).result = .ok artifacts ∧
        paths = .ofName name outputDir ∧
        Generated w.files name outputDir artifacts D w'.files) ∧
      (w'.run (check input outputDir settings)).1 = .ok paths) ∧
    ((w.run (check input outputDir settings)).2.files = w.files ∧
      ∀ paths w₁ r w₂,
        w.run (check input outputDir settings) = (.ok paths, w₁) →
        w₁.run (generate input outputDir settings) = (r, w₂) →
        w₂.files.readBytes paths.header = w.files.readBytes paths.header ∧
          w₂.files.readBytes paths.definition = w.files.readBytes paths.definition) ∧
    ∀ f, artifactsIn w.files input settings = .error f →
      (w.run (check input outputDir settings)).1 = .error f ∧
      ∃ w', w.run (generate input outputDir settings) = (.error f, w') ∧
        w'.files = w.files := by
  have hcheck := reads_check input outputDir settings
  refine ⟨fun paths w' h => ⟨?_, ?_⟩, ⟨(hcheck w).2, fun paths w₁ r w₂ h h' => ?_⟩,
    fun f h => ⟨?_, generate_of_artifactsIn_eq_error h⟩⟩
  · obtain ⟨name, source, artifacts, D, hname, hsource, hresult, hpaths, -, hgenerated⟩ :=
      generate_eq_ok h
    exact ⟨name, source, artifacts, D, hname, hsource, hresult, hpaths, hgenerated⟩
  · exact (hcheck w').1.trans (checkIn_of_generate_eq_ok h)
  · obtain ⟨hresult, hfiles⟩ := hcheck w
    rw [h] at hresult hfiles
    dsimp only at hresult hfiles
    rw [← hfiles] at hresult
    obtain ⟨artifacts, htexts⟩ := readText_of_generate hresult.symm h'
    have hbytes : ∀ o ∈ outputs paths artifacts,
        w₂.files.readBytes o.path = w.files.readBytes o.path := by
      intro o ho
      obtain ⟨hbefore, hafter⟩ := htexts o ho
      rw [hfiles, readText_eq_ok, ← readBytes_eq_ok] at hbefore
      rw [readText_eq_ok, ← readBytes_eq_ok] at hafter
      rw [hbefore, hafter]
    exact ⟨hbytes _ List.mem_cons_self, hbytes _ (List.mem_cons_of_mem _ List.mem_cons_self)⟩
  · exact (hcheck w).1.trans (checkIn_of_artifactsIn_eq_error h)

/-- A workspace with one input. -/
def plainWorkspace : Workspace :=
  { files := ({} : FileTree).insert ["s"]
      (.file (Text.ofString "#shader vertex\nv\n#shader fragment\nf\n").toUtf8) }

/-- All of this happens there: the input gives files that are in sync and stay so, and a missing
    input gives none. -/
theorem generate_check_agree_plain :
    ∃ paths w₁ w₂ f,
      plainWorkspace.run (generate ⟨"s"⟩ ⟨"out"⟩ {}) = (.ok paths, w₁) ∧
      w₁.run (check ⟨"s"⟩ ⟨"out"⟩ {}) = (.ok paths, w₂) ∧
      (w₂.run (generate ⟨"s"⟩ ⟨"out"⟩ {})).2.files.readBytes
        paths.header = w₁.files.readBytes paths.header ∧
      artifactsIn plainWorkspace.files ⟨"t"⟩ {} = .error f ∧
      (plainWorkspace.run (check ⟨"t"⟩ ⟨"out"⟩ {})).1 = .error f := by
  have hok : (plainWorkspace.run (generate ⟨"s"⟩ ⟨"out"⟩ {})).1.isOk := by
    decide +kernel
  have herror : (artifactsIn plainWorkspace.files ⟨"t"⟩ {}).isOk = false := by decide +kernel
  rcases hrun : plainWorkspace.run (generate ⟨"s"⟩ ⟨"out"⟩ {}) with
    ⟨g | paths, w₁⟩
  · rw [hrun] at hok
    exact absurd hok Bool.false_ne_true
  · have hsync := ((generate_check_agree plainWorkspace ⟨"s"⟩ ⟨"out"⟩ {}).1 paths w₁ hrun).2
    rcases hcheck : w₁.run (check ⟨"s"⟩ ⟨"out"⟩ {}) with ⟨r, w₂⟩
    rw [hcheck] at hsync
    obtain rfl : r = .ok paths := hsync
    cases hmissing : artifactsIn plainWorkspace.files ⟨"t"⟩ {} with
    | ok artifacts =>
      rw [hmissing] at herror
      exact absurd herror.symm Bool.false_ne_true
    | error f =>
      refine ⟨paths, w₁, w₂, f, rfl, hcheck, ?_, rfl, ?_⟩
      · exact ((generate_check_agree w₁ ⟨"s"⟩ ⟨"out"⟩ {}).2.1.2 paths w₂ _ _ hcheck rfl).1
      · exact ((generate_check_agree plainWorkspace ⟨"t"⟩ ⟨"out"⟩ {}).2.2 f hmissing).1

end ShaderVariants.Run
