import ShaderVariants.Proofs.InSync

/-!
# What a check says

A check is meant to tell which of the two files are not what generating would write. It
says so as long as both can be compared with a text. Bytes that are no text keep it from
saying anything: the run fails as if the file could not be read, and what is said of the
other file is lost.
-/

namespace ShaderVariants

namespace FileTree

variable {t : FileTree} {p q : Path} {d l : Location} {name : Glyphs} {cause : IoCause}

theorem toUtf8_inj {a b : Text} : a.toUtf8 = b.toUtf8 ↔ a = b := by
  constructor
  · intro h
    have htext := Text.ofUtf8?_toUtf8 a
    rw [h, Text.ofUtf8?_toUtf8] at htext
    exact (Option.some.inj htext).symm
  · rintro rfl
    rfl

/-! ## Files that may be there -/

/-- The path is a name in a directory, and no directory stands there. -/
def IsSlot (t : FileTree) (p : Path) : Prop :=
  ∃ q name d, Path.IsName name ∧ p = q.join name ∧ t.directory? q = some d ∧
    t.find? (d ++ [name]) ≠ some .directory

theorem join_ne_nil (hname : Path.IsName name) : (q.join name).glyphs ≠ [] := by
  intro hempty
  have hsegments := Path.segments_join (q := q) hname
  rw [Path.segments, hempty] at hsegments
  exact absurd hsegments.symm (by simp)

theorem start_eq_error (hname : Path.IsName name) (h : t.start (q.join name) = .error cause) :
    cause ≠ .notFound := by
  rw [start] at h
  split at h
  · obtain rfl := Except.error.inj h
    decide
  · rw [if_neg (join_ne_nil hname)] at h
    split at h
    · obtain rfl := Except.error.inj h
      decide
    · cases h

/-- A name in a directory has its location there, unless the system does not take the path. -/
theorem location?_or_resolve_join (hname : Path.IsName name) (hd : t.directory? q = some d) :
    t.location? (q.join name) = some (d ++ [name]) ∨
      t.location? (q.join name) = none ∧
        ∃ cause, cause ≠ .notFound ∧ t.resolve (q.join name) = .error cause := by
  cases hstart : t.start (q.join name) with
  | error cause =>
    refine .inr ⟨?_, cause, start_eq_error hname hstart, ?_⟩
    · rw [location?, place, hstart]
      rfl
    · rw [resolve, hstart]
      rfl
  | ok origin =>
    obtain rfl := start_eq_ok hstart
    have horigin : t.origin (q.join name) = t.origin q := by
      rw [FileTree.origin, FileTree.origin, Path.isAbsolute_join hname]
    have hplace : t.place (q.join name) = .ok (.child d name) := by
      refine place_eq_child_iff.2 ⟨hstart, q.segments, Path.segments_join hname, hname.ne_here,
        hname.ne_above, ?_⟩
      rw [horigin]
      exact hd
    by_cases hsize : name.size ≤ nameLimit
    · exact .inl (location?_eq_some_iff.2 ⟨d, name, hplace, hsize, rfl⟩)
    · refine .inr ⟨?_, .nameTooLong, by decide, ?_⟩
      · have hchild : child d name = .error .nameTooLong := if_neg hsize
        rw [location?, hplace]
        exact congrArg Except.toOption hchild
      · obtain ⟨hwalk, hdirectory⟩ := reach?_eq_some_iff.1 hd
        have hturn : turn name = .error .nameTooLong := by
          rw [turn_of_name hname.ne_here hname.ne_above, if_neg hsize]
        rw [resolve_eq hstart, Path.endsInSeparator_join hname, if_neg Bool.false_ne_true,
          List.append_nil, Path.segments_join hname, horigin, walk_append, hwalk, Except.bind,
          walk_singleton, step, (checkDirectory_eq_ok t d).2 hdirectory, hturn]
        rfl

/-! ## Files that can be compared -/

/-- The system takes the path, and bytes that stand there are a text. -/
def Comparable (t : FileTree) (p : Path) : Prop :=
  ∃ l, t.location? p = some l ∧
    ∀ bytes, t.find? l = some (.file bytes) → ∃ text : Text, bytes = text.toUtf8

theorem readText_of_resolve_error (h : t.resolve p = .error cause) :
    t.readText p = .error cause := by
  rw [readText, readBytes, h]
  rfl

theorem readText_of_find?_eq_none (h : t.resolve p = .ok l) (hnone : t.find? l = none) :
    t.readText p = .error .notFound := by
  rw [readText, readBytes, h]
  simp only [bind, Except.bind, hnone]
  rfl

theorem readText_of_no_text {bytes : ByteArray} (h : t.resolve p = .ok l)
    (hfile : t.find? l = some (.file bytes)) (hbytes : ¬ ∃ text : Text, bytes = text.toUtf8) :
    t.readText p = .error .invalidUtf8 := by
  have hnone : Text.ofUtf8? bytes = none := by
    apply Option.eq_none_iff_forall_ne_some.2
    intro text htext
    exact hbytes ⟨text, (Text.toUtf8_of_ofUtf8? htext).symm⟩
  rw [readText, readBytes, h]
  simp only [bind, Except.bind, hfile, pure, Except.pure, hnone]
  rfl

end FileTree

namespace Run

open FileTree Publish

variable {t : FileTree} {input outputDir p : Path} {settings : Settings} {paths : OutputPaths}
  {artifacts : Artifacts} {name : Text} {D : Location} {o : Output} {os before after : List Output}

/-! ## One file -/

/-- A file that can be compared is stale exactly if it does not hold the bytes of the text. -/
theorem staleness_of_comparable (fresh : Text) (hslot : IsSlot t p) (h : Comparable t p) :
    staleness p fresh (t.readText p) =
      .ok (decide (t.entryAt? p ≠ some (.file fresh.toUtf8))) := by
  obtain ⟨q, name, d, hname, rfl, hd, hfree⟩ := hslot
  obtain ⟨l, hl, htexts⟩ := h
  have hresolve := resolve_of_location? hl (Path.endsInSeparator_join hname)
  have hsite := site?_of_location? hl
  rw [site?_join q hname, hd] at hsite
  obtain rfl := Option.some.inj hsite
  have hentry : t.entryAt? (q.join name) = t.find? (d ++ [name]) := by rw [entryAt?, hresolve]
  rw [hentry]
  rcases hfind : t.find? (d ++ [name]) with _ | ⟨bytes⟩ | _
  · rw [readText_of_find?_eq_none hresolve hfind]
    rfl
  · obtain ⟨text, rfl⟩ := htexts bytes hfind
    have hread : t.readText (q.join name) = .ok text := readText_eq_ok.2 (hentry.trans hfind)
    rw [hread, staleness, Except.ok.injEq, Bool.eq_iff_iff, bne_iff_ne, decide_eq_true_iff]
    simp only [ne_eq, Option.some.injEq, Entry.file.injEq, toUtf8_inj]
  · exact absurd hfind hfree

/-- A file that cannot be compared is a failure to read. -/
theorem staleness_of_not_comparable (fresh : Text) (hslot : IsSlot t p) (h : ¬ Comparable t p) :
    ∃ cause, staleness p fresh (t.readText p) = .error (.io p cause) := by
  obtain ⟨q, name, d, hname, rfl, hd, hfree⟩ := hslot
  rcases location?_or_resolve_join hname hd with hl | ⟨-, cause, hcause, hresolve⟩
  · have hresolve := resolve_of_location? hl (Path.endsInSeparator_join hname)
    refine ⟨.invalidUtf8, ?_⟩
    rcases hfind : t.find? (d ++ [name]) with _ | ⟨bytes⟩ | _
    · exact absurd ⟨_, hl, fun bytes hbytes => absurd (hfind.symm.trans hbytes) nofun⟩ h
    · rw [readText_of_no_text hresolve hfind]
      · rfl
      · rintro ⟨text, rfl⟩
        refine h ⟨_, hl, fun bytes hbytes => ⟨text, ?_⟩⟩
        exact Entry.file.inj (Option.some.inj (hbytes.symm.trans hfind))
    · exact absurd hfind hfree
  · refine ⟨cause, ?_⟩
    rw [readText_of_resolve_error hresolve]
    cases cause <;> first | exact absurd rfl hcause | rfl

/-! ## All files -/

/-- The stale files, up to the first that cannot be compared. -/
def staleIn (t : FileTree) : List Output → Except Failure (List Path)
  | [] => .ok []
  | o :: rest => do
    let stale ← staleness o.path o.text (t.readText o.path)
    let later ← staleIn t rest
    .ok ((if stale then [o.path] else []) ++ later)

/-- The paths where the bytes of the text do not stand. -/
def differing (t : FileTree) (os : List Output) : List Path :=
  (os.filter fun o => t.entryAt? o.path ≠ some (.file o.text.toUtf8)).map Output.path

theorem differing_cons (o : Output) (os : List Output) :
    differing t (o :: os) =
      (if t.entryAt? o.path ≠ some (.file o.text.toUtf8) then [o.path] else []) ++
        differing t os := by
  rw [differing, List.filter_cons]
  by_cases h : t.entryAt? o.path = some (.file o.text.toUtf8) <;> simp [h, differing]

theorem staleIn_of_comparable (hslots : ∀ o ∈ os, IsSlot t o.path)
    (h : ∀ o ∈ os, Comparable t o.path) : staleIn t os = .ok (differing t os) := by
  induction os with
  | nil => rfl
  | cons o os ih =>
    have hhead := staleness_of_comparable o.text (hslots o List.mem_cons_self)
      (h o List.mem_cons_self)
    have hrest := ih (fun o ho => hslots o (List.mem_cons_of_mem _ ho))
      (fun o ho => h o (List.mem_cons_of_mem _ ho))
    rw [staleIn, hhead, hrest, differing_cons]
    simp only [bind, Except.bind, decide_eq_true_eq]

/-- The first file that cannot be compared ends the check, whatever was found before. -/
theorem staleIn_of_not_comparable (after : List Output) (hslots : ∀ o ∈ before, IsSlot t o.path)
    (hbefore : ∀ o ∈ before, Comparable t o.path) (hslot : IsSlot t o.path)
    (ho : ¬ Comparable t o.path) :
    ∃ cause, staleIn t (before ++ o :: after) = .error (.io o.path cause) := by
  induction before with
  | nil =>
    obtain ⟨cause, hcause⟩ := staleness_of_not_comparable o.text hslot ho
    refine ⟨cause, ?_⟩
    rw [List.nil_append, staleIn, hcause]
    rfl
  | cons b before ih =>
    obtain ⟨cause, hcause⟩ := ih (fun o ho => hslots o (List.mem_cons_of_mem _ ho))
      (fun o ho => hbefore o (List.mem_cons_of_mem _ ho))
    refine ⟨cause, ?_⟩
    rw [List.cons_append, staleIn, staleness_of_comparable b.text (hslots b List.mem_cons_self)
      (hbefore b List.mem_cons_self), hcause]
    rfl

theorem checkIn_eq (hname : inputName input = .ok name)
    (hartifacts : artifactsIn t input settings = .ok artifacts) :
    checkIn t input outputDir settings =
      (staleIn t (outputs (.ofName name outputDir) artifacts)).bind fun stale =>
        if stale = [] then .ok (.ofName name outputDir) else .error (.outOfSync stale) := by
  have hpaths : OutputPaths.ofInput input outputDir = .ok (.ofName name outputDir) :=
    ofInput_eq_ok_iff.2 ⟨name, hname, rfl⟩
  rw [checkIn, hpaths, hartifacts]
  generalize OutputPaths.ofName name outputDir = paths
  simp only [outputs, staleIn, bind, Except.bind]
  cases staleness paths.header artifacts.header (t.readText paths.header) with
  | error f => rfl
  | ok headerStale =>
    cases staleness paths.definition artifacts.definition (t.readText paths.definition) with
    | error f => rfl
    | ok definitionStale => simp only [List.append_nil]

/-! ## Verdicts -/

/-- What a check should say: that both files are in sync, or which are not. -/
def verdict (t : FileTree) (paths : OutputPaths) (artifacts : Artifacts) :
    Except Failure OutputPaths :=
  if differing t (outputs paths artifacts) = [] then .ok paths
  else .error (.outOfSync (differing t (outputs paths artifacts)))

theorem exitCode_of_verdict {f : Failure} (h : verdict t paths artifacts = .error f) :
    f.exitCode = 5 := by
  rw [verdict] at h
  split at h
  · exact absurd h nofun
  · obtain rfl := Except.error.inj h
    rfl

theorem exists_verdict_eq_ok_iff : (∃ paths', verdict t paths artifacts = .ok paths') ↔
    ∀ o ∈ outputs paths artifacts, t.entryAt? o.path = some (.file o.text.toUtf8) := by
  have hnil : differing t (outputs paths artifacts) = [] ↔
      ∀ o ∈ outputs paths artifacts, t.entryAt? o.path = some (.file o.text.toUtf8) := by
    rw [differing, List.map_eq_nil_iff, List.filter_eq_nil_iff]
    simp only [decide_eq_true_eq, ne_eq, not_not]
  rw [← hnil, verdict]
  split
  · next h => exact ⟨fun _ => h, fun _ => ⟨paths, rfl⟩⟩
  · next h =>
    constructor
    · rintro ⟨paths', heq⟩
      exact absurd heq nofun
    · intro hempty
      exact absurd hempty h

theorem comparable_of_entryAt? {text : Text} (h : t.entryAt? p = some (.file text.toUtf8)) :
    Comparable t p := by
  obtain ⟨-, l, hl, hfile⟩ := entryAt?_eq_file_iff.1 h
  refine ⟨l, hl, fun bytes hbytes => ⟨text, ?_⟩⟩
  exact Entry.file.inj (Option.some.inj (hbytes.symm.trans hfile))

theorem isSlot_of_mem_outputs (hname : Path.IsName (.ofText name))
    (hD : t.directory? outputDir = some D)
    (hfree : ∀ file ∈ fileNames name, t.find? (D ++ [file]) ≠ some .directory)
    (ho : o ∈ outputs (.ofName name outputDir) artifacts) : IsSlot t o.path := by
  obtain ⟨file, hfile, hpath⟩ := exists_of_mem_outputs ho
  exact ⟨outputDir, file, D, isName_of_mem_fileNames hname hfile, hpath, hD, hfree file hfile⟩

/-- If not all files can be compared, one is the first that cannot be. -/
theorem exists_first_not_comparable (h : ¬ ∀ o ∈ os, Comparable t o.path) :
    ∃ before o after, os = before ++ o :: after ∧ (∀ b ∈ before, Comparable t b.path) ∧
      ¬ Comparable t o.path := by
  classical
  cases hfind : os.find? fun o => decide (¬ Comparable t o.path) with
  | none =>
    refine absurd ?_ h
    intro o ho
    simpa using List.find?_eq_none.1 hfind o ho
  | some o =>
    obtain ⟨ho, before, after, hsplit, hbefore⟩ := List.find?_eq_some_iff_append.1 hfind
    exact ⟨before, o, after, hsplit, fun b hb => by simpa using hbefore b hb, by simpa using ho⟩

section InDirectory

variable (hname : inputName input = .ok name)
  (hartifacts : artifactsIn t input settings = .ok artifacts)
  (hD : t.directory? outputDir = some D)
  (hfree : ∀ file ∈ fileNames name, t.find? (D ++ [file]) ≠ some .directory)
include hname hartifacts hD hfree

theorem checkIn_of_comparable
    (h : ∀ o ∈ outputs (.ofName name outputDir) artifacts, Comparable t o.path) :
    checkIn t input outputDir settings = verdict t (.ofName name outputDir) artifacts := by
  rw [checkIn_eq hname hartifacts, staleIn_of_comparable _ h]
  · rfl
  · exact fun o ho => isSlot_of_mem_outputs (isName_of_inputName hname) hD hfree ho

theorem checkIn_of_not_comparable
    (hsplit : outputs (.ofName name outputDir) artifacts = before ++ o :: after)
    (hbefore : ∀ b ∈ before, Comparable t b.path) (ho : ¬ Comparable t o.path) :
    ∃ cause, checkIn t input outputDir settings = .error (.io o.path cause) := by
  have hslots : ∀ b ∈ before ++ o :: after, IsSlot t b.path := by
    intro b hb
    rw [← hsplit] at hb
    exact isSlot_of_mem_outputs (isName_of_inputName hname) hD hfree hb
  obtain ⟨cause, hcause⟩ := staleIn_of_not_comparable after
    (fun b hb => hslots b (List.mem_append_left _ hb)) hbefore
    (hslots o List.mem_append_cons_self) ho
  refine ⟨cause, ?_⟩
  rw [checkIn_eq hname hartifacts, hsplit, hcause]
  rfl

/-- A check ends in one of two ways. -/
theorem checkIn_cases :
    (∀ o ∈ outputs (.ofName name outputDir) artifacts, Comparable t o.path) ∧
      checkIn t input outputDir settings = verdict t (.ofName name outputDir) artifacts ∨
    (¬ ∀ o ∈ outputs (.ofName name outputDir) artifacts, Comparable t o.path) ∧
      ∃ p cause, checkIn t input outputDir settings = .error (.io p cause) := by
  by_cases h : ∀ o ∈ outputs (.ofName name outputDir) artifacts, Comparable t o.path
  · exact .inl ⟨h, checkIn_of_comparable hname hartifacts hD hfree h⟩
  · obtain ⟨before, o, after, hsplit, hbefore, ho⟩ := exists_first_not_comparable h
    exact .inr ⟨h, o.path, checkIn_of_not_comparable hname hartifacts hD hfree hsplit hbefore ho⟩

end InDirectory

/-- In an output directory with files or nothing in the places of the two files, a check gives its
    verdict exactly if both can be compared. Otherwise it fails to read the first that cannot be,
    whatever the other is. Files that are not in sync never pass. -/
theorem check_eq_verdict_iff (w : Workspace) (input outputDir : Path) (settings : Settings)
    (hname : inputName input = .ok name)
    (hartifacts : artifactsIn w.files input settings = .ok artifacts)
    (hD : w.files.directory? outputDir = some D)
    (hfree : ∀ file ∈ fileNames name, w.files.find? (D ++ [file]) ≠ some .directory) :
    ((w.run (check input outputDir settings)).1 =
        verdict w.files (.ofName name outputDir) artifacts ↔
      ∀ o ∈ outputs (.ofName name outputDir) artifacts, Comparable w.files o.path) ∧
    (∀ before o after, outputs (.ofName name outputDir) artifacts = before ++ o :: after →
      (∀ b ∈ before, Comparable w.files b.path) → ¬ Comparable w.files o.path →
      ∃ cause, (w.run (check input outputDir settings)).1 = .error (.io o.path cause)) ∧
    (∀ f, (w.run (check input outputDir settings)).1 = .error f →
      (f.exitCode = 5 ↔
        ∀ o ∈ outputs (.ofName name outputDir) artifacts, Comparable w.files o.path)) ∧
    ((∃ paths, (w.run (check input outputDir settings)).1 = .ok paths) ↔
      ∀ o ∈ outputs (.ofName name outputDir) artifacts,
        w.files.entryAt? o.path = some (.file o.text.toUtf8)) := by
  have hrun := (reads_check input outputDir settings w).1
  dsimp only at hrun
  rw [hrun]
  refine ⟨?_, ?_, ?_, ?_⟩
  · rcases checkIn_cases hname hartifacts hD hfree with ⟨h, heq⟩ | ⟨h, p, cause, heq⟩
    · exact iff_of_true heq h
    · refine iff_of_false ?_ h
      intro hverdict
      have hcode := exitCode_of_verdict (hverdict.symm.trans heq)
      exact absurd hcode nofun
  · intro before o after
    exact checkIn_of_not_comparable hname hartifacts hD hfree
  · intro f hf
    rcases checkIn_cases hname hartifacts hD hfree with ⟨h, heq⟩ | ⟨h, p, cause, heq⟩
    · exact iff_of_true (exitCode_of_verdict (heq.symm.trans hf)) h
    · obtain rfl := Except.error.inj (heq.symm.trans hf)
      exact iff_of_false nofun h
  · rw [← exists_verdict_eq_ok_iff]
    rcases checkIn_cases hname hartifacts hD hfree with ⟨-, heq⟩ | ⟨h, p, cause, heq⟩
    · rw [heq]
    · rw [heq, exists_verdict_eq_ok_iff]
      refine iff_of_false (fun ⟨_, hok⟩ => absurd hok nofun) ?_
      intro hsync
      apply h
      intro o ho
      exact comparable_of_entryAt? (hsync o ho)

/-- A workspace in which the header is a byte that is no text, and the definition is missing. -/
def corruptedWorkspace : Workspace :=
  { files := (plainWorkspace.files.insert ["out"] .directory).insert ["out", "s.h"]
      (.file ⟨#[0xff]⟩) }

/-- Neither file is in sync there, but a check fails to read the header. -/
theorem check_ne_verdict_of_corrupted : ∃ artifacts cause,
    artifactsIn corruptedWorkspace.files ⟨"s"⟩ {} = .ok artifacts ∧
    (corruptedWorkspace.run (check ⟨"s"⟩ ⟨"out"⟩ {})).1 = .error (.io ⟨"out/s.h"⟩ cause) ∧
    (corruptedWorkspace.run (check ⟨"s"⟩ ⟨"out"⟩ {})).1 ≠
      verdict corruptedWorkspace.files (.ofName "s" ⟨"out"⟩) artifacts := by
  have hok : (artifactsIn corruptedWorkspace.files ⟨"s"⟩ {}).isOk = true := by decide +kernel
  cases hartifacts : artifactsIn corruptedWorkspace.files ⟨"s"⟩ {} with
  | error f =>
    rw [hartifacts] at hok
    exact absurd hok Bool.false_ne_true
  | ok artifacts =>
    have hname : inputName ⟨"s"⟩ = .ok "s" := by decide +kernel
    have hD : corruptedWorkspace.files.directory? ⟨"out"⟩ = some (["out"] : Location) := by
      decide +kernel
    have hfree : ∀ file ∈ fileNames "s",
        corruptedWorkspace.files.find? ((["out"] : Location) ++ [file]) ≠ some .directory := by
      decide +kernel
    have hheader : ¬ Comparable corruptedWorkspace.files
        (OutputPaths.ofName "s" ⟨"out"⟩).header := by
      rintro ⟨l, hl, htexts⟩
      have hlocation : corruptedWorkspace.files.location? (OutputPaths.ofName "s" ⟨"out"⟩).header =
          some (["out", "s.h"] : Location) := by
        decide +kernel
      obtain rfl := Option.some.inj (hlocation.symm.trans hl)
      obtain ⟨text, htext⟩ := htexts ⟨#[0xff]⟩ (by decide +kernel)
      have hnone : Text.ofUtf8? ⟨#[0xff]⟩ = none := by decide +kernel
      rw [htext, Text.ofUtf8?_toUtf8] at hnone
      exact Option.some_ne_none text hnone
    obtain ⟨hverdict, hfirst, -⟩ :=
      check_eq_verdict_iff corruptedWorkspace ⟨"s"⟩ ⟨"out"⟩ {} hname hartifacts hD hfree
    obtain ⟨cause, hcause⟩ := hfirst [] _ _ rfl nofun hheader
    have hpath : (OutputPaths.ofName "s" ⟨"out"⟩).header = ⟨"out/s.h"⟩ := by decide +kernel
    refine ⟨artifacts, cause, rfl, hpath ▸ hcause, ?_⟩
    intro heq
    exact hheader (hverdict.1 heq _ List.mem_cons_self)

end Run

end ShaderVariants
