import ShaderVariants.Proofs.Staging
import ShaderVariants.Workspace

/-!
# What publishing leaves

Outputs that are published on a workspace are either all placed, or the run stops at the
first that cannot be staged or placed and the temporary files are cleared away. So the tree
that is left follows from the one before, whether the run succeeds or fails.
-/

namespace ShaderVariants.Publish

open FileTree

variable {t u v : FileTree} {w w' : Workspace} {l m : Location} {o a : Output} {f : Failure}
  {outputs before after moved rest : List Output} {qs : List Path}

/-! ## Equations -/

section Equations

variable {σ : Type} [Host (StateM σ)]

theorem stageAll_cons (o : Output) (rest : List Output) (s : σ) :
    (stageAll (o :: rest) : StateM σ _) s =
      match temporary? o.path with
      | none => (([], .error (.io o.path .noOutputName)), s)
      | some q =>
        match (Host.writeSynced q o.text : StateM σ _) s with
        | (.error cause, s) => (([q], .error (.io q cause)), s)
        | (.ok (), s) =>
          let ((later, r), s) := (stageAll rest : StateM σ _) s
          ((q :: later, r), s) := by
  rw [stageAll]
  cases temporary? o.path with
  | none => rfl
  | some q =>
    dsimp only
    rw [Session.bind_apply]
    rcases (Host.writeSynced q o.text : StateM σ _) s with ⟨_ | _, s⟩ <;> rfl

theorem replaceAll_cons (q p : Path) (rest : List (Path × Path)) (s : σ) :
    (replaceAll ((q, p) :: rest) : StateM σ _) s =
      match (Host.rename q p : StateM σ _) s with
      | (.error cause, s) => (.error (.io p cause), s)
      | (.ok (), s) =>
        (replaceAll rest : StateM σ _) ((Host.report (.generated p) : StateM σ Unit) s).2 := by
  rw [replaceAll, Session.bind_apply]
  rcases (Host.rename q p : StateM σ _) s with ⟨_ | _, s⟩ <;> rfl

theorem forM_discard_cons (q : Path) (qs : List Path) (s : σ) :
    ((q :: qs).forM discard : StateM σ Unit) s =
      (qs.forM discard : StateM σ Unit) ((discard q : StateM σ Unit) s).2 := rfl

theorem publish_eq (outputs : List Output) (s : σ) :
    (publish outputs : StateM σ _) s =
      match (stageAll outputs : StateM σ _) s with
      | ((qs, .error f), s) => (.error f, ((qs.forM discard : StateM σ Unit) s).2)
      | ((qs, .ok ()), s) =>
        match (replaceAll (qs.zip (outputs.map Output.path)) : StateM σ _) s with
        | (.ok (), s) => (.ok (), s)
        | (.error f, s) => (.error f, ((qs.forM discard : StateM σ Unit) s).2) := by
  rw [publish, Session.bind_apply]
  rcases (stageAll outputs : StateM σ _) s with ⟨⟨qs, f | _⟩, s⟩
  · simp only [Session.bind_apply, Session.pure_apply]
  · dsimp only
    rw [Session.bind_apply]
    rcases (replaceAll (qs.zip (outputs.map Output.path)) : StateM σ _) s with ⟨f | _, s⟩
    · simp only [Session.bind_apply, Session.pure_apply]
    · rfl

end Equations

/-- What a host does to the workspace that `view` shows of its state: it renames and reports as a
    workspace does, unless it refuses to rename. -/
structure ActsOn {σ : Type} [Host (StateM σ)] (view : σ → Workspace) : Prop where
  rename : ∀ (q p : Path) (s : σ),
    (∃ cause s', (Host.rename q p : StateM σ _) s = (.error cause, s') ∧ view s' = view s) ∨
    ∃ u s', (Host.rename q p : StateM σ _) s = (.ok (), s') ∧
      (view s).files.rename q p = .ok u ∧ view s' = ⟨u, (view s).log⟩
  report : ∀ (e : Event) (s : σ),
    view ((Host.report e : StateM σ Unit) s).2 = ⟨(view s).files, (view s).log ++ [e]⟩

/-! ## On a workspace -/

/-- Only the creation of a file can fail, and so nothing is left of one that fails. -/
theorem writeSynced_eq (q : Path) (text : Text) (w : Workspace) :
    (Host.writeSynced q text : Session _) w =
      match w.files.writeBytes q text.toUtf8 with
      | .error cause => (.error cause, w)
      | .ok t => (.ok (), { w with files := t }) := by
  rw [Host.writeSynced, Session.bind_apply, FileTree.writeBytes]
  simp only [Host.createFile, Session.createFile]
  cases w.files.createFile q <;> rfl

theorem rename_eq (q p : Path) (w : Workspace) :
    (Host.rename q p : Session _) w =
      match w.files.rename q p with
      | .error cause => (.error cause, w)
      | .ok t => (.ok (), { w with files := t }) := by
  simp only [Host.rename, Session.change]
  cases w.files.rename q p <;> rfl

theorem actsOn_workspace : ActsOn (σ := Workspace) id where
  rename q p w := by
    rw [rename_eq]
    cases hrename : w.files.rename q p with
    | error cause => exact .inl ⟨cause, w, rfl, rfl⟩
    | ok t => exact .inr ⟨t, _, rfl, hrename, rfl⟩
  report _ _ := rfl

theorem discard_eq (q : Path) (w : Workspace) :
    (discard q : Session Unit) w = ((), { w with files := clear w.files q }) := by
  have hexists : (Host.pathExists q : Session Bool) w = (w.files.pathExists q, w) := rfl
  have hremove : (Session.change (·.removeFile q) w).2 =
      { w with files := (w.files.removeFile q).toOption.getD w.files } := by
    rw [Session.change]
    cases w.files.removeFile q <;> rfl
  rw [discard, clear, Session.bind_apply, hexists]
  cases w.files.pathExists q with
  | false => rfl
  | true => exact congrArg (Prod.mk ()) hremove

theorem forM_discard (qs : List Path) (w : Workspace) :
    ((qs.forM discard : Session Unit) w).2 = { w with files := qs.foldl clear w.files } := by
  induction qs generalizing w with
  | nil => rfl
  | cons q qs ih =>
    rw [forM_discard_cons, discard_eq]
    exact ih _

/-! ## Runs -/

/-- The outputs that are staged before the first that cannot be. -/
def begun (t : FileTree) : List Output → List Output
  | [] => []
  | o :: rest =>
    match temporary? o.path with
    | none => []
    | some q =>
      match t.writeBytes q o.text.toUtf8 with
      | .error _ => []
      | .ok u => o :: begun u rest

theorem begun_prefix_self (t : FileTree) (outputs : List Output) : begun t outputs <+: outputs := by
  induction outputs generalizing t with
  | nil => exact List.prefix_refl []
  | cons o rest ih =>
    rw [begun]
    split
    · exact List.nil_prefix
    · split
      · exact List.nil_prefix
      · exact List.cons_prefix_cons.2 ⟨rfl, ih _⟩

/-- The paths are the temporary files of the outputs. -/
def AreTemporary (outputs : List Output) (qs : List Path) : Prop :=
  outputs.map (fun o => temporary? o.path) = qs.map some

theorem AreTemporary.cons {q : Path} (hq : temporary? o.path = some q)
    (h : AreTemporary outputs qs) : AreTemporary (o :: outputs) (q :: qs) :=
  congrArg₂ List.cons hq h

theorem AreTemporary.mem_iff {q : Path} (h : AreTemporary outputs qs) :
    q ∈ qs ↔ ∃ o ∈ outputs, temporary? o.path = some q := by
  rw [← List.mem_map_of_injective (fun _ _ => Option.some.inj), ← h, List.mem_map]

/-- A directory stands where the path leads, if it leads anywhere. -/
def Blocked (t : FileTree) (q : Path) : Prop :=
  q.endsInSeparator = false ∧ ∀ l, t.location? q = some l → t.find? l = some .directory

theorem blocked_of_writeBytes {q : Path} {bytes : ByteArray} {cause : IoCause}
    (hq : temporary? o.path = some q) (hwrite : t.writeBytes q bytes = .error cause) :
    Blocked t q := by
  have hend := (site?_of_temporary? t hq).2
  refine ⟨hend, fun l hl => by_contra fun hfree => ?_⟩
  obtain ⟨u, hok⟩ := exists_writeBytes_eq_ok hl hend hfree bytes
  exact absurd (hwrite.symm.trans hok) nofun

/-- Staging ends with all outputs, or with a temporary file that cannot be written. -/
theorem stageAll_run (outputs : List Output) (w : Workspace) :
    ∃ qs blocked r t,
      (stageAll outputs : Session _) w = ((qs ++ blocked, r), { w with files := t }) ∧
      (r = .ok () → begun w.files outputs = outputs ∧ blocked = []) ∧
      AreTemporary (begun w.files outputs) qs ∧ Staged w.files (begun w.files outputs) t ∧
      ∀ q ∈ blocked, Blocked t q := by
  induction outputs generalizing w with
  | nil => exact ⟨[], [], .ok (), w.files, rfl, fun _ => ⟨rfl, rfl⟩, rfl, .nil _, nofun⟩
  | cons o rest ih =>
    simp only [stageAll_cons, writeSynced_eq, begun]
    cases hq : temporary? o.path with
    | none => exact ⟨[], [], _, w.files, rfl, nofun, rfl, .nil _, nofun⟩
    | some q =>
      dsimp only
      cases hwrite : w.files.writeBytes q o.text.toUtf8 with
      | error cause =>
        exact ⟨[], [q], _, w.files, rfl, nofun, rfl, .nil _,
          List.forall_mem_singleton.2 (blocked_of_writeBytes hq hwrite)⟩
      | ok v =>
        obtain ⟨qs, blocked, r, t, hrun, hall, hqs, hstaged, hblocked⟩ :=
          ih { w with files := v }
        refine ⟨q :: qs, blocked, r, t, ?_, fun h => ?_, .cons hq hqs,
          .cons hq hwrite hstaged, hblocked⟩
        · dsimp only
          rw [hrun]
          rfl
        · exact ⟨congrArg (o :: ·) (hall h).1, (hall h).2⟩

/-- Placing ends with all staged files, or with one that cannot take its place. -/
theorem replaceAll_run {σ : Type} [Host (StateM σ)] {view : σ → Workspace} (hview : ActsOn view)
    {s : σ} (hqs : AreTemporary rest qs) (h : Placed t before (view s).files) :
    ∃ moved r s', (replaceAll (qs.zip (rest.map Output.path)) : StateM σ _) s = (r, s') ∧
      (view s').log = (view s).log ++ moved.map (fun o => .generated o.path) ∧
      (r = .ok () → moved = rest) ∧
      (∀ f, r = .error f → ∃ o after cause, rest = moved ++ o :: after ∧ f = .io o.path cause) ∧
      Placed t (before ++ moved) (view s').files := by
  induction rest generalizing before s qs with
  | nil =>
    obtain rfl : qs = [] := List.map_eq_nil_iff.1 hqs.symm
    refine ⟨[], .ok (), s, rfl, (List.append_nil _).symm, fun _ => rfl, nofun, ?_⟩
    rwa [List.append_nil]
  | cons o rest ih =>
    obtain ⟨q, qs, rfl, hq, hqs⟩ := List.map_eq_cons_iff.1 hqs.symm
    rw [List.map_cons, List.zip_cons_cons, replaceAll_cons]
    rcases hview.rename q o.path s with ⟨cause, s₁, hrename, hs₁⟩ | ⟨u, s₁, hrename, hu, hs₁⟩
    · refine ⟨[], .error (.io o.path cause), s₁, by rw [hrename], ?_, nofun, ?_, ?_⟩
      · rw [hs₁, List.map_nil, List.append_nil]
      · rintro f ⟨⟩
        exact ⟨o, rest, cause, rfl, rfl⟩
      · rwa [List.append_nil, hs₁]
    · obtain ⟨s₂, hs₂⟩ : ∃ s₂, ((Host.report (.generated o.path) : StateM σ Unit) s₁).2 = s₂ :=
        ⟨_, rfl⟩
      have hview₂ : view s₂ = ⟨u, (view s).log ++ [.generated o.path]⟩ := by
        rw [← hs₂, hview.report, hs₁]
      have hnext : Placed t (before ++ [o]) (view s₂).files := by
        rw [hview₂]
        exact h.snoc hq.symm hu
      obtain ⟨moved, r, s', hrun, hlog, hall, hfails, hplaced⟩ := ih hqs.symm hnext
      refine ⟨o :: moved, r, s', by rw [hrename, ← hrun, ← hs₂], ?_, ?_, fun f h => ?_, ?_⟩
      · rw [hlog, hview₂, List.map_cons, List.append_assoc, List.singleton_append]
      · exact fun h => congrArg (o :: ·) (hall h)
      · obtain ⟨a, after, cause, hsplit, ha⟩ := hfails f h
        exact ⟨a, after, cause, congrArg (o :: ·) hsplit, ha⟩
      · rwa [List.append_assoc, List.singleton_append] at hplaced

/-- Clearing the temporary files that were begun removes those that were written. -/
theorem foldl_clear_begun {blocked : List Path} (hqs : AreTemporary outputs qs)
    (hstaged : Staged t outputs u) (hblocked : ∀ q ∈ blocked, Blocked u q)
    (hsame : SameDirectories u v) :
    SameDirectories v ((qs ++ blocked).foldl clear v) ∧
      ∀ m, ((qs ++ blocked).foldl clear v).find? m =
        if ∃ b ∈ outputs, (t.site? b.path).map temporarySite = some m then none
        else v.find? m := by
  have hend : ∀ q ∈ qs ++ blocked, q.endsInSeparator = false := by
    intro q hq
    rcases List.mem_append.1 hq with hq | hq
    · obtain ⟨o, -, ho⟩ := hqs.mem_iff.1 hq
      exact (site?_of_temporary? t ho).2
    · exact (hblocked q hq).1
  obtain ⟨hdirectories, hfind⟩ := foldl_clear (t := v) (qs ++ blocked) hend
  refine ⟨hdirectories, fun m => ?_⟩
  have hiff : ((∃ q ∈ qs ++ blocked, v.location? q = some m) ∧ v.find? m ≠ some .directory) ↔
      ∃ b ∈ outputs, (t.site? b.path).map temporarySite = some m := by
    have hall := hstaged.sameDirectories.trans hsame
    constructor
    · rintro ⟨⟨q, hq, hm⟩, hfree⟩
      rcases List.mem_append.1 hq with hq | hq
      · obtain ⟨o, ho, htemporary⟩ := hqs.mem_iff.1 hq
        rw [hall.location?] at hm
        refine ⟨o, ho, ?_⟩
        rw [← (site?_of_temporary? t htemporary).1, site?_of_location? hm]
      · rw [hsame.location?] at hm
        exact absurd (hsame.forth.directory ((hblocked q hq).2 m hm)) hfree
    · rintro ⟨o, ho, hm⟩
      obtain ⟨q, l, hq, hl, hlocation, hfree⟩ := hstaged.location?_eq o ho
      rw [hl, Option.map_some] at hm
      obtain rfl := Option.some.inj hm
      refine ⟨⟨q, List.mem_append_left _ (hqs.mem_iff.2 ⟨o, ho, hq⟩), ?_⟩, fun hd => ?_⟩
      · rw [hall.location?, hlocation]
      · exact hfree (hall.back.directory hd)
  rw [hfind, if_congr hiff rfl rfl]

/-- Outputs that are published are all staged and then all placed. -/
theorem publish_eq_ok (h : (publish outputs : Session _) w = (.ok (), w')) :
    ∃ t, Staged w.files outputs t ∧ Placed t outputs w'.files ∧
      w'.log = w.log ++ outputs.map fun o => .generated o.path := by
  obtain ⟨qs, blocked, r, t, hstage, hall, hqs, hstaged, -⟩ := stageAll_run outputs w
  rw [publish_eq, hstage] at h
  cases r with
  | error f => exact absurd (congrArg Prod.fst h) nofun
  | ok _ =>
    obtain ⟨hbegun, rfl⟩ := hall rfl
    rw [hbegun] at hqs hstaged
    obtain ⟨moved, r, w₂, hreplace, hlog, hmoved, -, hplaced⟩ :=
      replaceAll_run actsOn_workspace (s := ⟨t, w.log⟩) hqs (.nil (t := t))
    dsimp only at h
    rw [List.append_nil, hreplace] at h
    cases r with
    | error f => exact absurd (congrArg Prod.fst h) nofun
    | ok _ =>
      obtain rfl := congrArg Prod.snd h
      obtain rfl := hmoved rfl
      exact ⟨t, hstaged, hplaced, hlog⟩

/-- Publishing that fails is given up with some outputs staged and some of those placed. -/
theorem publish_eq_error (h : (publish outputs : Session _) w = (.error f, w')) :
    ∃ moved, GivenUp w.files (begun w.files outputs) moved w'.files ∧
      w'.log = w.log ++ moved.map fun o => .generated o.path := by
  obtain ⟨qs, blocked, r, t, hstage, hall, hqs, hstaged, hblocked⟩ := stageAll_run outputs w
  have hclear {u : FileTree} := foldl_clear_begun (v := u) hqs hstaged hblocked
  rw [publish_eq, hstage] at h
  cases r with
  | error g =>
    dsimp only at h
    rw [forM_discard] at h
    obtain rfl := congrArg Prod.snd h
    obtain ⟨hsame, hfind⟩ := hclear (.refl t)
    exact ⟨[], givenUp List.nil_prefix hstaged .nil hsame hfind, (List.append_nil _).symm⟩
  | ok _ =>
    obtain ⟨hbegun, rfl⟩ := hall rfl
    obtain ⟨moved, r, w₂, hreplace, hlog, -, hfails, hplaced⟩ :=
      replaceAll_run actsOn_workspace (s := ⟨t, w.log⟩) (hbegun ▸ hqs) (.nil (t := t))
    dsimp only at h
    rw [List.append_nil, hreplace] at h
    cases r with
    | ok _ => exact absurd (congrArg Prod.fst h) nofun
    | error g =>
      dsimp only at h
      rw [forM_discard] at h
      obtain rfl := congrArg Prod.snd h
      obtain ⟨hsame, hfind⟩ := hclear hplaced.sameDirectories
      rw [List.append_nil] at hsame hfind
      have hmoved : moved <+: begun w.files outputs := by
        obtain ⟨o, after, -, houtputs, -⟩ := hfails g rfl
        rw [hbegun, houtputs]
        exact List.prefix_append _ _
      exact ⟨moved, givenUp hmoved hstaged hplaced hsame hfind, hlog⟩

/-! ## Failures -/

section Failures

variable {σ : Type} [Host (StateM σ)] {s : σ}

theorem exists_io_of_stageAll_eq_error
    (h : ((stageAll outputs : StateM σ _) s).1.2 = .error f) : ∃ p cause, f = .io p cause := by
  induction outputs generalizing s with
  | nil => exact absurd h nofun
  | cons o rest ih =>
    rw [stageAll_cons] at h
    cases hq : temporary? o.path with
    | none =>
      rw [hq] at h
      exact ⟨_, _, (Except.error.inj h).symm⟩
    | some q =>
      rw [hq] at h
      dsimp only at h
      rcases hwrite : (Host.writeSynced q o.text : StateM σ _) s with ⟨cause | _, s'⟩
      · rw [hwrite] at h
        exact ⟨_, _, (Except.error.inj h).symm⟩
      · rw [hwrite] at h
        exact ih h

theorem exists_io_of_replaceAll_eq_error {places : List (Path × Path)}
    (h : ((replaceAll places : StateM σ _) s).1 = .error f) : ∃ p cause, f = .io p cause := by
  induction places generalizing s with
  | nil => exact absurd h nofun
  | cons place rest ih =>
    rw [replaceAll_cons] at h
    rcases hrename : (Host.rename place.1 place.2 : StateM σ _) s with ⟨cause | _, s'⟩
    · rw [hrename] at h
      exact ⟨_, _, (Except.error.inj h).symm⟩
    · rw [hrename] at h
      exact ih h

/-- Publishing fails with an operation on a path, whatever the host. -/
theorem exists_io_of_publish_eq_error
    (h : ((publish outputs : StateM σ _) s).1 = .error f) : ∃ p cause, f = .io p cause := by
  rw [publish_eq] at h
  rcases hstage : (stageAll outputs : StateM σ _) s with ⟨⟨qs, g | _⟩, s₁⟩
  · rw [hstage] at h
    obtain rfl := Except.error.inj h
    exact exists_io_of_stageAll_eq_error (congrArg (·.1.2) hstage)
  · rw [hstage] at h
    dsimp only at h
    rcases hreplace : (replaceAll (qs.zip (outputs.map Output.path)) : StateM σ _) s₁ with
      ⟨g | _, s₂⟩
    · rw [hreplace] at h
      obtain rfl := Except.error.inj h
      exact exists_io_of_replaceAll_eq_error (congrArg Prod.fst hreplace)
    · rw [hreplace] at h
      exact absurd h nofun

end Failures

/-! ## Success -/

/-- Exactly when no output goes where the temporary file of a later one is, each path holds the
    text of its output. -/
theorem readText_of_placed_iff (hdistinct : Distinct t outputs) (hstaged : Staged t outputs u)
    (hplaced : Placed u outputs v) :
    (∀ o ∈ outputs, v.readText o.path = .ok o.text) ↔
      outputs.Pairwise fun a b => ¬ TakesTemporary t a b := by
  have hsame := hstaged.sameDirectories.trans hplaced.sameDirectories
  have hread : ∀ o ∈ outputs, ∃ l, t.site? o.path = some l ∧
      (v.readText o.path = .ok o.text ↔ v.find? l = some (.file o.text.toUtf8)) := by
    intro o ho
    obtain ⟨hend, l, hl⟩ := location?_of_placed hstaged hplaced o ho
    refine ⟨l, site?_of_location? hl, ?_⟩
    rw [readText_eq_ok, entryAt?_eq_file_iff_of_location? _ hend]
    rwa [hsame.location?]
  constructor
  · intro htexts
    refine List.pairwise_iff_forall_sublist.2 fun {a b} hsub htakes => ?_
    obtain ⟨front, back, rfl, ha, hb⟩ := List.cons_sublist_iff.1 hsub
    obtain ⟨before, middle, rfl⟩ := List.append_of_mem ha
    have hmem : a ∈ before ++ a :: middle ++ back := List.mem_append_left _ ha
    obtain ⟨l, hl, hiff⟩ := hread a hmem
    have hgone := find?_site_of_placed hstaged hplaced hdistinct (List.prefix_refl _)
      (List.append_assoc before (a :: middle) back) hl
    rw [if_pos ⟨b, List.mem_append_right middle (List.singleton_sublist.1 hb), htakes⟩,
      hiff.1 (htexts a hmem)] at hgone
    exact absurd hgone (Option.some_ne_none _)
  · intro hordered o ho
    obtain ⟨l, hl, hiff⟩ := hread o ho
    obtain ⟨before, after, rfl⟩ := List.append_of_mem ho
    obtain ⟨-, hafter, hbefore⟩ := List.pairwise_append.1 hordered
    have htext : arriving t before.reverse o = o.text :=
      arriving_of_not_takesTemporary fun a ha =>
        hbefore a (List.mem_reverse.1 ha) o List.mem_cons_self
    rw [hiff, find?_site_of_placed hstaged hplaced hdistinct (List.prefix_refl _) rfl hl, if_neg,
      htext]
    rintro ⟨b, hb, htakes⟩
    exact (List.pairwise_cons.1 hafter).1 b hb htakes

/-- Outputs that are published change nothing but their places and temporary files. Each path
    holds the text of its output exactly if no output goes where the temporary file of a later
    one is. -/
theorem published_texts_iff (hdistinct : Distinct w.files outputs)
    (h : (publish outputs : Session _) w = (.ok (), w')) :
    (∀ l, (∀ o ∈ outputs, w.files.site? o.path ≠ some l ∧
        (w.files.site? o.path).map temporarySite ≠ some l) →
      w'.files.find? l = w.files.find? l) ∧
    ((∀ o ∈ outputs, w'.files.readText o.path = .ok o.text) ↔
      outputs.Pairwise fun a b => ¬ TakesTemporary w.files a b) := by
  obtain ⟨t, hstaged, hplaced, -⟩ := publish_eq_ok h
  refine ⟨fun l hl => ?_, readText_of_placed_iff hdistinct hstaged hplaced⟩
  exact find?_of_placed hstaged hplaced (fun o ho => (hl o ho).1) (fun o ho => (hl o ho).2)
    (List.prefix_refl outputs)

/-- Two outputs of which the first goes where the temporary file of the second is. -/
def crossedOutputs : List Output := [⟨⟨"a.tmp"⟩, "y"⟩, ⟨⟨"a"⟩, "x"⟩]

/-- Those outputs are published, but their paths do not hold their texts. -/
theorem texts_ne_of_crossed : ∃ w', (publish crossedOutputs : Session _) {} = (.ok (), w') ∧
    ¬ ∀ o ∈ crossedOutputs, w'.files.readText o.path = .ok o.text := by
  have hok : ((publish crossedOutputs : Session _) {}).1.isOk := by decide +kernel
  have hdistinct : Distinct {} crossedOutputs := by
    have hne : ({} : FileTree).site? ⟨"a.tmp"⟩ ≠ ({} : FileTree).site? ⟨"a"⟩ := by decide +kernel
    exact List.pairwise_pair.2 fun l ha hb => hne (ha.trans hb.symm)
  have htakes : TakesTemporary {} ⟨⟨"a.tmp"⟩, "y"⟩ ⟨⟨"a"⟩, "x"⟩ := by decide +kernel
  rcases hrun : (publish crossedOutputs : Session _) {} with ⟨f | _, w'⟩
  · rw [hrun] at hok
    exact absurd hok Bool.false_ne_true
  · refine ⟨w', rfl, fun htexts => ?_⟩
    have hordered := (published_texts_iff hdistinct hrun).2.1 htexts
    exact List.pairwise_pair.1 hordered htakes

/-! ## Failure -/

/-- When publishing is given up, the path of an output is as it was but in two cases: a file
    was there in the place of a temporary file, or another text was placed there. -/
theorem GivenUp.entryAt?_eq_iff {begun : List Output} (h : GivenUp t begun moved u)
    (hbegun : begun <+: outputs) (hdistinct : Distinct t outputs) (ho : o ∈ outputs) :
    u.entryAt? o.path = t.entryAt? o.path ↔
      (∀ b ∈ begun, TakesTemporary t o b → ∀ bytes, t.entryAt? o.path ≠ some (.file bytes)) ∧
      ∀ before after, moved = before ++ o :: after →
        (∃ b ∈ begun, TakesTemporary t o b) ∨
          t.readText o.path = .ok (arriving t before.reverse o) := by
  rw [h.sameDirectories.entryAt?_eq_iff]
  simp only [readText_eq_ok, ne_eq, entryAt?_eq_file_iff, h.sameDirectories.location?]
  by_cases hlocation : o.path.endsInSeparator = false ∧ ∃ l, t.location? o.path = some l
  case neg =>
    have hnone (v : FileTree) (bytes : ByteArray) : ¬ (o.path.endsInSeparator = false ∧
        ∃ l, t.location? o.path = some l ∧ v.find? l = some (.file bytes)) :=
      fun ⟨hend, l, hl, _⟩ => hlocation ⟨hend, l, hl⟩
    refine iff_of_true (fun bytes => iff_of_false (hnone u bytes) (hnone t bytes))
      ⟨fun _ _ _ => hnone t, ?_⟩
    rintro before after rfl
    exact absurd (h.location?_eq o List.mem_append_cons_self) hlocation
  obtain ⟨hend, l, hl⟩ := hlocation
  have hsite := site?_of_location? hl
  simp only [hend, hl, true_and, Option.some.injEq, exists_eq_left']
  -- the temporary files are cleared away last, so they decide before what was placed
  by_cases htakes : ∃ b ∈ begun, TakesTemporary t o b
  case pos =>
    obtain ⟨b, hb, hob⟩ := htakes
    rw [h.find?_temporarySite b hb l ((takesTemporary_iff hsite).1 hob)]
    constructor
    · intro hsame
      exact ⟨fun _ _ _ bytes hfile => absurd ((hsame bytes).2 hfile) nofun,
        fun _ _ _ => .inl ⟨b, hb, hob⟩⟩
    · rintro ⟨hnone, -⟩ bytes
      exact iff_of_false nofun (hnone b hb hob bytes)
  have hfree : ∀ b ∈ begun, ¬ TakesTemporary t o b := fun b hb hob => htakes ⟨b, hb, hob⟩
  by_cases hmoved : o ∈ moved
  case pos =>
    have hplaced before after (hsplit : moved = before ++ o :: after) :=
      h.find?_site (hdistinct.sublist hbegun.sublist) before o after l hsplit hsite hfree
    constructor
    · intro hsame
      exact ⟨fun b hb hob => absurd hob (hfree b hb), fun before after hsplit =>
        .inr ((hsame _).1 (hplaced before after hsplit))⟩
    · rintro ⟨-, htexts⟩ bytes
      obtain ⟨before, after, hsplit⟩ := List.append_of_mem hmoved
      rw [hplaced before after hsplit, (htexts before after hsplit).resolve_left htakes]
  case neg =>
    have hkept := h.find?_eq_of_notMem hbegun hdistinct ho hmoved hsite hfree
    refine iff_of_true (fun bytes => by rw [hkept])
      ⟨fun b hb hob => absurd hob (hfree b hb), ?_⟩
    rintro before after rfl
    exact absurd List.mem_append_cons_self hmoved

/-- Publishing that fails leaves a path as it was unless a file was there in the place of a
    temporary file, or another text was placed there before the failure. -/
theorem unpublished_paths_iff (hdistinct : Distinct w.files outputs)
    (h : (publish outputs : Session _) w = (.error f, w')) :
    ∃ moved, moved <+: outputs ∧ w'.log = w.log ++ moved.map (fun o => .generated o.path) ∧
      ∀ o ∈ outputs, w'.files.entryAt? o.path = w.files.entryAt? o.path ↔
        (∀ b ∈ begun w.files outputs, TakesTemporary w.files o b →
          ∀ bytes, w.files.entryAt? o.path ≠ some (.file bytes)) ∧
        ∀ before after, moved = before ++ o :: after →
          (∃ b ∈ begun w.files outputs, TakesTemporary w.files o b) ∨
            w.files.readText o.path = .ok (arriving w.files before.reverse o) := by
  obtain ⟨moved, hgiven, hlog⟩ := publish_eq_error h
  have hbegun := begun_prefix_self w.files outputs
  exact ⟨moved, hgiven.moved_prefix_begun.trans hbegun, hlog,
    fun o ho => hgiven.entryAt?_eq_iff hbegun hdistinct ho⟩

/-- A workspace in which a directory stands at the path of the second output. -/
def blockedWorkspace : Workspace := { files := ({} : FileTree).insert ["d"] .directory }

def blockedOutputs : List Output := [⟨⟨"a"⟩, "x"⟩, ⟨⟨"d"⟩, "y"⟩]

/-- Publishing them fails, but the first path is not as it was. -/
theorem entryAt?_ne_of_blocked : ∃ f w',
    (publish blockedOutputs : Session _) blockedWorkspace = (.error f, w') ∧
    w'.files.entryAt? ⟨"a"⟩ ≠ blockedWorkspace.files.entryAt? ⟨"a"⟩ := by
  have hok : ((publish blockedOutputs : Session _) blockedWorkspace).1.isOk = false := by
    decide +kernel
  have hlog : ((publish blockedOutputs : Session _) blockedWorkspace).2.log =
      [.generated ⟨"a"⟩] := by
    decide +kernel
  have hdistinct : Distinct blockedWorkspace.files blockedOutputs := by
    have hne : blockedWorkspace.files.site? ⟨"a"⟩ ≠ blockedWorkspace.files.site? ⟨"d"⟩ := by
      decide +kernel
    exact List.pairwise_pair.2 fun l ha hb => hne (ha.trans hb.symm)
  have hfree : ∀ b ∈ begun blockedWorkspace.files blockedOutputs,
      ¬ TakesTemporary blockedWorkspace.files ⟨⟨"a"⟩, "x"⟩ b := by
    decide +kernel
  have habsent : blockedWorkspace.files.entryAt? ⟨"a"⟩ = none := by decide +kernel
  rcases hrun : (publish blockedOutputs : Session _) blockedWorkspace with ⟨f | _, w'⟩
  · refine ⟨f, w', rfl, fun hsame => ?_⟩
    obtain ⟨moved, hpre, hmoved, hiff⟩ := unpublished_paths_iff hdistinct hrun
    rw [hrun] at hlog
    cases moved with
    | nil => exact absurd (hlog.symm.trans hmoved) nofun
    | cons o after =>
      obtain ⟨rfl, -⟩ := List.cons_prefix_cons.1 hpre
      rcases ((hiff _ List.mem_cons_self).1 hsame).2 [] after rfl with ⟨b, hb, hob⟩ | htext
      · exact hfree b hb hob
      · rw [readText_eq_ok, habsent] at htext
        exact absurd htext nofun
  · rw [hrun] at hok
    exact absurd hok.symm Bool.false_ne_true

end ShaderVariants.Publish
