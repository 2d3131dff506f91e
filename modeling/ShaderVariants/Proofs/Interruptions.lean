import ShaderVariants.Proofs.Publishing
import ShaderVariants.Unreliable

/-!
# Publishing that is interrupted

On an unreliable system any operation may fail: a file may not be created, a text may be
written in part only, a file may not be moved or removed. Where the outputs go to different
places, and none to the temporary file of one, publishing that fails is as if it had ended
there: the outputs that were placed hold their texts and the others are as they were. No
temporary file is left but one that the system has refused to remove.
-/

namespace ShaderVariants.Publish

open FileTree

variable {t u v : FileTree} {s s' : UnreliableSystem} {w w' : Workspace} {l m : Location}
  {o : Output} {f : Failure} {q : Path} {outputs staged moved rest : List Output}
  {qs cleared kept : List Path} {answers answers' : List (Option SystemRefusal)}

/-! ## Answers of the system -/

/-- What is asked for is carried out or refused. -/
theorem ask_cases {α : Type} (operation : Session α) (refused : SystemRefusal → Trial α)
    (s : UnreliableSystem) : ∃ answers,
      Trial.ask operation refused s =
        ((operation s.workspace).1, ⟨(operation s.workspace).2, answers, s.kept⟩) ∨
      ∃ r, Trial.ask operation refused s = refused r ⟨s.workspace, answers, s.kept⟩ := by
  refine ⟨s.answers.tail, ?_⟩
  rw [Trial.ask]
  cases s.answers.head?.join with
  | none => exact .inl rfl
  | some r => exact .inr ⟨r, rfl⟩

theorem actsOn_unreliableSystem : ActsOn UnreliableSystem.workspace where
  rename q p s := by
    have hask : (Host.rename q p : Trial _) s = Trial.ask (Host.rename q p) Trial.refuse s := rfl
    rw [hask]
    obtain ⟨answers, hrun | ⟨r, hrun⟩⟩ := ask_cases (Host.rename q p) Trial.refuse s
    · rw [hrun, rename_eq]
      cases hrename : s.workspace.files.rename q p with
      | error cause => exact .inl ⟨cause, _, rfl, rfl⟩
      | ok u => exact .inr ⟨u, _, rfl, rfl, rfl⟩
    · exact .inl ⟨r.cause, _, hrun, rfl⟩
  report _ _ := rfl

/-! ## Systems that refuse nothing -/

/-- Where nothing is refused, `x` does what `y` does on the workspace. -/
def Agrees {α : Type} (x : Trial α) (y : Session α) : Prop :=
  ∀ w kept, x ⟨w, [], kept⟩ = ((y w).1, ⟨(y w).2, [], kept⟩)

section Agreement

variable {α β : Type} {x : Trial α} {y : Session α} {next : α → Trial β} {next' : α → Session β}

theorem Agrees.pure (a : α) : Agrees (pure a) (pure a) := fun _ _ => rfl

theorem Agrees.bind (h : Agrees x y) (hnext : ∀ a, Agrees (next a) (next' a)) :
    Agrees (x >>= next) (y >>= next') := by
  intro w kept
  rw [Session.bind_apply, Session.bind_apply, h w kept]
  exact hnext _ _ _

theorem agrees_ask (operation : Session α) (refused : SystemRefusal → Trial α) :
    Agrees (Trial.ask operation refused) operation := fun _ _ => rfl

theorem agrees_writeSynced (q : Path) (text : Text) :
    Agrees (Host.writeSynced q text) (Host.writeSynced q text) := by
  refine .bind (agrees_ask _ _) ?_
  rintro (cause | l)
  · exact .pure _
  · refine .bind (agrees_ask _ _) ?_
    rintro (cause | _)
    · exact .pure _
    · exact agrees_ask _ _

theorem agrees_stageAll (outputs : List Output) : Agrees (stageAll outputs) (stageAll outputs) := by
  induction outputs with
  | nil => exact .pure _
  | cons o rest ih =>
    rw [stageAll, stageAll]
    cases temporary? o.path with
    | none => exact .pure _
    | some q =>
      refine .bind (agrees_writeSynced q o.text) ?_
      rintro (cause | _)
      · exact .pure _
      · exact ih.bind fun _ => .pure _

theorem agrees_replaceAll (places : List (Path × Path)) :
    Agrees (replaceAll places) (replaceAll places) := by
  induction places with
  | nil => exact .pure _
  | cons place rest ih =>
    refine .bind (agrees_ask _ _) ?_
    rintro (cause | _)
    · exact .pure _
    · exact .bind (fun _ _ => rfl) fun _ => ih

theorem agrees_discard (q : Path) : Agrees (discard q) (discard q) := by
  refine .bind (agrees_ask _ _) ?_
  rintro (_ | _)
  · exact .pure _
  · exact .bind (agrees_ask _ _) fun _ => .pure _

theorem agrees_forM_discard (qs : List Path) : Agrees (qs.forM discard) (qs.forM discard) := by
  induction qs with
  | nil => exact .pure _
  | cons q qs ih => exact (agrees_discard q).bind fun _ => ih

/-- A system that refuses nothing publishes as a workspace does. -/
theorem agrees_publish (outputs : List Output) : Agrees (publish outputs) (publish outputs) := by
  refine (agrees_stageAll outputs).bind ?_
  rintro ⟨qs, f | _⟩
  · refine .bind (.pure _) ?_
    rintro (f | _)
    · exact (agrees_forM_discard qs).bind fun _ => .pure _
    · exact .pure _
  · refine (agrees_replaceAll _).bind ?_
    rintro (f | _)
    · exact (agrees_forM_discard qs).bind fun _ => .pure _
    · exact .pure _

end Agreement

/-! ## Files that are begun -/

/-- `u` is `t`, or it has a file where the path leads. -/
inductive BegunAt (t : FileTree) (q : Path) : FileTree → Prop
  | unchanged : BegunAt t q t
  | file {l : Location} {bytes : ByteArray} {u : FileTree} (hl : t.location? q = some l)
      (hfree : t.find? l ≠ some .directory) (hupdate : IsUpdate t l (some (.file bytes)) u) :
      BegunAt t q u

namespace BegunAt

theorem sameDirectories (h : BegunAt t q u) : SameDirectories t u := by
  cases h with
  | unchanged => exact .refl t
  | file _ hfree hupdate => exact hupdate.sameDirectories hfree (by simp)

theorem find?_eq (h : BegunAt t q u) (hm : t.location? q ≠ some m) : u.find? m = t.find? m := by
  cases h with
  | unchanged => rfl
  | file hl _ hupdate =>
    apply hupdate.find?_of_ne
    rintro rfl
    exact hm hl

/-- A file that was created may be filled with anything. -/
theorem fill (h : t.createFile q = .ok (l, u)) (bytes : ByteArray) :
    BegunAt t q (u.fillFile l bytes) := by
  obtain ⟨hl, hfree, -⟩ := createFile_eq_ok h
  exact .file hl hfree (isUpdate_fillFile h bytes)

end BegunAt

theorem createFile_trial (q : Path) (s : UnreliableSystem) : ∃ answers,
    (∃ cause, (Host.createFile q : Trial _) s =
      (.error cause, ⟨s.workspace, answers, s.kept⟩)) ∨
    ∃ l u, s.workspace.files.createFile q = .ok (l, u) ∧
      (Host.createFile q : Trial _) s = (.ok l, ⟨⟨u, s.workspace.log⟩, answers, s.kept⟩) := by
  obtain ⟨answers, hask | ⟨r, hask⟩⟩ := ask_cases (Session.createFile q) Trial.refuse s
  · refine ⟨answers, ?_⟩
    rw [Session.createFile] at hask
    cases hfile : s.workspace.files.createFile q with
    | error cause =>
      rw [hfile] at hask
      exact .inl ⟨cause, hask⟩
    | ok created =>
      rw [hfile] at hask
      exact .inr ⟨created.1, created.2, rfl, hask⟩
  · exact ⟨answers, .inl ⟨r.cause, hask⟩⟩

/-- Of a text that the system refuses to write some bytes may be in the file. -/
theorem writeAll_trial (l : Location) (text : Text) (s : UnreliableSystem) : ∃ answers,
    (Host.writeAll l text : Trial _) s = (.ok (),
      ⟨⟨s.workspace.files.fillFile l text.toUtf8, s.workspace.log⟩, answers, s.kept⟩) ∨
    ∃ cause bytes, (Host.writeAll l text : Trial _) s = (.error cause,
      ⟨⟨s.workspace.files.fillFile l bytes, s.workspace.log⟩, answers, s.kept⟩) := by
  obtain ⟨answers, hask | ⟨r, hask⟩⟩ :=
    ask_cases (Session.writeAll l text) (Trial.refusePart l text) s
  · exact ⟨answers, .inl hask⟩
  · exact ⟨answers, .inr ⟨r.cause, _, hask⟩⟩

theorem syncAll_trial (l : Location) (s : UnreliableSystem) : ∃ r answers,
    (Host.syncAll l : Trial _) s = (r, ⟨s.workspace, answers, s.kept⟩) := by
  obtain ⟨answers, hask | ⟨r, hask⟩⟩ := ask_cases (pure (.ok ())) Trial.refuse s
  · exact ⟨.ok (), answers, hask⟩
  · exact ⟨.error r.cause, answers, hask⟩

/-- However writing a file ends, nothing but that file is touched; if it succeeds, the file is
    there. -/
theorem writeSynced_trial (q : Path) (text : Text) (s : UnreliableSystem) :
    ∃ r t answers, (Host.writeSynced q text : Trial _) s =
        (r, ⟨⟨t, s.workspace.log⟩, answers, s.kept⟩) ∧
      BegunAt s.workspace.files q t ∧
      (r = .ok () → s.workspace.files.writeBytes q text.toUtf8 = .ok t) := by
  rw [Host.writeSynced, Session.bind_apply]
  obtain ⟨answers, ⟨cause, hcreate⟩ | ⟨l, u, hfile, hcreate⟩⟩ := createFile_trial q s
  · rw [hcreate]
    exact ⟨.error cause, _, answers, rfl, .unchanged, by simp⟩
  rw [hcreate]
  dsimp only
  rw [Session.bind_apply]
  obtain ⟨answers, hwrite | ⟨cause, bytes, hwrite⟩⟩ :=
    writeAll_trial l text ⟨⟨u, s.workspace.log⟩, answers, s.kept⟩
  · rw [hwrite]
    obtain ⟨r, answers, hsync⟩ :=
      syncAll_trial l ⟨⟨u.fillFile l text.toUtf8, s.workspace.log⟩, answers, s.kept⟩
    refine ⟨r, _, answers, hsync, .fill hfile _, fun _ => ?_⟩
    rw [FileTree.writeBytes, hfile]
    rfl
  · rw [hwrite]
    exact ⟨.error cause, _, answers, rfl, .fill hfile bytes, by simp⟩

/-! ## Staging -/

/-- The temporary file of one of the outputs is at the location. -/
def IsTemporarySite (t : FileTree) (outputs : List Output) (l : Location) : Prop :=
  ∃ o ∈ outputs, ∃ q, temporary? o.path = some q ∧ t.location? q = some l

/-- `u` is `t` but for the temporary files of the outputs. -/
structure Begun (t : FileTree) (staged : List Output) (u : FileTree) : Prop where
  sameDirectories : SameDirectories t u
  find?_eq : ∀ m, ¬ IsTemporarySite t staged m → u.find? m = t.find? m

theorem Begun.refl (t : FileTree) (staged : List Output) : Begun t staged t :=
  ⟨.refl t, fun _ _ => rfl⟩

theorem Begun.cons (hq : temporary? o.path = some q) (hfile : BegunAt t q v)
    (h : Begun v staged u) : Begun t (o :: staged) u := by
  have hsame := hfile.sameDirectories
  refine ⟨hsame.trans h.sameDirectories, fun m hm => ?_⟩
  rw [h.find?_eq, hfile.find?_eq]
  · exact fun hl => hm ⟨o, List.mem_cons_self, q, hq, hl⟩
  · rintro ⟨a, ha, q', hq', hl⟩
    rw [hsame.location?] at hl
    exact hm ⟨a, List.mem_cons_of_mem o ha, q', hq', hl⟩

/-- Staging fails at the last of the outputs that are `staged`: its path names no file, or its
    temporary file cannot be written. -/
inductive StagingFails (outputs : List Output) : List Output → Failure → Prop
  | unnamed {before after : List Output} {o : Output} (houtputs : outputs = before ++ o :: after)
      (hq : temporary? o.path = none) :
      StagingFails outputs (before ++ [o]) (.io o.path .noOutputName)
  | refused {before after : List Output} {o : Output} {q : Path} {cause : IoCause}
      (houtputs : outputs = before ++ o :: after) (hq : temporary? o.path = some q) :
      StagingFails outputs (before ++ [o]) (.io q cause)

theorem StagingFails.cons (h : StagingFails rest staged f) (o : Output) :
    StagingFails (o :: rest) (o :: staged) f := by
  cases h with
  | @unnamed before after a houtputs hq =>
    exact @StagingFails.unnamed _ (o :: before) after a (congrArg (o :: ·) houtputs) hq
  | @refused before after a q cause houtputs hq =>
    exact @StagingFails.refused _ (o :: before) after a q cause (congrArg (o :: ·) houtputs) hq

theorem StagingFails.subset (h : StagingFails outputs staged f) : staged ⊆ outputs := by
  cases h with
  | unnamed houtputs | refused houtputs => simp [houtputs]

/-- Staging ends with all outputs, or fails at one. -/
theorem stageAll_trial (outputs : List Output) (s : UnreliableSystem) :
    ∃ qs r s' staged, (stageAll outputs : Trial _) s = ((qs, r), s') ∧
      s'.workspace.log = s.workspace.log ∧
      Begun s.workspace.files staged s'.workspace.files ∧
      (∀ q, q ∈ qs ↔ ∃ o ∈ staged, temporary? o.path = some q) ∧
      (r = .ok () → staged = outputs ∧ AreTemporary outputs qs ∧
        Staged s.workspace.files outputs s'.workspace.files) ∧
      ∀ f, r = .error f → StagingFails outputs staged f := by
  induction outputs generalizing s with
  | nil =>
    refine ⟨[], .ok (), s, [], rfl, rfl, .refl _ _, by simp, fun _ => ⟨rfl, rfl, .nil _⟩, nofun⟩
  | cons o rest ih =>
    rw [stageAll_cons]
    cases hq : temporary? o.path with
    | none =>
      refine ⟨[], _, s, [o], rfl, rfl, .refl _ _, by simp [hq], nofun, ?_⟩
      rintro f ⟨⟩
      exact @StagingFails.unnamed _ [] rest o rfl hq
    | some q =>
      obtain ⟨r, t, answers, hwrite, hfile, hok⟩ := writeSynced_trial q o.text s
      dsimp only
      rw [hwrite]
      cases r with
      | error cause =>
        refine ⟨[q], _, _, [o], rfl, rfl, .cons hq hfile (.refl _ _), by simp [hq, eq_comm],
          nofun, ?_⟩
        rintro f ⟨⟩
        exact @StagingFails.refused _ [] rest o q cause rfl hq
      | ok _ =>
        obtain ⟨qs, r, s', staged, hrun, hlog, hbegun, hqs, hall, hfails⟩ :=
          ih ⟨⟨t, s.workspace.log⟩, answers, s.kept⟩
        dsimp only
        rw [hrun]
        refine ⟨q :: qs, r, s', o :: staged, rfl, hlog, .cons hq hfile hbegun, fun q' => ?_,
          fun h => ?_, fun f h => (hfails f h).cons o⟩
        · rw [List.mem_cons, hqs, List.exists_mem_cons_iff, hq, Option.some.injEq, eq_comm]
        · obtain ⟨rfl, htemporary, hstaged⟩ := hall h
          exact ⟨rfl, .cons hq htemporary, .cons hq (hok rfl) hstaged⟩

/-! ## Clearing -/

theorem pathExists_trial (q : Path) (s : UnreliableSystem) : ∃ answers,
    (Host.pathExists q : Trial _) s =
      (s.workspace.files.pathExists q, ⟨s.workspace, answers, s.kept⟩) ∨
    (Host.pathExists q : Trial _) s = (false, ⟨s.workspace, answers, q :: s.kept⟩) := by
  obtain ⟨answers, hask | ⟨r, hask⟩⟩ :=
    ask_cases (Host.pathExists q) (fun _ => Trial.keep q false) s
  · exact ⟨answers, .inl hask⟩
  · exact ⟨answers, .inr hask⟩

theorem removeFile_trial (q : Path) (s : UnreliableSystem) : ∃ answers,
    ((Host.removeFile q : Trial _) s).2 = ⟨((Host.removeFile q : Session _) s.workspace).2,
      answers, s.kept⟩ ∨
    ((Host.removeFile q : Trial _) s).2 = ⟨s.workspace, answers, q :: s.kept⟩ := by
  obtain ⟨answers, hask | ⟨r, hask⟩⟩ :=
    ask_cases (Host.removeFile q) (fun r => Trial.keep q (.error r.cause)) s
  · exact ⟨answers, .inl (congrArg Prod.snd hask)⟩
  · exact ⟨answers, .inr (congrArg Prod.snd hask)⟩

/-- A file is removed, or the system refuses to look for it or to remove it. -/
theorem discard_trial (q : Path) (s : UnreliableSystem) :
    ∃ t answers kept, (discard q : Trial Unit) s = ((), ⟨⟨t, s.workspace.log⟩, answers, kept⟩) ∧
      s.kept ⊆ kept ∧
      (t = clear s.workspace.files q ∨ t = s.workspace.files ∧ q ∈ kept) := by
  rw [discard, Session.bind_apply]
  obtain ⟨answers, hlook | hlook⟩ := pathExists_trial q s
  · rw [hlook]
    cases hfile : s.workspace.files.pathExists q with
    | false =>
      refine ⟨_, answers, s.kept, rfl, List.Subset.refl _, .inl ?_⟩
      rw [clear, hfile, if_neg Bool.false_ne_true]
    | true =>
      obtain ⟨answers, hremove | hremove⟩ := removeFile_trial q ⟨s.workspace, answers, s.kept⟩
      · refine ⟨clear s.workspace.files q, answers, s.kept,
          Prod.ext rfl (hremove.trans ?_), List.Subset.refl _, .inl rfl⟩
        rw [clear, hfile, if_pos rfl]
        simp only [Host.removeFile, Session.change]
        cases s.workspace.files.removeFile q <;> rfl
      · exact ⟨_, answers, q :: s.kept, Prod.ext rfl hremove, List.subset_cons_self q s.kept,
          .inr ⟨rfl, List.mem_cons_self⟩⟩
  · rw [hlook]
    exact ⟨_, answers, q :: s.kept, rfl, List.subset_cons_self q s.kept,
      .inr ⟨rfl, List.mem_cons_self⟩⟩

theorem forM_discard_trial (qs : List Path) (s : UnreliableSystem) :
    ∃ cleared answers kept, ((qs.forM discard : Trial Unit) s).2 =
        ⟨⟨cleared.foldl clear s.workspace.files, s.workspace.log⟩, answers, kept⟩ ∧
      s.kept ⊆ kept ∧ cleared ⊆ qs ∧ ∀ q ∈ qs, q ∈ cleared ∨ q ∈ kept := by
  induction qs generalizing s with
  | nil => exact ⟨[], s.answers, s.kept, rfl, List.Subset.refl _, List.Subset.refl _, nofun⟩
  | cons q qs ih =>
    rw [forM_discard_cons]
    obtain ⟨t, answers, kept₁, hfirst, hkept₁, ht⟩ := discard_trial q s
    rw [hfirst]
    obtain ⟨cleared, answers, kept, hrun, hkept, hcleared, hall⟩ :=
      ih ⟨⟨t, s.workspace.log⟩, answers, kept₁⟩
    rcases ht with rfl | ⟨rfl, hq⟩
    · refine ⟨q :: cleared, answers, kept, hrun, List.Subset.trans hkept₁ hkept,
        List.cons_subset_cons q hcleared, ?_⟩
      rintro q' hq'
      rcases List.mem_cons.1 hq' with rfl | hq'
      · exact .inl List.mem_cons_self
      · exact (hall q' hq').imp_left (List.mem_cons_of_mem q)
    · refine ⟨cleared, answers, kept, hrun, List.Subset.trans hkept₁ hkept,
        List.subset_cons_of_subset q hcleared, ?_⟩
      rintro q' hq'
      rcases List.mem_cons.1 hq' with rfl | hq'
      · exact .inr (hkept hq)
      · exact hall q' hq'

/-! ## Where publishing stops -/

theorem IsTemporarySite.exists_site (h : IsTemporarySite t outputs l) :
    ∃ o ∈ outputs, (t.site? o.path).map temporarySite = some l := by
  obtain ⟨o, ho, q, hq, hl⟩ := h
  exact ⟨o, ho, (site?_of_temporary? t hq).1.symm.trans (site?_of_location? hl)⟩

theorem Staged.isTemporarySite (h : Staged t outputs u) (ho : o ∈ outputs)
    (hl : (t.site? o.path).map temporarySite = some l) : IsTemporarySite t outputs l := by
  obtain ⟨q, k, hq, hk, hlocation, -⟩ := h.location?_eq o ho
  rw [hk, Option.map_some] at hl
  exact ⟨o, ho, q, hq, hlocation.trans hl⟩

/-- Publishing stops while it stages, or at an output that cannot be placed: the outputs whose
    temporary files were begun, those that were placed, the others, and the tree as it is then,
    before anything is cleared away. -/
inductive Stops (t : FileTree) (outputs : List Output) :
    (staged moved rest : List Output) → Failure → FileTree → Prop
  | staging {staged : List Output} {f : Failure} {u : FileTree}
      (hfails : StagingFails outputs staged f) (hbegun : Begun t staged u) :
      Stops t outputs staged [] outputs f u
  | placing {before after : List Output} {o : Output} {cause : IoCause} {u v : FileTree}
      (houtputs : outputs = before ++ o :: after) (hstaged : Staged t outputs u)
      (hplaced : Placed u before v) :
      Stops t outputs outputs before (o :: after) (.io o.path cause) v

namespace Stops

theorem outputs_eq (h : Stops t outputs staged moved rest f u) : outputs = moved ++ rest := by
  cases h with
  | staging => rfl
  | placing houtputs => exact houtputs

theorem staged_subset (h : Stops t outputs staged moved rest f u) : staged ⊆ outputs := by
  cases h with
  | staging hfails => exact hfails.subset
  | placing => exact List.Subset.refl outputs

theorem sameDirectories (h : Stops t outputs staged moved rest f u) : SameDirectories t u := by
  cases h with
  | staging _ hbegun => exact hbegun.sameDirectories
  | placing _ hstaged hplaced => exact hstaged.sameDirectories.trans hplaced.sameDirectories

/-- Nothing changes but the places of the outputs and their temporary files. -/
theorem find?_eq (h : Stops t outputs staged moved rest f u)
    (hsite : ∀ o ∈ moved, t.site? o.path ≠ some m) (htemporary : ¬ IsTemporarySite t staged m) :
    u.find? m = t.find? m := by
  cases h with
  | staging _ hbegun => exact hbegun.find?_eq m htemporary
  | placing houtputs hstaged hplaced =>
    refine find?_of_placed hstaged hplaced hsite (fun o ho hm => ?_) ⟨_, houtputs.symm⟩
    exact htemporary (hstaged.isTemporarySite ho hm)

/-- If it is no output that cannot be placed, the temporary file begun last cannot be written. -/
theorem exists_of_forall_path_ne {cause : IoCause} (hne : ∀ o ∈ outputs, o.path ≠ q)
    (h : Stops t outputs staged moved rest (.io q cause) u) :
    moved = [] ∧ ∃ before o after, outputs = before ++ o :: after ∧ staged = before ++ [o] ∧
      temporary? o.path = some q := by
  generalize hf : Failure.io q cause = f at h
  cases h with
  | staging hfails =>
    refine ⟨rfl, ?_⟩
    cases hfails with
    | unnamed houtputs =>
      refine absurd (Failure.io.inj hf).1.symm (hne _ ?_)
      rw [houtputs]
      exact List.mem_append_cons_self
    | refused houtputs hq =>
      obtain rfl := (Failure.io.inj hf).1
      exact ⟨_, _, _, houtputs, rfl, hq⟩
  | placing houtputs =>
    refine absurd (Failure.io.inj hf).1.symm (hne _ ?_)
    rw [houtputs]
    exact List.mem_append_cons_self

section Apart

variable (hdistinct : Distinct t outputs)
  (hapart : ∀ a ∈ outputs, ∀ b ∈ outputs, ¬ TakesTemporary t a b)

include hapart in
theorem not_isTemporarySite (h : Stops t outputs staged moved rest f u) (ho : o ∈ outputs)
    (hl : t.site? o.path = some l) : ¬ IsTemporarySite t staged l := by
  intro htemporary
  obtain ⟨b, hb, hsite⟩ := htemporary.exists_site
  exact hapart o ho b (h.staged_subset hb) ((takesTemporary_iff hl).2 hsite)

include hdistinct hapart in
/-- An output that was placed holds its text. -/
theorem find?_site (h : Stops t outputs staged moved rest f u) (ho : o ∈ moved)
    (hl : t.site? o.path = some l) : u.find? l = some (.file o.text.toUtf8) := by
  cases h with
  | staging => exact absurd ho List.not_mem_nil
  | @placing _ last a _ v _ houtputs hstaged hplaced =>
    have hpre : moved <+: outputs := ⟨_, houtputs.symm⟩
    obtain ⟨before, after, hsplit⟩ := List.append_of_mem ho
    have hfree : ∀ b ∈ moved, ∀ c ∈ moved, ¬ TakesTemporary t b c := fun b hb c hc =>
      hapart b (hpre.subset hb) c (hpre.subset hc)
    rw [find?_site_of_placed hstaged hplaced hdistinct hpre hsplit hl, if_neg,
      arriving_of_not_takesTemporary]
    · refine fun b hb => hfree b ?_ o ho
      rw [hsplit]
      exact List.mem_append_left _ (List.mem_reverse.1 hb)
    · rintro ⟨b, hb, htakes⟩
      refine hfree o ho b ?_ htakes
      rw [hsplit]
      exact List.mem_append_right before (List.mem_cons_of_mem o hb)

theorem location?_of_mem_moved (h : Stops t outputs staged moved rest f u) (ho : o ∈ moved) :
    o.path.endsInSeparator = false ∧ ∃ l, t.location? o.path = some l := by
  cases h with
  | staging => exact absurd ho List.not_mem_nil
  | placing _ hstaged hplaced => exact location?_of_placed hstaged hplaced o ho

include hdistinct in
/-- What was placed stands nowhere where another output belongs. -/
theorem site?_ne_of_mem_rest (h : Stops t outputs staged moved rest f u) {a : Output}
    (ho : o ∈ rest) (ha : a ∈ moved) (hl : t.site? o.path = some l) : t.site? a.path ≠ some l := by
  rw [h.outputs_eq] at hdistinct
  exact fun hal => (List.pairwise_append.1 hdistinct).2.2 a ha o ho l hal hl

end Apart

end Stops

/-- Publishing that fails has stopped, and then some temporary files were cleared away and the
    others kept. -/
theorem publish_stops (h : (publish outputs : Trial _) ⟨w, answers, []⟩ =
    (.error f, ⟨w', answers', kept⟩)) :
    ∃ staged moved rest u, ∃ cleared : List Path, Stops w.files outputs staged moved rest f u ∧
      w'.log = w.log ++ moved.map (fun o => .generated o.path) ∧
      w'.files = cleared.foldl clear u ∧
      (∀ q ∈ cleared, ∃ o ∈ staged, temporary? o.path = some q) ∧
      ∀ o ∈ staged, ∀ q, temporary? o.path = some q → q ∈ cleared ∨ q ∈ kept := by
  obtain ⟨qs, r, ⟨w₁, answers₁, kept₁⟩, staged, hstage, hlog, hbegun, hqs, hall, hfails⟩ :=
    stageAll_trial outputs ⟨w, answers, []⟩
  rw [publish_eq, hstage] at h
  dsimp only at hlog hbegun hall
  cases r with
  | error g =>
    obtain ⟨cleared, answers₂, kept₂, hrun, -, hcleared, hkept⟩ :=
      forM_discard_trial qs ⟨w₁, answers₁, kept₁⟩
    dsimp only at h
    rw [hrun] at h
    obtain ⟨hf, hstate⟩ := Prod.mk.inj h
    obtain rfl := Except.error.inj hf
    obtain ⟨rfl, rfl, rfl⟩ := UnreliableSystem.mk.inj hstate
    refine ⟨staged, [], outputs, w₁.files, cleared, .staging (hfails g rfl) hbegun, ?_, rfl,
      fun q hq => (hqs q).1 (hcleared hq), fun o ho q hq => hkept q ((hqs q).2 ⟨o, ho, hq⟩)⟩
    rw [hlog, List.map_nil, List.append_nil]
  | ok _ =>
    obtain ⟨rfl, htemporary, hstaged⟩ := hall rfl
    obtain ⟨moved, r, ⟨w₂, answers₂, kept₂⟩, hreplace, hlog₂, -, hstop, hplaced⟩ :=
      replaceAll_run actsOn_unreliableSystem (s := ⟨w₁, answers₁, kept₁⟩) htemporary
        (Placed.nil (t := w₁.files))
    dsimp only at h
    rw [hreplace] at h
    cases r with
    | ok _ => exact absurd (congrArg Prod.fst h) nofun
    | error g =>
      obtain ⟨cleared, answers₃, kept₃, hrun, -, hcleared, hkept⟩ :=
        forM_discard_trial qs ⟨w₂, answers₂, kept₂⟩
      dsimp only at h
      rw [hrun] at h
      obtain ⟨hf, hstate⟩ := Prod.mk.inj h
      obtain rfl := Except.error.inj hf
      obtain ⟨rfl, rfl, rfl⟩ := UnreliableSystem.mk.inj hstate
      obtain ⟨o, after, cause, houtputs, rfl⟩ := hstop _ rfl
      refine ⟨staged, moved, o :: after, w₂.files, cleared,
        .placing houtputs hstaged hplaced, ?_, rfl,
        fun q hq => (hqs q).1 (hcleared hq), fun o ho q hq => hkept q ((hqs q).2 ⟨o, ho, hq⟩)⟩
      rw [← hlog]
      exact hlog₂

/-- Clearing removes the temporary files at its paths, and nothing where no output has one. -/
theorem find?_foldl_clear (hcleared : ∀ q ∈ cleared, ∃ o ∈ staged, temporary? o.path = some q)
    (hsame : SameDirectories t u) :
    SameDirectories t (cleared.foldl clear u) ∧
      (∀ q ∈ cleared, ∀ l, t.location? q = some l →
        ∀ bytes, (cleared.foldl clear u).find? l ≠ some (.file bytes)) ∧
      ∀ m, ¬ IsTemporarySite t staged m → (cleared.foldl clear u).find? m = u.find? m := by
  have hend : ∀ q ∈ cleared, q.endsInSeparator = false := by
    intro q hq
    obtain ⟨o, -, htemporary⟩ := hcleared q hq
    exact (site?_of_temporary? t htemporary).2
  obtain ⟨hclear, hfind⟩ := foldl_clear (t := u) cleared hend
  refine ⟨hsame.trans hclear, fun q hq l hl bytes => ?_, fun m hm => ?_⟩
  · rw [hfind]
    split
    · exact nofun
    · next hkeep =>
      have hdirectory : u.find? l = some .directory :=
        of_not_not fun hne => hkeep ⟨⟨q, hq, by rwa [hsame.location?]⟩, hne⟩
      rw [hdirectory]
      exact nofun
  · rw [hfind, if_neg]
    rintro ⟨⟨q, hq, hl⟩, -⟩
    obtain ⟨o, ho, htemporary⟩ := hcleared q hq
    rw [hsame.location?] at hl
    exact hm ⟨o, ho, q, htemporary, hl⟩

/-- A workspace with an old file, and something left where a temporary file will be. -/
def occupiedWorkspace : Workspace where
  files := (({} : FileTree).insert ["a"] (.file (Text.toUtf8 "old"))).insert
    ["b.tmp"] (.file (Text.toUtf8 "left"))

def occupiedOutputs : List Output := [⟨⟨"a"⟩, "x"⟩, ⟨⟨"b"⟩, "yz"⟩]

/-- The device is full when one byte of the second text is written. -/
def fullDevice : UnreliableSystem where
  workspace := occupiedWorkspace
  answers :=
    [none, none, none, none, some ⟨.other (IoCause.numbered "No space left on device" 28), 1⟩]

/-- A temporary file that the system refuses to remove stays, with what was written into it. -/
example : ((publish [⟨⟨"b"⟩, "yz"⟩] : Trial _) { workspace := occupiedWorkspace, answers :=
    [none, some ⟨.busy, 1⟩, none, some ⟨.busy, 0⟩] }).2.workspace.files.entryAt? ⟨"b.tmp"⟩ =
      some (.file (Text.toUtf8 "y")) := by
  decide +kernel

end ShaderVariants.Publish
