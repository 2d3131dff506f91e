import Mathlib.Data.List.ModifyLast
import Mathlib.Data.List.Pairwise
import ShaderVariants.Proofs.Changes
import ShaderVariants.Publish

/-!
# Staging, placing and clearing

Publishing stages every text, places the staged files one after the other, and where that
fails clears the temporary files away. Each of the three is a run over a list, and what it
leaves is said of the tree that it starts from. One output may go where the temporary file of
another is; so what is placed is the text that the temporary file holds when its turn comes.
-/

namespace ShaderVariants.Publish

open FileTree

variable {t u v : FileTree} {l m : Location} {p q : Path} {o a b : Output}
  {outputs before after moved : List Output}

/-! ## Temporary files -/

theorem ending_eq : ending = ['.', 't', 'm', 'p'] := by
  rw [ending, Text.ofString_eq_toList]
  rfl

/-- Where the temporary file of a location is. -/
def temporarySite (l : Location) : Location := l.modifyLast (· ++ .ofText ending)

theorem temporarySite_concat (d : Location) (name : Glyphs) :
    temporarySite (d ++ [name]) = d ++ [name ++ .ofText ending] :=
  List.modifyLast_concat _ name d

/-- A site is a name in a directory. -/
theorem exists_eq_of_site? (h : t.site? p = some l) : ∃ d name, l = d ++ [name] := by
  obtain ⟨name, -, h⟩ := Option.bind_eq_some_iff.1 h
  obtain ⟨d, -, rfl⟩ := Option.map_eq_some_iff.1 h
  exact ⟨d, name, rfl⟩

theorem temporarySite_inj (hp : t.site? p = some l) (hq : t.site? q = some m) :
    temporarySite l = temporarySite m ↔ l = m := by
  obtain ⟨d, name, rfl⟩ := exists_eq_of_site? hp
  obtain ⟨d', name', rfl⟩ := exists_eq_of_site? hq
  rw [temporarySite_concat, temporarySite_concat]
  simp

/-- The temporary file of a path is beside it, and no directory is asked for. -/
theorem site?_of_temporary? (t : FileTree) (h : temporary? p = some q) :
    t.site? q = (t.site? p).map temporarySite ∧ q.endsInSeparator = false := by
  obtain ⟨name, hfile, rfl⟩ := Option.map_eq_some_iff.1 h
  have hname : Path.IsName (name ++ .ofText ending) :=
    (Path.isName_of_fileName? hfile).append (by simp [ending_eq]) (by rw [ending_eq]; decide)
  refine ⟨?_, Path.endsInSeparator_join hname⟩
  rw [site?_join _ hname, site?, hfile, Option.bind_some]
  cases t.directory? p.parent with
  | none => rfl
  | some d => exact congrArg some (temporarySite_concat d name).symm

/-- No two outputs go to the same place. -/
def Distinct (t : FileTree) (outputs : List Output) : Prop :=
  outputs.Pairwise fun a b => ∀ l, t.site? a.path = some l → t.site? b.path ≠ some l

theorem Distinct.ne (h : Distinct t outputs) (ha : a ∈ outputs) (hb : b ∈ outputs) (hab : a ≠ b)
    (hl : t.site? a.path = some l) : t.site? b.path ≠ some l := by
  have : Std.Symm fun a b : Output => ∀ l, t.site? a.path = some l → t.site? b.path ≠ some l :=
    ⟨fun _ _ h l hb ha => h l ha hb⟩
  exact List.Pairwise.forall h ha hb hab l hl

/-- One output goes where the temporary file of another is. -/
def TakesTemporary (t : FileTree) (a b : Output) : Prop :=
  ∃ l, t.site? b.path = some l ∧ t.site? a.path = some (temporarySite l)

instance (t : FileTree) (a b : Output) : Decidable (TakesTemporary t a b) :=
  match hb : t.site? b.path with
  | none => isFalse fun ⟨_, h, _⟩ => Option.some_ne_none _ (h.symm.trans hb)
  | some l => decidable_of_iff (t.site? a.path = some (temporarySite l))
      ⟨fun h => ⟨l, hb, h⟩, fun ⟨_, h, h'⟩ => Option.some.inj (h.symm.trans hb) ▸ h'⟩

theorem takesTemporary_iff (hl : t.site? a.path = some l) :
    TakesTemporary t a b ↔ (t.site? b.path).map temporarySite = some l := by
  rw [TakesTemporary, Option.map_eq_some_iff, hl]
  simp only [Option.some.injEq, eq_comm]

theorem takesTemporary_iff_of_sites (ha : t.site? a.path = some l) (hb : t.site? b.path = some m) :
    TakesTemporary t a b ↔ temporarySite m = l := by
  rw [takesTemporary_iff ha, hb, Option.map_some, Option.some.injEq]

/-- The text in the temporary file of an output when its turn comes, after the given outputs,
    latest first: its own, or what one of those put in its stead. -/
def arriving (t : FileTree) : (before : List Output) → Output → Text
  | [], o => o.text
  | a :: before, o => if TakesTemporary t a o then arriving t before a else arriving t before o

theorem arriving_of_not_takesTemporary (h : ∀ a ∈ before, ¬ TakesTemporary t a o) :
    arriving t before o = o.text := by
  induction before with
  | nil => rfl
  | cons a before ih =>
    rw [arriving, if_neg (h a List.mem_cons_self)]
    exact ih fun b hb => h b (List.mem_cons_of_mem a hb)

/-! All of this is said of directories alone. -/

theorem distinct_congr (h : SameDirectories t u) : Distinct u outputs ↔ Distinct t outputs := by
  simp only [Distinct, h.site?]

theorem takesTemporary_congr (h : SameDirectories t u) :
    TakesTemporary u a b ↔ TakesTemporary t a b := by
  simp only [TakesTemporary, h.site?]

theorem arriving_congr (h : SameDirectories t u) : arriving u before o = arriving t before o := by
  induction before generalizing o with
  | nil => rfl
  | cons a before ih =>
    rw [arriving, arriving, ih, ih]
    exact if_congr (takesTemporary_congr h) rfl rfl

/-! ## Staging -/

/-- `u` has the texts of the outputs in their temporary files and is `t` elsewhere. -/
structure Staged (t : FileTree) (outputs : List Output) (u : FileTree) : Prop where
  sameDirectories : SameDirectories t u
  location?_eq : ∀ o ∈ outputs, ∃ q l, temporary? o.path = some q ∧ t.site? o.path = some l ∧
    t.location? q = some (temporarySite l) ∧ t.find? (temporarySite l) ≠ some .directory
  find?_eq : ∀ m, (∀ o ∈ outputs, (t.site? o.path).map temporarySite ≠ some m) →
    u.find? m = t.find? m
  find?_temporarySite : Distinct t outputs → ∀ o ∈ outputs, ∀ l, t.site? o.path = some l →
    u.find? (temporarySite l) = some (.file o.text.toUtf8)

namespace Staged

theorem nil (t : FileTree) : Staged t [] t :=
  ⟨.refl t, nofun, fun _ _ => rfl, nofun⟩

theorem cons (hq : temporary? o.path = some q) (hwrite : t.writeBytes q o.text.toUtf8 = .ok v)
    (h : Staged v outputs u) : Staged t (o :: outputs) u := by
  obtain ⟨k, hk, hfree, hupdate⟩ := writeBytes_eq_ok hwrite
  have hsame : SameDirectories t v := hupdate.sameDirectories hfree (by simp)
  obtain ⟨l, hl, rfl⟩ : ∃ l, t.site? o.path = some l ∧ temporarySite l = k :=
    Option.map_eq_some_iff.1 ((site?_of_temporary? t hq).1.symm.trans (site?_of_location? hk))
  refine ⟨hsame.trans h.sameDirectories, ?_, ?_, ?_⟩
  · intro a ha
    rcases List.mem_cons.1 ha with rfl | ha
    · exact ⟨q, l, hq, hl, hk, hfree⟩
    · obtain ⟨q', l', hq', hl', hk', hfree'⟩ := h.location?_eq a ha
      rw [hsame.site?] at hl'
      rw [hsame.location?] at hk'
      refine ⟨q', l', hq', hl', hk', fun hd => hfree' (hsame.forth.directory hd)⟩
  · intro m hm
    rw [h.find?_eq m, hupdate.find?_of_ne]
    · rintro rfl
      exact hm o List.mem_cons_self (by rw [hl, Option.map_some])
    · intro a ha
      rw [hsame.site?]
      exact hm a (List.mem_cons_of_mem o ha)
  · intro hdistinct a ha l' hl'
    obtain ⟨hhead, htail⟩ := List.pairwise_cons.1 hdistinct
    rcases List.mem_cons.1 ha with rfl | ha
    · obtain rfl := Option.some.inj (hl.symm.trans hl')
      rw [h.find?_eq, hupdate.find?_self]
      intro b hb heq
      obtain ⟨l', hl', hsite⟩ := Option.map_eq_some_iff.1 heq
      rw [hsame.site?] at hl'
      rw [temporarySite_inj hl' hl] at hsite
      exact hhead b hb l hl (hsite ▸ hl')
    · exact h.find?_temporarySite ((distinct_congr hsame).2 htail) a ha l' (by rwa [hsame.site?])

end Staged

/-! ## Placing -/

/-- `u` is the tree after the staged files of the outputs, one after the other, are renamed. -/
inductive Placed (t : FileTree) : (outputs : List Output) → FileTree → Prop
  | nil : Placed t [] t
  | snoc {outputs : List Output} {o : Output} {q : Path} {v u : FileTree}
      (h : Placed t outputs v) (hq : temporary? o.path = some q)
      (hrename : v.rename q o.path = .ok u) : Placed t (outputs ++ [o]) u

/-- What one rename does for an output whose site is known. -/
theorem rename_temporary (hq : temporary? o.path = some q) (h : t.rename q o.path = .ok u) :
    ∃ l bytes, t.location? o.path = some l ∧ o.path.endsInSeparator = false ∧
      t.find? l ≠ some .directory ∧ t.find? (temporarySite l) = some (.file bytes) ∧
      SameDirectories t u ∧ ∀ m, u.find? m = if m = l then some (.file bytes)
        else if m = temporarySite l then none else t.find? m := by
  obtain ⟨s, l, bytes, hs, hl, hend, hfile, hfree, hcurrent, hfind⟩ := rename_eq_ok h
  obtain rfl : temporarySite l = s := by
    have := (site?_of_temporary? t hq).1
    rw [site?_of_location? hs, site?_of_location? hl] at this
    exact (Option.some.inj this).symm
  refine ⟨l, bytes, hl, hend, hfree, hfile, ⟨⟨hcurrent, fun {m} hm => ?_⟩,
    ⟨hcurrent.symm, fun {m} hm => ?_⟩⟩, hfind⟩
  · rw [hfind, if_neg, if_neg, hm]
    · rintro rfl
      simp [hfile] at hm
    · rintro rfl
      exact hfree hm
  · rw [hfind] at hm
    split at hm
    · simp at hm
    · split at hm
      · simp at hm
      · exact hm

namespace Placed

theorem sameDirectories (h : Placed t outputs u) : SameDirectories t u := by
  induction h with
  | nil => exact .refl t
  | snoc _ hq hrename ih =>
    obtain ⟨_, _, -, -, -, -, hsame, -⟩ := rename_temporary hq hrename
    exact ih.trans hsame

/-- One more rename, said of the tree before the first. -/
theorem find?_snoc (h : Placed t outputs v) (hq : temporary? o.path = some q)
    (hrename : v.rename q o.path = .ok u) :
    ∃ l bytes, t.location? o.path = some l ∧ o.path.endsInSeparator = false ∧
      v.find? (temporarySite l) = some (.file bytes) ∧
      ∀ m, u.find? m = if m = l then some (.file bytes)
        else if m = temporarySite l then none else v.find? m := by
  obtain ⟨l, bytes, hl, hend, -, hfile, -, hfind⟩ := rename_temporary hq hrename
  rw [h.sameDirectories.location?] at hl
  exact ⟨l, bytes, hl, hend, hfile, hfind⟩

theorem location?_eq (h : Placed t outputs u) :
    ∀ o ∈ outputs, o.path.endsInSeparator = false ∧ ∃ l, t.location? o.path = some l := by
  induction h with
  | nil => exact nofun
  | snoc h hq hrename ih =>
    obtain ⟨l, -, hl, hend, -⟩ := h.find?_snoc hq hrename
    intro a ha
    rcases List.mem_append.1 ha with ha | ha
    · exact ih a ha
    · obtain rfl := List.mem_singleton.1 ha
      exact ⟨hend, l, hl⟩

/-- Only the places of the outputs and their temporary files change. -/
theorem find?_eq (h : Placed t outputs u) (hsite : ∀ o ∈ outputs, t.site? o.path ≠ some m)
    (htemporary : ∀ o ∈ outputs, (t.site? o.path).map temporarySite ≠ some m) :
    u.find? m = t.find? m := by
  induction h with
  | nil => rfl
  | snoc h hq hrename ih =>
    obtain ⟨l, bytes, hl, -, -, hfind⟩ := h.find?_snoc hq hrename
    have hl := site?_of_location? hl
    rw [hfind, if_neg, if_neg]
    · exact ih (fun o ho => hsite o (List.mem_append_left _ ho))
        fun o ho => htemporary o (List.mem_append_left _ ho)
    · rintro rfl
      exact htemporary _ List.mem_concat_self (by rw [hl, Option.map_some])
    · rintro rfl
      exact hsite _ List.mem_concat_self hl

/-- What is in the temporary file of an output whose turn has not come. -/
theorem find?_temporarySite (h : Placed t outputs u) (hdistinct : Distinct t (outputs ++ [a]))
    (hstaged : ∀ o ∈ outputs ++ [a], ∀ l, t.site? o.path = some l →
      t.find? (temporarySite l) = some (.file o.text.toUtf8)) (hl : t.site? a.path = some l) :
    u.find? (temporarySite l) = some (.file (arriving t outputs.reverse a).toUtf8) := by
  induction h generalizing a l with
  | nil => exact hstaged a List.mem_cons_self l hl
  | @snoc outputs o q v u h hq hrename ih =>
    obtain ⟨k, bytes, hk, -, hfile, hfind⟩ := h.find?_snoc hq hrename
    have hk := site?_of_location? hk
    have hall := hdistinct
    obtain ⟨hdistinct, -, hlast⟩ := List.pairwise_append.1 hdistinct
    have hne : l ≠ k := by
      rintro rfl
      exact hlast o List.mem_concat_self a List.mem_cons_self l hk hl
    have htakes := takesTemporary_iff_of_sites (b := a) hk hl
    rw [hfind, List.reverse_concat, arriving]
    by_cases heq : temporarySite l = k
    · -- the last output has come over the temporary file, with what was in its own
      rw [if_pos heq, if_pos (htakes.2 heq), ← hfile]
      exact ih hdistinct (fun b hb => hstaged b (List.mem_append_left _ hb)) hk
    · have hsub : (outputs ++ [a]).Sublist (outputs ++ [o] ++ [a]) :=
        (List.sublist_append_left outputs [o]).append_right [a]
      rw [if_neg heq, if_neg (mt (temporarySite_inj hl hk).1 hne), if_neg (mt htakes.1 heq)]
      exact ih (hall.sublist hsub) (fun b hb => hstaged b (hsub.subset hb)) hl

/-- One of several outputs is the last of them or one before it. -/
theorem eq_or_exists_of_concat_eq (h : outputs ++ [o] = before ++ a :: after) :
    (outputs = before ∧ o = a ∧ after = []) ∨
      ∃ rest, after = rest ++ [o] ∧ outputs = before ++ a :: rest := by
  rcases List.eq_nil_or_concat after with rfl | ⟨rest, last, rfl⟩
  · obtain ⟨hbefore, hlast⟩ := List.append_inj' h rfl
    exact .inl ⟨hbefore, List.singleton_inj.1 hlast, rfl⟩
  · rw [List.concat_eq_append, ← List.cons_append, ← List.append_assoc] at h
    obtain ⟨hbefore, hlast⟩ := List.append_inj' h rfl
    obtain rfl := List.singleton_inj.1 hlast
    exact .inr ⟨rest, List.concat_eq_append, hbefore⟩

/-- What is at the place of an output: gone where a later one has its temporary file there. -/
theorem find?_site (h : Placed t outputs u) (hdistinct : Distinct t outputs)
    (hstaged : ∀ o ∈ outputs, ∀ l, t.site? o.path = some l →
      t.find? (temporarySite l) = some (.file o.text.toUtf8))
    (houtputs : outputs = before ++ a :: after) (hl : t.site? a.path = some l) :
    u.find? l = if ∃ b ∈ after, TakesTemporary t a b then none
      else some (.file (arriving t before.reverse a).toUtf8) := by
  induction h generalizing after with
  | nil => exact absurd houtputs (by simp)
  | @snoc outputs o q v u h hq hrename ih =>
    obtain ⟨k, bytes, hk, -, hfile, hfind⟩ := h.find?_snoc hq hrename
    have hk := site?_of_location? hk
    rw [hfind]
    rcases eq_or_exists_of_concat_eq houtputs with ⟨rfl, rfl, rfl⟩ | ⟨rest, rfl, rfl⟩
    · obtain rfl := Option.some.inj (hl.symm.trans hk)
      rw [if_pos rfl, if_neg (by simp), ← hfile]
      exact h.find?_temporarySite hdistinct hstaged hl
    · -- the last rename clears the place if its temporary file is there
      obtain ⟨hdistinct, -, hlast⟩ := List.pairwise_append.1 hdistinct
      have hne : l ≠ k := by
        rintro rfl
        exact hlast a List.mem_append_cons_self o List.mem_cons_self l hl hk
      have htakes := takesTemporary_iff_of_sites (b := o) hl hk
      have hih := ih hdistinct (fun b hb => hstaged b (List.mem_append_left _ hb)) rfl
      simp only [if_neg hne, hih, List.mem_append, List.mem_singleton, or_and_right, exists_or,
        exists_eq_left, htakes]
      by_cases heq : l = temporarySite k
      · simp [heq]
      · simp [heq, Ne.symm heq]

/-- A placed file leaves no temporary file behind, unless another output goes there. -/
theorem find?_temporarySite_eq_none (h : Placed t outputs u) (ha : a ∈ outputs)
    (hfree : ∀ b ∈ outputs, ¬ TakesTemporary t b a) (hl : t.site? a.path = some l) :
    u.find? (temporarySite l) = none := by
  induction h with
  | nil => exact absurd ha List.not_mem_nil
  | @snoc outputs o q v u h hq hrename ih =>
    obtain ⟨k, bytes, hk, -, -, hfind⟩ := h.find?_snoc hq hrename
    have hk := site?_of_location? hk
    have hne : temporarySite l ≠ k := fun heq =>
      hfree o List.mem_concat_self ⟨l, hl, heq ▸ hk⟩
    rw [hfind, if_neg hne]
    split
    · rfl
    · next hother =>
      rcases List.mem_append.1 ha with ha | ha
      · exact ih ha fun b hb => hfree b (List.mem_append_left _ hb)
      · obtain rfl := List.mem_singleton.1 ha
        exact absurd (congrArg temporarySite (Option.some.inj (hl.symm.trans hk))) hother

end Placed

/-! ## From the tree before staging -/

section StagedAndPlaced

variable (hstaged : Staged t outputs u) (hplaced : Placed u moved v)
include hstaged hplaced

theorem location?_of_placed : ∀ o ∈ moved,
    o.path.endsInSeparator = false ∧ ∃ l, t.location? o.path = some l := by
  intro o ho
  rw [← hstaged.sameDirectories.location?]
  exact hplaced.location?_eq o ho

/-- Nothing else changes. -/
theorem find?_of_placed (hsite : ∀ o ∈ moved, t.site? o.path ≠ some m)
    (htemporary : ∀ o ∈ outputs, (t.site? o.path).map temporarySite ≠ some m)
    (hmoved : moved <+: outputs) : v.find? m = t.find? m := by
  rw [hplaced.find?_eq, hstaged.find?_eq m htemporary]
  · intro o ho
    rw [hstaged.sameDirectories.site?]
    exact hsite o ho
  · intro o ho
    rw [hstaged.sameDirectories.site?]
    exact htemporary o (hmoved.subset ho)

/-- What is at the place of an output is the text that arrived there, unless the temporary file
    of a later one was there. -/
theorem find?_site_of_placed (hdistinct : Distinct t outputs) (hpre : moved <+: outputs)
    (hmoved : moved = before ++ a :: after) (hl : t.site? a.path = some l) :
    v.find? l = if ∃ b ∈ after, TakesTemporary t a b then none
      else some (.file (arriving t before.reverse a).toUtf8) := by
  have hsame := hstaged.sameDirectories
  simp only [← takesTemporary_congr hsame, ← arriving_congr hsame]
  refine hplaced.find?_site ?_ ?_ hmoved (by rwa [hsame.site?])
  · exact (distinct_congr hsame).2 (hdistinct.sublist hpre.sublist)
  · intro o ho k hk
    rw [hsame.site?] at hk
    exact hstaged.find?_temporarySite hdistinct o (hpre.subset ho) k hk

theorem find?_temporarySite_of_placed (ha : a ∈ moved)
    (hfree : ∀ b ∈ moved, ¬ TakesTemporary t b a) (hl : t.site? a.path = some l) :
    v.find? (temporarySite l) = none := by
  have hsame := hstaged.sameDirectories
  simp only [← takesTemporary_congr hsame] at hfree
  exact hplaced.find?_temporarySite_eq_none ha hfree (by rwa [hsame.site?])

end StagedAndPlaced

/-! ## Clearing -/

/-- The tree without the file at a path. -/
def clear (t : FileTree) (q : Path) : FileTree :=
  if t.pathExists q then (t.removeFile q).toOption.getD t else t

theorem find?_clear (hend : q.endsInSeparator = false) (m : Location) :
    (clear t q).find? m =
      if t.location? q = some m ∧ t.find? m ≠ some .directory then none else t.find? m := by
  rw [clear]
  cases hremove : t.removeFile q with
  | error cause =>
    rw [Except.toOption, Option.getD_none, ite_self]
    split
    · next h =>
      rcases hfind : t.find? m with _ | ⟨bytes⟩ | _
      · rfl
      · rw [removeFile_of_location? h.1 hend hfind] at hremove
        exact absurd hremove nofun
      · exact absurd hfind h.2
    · rfl
  | ok v =>
    obtain ⟨l, bytes, hl, hfile, rfl⟩ := removeFile_eq_ok hremove
    have hexists : t.pathExists q = true := by
      rw [pathExists, entryAt?_eq_file_iff.2 ⟨hend, l, hl, hfile⟩]
      rfl
    rw [if_pos hexists, Except.toOption, Option.getD_some,
      find?_erase_of_ne_directory t (by simp [hfile]), hl]
    by_cases heq : m = l
    · subst heq
      simp [hfile]
    · rw [if_neg heq, if_neg (fun h => heq (Option.some.inj h.1).symm)]

theorem sameDirectories_clear (t : FileTree) (q : Path) : SameDirectories t (clear t q) := by
  rw [clear]
  split
  · cases hremove : t.removeFile q with
    | error cause => exact .refl t
    | ok v =>
      obtain ⟨l, bytes, -, hfile, rfl⟩ := removeFile_eq_ok hremove
      have hne : t.find? l ≠ some .directory := by simp [hfile]
      exact (isUpdate_erase hne).sameDirectories hne (by simp)
  · exact .refl t

/-- Clearing removes the files at the paths and nothing else. -/
theorem foldl_clear (qs : List Path) (hend : ∀ q ∈ qs, q.endsInSeparator = false) :
    SameDirectories t (qs.foldl clear t) ∧ ∀ m, (qs.foldl clear t).find? m =
      if (∃ q ∈ qs, t.location? q = some m) ∧ t.find? m ≠ some .directory then none
      else t.find? m := by
  induction qs generalizing t with
  | nil => exact ⟨.refl t, fun m => by simp⟩
  | cons q qs ih =>
    obtain ⟨hsame, hfind⟩ := ih (t := clear t q) fun q hq => hend q (List.mem_cons_of_mem _ hq)
    have hq := sameDirectories_clear t q
    refine ⟨hq.trans hsame, fun m => ?_⟩
    rw [List.foldl_cons, hfind, find?_clear (hend q List.mem_cons_self)]
    simp only [hq.location?, List.exists_mem_cons_iff]
    by_cases hd : t.find? m = some .directory
    · simp [hd]
    · by_cases hm : t.location? q = some m <;> simp [hd, hm]

/-- `u` is what is left of `t` when the outputs `begun` are staged, those of `moved` placed and
    the temporary files cleared away. -/
structure GivenUp (t : FileTree) (begun moved : List Output) (u : FileTree) : Prop where
  moved_prefix_begun : moved <+: begun
  sameDirectories : SameDirectories t u
  location?_eq : ∀ o ∈ moved, o.path.endsInSeparator = false ∧ ∃ l, t.location? o.path = some l
  find?_temporarySite : ∀ b ∈ begun, ∀ m, (t.site? b.path).map temporarySite = some m →
    u.find? m = none
  find?_eq : ∀ m, (∀ b ∈ begun, (t.site? b.path).map temporarySite ≠ some m) →
    (∀ o ∈ moved, t.site? o.path ≠ some m) → u.find? m = t.find? m
  find?_site : Distinct t begun → ∀ before a after l, moved = before ++ a :: after →
    t.site? a.path = some l → (∀ b ∈ begun, ¬ TakesTemporary t a b) →
    u.find? l = some (.file (arriving t before.reverse a).toUtf8)

theorem givenUp {placed cleared : FileTree} (hmoved : moved <+: outputs)
    (hstaged : Staged t outputs u) (hplaced : Placed u moved placed)
    (hsame : SameDirectories placed cleared) (hfind : ∀ m, cleared.find? m =
      if ∃ b ∈ outputs, (t.site? b.path).map temporarySite = some m then none
      else placed.find? m) : GivenUp t outputs moved cleared where
  moved_prefix_begun := hmoved
  sameDirectories := (hstaged.sameDirectories.trans hplaced.sameDirectories).trans hsame
  location?_eq := location?_of_placed hstaged hplaced
  find?_temporarySite b hb m hm := by rw [hfind, if_pos ⟨b, hb, hm⟩]
  find?_eq m htemporary hsite := by
    rw [hfind, if_neg, find?_of_placed hstaged hplaced hsite htemporary hmoved]
    rintro ⟨b, hb, hm⟩
    exact htemporary b hb hm
  find?_site hdistinct before a after l hsplit hl hfree := by
    simp only [takesTemporary_iff hl] at hfree
    have hafter : ∀ b ∈ after, ¬ TakesTemporary t a b := by
      intro b hb
      rw [takesTemporary_iff hl]
      refine hfree b (hmoved.subset ?_)
      rw [hsplit]
      exact List.mem_append_right before (List.mem_cons_of_mem a hb)
    rw [hfind, if_neg, find?_site_of_placed hstaged hplaced hdistinct hmoved hsplit hl, if_neg]
    · rintro ⟨b, hb, htakes⟩
      exact hafter b hb htakes
    · rintro ⟨b, hb, hm⟩
      exact hfree b hb hm

/-- An output that was not placed, and is in no temporary file's place, is as it was. -/
theorem GivenUp.find?_eq_of_notMem {begun : List Output} (h : GivenUp t begun moved u)
    (hbegun : begun <+: outputs) (hdistinct : Distinct t outputs) (ho : o ∈ outputs)
    (hmoved : o ∉ moved) (hl : t.site? o.path = some l)
    (hfree : ∀ b ∈ begun, ¬ TakesTemporary t o b) : u.find? l = t.find? l := by
  apply h.find?_eq l
  · intro b hb
    exact mt (takesTemporary_iff hl).2 (hfree b hb)
  · intro a ha hal
    have hne : a ≠ o := by
      rintro rfl
      exact hmoved ha
    exact hdistinct.ne ((h.moved_prefix_begun.trans hbegun).subset ha) ho hne hal hl

end ShaderVariants.Publish
