import ShaderVariants.Proofs.Walks

/-!
# What an operation changes

Each operation that succeeds changes what stands at one location, or at two for a rename,
and only there. So every tree that an operation leaves is known from the one before, and
files alone never change where paths lead.
-/

namespace ShaderVariants.FileTree

variable {t u v : FileTree} {p source target : Path} {l m : Location} {e : Option Entry}
  {bytes : ByteArray} {cause : IoCause}

/-! ## Updates -/

/-- `u` is the tree `t` but for what stands at a location. -/
structure IsUpdate (t : FileTree) (l : Location) (e : Option Entry) (u : FileTree) : Prop where
  current_eq : u.current = t.current
  find?_eq : ∀ m, u.find? m = if m = l then e else t.find? m

namespace IsUpdate

theorem find?_self (h : IsUpdate t l e u) : u.find? l = e := by rw [h.find?_eq, if_pos rfl]

theorem find?_of_ne (h : IsUpdate t l e u) (hne : m ≠ l) : u.find? m = t.find? m := by
  rw [h.find?_eq, if_neg hne]

/-- Of two updates of a location the later one counts. -/
theorem trans {e' : Option Entry} (h : IsUpdate t l e u) (h' : IsUpdate u l e' v) :
    IsUpdate t l e' v := by
  refine ⟨h'.current_eq.trans h.current_eq, fun m => ?_⟩
  rw [h'.find?_eq]
  split
  · rfl
  · next hne => exact h.find?_of_ne hne

/-- Where no directory stood, none goes away. -/
theorem directoriesIn (h : IsUpdate t l e u) (hl : t.find? l ≠ some .directory) :
    DirectoriesIn t u := by
  refine ⟨h.current_eq, fun {m} hm => ?_⟩
  rw [h.find?_of_ne, hm]
  rintro rfl
  exact hl hm

/-- A change of files keeps the directories. -/
theorem sameDirectories (h : IsUpdate t l e u) (hl : t.find? l ≠ some .directory)
    (he : e ≠ some .directory) : SameDirectories t u := by
  refine ⟨h.directoriesIn hl, h.current_eq.symm, fun {m} hm => ?_⟩
  by_cases heq : m = l
  · subst heq
    exact absurd (h.find?_self.symm.trans hm) he
  · rwa [h.find?_of_ne heq] at hm

end IsUpdate

theorem current_change (t : FileTree) (f : Option Node → Option Node) (l : Location) :
    (t.change f l).current = t.current := by
  unfold change
  split <;> rfl

theorem isUpdate_insert (entry : Entry) (hd : t.find? l.dropLast = some .directory)
    (hl : t.find? l ≠ some .directory) : IsUpdate t l (some entry) (t.insert l entry) :=
  ⟨t.current_change _ l, t.find?_insert entry hd hl⟩

theorem isUpdate_erase (hl : t.find? l ≠ some .directory) : IsUpdate t l none (t.erase l) :=
  ⟨t.current_change _ l, t.find?_erase_of_ne_directory hl⟩

/-- A file goes away and another comes. -/
theorem find?_insert_erase {entry : Entry} (hfile : t.find? m = some (.file bytes))
    (habove : t.find? l.dropLast = some .directory) (hfree : t.find? l ≠ some .directory)
    (k : Location) :
    ((t.erase m).insert l entry).find? k =
      if k = l then some entry else if k = m then none else t.find? k := by
  have herase : IsUpdate t m none (t.erase m) := isUpdate_erase (by simp [hfile])
  have hinsert : IsUpdate (t.erase m) l (some entry) ((t.erase m).insert l entry) := by
    refine isUpdate_insert entry ?_ ?_
    · rw [herase.find?_of_ne, habove]
      intro heq
      simp [heq, hfile] at habove
    · rw [herase.find?_eq]
      split
      · simp
      · exact hfree
  rw [hinsert.find?_eq, herase.find?_eq]

/-! ## Operations -/

theorem throw_ne_ok {ε α : Type} {e : ε} {a : α} : (throw e : Except ε α) ≠ .ok a := nofun

/-- A location is in a directory. -/
theorem find?_dropLast_of_location? (h : t.location? p = some l) :
    t.find? l.dropLast = some .directory := by
  obtain ⟨d, name, hplace, -, rfl⟩ := location?_eq_some_iff.1 h
  obtain ⟨-, above, -, -, -, hd⟩ := place_eq_child_iff.1 hplace
  rw [List.dropLast_concat]
  exact (reach?_eq_some_iff.1 hd).2

theorem location?_of_place {d : Location} {name : Glyphs} (hplace : t.place p = .ok (.child d name))
    (hchild : child d name = .ok l) : t.location? p = some l := by
  rw [location?, hplace]
  exact congrArg Except.toOption hchild

theorem place_of_location? (h : t.location? p = some l) :
    ∃ d name, t.place p = .ok (.child d name) ∧ child d name = .ok l := by
  obtain ⟨d, name, hplace, hsize, rfl⟩ := location?_eq_some_iff.1 h
  exact ⟨d, name, hplace, if_pos hsize⟩

theorem makeDirectory_eq_ok (h : t.makeDirectory p = .ok u) :
    ∃ l, t.location? p = some l ∧ t.find? l = none ∧ IsUpdate t l (some .directory) u := by
  obtain ⟨place, hplace, h⟩ := Except.exists_of_bind_eq_ok h
  cases place with
  | special => exact absurd h throw_ne_ok
  | child d name =>
    obtain ⟨l, hchild, h⟩ := Except.exists_of_bind_eq_ok h
    have hlocation := location?_of_place hplace hchild
    split at h
    · exact absurd h throw_ne_ok
    · next hnone =>
      obtain rfl := Except.ok.inj h
      refine ⟨l, hlocation, hnone, isUpdate_insert _ (find?_dropLast_of_location? hlocation) ?_⟩
      simp [hnone]

theorem createFile_eq_ok (h : t.createFile p = .ok (l, u)) :
    t.location? p = some l ∧ t.find? l ≠ some .directory ∧
      IsUpdate t l (some (.file .empty)) u := by
  obtain ⟨place, hplace, h⟩ := Except.exists_of_bind_eq_ok h
  cases place with
  | special => exact absurd h throw_ne_ok
  | child d name =>
    dsimp only at h
    split at h
    · exact absurd h throw_ne_ok
    · obtain ⟨l, hchild, h⟩ := Except.exists_of_bind_eq_ok h
      have hlocation := location?_of_place hplace hchild
      split at h
      · exact absurd h throw_ne_ok
      · next hfree =>
        obtain ⟨rfl, rfl⟩ := Prod.mk.inj (Except.ok.inj h)
        exact ⟨hlocation, hfree, isUpdate_insert _ (find?_dropLast_of_location? hlocation) hfree⟩

/-- Only a directory stands in the way of a file. -/
theorem createFile_of_location? (h : t.location? p = some l) (hend : p.endsInSeparator = false)
    (hfree : t.find? l ≠ some .directory) :
    t.createFile p = .ok (l, t.insert l (.file .empty)) := by
  obtain ⟨d, name, hplace, hchild⟩ := place_of_location? h
  rw [createFile, hplace]
  simp only [hend, hchild, bind, Except.bind, if_neg Bool.false_ne_true]
  rfl

/-- A file that was created can be filled. -/
theorem isUpdate_fillFile (h : t.createFile p = .ok (l, u)) (bytes : ByteArray) :
    IsUpdate t l (some (.file bytes)) (u.fillFile l bytes) := by
  obtain ⟨hl, hfree, hupdate⟩ := createFile_eq_ok h
  have habove : t.find? l.dropLast = some .directory := find?_dropLast_of_location? hl
  refine hupdate.trans (isUpdate_insert _ ?_ (by simp [hupdate.find?_self]))
  exact (hupdate.directoriesIn hfree).directory habove

theorem writeBytes_eq_ok (h : t.writeBytes p bytes = .ok u) :
    ∃ l, t.location? p = some l ∧ t.find? l ≠ some .directory ∧
      IsUpdate t l (some (.file bytes)) u := by
  rw [writeBytes] at h
  cases hcreate : t.createFile p with
  | error cause =>
    rw [hcreate] at h
    exact absurd h nofun
  | ok created =>
    rw [hcreate] at h
    obtain rfl := Except.ok.inj h
    obtain ⟨hl, hfree, -⟩ := createFile_eq_ok hcreate
    exact ⟨created.1, hl, hfree, isUpdate_fillFile hcreate bytes⟩

theorem exists_writeBytes_eq_ok (h : t.location? p = some l) (hend : p.endsInSeparator = false)
    (hfree : t.find? l ≠ some .directory) (bytes : ByteArray) :
    ∃ u, t.writeBytes p bytes = .ok u := by
  rw [writeBytes, createFile_of_location? h hend hfree]
  exact ⟨_, rfl⟩

theorem removeFile_eq_ok (h : t.removeFile p = .ok u) :
    ∃ l bytes, t.location? p = some l ∧ t.find? l = some (.file bytes) ∧ u = t.erase l := by
  obtain ⟨place, hplace, h⟩ := Except.exists_of_bind_eq_ok h
  cases place with
  | special => exact absurd h throw_ne_ok
  | child d name =>
    obtain ⟨l, hchild, h⟩ := Except.exists_of_bind_eq_ok h
    split at h
    · exact absurd h throw_ne_ok
    · exact absurd h throw_ne_ok
    · next bytes hfile =>
      split at h
      · exact absurd h throw_ne_ok
      · exact ⟨l, bytes, location?_of_place hplace hchild, hfile, (Except.ok.inj h).symm⟩

theorem removeFile_of_location? (h : t.location? p = some l) (hend : p.endsInSeparator = false)
    (hfile : t.find? l = some (.file bytes)) : t.removeFile p = .ok (t.erase l) := by
  obtain ⟨d, name, hplace, hchild⟩ := place_of_location? h
  rw [removeFile, hplace]
  simp only [hend, hchild, bind, Except.bind, hfile]
  rfl

/-- A renamed file takes the place of what stood at the target, and nothing is left where it
    was. -/
theorem rename_eq_ok (h : t.rename source target = .ok u) :
    ∃ s l bytes, t.location? source = some s ∧ t.location? target = some l ∧
      target.endsInSeparator = false ∧ t.find? s = some (.file bytes) ∧
      t.find? l ≠ some .directory ∧ u.current = t.current ∧
      ∀ m, u.find? m = if m = l then some (.file bytes) else if m = s then none else t.find? m := by
  obtain ⟨sourcePlace, hsource, h⟩ := Except.exists_of_bind_eq_ok h
  obtain ⟨targetPlace, htarget, h⟩ := Except.exists_of_bind_eq_ok h
  rcases sourcePlace with ⟨sourceDirectory, sourceName⟩ | _ <;>
    rcases targetPlace with ⟨targetDirectory, targetName⟩ | _
  case child.child =>
    obtain ⟨s, hs, h⟩ := Except.exists_of_bind_eq_ok h
    split at h
    · exact absurd h throw_ne_ok
    · exact absurd h throw_ne_ok
    next bytes hfile =>
      obtain ⟨l, hl, h⟩ := Except.exists_of_bind_eq_ok h
      dsimp only at h
      split at h
      · exact absurd h throw_ne_ok
      next hend =>
        split at h
        · exact absurd h throw_ne_ok
        next hfree =>
          obtain rfl := Except.ok.inj h
          have hs := location?_of_place hsource hs
          have hl := location?_of_place htarget hl
          have habove : t.find? l.dropLast = some .directory := find?_dropLast_of_location? hl
          refine ⟨s, l, bytes, hs, hl, Bool.eq_false_iff.2 fun h => hend (.inr h), hfile, hfree, ?_,
            find?_insert_erase hfile habove hfree⟩
          rw [insert, erase, current_change, current_change]
  all_goals exact absurd h throw_ne_ok

/-- A file can be put in the place of anything but a directory. -/
theorem exists_rename_eq_ok (hm : t.location? source = some m) (hl : t.location? target = some l)
    (hsource : source.endsInSeparator = false) (htarget : target.endsInSeparator = false)
    (hfile : t.find? m = some (.file bytes)) (hfree : t.find? l ≠ some .directory) :
    ∃ u, t.rename source target = .ok u := by
  obtain ⟨sourceDirectory, sourceName, hsourcePlace, hsourceChild⟩ := place_of_location? hm
  obtain ⟨targetDirectory, targetName, htargetPlace, htargetChild⟩ := place_of_location? hl
  refine ⟨(t.erase m).insert l (.file bytes), ?_⟩
  rw [rename, hsourcePlace, htargetPlace]
  simp only [bind, Except.bind, hsourceChild, htargetChild, hfile, hsource, htarget,
    Bool.false_eq_true, or_self, if_false]
  rfl

end ShaderVariants.FileTree
