import ShaderVariants.Proofs.Publishing

/-!
# When publishing succeeds

Publishing fails only where the system does not take a path or a directory is in the way.
Which of that is so depends on the directories alone, so outputs that can be published can
also be published after others were. Outputs with different places can be published in
either order, and the files are the same afterwards.
-/

namespace ShaderVariants.Publish

open FileTree

variable {t t' u u' v v' : FileTree} {w w' : Workspace} {l : Location} {o : Output}
  {as bs outputs before rest : List Output} {qs : List Path}

/-! ## Outputs that can be published -/

/-- The system takes the path of an output and that of its temporary file, and no directory stands
    there. -/
def Ready (t : FileTree) (o : Output) : Prop :=
  o.path.endsInSeparator = false ∧ ∃ q l, temporary? o.path = some q ∧
    t.location? o.path = some l ∧ t.location? q = some (temporarySite l) ∧
    t.find? l ≠ some .directory ∧ t.find? (temporarySite l) ≠ some .directory

theorem Ready.congr (h : Ready t o) (hsame : SameDirectories t u) : Ready u o := by
  obtain ⟨hend, q, l, hq, hl, htemporary, hfree, hfree'⟩ := h
  refine ⟨hend, q, l, hq, ?_, ?_, fun hd => hfree (hsame.back.directory hd),
    fun hd => hfree' (hsame.back.directory hd)⟩
  · rw [hsame.location?, hl]
  · rw [hsame.location?, htemporary]

theorem stageAll_of_ready (h : ∀ o ∈ outputs, Ready w.files o) :
    ∃ qs t, (stageAll outputs : Session _) w = ((qs, .ok ()), { w with files := t }) ∧
      AreTemporary outputs qs ∧ Staged w.files outputs t := by
  induction outputs generalizing w with
  | nil => exact ⟨[], w.files, rfl, rfl, .nil _⟩
  | cons o rest ih =>
    obtain ⟨-, q, l, hq, -, hl, -, hfree⟩ := h o List.mem_cons_self
    have hend := (site?_of_temporary? w.files hq).2
    obtain ⟨v, hwrite⟩ := exists_writeBytes_eq_ok hl hend hfree o.text.toUtf8
    have hsame : SameDirectories w.files v := by
      obtain ⟨k, -, hk, hupdate⟩ := writeBytes_eq_ok hwrite
      exact hupdate.sameDirectories hk (by simp)
    obtain ⟨qs, t, hrun, hqs, hstaged⟩ := ih (w := ⟨v, w.log⟩) fun a ha =>
      (h a (List.mem_cons_of_mem o ha)).congr hsame
    refine ⟨q :: qs, t, ?_, .cons hq hqs, .cons hq hwrite hstaged⟩
    rw [stageAll_cons, hq]
    simp only [writeSynced_eq, hwrite, hrun]

theorem replaceAll_of_ready (hqs : AreTemporary rest qs) (h : Placed t before w.files)
    (hdistinct : Distinct t (before ++ rest))
    (hstaged : ∀ o ∈ before ++ rest, ∀ l, t.site? o.path = some l →
      t.find? (temporarySite l) = some (.file o.text.toUtf8))
    (hready : ∀ o ∈ rest, Ready t o) :
    ((replaceAll (qs.zip (rest.map Output.path)) : Session _) w).1 = .ok () := by
  induction rest generalizing before w qs with
  | nil =>
    obtain rfl : qs = [] := List.map_eq_nil_iff.1 hqs.symm
    rfl
  | cons o rest ih =>
    obtain ⟨q, qs, rfl, hq, hqs⟩ := List.map_eq_cons_iff.1 hqs.symm
    obtain ⟨hend, q', l, hq', hl, htemporary, hfree, -⟩ := hready o List.mem_cons_self
    obtain rfl := Option.some.inj (hq.trans hq')
    have hq := hq.symm
    have hsub : (before ++ [o]).Sublist (before ++ o :: rest) :=
      (List.singleton_sublist.2 List.mem_cons_self).append_left before
    have hfile := h.find?_temporarySite (hdistinct.sublist hsub)
      (fun a ha => hstaged a (hsub.subset ha)) (site?_of_location? hl)
    have hsame := h.sameDirectories
    obtain ⟨v, hrename⟩ := exists_rename_eq_ok ((hsame.location? q).trans htemporary)
      ((hsame.location? o.path).trans hl) (site?_of_temporary? t hq).2 hend hfile
      (fun hd => hfree (hsame.back.directory hd))
    rw [List.map_cons, List.zip_cons_cons, replaceAll_cons, rename_eq, hrename]
    rw [← List.singleton_append, ← List.append_assoc] at hdistinct hstaged
    exact ih (w := ⟨v, _⟩) hqs.symm (h.snoc hq hrename) hdistinct hstaged
      fun a ha => hready a (List.mem_cons_of_mem o ha)

/-- Outputs are published without a failure exactly if each is ready. -/
theorem exists_publish_eq_ok_iff (hdistinct : Distinct w.files outputs) :
    (∃ w', (publish outputs : Session _) w = (.ok (), w')) ↔ ∀ o ∈ outputs, Ready w.files o := by
  constructor
  · rintro ⟨w', h⟩ o ho
    obtain ⟨t, hstaged, hplaced, -⟩ := publish_eq_ok h
    obtain ⟨q, l, hq, hl, htemporary, hfree⟩ := hstaged.location?_eq o ho
    obtain ⟨hend, l', hl'⟩ := location?_of_placed hstaged hplaced o ho
    obtain rfl := Option.some.inj (hl.symm.trans (site?_of_location? hl'))
    refine ⟨hend, q, l, hq, hl', htemporary, fun hd => ?_, hfree⟩
    have hafter := (hstaged.sameDirectories.trans hplaced.sameDirectories).forth.directory hd
    obtain ⟨before, after, hsplit⟩ := List.append_of_mem ho
    rw [find?_site_of_placed hstaged hplaced hdistinct (List.prefix_refl _) hsplit hl] at hafter
    split at hafter
    · exact absurd hafter nofun
    · exact absurd hafter nofun
  · intro hready
    obtain ⟨qs, t, hrun, hqs, hstaged⟩ := stageAll_of_ready hready
    have hsame := hstaged.sameDirectories
    have hplace := replaceAll_of_ready (w := ⟨t, w.log⟩) hqs (.nil : Placed t [] t)
      ((distinct_congr hsame).2 hdistinct)
      (fun o ho l hl => hstaged.find?_temporarySite hdistinct o ho l (hsame.site? _ ▸ hl))
      fun o ho => (hready o ho).congr hsame
    rw [publish_eq, hrun]
    dsimp only
    rcases hreplace : (replaceAll (qs.zip (outputs.map Output.path)) : Session _) ⟨t, w.log⟩ with
      ⟨f | _, w'⟩
    · rw [hreplace] at hplace
      exact absurd hplace nofun
    · exact ⟨w', rfl⟩

/-! ## What is left -/

/-- The location is the place of an output or of its temporary file. -/
def Touches (t : FileTree) (outputs : List Output) (l : Location) : Prop :=
  ∃ o ∈ outputs, ∃ k, t.site? o.path = some k ∧ (l = k ∨ l = temporarySite k)

theorem touches_congr (h : SameDirectories t u) : Touches u outputs l ↔ Touches t outputs l := by
  simp only [Touches, h.site?]

/-- `u` is `t` with the texts of the outputs at their places and nothing at those of their temporary
    files. -/
structure Published (t : FileTree) (outputs : List Output) (u : FileTree) : Prop where
  sameDirectories : SameDirectories t u
  find?_site : ∀ o ∈ outputs, ∀ l, t.site? o.path = some l →
    u.find? l = some (.file o.text.toUtf8)
  find?_temporarySite : ∀ o ∈ outputs, ∀ l, t.site? o.path = some l →
    u.find? (temporarySite l) = none
  find?_eq : ∀ l, ¬ Touches t outputs l → u.find? l = t.find? l

theorem published_of_publish_eq_ok (hdistinct : Distinct w.files outputs)
    (hfree : ∀ a ∈ outputs, ∀ b ∈ outputs, ¬ TakesTemporary w.files a b)
    (h : (publish outputs : Session _) w = (.ok (), w')) :
    Published w.files outputs w'.files := by
  obtain ⟨t, hstaged, hplaced, -⟩ := publish_eq_ok h
  refine ⟨hstaged.sameDirectories.trans hplaced.sameDirectories, ?_, ?_, ?_⟩
  · intro o ho l hl
    obtain ⟨before, after, hsplit⟩ := List.append_of_mem ho
    have hbefore : ∀ a ∈ before.reverse, a ∈ outputs := by
      intro a ha
      rw [hsplit]
      exact List.mem_append_left _ (List.mem_reverse.1 ha)
    have hafter : ∀ b ∈ after, b ∈ outputs := by
      intro b hb
      rw [hsplit]
      exact List.mem_append_right before (List.mem_cons_of_mem o hb)
    rw [find?_site_of_placed hstaged hplaced hdistinct (List.prefix_refl _) hsplit hl, if_neg,
      arriving_of_not_takesTemporary fun a ha => hfree a (hbefore a ha) o ho]
    rintro ⟨b, hb, htakes⟩
    exact hfree o ho b (hafter b hb) htakes
  · intro o ho l hl
    exact find?_temporarySite_of_placed hstaged hplaced ho (fun b hb => hfree b hb o ho) hl
  · intro l hl
    refine find?_of_placed hstaged hplaced ?_ ?_ (List.prefix_refl _)
    · intro o ho hsite
      exact hl ⟨o, ho, l, hsite, .inl rfl⟩
    · intro o ho hsite
      obtain ⟨k, hk, rfl⟩ := Option.map_eq_some_iff.1 hsite
      exact hl ⟨o, ho, k, hk, .inr rfl⟩

namespace Published

/-- Only what stands in the tree matters. -/
theorem congr (h : Published t outputs u) (hsame : SameFiles t t') : Published t' outputs u := by
  have hsite := hsame.sameDirectories.site?
  refine ⟨hsame.symm.sameDirectories.trans h.sameDirectories, ?_, ?_, ?_⟩
  · intro o ho l hl
    exact h.find?_site o ho l (hsite o.path ▸ hl)
  · intro o ho l hl
    exact h.find?_temporarySite o ho l (hsite o.path ▸ hl)
  · intro l hl
    rw [hsame.find?_eq]
    exact h.find?_eq l (mt (touches_congr hsame.sameDirectories).2 hl)

/-- What is left where outputs go does not depend on the files before. -/
theorem find?_of_touches (h : Published t outputs u) (h' : Published t' outputs u')
    (hsame : SameDirectories t t') (hl : Touches t outputs l) : u.find? l = u'.find? l := by
  obtain ⟨o, ho, k, hk, rfl | rfl⟩ := hl
  · rw [h.find?_site o ho l hk, h'.find?_site o ho l ((hsame.site? o.path).trans hk)]
  · rw [h.find?_temporarySite o ho k hk,
      h'.find?_temporarySite o ho k ((hsame.site? o.path).trans hk)]

/-- Published again, outputs change nothing. -/
theorem again (h : Published t outputs u) (h' : Published u outputs v) : SameFiles u v := by
  refine ⟨h'.sameDirectories.forth.current_eq, fun l => ?_⟩
  by_cases hl : Touches t outputs l
  · exact (h.find?_of_touches h' h.sameDirectories hl).symm
  · exact h'.find?_eq l (mt (touches_congr h.sameDirectories).1 hl)

/-- What is left follows from the files before. -/
theorem unique (h : Published t outputs u) (h' : Published t' outputs u') (hsame : SameFiles t t') :
    SameFiles u u' := by
  have hback := h'.congr hsame.symm
  constructor
  · rw [hback.sameDirectories.forth.current_eq, h.sameDirectories.forth.current_eq]
  · intro l
    by_cases hl : Touches t outputs l
    · exact (h.find?_of_touches hback (.refl t) hl).symm
    · rw [hback.find?_eq l hl, h.find?_eq l hl]

/-- Outputs that go to different places can be published in either order. -/
theorem comm (hapart : ∀ l, Touches t as l → ¬ Touches t bs l)
    (ha : Published t as u) (hab : Published u bs v) (hb : Published t bs u')
    (hba : Published u' as v') : SameFiles v v' := by
  constructor
  · have hcurrent := (ha.sameDirectories.trans hab.sameDirectories).forth.current_eq
    rw [hcurrent]
    exact (hb.sameDirectories.trans hba.sameDirectories).forth.current_eq
  · intro l
    by_cases has : Touches t as l
    · rw [hab.find?_eq l (mt (touches_congr ha.sameDirectories).1 (hapart l has))]
      exact (ha.find?_of_touches hba hb.sameDirectories has).symm
    rw [hba.find?_eq l (mt (touches_congr hb.sameDirectories).1 has)]
    by_cases hbs : Touches t bs l
    · exact hb.find?_of_touches hab ha.sameDirectories hbs
    · rw [hb.find?_eq l hbs, hab.find?_eq l (mt (touches_congr ha.sameDirectories).1 hbs),
        ha.find?_eq l has]

end Published

end ShaderVariants.Publish
