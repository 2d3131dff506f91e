import ShaderVariants.FileTree.Operations
import ShaderVariants.Proofs.Paths

/-!
# Where paths lead

A walk looks at directories only, so where it leads stays the same while no directory
goes away. A path whose last component is a name has a location, whether anything stands
there or not; it is the name in the directory that the path above leads to.
-/

namespace ShaderVariants

theorem Except.exists_of_bind_eq_ok {ε α β : Type} {x : Except ε α} {f : α → Except ε β} {b : β}
    (h : x.bind f = .ok b) : ∃ a, x = .ok a ∧ f a = .ok b := by
  cases x with
  | error e => exact absurd h (by simp [Except.bind])
  | ok a => exact ⟨a, rfl, h⟩

theorem Except.eq_error_or_of_bind_eq_error {ε α β : Type} {x : Except ε α} {e : ε}
    {f : α → Except ε β} (h : x.bind f = .error e) :
    x = .error e ∨ ∃ a, x = .ok a ∧ f a = .error e := by
  cases x with
  | error e' => exact .inl (congrArg Except.error (Except.error.inj h))
  | ok a => exact .inr ⟨a, rfl, h⟩

theorem Except.exists_of_mapError_eq_error {ε δ α : Type} {x : Except ε α} {g : ε → δ} {e : δ}
    (h : x.mapError g = .error e) : ∃ e', x = .error e' ∧ g e' = e := by
  cases x with
  | error e' => exact ⟨e', rfl, Except.error.inj h⟩
  | ok a => exact absurd h nofun

theorem Except.eq_ok_of_mapError_eq_ok {ε δ α : Type} {x : Except ε α} {g : ε → δ} {a : α}
    (h : x.mapError g = .ok a) : x = .ok a := by
  cases x with
  | error e => exact absurd h nofun
  | ok a' => exact congrArg Except.ok (Except.ok.inj h)

namespace FileTree

variable {t u v : FileTree} {p q : Path} {l m d : Location} {name : Glyphs}
  {names above : List Glyphs}

/-! ## Walks -/

theorem walk_append (t : FileTree) (l : Location) (names rest : List Glyphs) :
    t.walk l (names ++ rest) = (t.walk l names).bind fun m => t.walk m rest := by
  induction names generalizing l with
  | nil => rw [List.nil_append, walk_nil]; rfl
  | cons name names ih =>
    rw [List.cons_append, walk_cons, walk_cons]
    cases t.step l name with
    | error _ => rfl
    | ok next => exact ih next

theorem checkDirectory_eq_ok (t : FileTree) (l : Location) :
    t.checkDirectory l = .ok () ↔ t.find? l = some .directory := by
  rw [checkDirectory]
  rcases t.find? l with _ | _ | _ <;> simp [checkEntry]

/-- A step from a directory goes where its name leads. -/
theorem step_eq_ok :
    t.step l name = .ok m ↔ t.find? l = some .directory ∧ ∃ way, turn name = .ok way ∧
      m = match way with
        | .stay => l
        | .up => l.dropLast
        | .down => l ++ [name] := by
  rw [← checkDirectory_eq_ok, step]
  cases t.checkDirectory l with
  | error _ => simp [bind, Except.bind]
  | ok _ =>
    cases turn name with
    | error _ => simp [bind, Except.bind]
    | ok way => cases way <;> simp [bind, Except.bind, pure, Except.pure, eq_comm]

theorem step_here_eq_ok : t.step l Path.here = .ok m ↔ t.find? l = some .directory ∧ m = l := by
  have hturn : turn Path.here = .ok .stay := rfl
  rw [step_eq_ok]
  constructor
  · rintro ⟨hl, way, hway, rfl⟩
    obtain rfl := Except.ok.inj (hturn.symm.trans hway)
    exact ⟨hl, rfl⟩
  · rintro ⟨hl, rfl⟩
    exact ⟨hl, .stay, hturn, rfl⟩

theorem walk_singleton (t : FileTree) (l : Location) (name : Glyphs) :
    t.walk l [name] = t.step l name := by
  rw [walk_cons]
  cases t.step l name with
  | error _ => rfl
  | ok next => exact t.walk_nil next

/-- Where a walk ends follows from its names alone. -/
theorem walk_unique (h : t.walk l names = .ok m) (h' : u.walk l names = .ok d) : m = d := by
  induction names generalizing l with
  | nil =>
    rw [walk_nil] at h h'
    exact (Except.ok.inj h).symm.trans (Except.ok.inj h')
  | cons name names ih =>
    rw [walk_cons] at h h'
    obtain ⟨next, hstep, hrest⟩ := Except.exists_of_bind_eq_ok h
    obtain ⟨next', hstep', hrest'⟩ := Except.exists_of_bind_eq_ok h'
    obtain ⟨-, way, hway, rfl⟩ := step_eq_ok.1 hstep
    obtain ⟨-, way', hway', rfl⟩ := step_eq_ok.1 hstep'
    obtain rfl := Except.ok.inj (hway.symm.trans hway')
    exact ih hrest hrest'

theorem turn_eq_down_iff :
    turn name = .ok .down ↔
      name ≠ Path.here ∧ name ≠ Path.above ∧ name.size ≤ nameLimit := by
  unfold turn
  split
  · simp [Path.here]
  · simp [Path.above]
  · next hhere habove =>
    by_cases hsize : name.size ≤ nameLimit
    · simp only [hsize, if_true, and_true, true_iff]
      exact ⟨hhere, habove⟩
    · simp [hsize]

theorem turn_of_name (hhere : name ≠ Path.here) (habove : name ≠ Path.above) :
    turn name = if name.size ≤ nameLimit then .ok .down else .error .nameTooLong :=
  turn.eq_3 name hhere habove

/-! ## Trees with the same directories -/

/-- Every directory of `t` is one of `u`, and relative paths start at the same place. -/
structure DirectoriesIn (t u : FileTree) : Prop where
  current_eq : u.current = t.current
  directory : ∀ {l : Location}, t.find? l = some .directory → u.find? l = some .directory

namespace DirectoriesIn

theorem refl (t : FileTree) : DirectoriesIn t t := ⟨rfl, id⟩

theorem trans (h : DirectoriesIn t u) (h' : DirectoriesIn u v) : DirectoriesIn t v :=
  ⟨h'.current_eq.trans h.current_eq, fun hl => h'.directory (h.directory hl)⟩

theorem step (h : DirectoriesIn t u) (hstep : t.step l name = .ok m) : u.step l name = .ok m := by
  obtain ⟨hl, hturn⟩ := step_eq_ok.1 hstep
  exact step_eq_ok.2 ⟨h.directory hl, hturn⟩

theorem walk (h : DirectoriesIn t u) (hwalk : t.walk l names = .ok m) :
    u.walk l names = .ok m := by
  induction names generalizing l with
  | nil =>
    rw [walk_nil] at hwalk ⊢
    exact hwalk
  | cons name names ih =>
    rw [walk_cons] at hwalk ⊢
    cases hstep : t.step l name with
    | error _ =>
      rw [hstep] at hwalk
      exact absurd hwalk (by simp [Except.bind])
    | ok next =>
      rw [hstep] at hwalk
      rw [h.step hstep]
      exact ih hwalk

theorem start (h : DirectoriesIn t u) (p : Path) : u.start p = t.start p := by
  rw [FileTree.start, FileTree.start, h.current_eq]

theorem resolve (h : DirectoriesIn t u) (hp : t.resolve p = .ok l) : u.resolve p = .ok l := by
  rw [FileTree.resolve] at hp ⊢
  rw [h.start]
  cases hstart : t.start p with
  | error _ =>
    rw [hstart] at hp
    exact absurd hp (by simp [bind, Except.bind])
  | ok origin =>
    rw [hstart] at hp
    exact h.walk hp

end DirectoriesIn

/-! ## Directories and locations -/

/-- Where the walk along a path starts. -/
def origin (t : FileTree) (p : Path) : Location := if p.isAbsolute then [] else t.current

/-- The directory that a walk leads to. -/
def reach? (t : FileTree) (l : Location) (names : List Glyphs) : Option Location :=
  match t.walk l names with
  | .ok m => if t.find? m = some .directory then some m else none
  | .error _ => none

/-- The directory that a path leads to; the empty path leads to the current one. -/
def directory? (t : FileTree) (p : Path) : Option Location := t.reach? (t.origin p) p.segments

/-- The location that a path gives a file: its name in the directory of the path above. -/
def site? (t : FileTree) (p : Path) : Option Location :=
  p.fileName?.bind fun name => (t.directory? p.parent).map (· ++ [name])

/-- The location of a path whose last component is a name that the system takes. -/
def location? (t : FileTree) (p : Path) : Option Location :=
  match t.place p with
  | .ok (.child directory name) => (child directory name).toOption
  | _ => none

theorem reach?_eq_some_iff :
    t.reach? l names = some d ↔ t.walk l names = .ok d ∧ t.find? d = some .directory := by
  unfold reach?
  cases t.walk l names with
  | error _ => simp
  | ok m =>
    by_cases h : t.find? m = some .directory
    · simp only [h, if_true, Option.some.injEq, Except.ok.injEq]
      exact ⟨fun heq => ⟨heq, heq ▸ h⟩, And.left⟩
    · simp only [h, if_false, Except.ok.injEq]
      refine ⟨fun h => absurd h (Option.some_ne_none d).symm, fun ⟨heq, hd⟩ => absurd (heq ▸ hd) h⟩

/-- On the way to a directory there are only directories. -/
theorem exists_walk_of_reach? (h : t.reach? l (names ++ above) = some d) :
    ∃ m, t.walk l names = .ok m ∧ t.find? m = some .directory := by
  obtain ⟨hwalk, hd⟩ := reach?_eq_some_iff.1 h
  rw [walk_append] at hwalk
  obtain ⟨m, hm, hrest⟩ := Except.exists_of_bind_eq_ok hwalk
  refine ⟨m, hm, ?_⟩
  cases above with
  | nil =>
    rw [walk_nil] at hrest
    rw [Except.ok.inj hrest, hd]
  | cons name above =>
    rw [walk_cons] at hrest
    obtain ⟨next, hstep, -⟩ := Except.exists_of_bind_eq_ok hrest
    exact (step_eq_ok.1 hstep).1

theorem reach?_append_here (t : FileTree) (l : Location) (names : List Glyphs) (k : Nat) :
    t.reach? l (names ++ List.replicate k Path.here) = t.reach? l names := by
  induction k with
  | zero => rw [List.replicate_zero, List.append_nil]
  | succ k ih =>
    rw [← ih, List.replicate_succ', ← List.append_assoc]
    generalize names ++ List.replicate k Path.here = names
    refine Option.ext fun d => ?_
    rw [reach?_eq_some_iff, reach?_eq_some_iff, walk_append]
    cases t.walk l names with
    | error _ => simp [Except.bind]
    | ok m =>
      rw [Except.bind, walk_singleton, step_here_eq_ok, Except.ok.injEq]
      refine ⟨fun ⟨⟨_, heq⟩, hd⟩ => ⟨heq.symm, hd⟩, fun ⟨heq, hd⟩ => ⟨⟨heq ▸ hd, heq.symm⟩, hd⟩⟩

theorem start_eq_ok (h : t.start p = .ok l) : l = t.origin p := by
  unfold start at h
  split at h
  · exact absurd h (by simp)
  · split at h
    · exact absurd h (by simp)
    · split at h
      · exact absurd h (by simp)
      · exact (Except.ok.inj h).symm

theorem place_of_segments (hstart : t.start p = .ok l) (hsegments : p.segments = above ++ [name]) :
    t.place p = (t.walk l above).bind fun m => (t.checkDirectory m).bind fun _ =>
      if name = Path.here ∨ name = Path.above then .ok .special else .ok (.child m name) := by
  simp only [place, hstart, hsegments, List.getLast?_concat, List.dropLast_concat]
  rfl

theorem place_eq_child_iff :
    t.place p = .ok (.child d name) ↔ t.start p = .ok (t.origin p) ∧ ∃ above,
      p.segments = above ++ [name] ∧ name ≠ Path.here ∧ name ≠ Path.above ∧
        t.reach? (t.origin p) above = some d := by
  constructor
  · intro h
    cases hstart : t.start p with
    | error _ => simp [place, hstart, bind, Except.bind] at h
    | ok origin =>
      obtain rfl := start_eq_ok hstart
      rcases List.eq_nil_or_concat p.segments with hnil | ⟨above, last, hsegments⟩
      · simp [place, hstart, hnil, bind, Except.bind, pure, Except.pure] at h
      · rw [List.concat_eq_append] at hsegments
        rw [place_of_segments hstart hsegments] at h
        obtain ⟨m, hwalk, h⟩ := Except.exists_of_bind_eq_ok h
        obtain ⟨_, hcheck, h⟩ := Except.exists_of_bind_eq_ok h
        split at h
        · exact absurd h (by simp)
        · next hlast =>
          obtain ⟨rfl, rfl⟩ := Place.child.inj (Except.ok.inj h)
          exact ⟨rfl, above, hsegments, fun h => hlast (.inl h), fun h => hlast (.inr h),
            reach?_eq_some_iff.2 ⟨hwalk, (checkDirectory_eq_ok t m).1 hcheck⟩⟩
  · rintro ⟨hstart, above, hsegments, hhere, habove, hreach⟩
    obtain ⟨hwalk, hd⟩ := reach?_eq_some_iff.1 hreach
    rw [place_of_segments hstart hsegments, hwalk, Except.bind, (checkDirectory_eq_ok t d).2 hd,
      Except.bind, if_neg]
    rintro (heq | heq)
    · exact hhere heq
    · exact habove heq

/-- A path has a location if its last component is a name and the others lead to a directory. -/
theorem location?_eq_some_iff :
    t.location? p = some l ↔ ∃ d name, t.place p = .ok (.child d name) ∧
      name.size ≤ nameLimit ∧ l = d ++ [name] := by
  rw [location?]
  constructor
  · intro h
    split at h
    · next d name hplace =>
      unfold child at h
      split at h
      · next hsize => exact ⟨d, name, hplace, hsize, (Option.some.inj h).symm⟩
      · exact absurd h (Option.some_ne_none l).symm
    · exact absurd h (Option.some_ne_none l).symm
  · rintro ⟨d, name, hplace, hsize, rfl⟩
    rw [hplace]
    exact congrArg Except.toOption (if_pos hsize)

theorem site?_eq {above : List Glyphs} (hsegments : p.segments = above ++ [name])
    (hname : Path.IsName name) :
    t.site? p = (t.reach? (t.origin p) above).map (· ++ [name]) := by
  obtain ⟨hfile, habsolute, k, hparent⟩ := Path.fileName?_and_parent hsegments hname
  rw [site?, hfile, Option.bind_some, directory?, hparent, reach?_append_here, origin, origin,
    habsolute]

/-- The location of a path is the site of its file. -/
theorem site?_of_location? (h : t.location? p = some l) : t.site? p = some l := by
  obtain ⟨d, name, hplace, -, rfl⟩ := location?_eq_some_iff.1 h
  obtain ⟨-, above, hsegments, hhere, habove, hd⟩ := place_eq_child_iff.1 hplace
  rw [site?_eq hsegments (Path.isName_of_segments hsegments hhere habove), hd]
  rfl

theorem site?_join (q : Path) (hname : Path.IsName name) :
    t.site? (q.join name) = (t.directory? q).map (· ++ [name]) := by
  rw [site?_eq (Path.segments_join hname) hname, directory?, origin, origin,
    Path.isAbsolute_join hname]

theorem DirectoriesIn.reach? (h : DirectoriesIn t u) (hreach : t.reach? l names = some d) :
    u.reach? l names = some d := by
  obtain ⟨hwalk, hd⟩ := reach?_eq_some_iff.1 hreach
  exact reach?_eq_some_iff.2 ⟨h.walk hwalk, h.directory hd⟩

theorem DirectoriesIn.origin (h : DirectoriesIn t u) (p : Path) : u.origin p = t.origin p := by
  rw [FileTree.origin, FileTree.origin, h.current_eq]

theorem DirectoriesIn.directory? (h : DirectoriesIn t u) (hp : t.directory? p = some d) :
    u.directory? p = some d := by
  rw [FileTree.directory?, h.origin]
  exact h.reach? hp

theorem DirectoriesIn.location? (h : DirectoriesIn t u) (hp : t.location? p = some l) :
    u.location? p = some l := by
  obtain ⟨d, name, hplace, hsize, rfl⟩ := location?_eq_some_iff.1 hp
  obtain ⟨hstart, above, hsegments, hhere, habove, hd⟩ := place_eq_child_iff.1 hplace
  refine location?_eq_some_iff.2 ⟨d, name, place_eq_child_iff.2 ?_, hsize, rfl⟩
  rw [h.start, h.origin]
  exact ⟨hstart, above, hsegments, hhere, habove, h.reach? hd⟩

theorem DirectoriesIn.site? (h : DirectoriesIn t u) (hp : t.site? p = some l) :
    u.site? p = some l := by
  obtain ⟨name, hfile, hname⟩ := Option.bind_eq_some_iff.1 hp
  obtain ⟨d, hd, rfl⟩ := Option.map_eq_some_iff.1 hname
  rw [FileTree.site?, hfile, Option.bind_some, h.directory? hd, Option.map_some]

/-- The two trees have the same directories. -/
structure SameDirectories (t u : FileTree) : Prop where
  forth : DirectoriesIn t u
  back : DirectoriesIn u t

namespace SameDirectories

theorem refl (t : FileTree) : SameDirectories t t := ⟨.refl t, .refl t⟩

theorem symm (h : SameDirectories t u) : SameDirectories u t := ⟨h.back, h.forth⟩

theorem trans (h : SameDirectories t u) (h' : SameDirectories u v) : SameDirectories t v :=
  ⟨h.forth.trans h'.forth, h'.back.trans h.back⟩

theorem location? (h : SameDirectories t u) (p : Path) : u.location? p = t.location? p :=
  Option.ext fun _ => ⟨h.back.location?, h.forth.location?⟩

theorem site? (h : SameDirectories t u) (p : Path) : u.site? p = t.site? p :=
  Option.ext fun _ => ⟨h.back.site?, h.forth.site?⟩

end SameDirectories

/-! ## What stands at a path -/

theorem find?_dropLast (h : t.find? l = some .directory) :
    t.find? l.dropLast = some .directory := by
  rcases List.eq_nil_or_concat l with rfl | ⟨m, name, rfl⟩
  · exact h
  · rw [List.concat_eq_append] at h ⊢
    rw [List.dropLast_concat]
    exact find?_eq_directory (List.cons_ne_nil name []) (by simp [h])

theorem resolve_eq (hstart : t.start p = .ok (t.origin p)) :
    t.resolve p =
      t.walk (t.origin p) (p.segments ++ if p.endsInSeparator then [Path.here] else []) := by
  rw [resolve, hstart]
  rfl

theorem start_of_resolve (h : t.resolve p = .ok l) : t.start p = .ok (t.origin p) := by
  obtain ⟨origin, hstart, -⟩ := Except.exists_of_bind_eq_ok h
  rw [hstart, start_eq_ok hstart]

/-- The walk along a path with a location leads there. -/
theorem walk_of_location? (h : t.location? p = some l) :
    t.start p = .ok (t.origin p) ∧ t.walk (t.origin p) p.segments = .ok l := by
  obtain ⟨d, name, hplace, hsize, rfl⟩ := location?_eq_some_iff.1 h
  obtain ⟨hstart, above, hsegments, hhere, habove, hd⟩ := place_eq_child_iff.1 hplace
  obtain ⟨hwalk, hdirectory⟩ := reach?_eq_some_iff.1 hd
  rw [hsegments, walk_append, hwalk, Except.bind, walk_singleton]
  exact ⟨hstart, step_eq_ok.2
    ⟨hdirectory, .down, turn_eq_down_iff.2 ⟨hhere, habove, hsize⟩, rfl⟩⟩

/-- A path with a location leads there, unless it asks for a directory. -/
theorem resolve_of_location? (h : t.location? p = some l) (hend : p.endsInSeparator = false) :
    t.resolve p = .ok l := by
  obtain ⟨hstart, hwalk⟩ := walk_of_location? h
  rw [resolve_eq hstart, hend, if_neg Bool.false_ne_true, List.append_nil, hwalk]

/-- A path that asks for a directory leads to a directory. -/
theorem find?_of_endsInSeparator (h : t.resolve p = .ok l) (hend : p.endsInSeparator = true) :
    t.find? l = some .directory := by
  rw [resolve_eq (start_of_resolve h), hend, if_pos rfl, walk_append] at h
  obtain ⟨m, -, hstep⟩ := Except.exists_of_bind_eq_ok h
  rw [walk_singleton] at hstep
  obtain ⟨hm, rfl⟩ := step_here_eq_ok.1 hstep
  exact hm

/-- A path without a location leads to a directory if it leads anywhere. -/
theorem find?_of_location?_eq_none (h : t.resolve p = .ok l) (hnone : t.location? p = none) :
    t.find? l = some .directory := by
  cases hend : p.endsInSeparator with
  | true => exact find?_of_endsInSeparator h hend
  | false =>
    have hstart := start_of_resolve h
    rw [resolve_eq hstart, hend, if_neg Bool.false_ne_true, List.append_nil] at h
    rcases List.eq_nil_or_concat p.segments with hnil | ⟨above, name, hsegments⟩
    · have hglyphs : p.glyphs ≠ [] := by
        rintro heq
        simp [start, heq] at hstart
      exact absurd (Path.endsInSeparator_of_segments_eq_nil hglyphs hnil) (by simp [hend])
    · rw [List.concat_eq_append] at hsegments
      rw [hsegments, walk_append] at h
      obtain ⟨d, hwalk, hstep⟩ := Except.exists_of_bind_eq_ok h
      rw [walk_singleton] at hstep
      obtain ⟨hd, way, hturn, rfl⟩ := step_eq_ok.1 hstep
      cases way with
      | stay => exact hd
      | up => exact find?_dropLast hd
      | down =>
        obtain ⟨hhere, habove, hsize⟩ := turn_eq_down_iff.1 hturn
        have hplace := place_eq_child_iff.2
          ⟨hstart, above, hsegments, hhere, habove, reach?_eq_some_iff.2 ⟨hwalk, hd⟩⟩
        have hsome := location?_eq_some_iff.2 ⟨d, name, hplace, hsize, rfl⟩
        exact absurd (hnone.symm.trans hsome) (Option.some_ne_none _).symm

/-- A file stands at a path exactly if it stands at its location and the path asks for no
    directory. -/
theorem entryAt?_eq_file_iff {bytes : ByteArray} :
    t.entryAt? p = some (.file bytes) ↔ p.endsInSeparator = false ∧
      ∃ l, t.location? p = some l ∧ t.find? l = some (.file bytes) := by
  constructor
  · intro h
    rw [entryAt?] at h
    split at h
    · next l hresolve =>
      have hend : p.endsInSeparator = false := by
        refine Bool.eq_false_iff.2 fun hend => ?_
        rw [find?_of_endsInSeparator hresolve hend] at h
        exact absurd h (by simp)
      refine ⟨hend, ?_⟩
      cases hlocation : t.location? p with
      | none =>
        rw [find?_of_location?_eq_none hresolve hlocation] at h
        exact absurd h (by simp)
      | some m =>
        have heq := (resolve_of_location? hlocation hend).symm.trans hresolve
        exact ⟨m, rfl, Except.ok.inj heq ▸ h⟩
    · exact absurd h (Option.some_ne_none _).symm
  · rintro ⟨hend, l, hlocation, hfile⟩
    rw [entryAt?, resolve_of_location? hlocation hend]
    exact hfile

theorem entryAt?_eq_file_iff_of_location? {bytes : ByteArray} (h : t.location? p = some l)
    (hend : p.endsInSeparator = false) :
    t.entryAt? p = some (.file bytes) ↔ t.find? l = some (.file bytes) := by
  rw [entryAt?_eq_file_iff, h]
  simp [hend]

theorem entryAt?_eq_directory_iff :
    t.entryAt? p = some .directory ↔ ∃ l, t.resolve p = .ok l ∧ t.find? l = some .directory := by
  rw [entryAt?]
  cases t.resolve p <;> simp

/-- Between trees with the same directories a path changes only if a file does. -/
theorem SameDirectories.entryAt?_eq_iff (h : SameDirectories t u) :
    u.entryAt? p = t.entryAt? p ↔
      ∀ bytes, u.entryAt? p = some (.file bytes) ↔ t.entryAt? p = some (.file bytes) := by
  have hdirectory : u.entryAt? p = some .directory ↔ t.entryAt? p = some .directory := by
    rw [entryAt?_eq_directory_iff, entryAt?_eq_directory_iff]
    exact ⟨fun ⟨l, hl, hd⟩ => ⟨l, h.back.resolve hl, h.back.directory hd⟩,
      fun ⟨l, hl, hd⟩ => ⟨l, h.forth.resolve hl, h.forth.directory hd⟩⟩
  constructor
  · intro heq bytes
    rw [heq]
  · intro hfile
    refine Option.ext fun e => ?_
    cases e with
    | file bytes => exact hfile bytes
    | directory => exact hdirectory

theorem readBytes_eq_ok {bytes : ByteArray} :
    t.readBytes p = .ok bytes ↔ t.entryAt? p = some (.file bytes) := by
  rw [readBytes, entryAt?]
  cases t.resolve p with
  | error _ => simp [bind, Except.bind]
  | ok l =>
    rcases hfind : t.find? l with _ | _ | _ <;>
      simp [bind, Except.bind, pure, Except.pure, throw, throwThe, MonadExceptOf.throw, hfind]

theorem readText_eq_ok {text : Text} :
    t.readText p = .ok text ↔ t.entryAt? p = some (.file text.toUtf8) := by
  rw [← readBytes_eq_ok, readText]
  constructor
  · intro h
    obtain ⟨bytes, hbytes, h⟩ := Except.exists_of_bind_eq_ok h
    split at h
    · exact absurd h (by simp [throw, throwThe, MonadExceptOf.throw])
    · next htext =>
      obtain rfl := Except.ok.inj h
      rw [hbytes, Text.toUtf8_of_ofUtf8? htext]
  · intro h
    rw [h]
    simp [bind, Except.bind, pure, Except.pure]

/-- A text stays while its directories and its file do. -/
theorem readText_of_directoriesIn {text : Text} (h : DirectoriesIn t u)
    (hfile : ∀ l bytes, t.location? p = some l → t.find? l = some (.file bytes) →
      u.find? l = some (.file bytes))
    (hread : t.readText p = .ok text) : u.readText p = .ok text := by
  rw [readText_eq_ok, entryAt?_eq_file_iff] at hread ⊢
  obtain ⟨hend, l, hl, hfind⟩ := hread
  exact ⟨hend, l, h.location? hl, hfile l _ hl hfind⟩

/-! ## Trees that look the same -/

/-- The same stands everywhere in both trees. -/
structure SameFiles (t u : FileTree) : Prop where
  current_eq : u.current = t.current
  find?_eq : ∀ l, u.find? l = t.find? l

namespace SameFiles

theorem refl (t : FileTree) : SameFiles t t := ⟨rfl, fun _ => rfl⟩

theorem symm (h : SameFiles t u) : SameFiles u t :=
  ⟨h.current_eq.symm, fun l => (h.find?_eq l).symm⟩

theorem trans (h : SameFiles t u) (h' : SameFiles u v) : SameFiles t v :=
  ⟨h'.current_eq.trans h.current_eq, fun l => (h'.find?_eq l).trans (h.find?_eq l)⟩

theorem directoriesIn (h : SameFiles t u) : DirectoriesIn t u :=
  ⟨h.current_eq, fun {l} hl => (h.find?_eq l).trans hl⟩

theorem sameDirectories (h : SameFiles t u) : SameDirectories t u :=
  ⟨h.directoriesIn, h.symm.directoriesIn⟩

theorem readText (h : SameFiles t u) {text : Text} (hp : t.readText p = .ok text) :
    u.readText p = .ok text :=
  readText_of_directoriesIn h.directoriesIn (fun l _ _ hfile => (h.find?_eq l).trans hfile) hp

end SameFiles

end FileTree

end ShaderVariants
