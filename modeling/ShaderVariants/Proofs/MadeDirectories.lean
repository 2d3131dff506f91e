import ShaderVariants.Proofs.Changes
import ShaderVariants.Workspace

/-!
# Making directories

Making a directory and those above it changes a tree in one way only: where nothing stood on
the way along the path there may be a directory afterwards. This holds whether all of them can
be made or not.
-/

namespace ShaderVariants

namespace FileTree

variable {t u v : FileTree} {p q : Path} {l : Location}

/-- The walk along a path passes a location. -/
def OnWay (t : FileTree) (p : Path) (l : Location) : Prop :=
  ∃ names, names <+: p.segments ∧ t.walk (t.origin p) names = .ok l

theorem OnWay.mono (h : DirectoriesIn t u) (hl : t.OnWay p l) : u.OnWay p l := by
  obtain ⟨names, hnames, hwalk⟩ := hl
  refine ⟨names, hnames, ?_⟩
  rw [h.origin]
  exact h.walk hwalk

/-- `u` is `t` but for new directories on the way along a path. -/
structure Grown (t : FileTree) (p : Path) (u : FileTree) : Prop where
  current_eq : u.current = t.current
  find?_eq : ∀ l, u.find? l = t.find? l ∨
    t.find? l = none ∧ u.find? l = some .directory ∧ u.OnWay p l

namespace Grown

theorem refl (t : FileTree) (p : Path) : Grown t p t := ⟨rfl, fun _ => .inl rfl⟩

theorem find?_of_eq_some (h : Grown t p u) {e : Entry} (hl : t.find? l = some e) :
    u.find? l = some e := by
  rcases h.find?_eq l with heq | ⟨hnone, -⟩
  · rw [heq, hl]
  · exact absurd (hnone.symm.trans hl) (Option.some_ne_none e).symm

theorem directoriesIn (h : Grown t p u) : DirectoriesIn t u := ⟨h.current_eq, h.find?_of_eq_some⟩

theorem trans (h : Grown t p u) (h' : Grown u p v) : Grown t p v := by
  refine ⟨h'.current_eq.trans h.current_eq, fun l => ?_⟩
  rcases h'.find?_eq l with heq' | ⟨hnone, hmade⟩
  · rcases h.find?_eq l with heq | ⟨hnone, hdirectory, hway⟩
    · exact .inl (heq'.trans heq)
    · exact .inr ⟨hnone, heq'.trans hdirectory, hway.mono h'.directoriesIn⟩
  · rcases h.find?_eq l with heq | ⟨-, hdirectory, -⟩
    · exact .inr ⟨heq.symm.trans hnone, hmade⟩
    · exact absurd (hnone.symm.trans hdirectory) (Option.some_ne_none _).symm

theorem readText (h : Grown t p u) {text : Text} (hq : t.readText q = .ok text) :
    u.readText q = .ok text :=
  readText_of_directoriesIn h.directoriesIn (fun _ _ _ hfile => h.find?_of_eq_some hfile) hq

end Grown

/-- On the way to a directory there are only directories, in each tree with that directory. -/
theorem OnWay.find?_eq (hl : t.OnWay p l) (hcurrent : u.current = t.current) {d : Location}
    (hd : u.directory? p = some d) : u.find? l = some .directory := by
  obtain ⟨names, ⟨rest, hsegments⟩, hwalk⟩ := hl
  have horigin : t.origin p = u.origin p := by rw [origin, origin, hcurrent]
  rw [directory?, ← hsegments] at hd
  obtain ⟨m, hm, hdirectory⟩ := exists_walk_of_reach? hd
  rw [horigin] at hwalk
  rw [walk_unique hwalk hm, hdirectory]

/-- The tree in which the directories on the way have been made is known from the one before. -/
theorem Grown.sameFiles (h : Grown t p u) (h' : Grown t p v) {d d' : Location}
    (hd : u.directory? p = some d) (hd' : v.directory? p = some d') : SameFiles u v := by
  have hcurrent : v.current = u.current := h'.current_eq.trans h.current_eq.symm
  refine ⟨hcurrent, fun l => ?_⟩
  rcases h.find?_eq l with heq | ⟨-, hdirectory, hway⟩
  · rcases h'.find?_eq l with heq' | ⟨-, hdirectory', hway'⟩
    · rw [heq, heq']
    · rw [hdirectory', hway'.find?_eq hcurrent.symm hd]
  · rw [hdirectory, hway.find?_eq hcurrent hd']

/-- A directory that is made for a path, or for one above it, is on the way. -/
theorem grown_of_makeDirectory (habsolute : q.isAbsolute = p.isAbsolute)
    (hsegments : q.segments <+: p.segments) (h : t.makeDirectory q = .ok u) : Grown t p u := by
  obtain ⟨l, hl, hnone, hupdate⟩ := makeDirectory_eq_ok h
  have hin : DirectoriesIn t u := hupdate.directoriesIn (by simp [hnone])
  refine ⟨hupdate.current_eq, fun m => ?_⟩
  by_cases hm : m = l
  · subst hm
    refine .inr ⟨hnone, hupdate.find?_self, q.segments, hsegments, ?_⟩
    have horigin : u.origin p = t.origin q := by rw [hin.origin, origin, origin, habsolute]
    rw [horigin]
    exact hin.walk (walk_of_location? hl).2
  · exact .inl (hupdate.find?_of_ne hm)

/-! ## Directories that are there -/

/-- A directory is not made twice. -/
theorem makeDirectory_of_isDirectory (h : t.isDirectory p = true) :
    t.makeDirectory p = .error .alreadyExists := by
  obtain ⟨l, hresolve, hl⟩ := entryAt?_eq_directory_iff.1 (eq_of_beq h)
  have hstart := start_of_resolve hresolve
  rcases List.eq_nil_or_concat p.segments with hnil | ⟨above, name, hsegments⟩
  · have hplace : t.place p = .ok .special := by
      rw [place, hstart, hnil]
      rfl
    rw [makeDirectory, hplace]
    rfl
  rw [List.concat_eq_append] at hsegments
  obtain ⟨m, hwalk, hm⟩ : ∃ m, t.walk (t.origin p) p.segments = .ok m ∧
      t.find? m = some .directory := by
    rw [resolve_eq hstart, walk_append] at hresolve
    obtain ⟨m, hwalk, hrest⟩ := Except.exists_of_bind_eq_ok hresolve
    refine ⟨m, hwalk, ?_⟩
    split at hrest
    · rw [walk_singleton] at hrest
      exact (step_here_eq_ok.1 hrest).1
    · rw [walk_nil] at hrest
      rw [Except.ok.inj hrest, hl]
  rw [hsegments, walk_append] at hwalk
  obtain ⟨d, hd, hstep⟩ := Except.exists_of_bind_eq_ok hwalk
  rw [walk_singleton] at hstep
  obtain ⟨hdirectory, way, hway, hm'⟩ := step_eq_ok.1 hstep
  have hplace := place_of_segments hstart hsegments
  rw [hd, Except.bind, (checkDirectory_eq_ok t d).2 hdirectory, Except.bind] at hplace
  by_cases hspecial : name = Path.here ∨ name = Path.above
  · rw [if_pos hspecial] at hplace
    rw [makeDirectory, hplace]
    rfl
  · rw [if_neg hspecial] at hplace
    obtain ⟨hhere, habove⟩ := not_or.1 hspecial
    rw [turn_of_name hhere habove] at hway
    split at hway
    · next hsize =>
      obtain rfl := Except.ok.inj hway
      have hchild : child d name = .ok m := (if_pos hsize).trans (congrArg Except.ok hm'.symm)
      rw [makeDirectory, hplace]
      simp only [bind, Except.bind, hchild, hm]
      rfl
    · cases hway

end FileTree

namespace Session

open FileTree

variable {α β : Type} {p q : Path} {x : Session α} {f : α → Session β}

/-- The session makes directories on the way along a path and does nothing else. -/
def GrowsAlong (p : Path) (x : Session α) : Prop :=
  ∀ w, Grown w.files p (x w).2.files ∧ (x w).2.log = w.log

namespace GrowsAlong

theorem pure (p : Path) (a : α) : GrowsAlong p (Pure.pure a : Session α) :=
  fun w => ⟨.refl w.files p, rfl⟩

theorem look (p : Path) (f : FileTree → α) : GrowsAlong p (Session.look f) :=
  fun w => ⟨.refl w.files p, rfl⟩

theorem bind (hx : GrowsAlong p x) (hf : ∀ a, GrowsAlong p (f a)) : GrowsAlong p (x >>= f) := by
  intro w
  obtain ⟨hgrown, hlog⟩ := hx w
  obtain ⟨hgrown', hlog'⟩ := hf (x w).1 (x w).2
  exact ⟨hgrown.trans hgrown', hlog'.trans hlog⟩

theorem makeDirectory (habsolute : q.isAbsolute = p.isAbsolute)
    (hsegments : q.segments <+: p.segments) :
    GrowsAlong p (Host.makeDirectory q : Session (Except IoCause Unit)) := by
  intro w
  simp only [Host.makeDirectory, change]
  cases hmake : w.files.makeDirectory q with
  | error cause => exact ⟨.refl w.files p, rfl⟩
  | ok t => exact ⟨grown_of_makeDirectory habsolute hsegments hmake, rfl⟩

theorem unlessDirectory (q : Path) (r : Except IoCause Unit) :
    GrowsAlong p (Host.unlessDirectory q r : Session (Except IoCause Unit)) := by
  cases r with
  | ok _ => exact .pure p _
  | error cause => exact .bind (.look p (·.isDirectory q)) fun _ => .pure p _

theorem retry {above : Unit → Session (Except IoCause Unit)}
    (habsolute : q.isAbsolute = p.isAbsolute) (hsegments : q.segments <+: p.segments)
    (habove : GrowsAlong p (above ())) (r : Except IoCause Unit) :
    GrowsAlong p (Host.retry q above r) := by
  unfold Host.retry
  split
  · refine habove.bind fun r => ?_
    cases r with
    | ok _ => exact (makeDirectory habsolute hsegments).bind fun r => unlessDirectory q r
    | error cause => exact .pure p _
  · exact unlessDirectory q r

theorem makeNested {qs : List Path}
    (hqs : ∀ q ∈ qs, q.isAbsolute = p.isAbsolute ∧ q.segments <+: p.segments) :
    GrowsAlong p (Host.makeNested qs : Session (Except IoCause Unit)) := by
  induction qs with
  | nil => exact .pure p _
  | cons q above ih =>
    obtain ⟨habsolute, hsegments⟩ := hqs q List.mem_cons_self
    exact (makeDirectory habsolute hsegments).bind fun r =>
      retry habsolute hsegments (ih fun q hq => hqs q (List.mem_cons_of_mem _ hq)) r

theorem makeDirectories (p : Path) :
    GrowsAlong p (Host.makeDirectories p : Session (Except IoCause Unit)) := by
  unfold Host.makeDirectories
  split
  · exact .pure p _
  · exact (makeDirectory rfl (List.prefix_refl _)).bind fun r =>
      retry rfl (List.prefix_refl _)
        (makeNested fun q hq => Path.segments_prefix_of_mem_ancestors hq) r

end GrowsAlong

/-- Where the directory is there, nothing is made. -/
theorem makeDirectories_of_isDirectory {w : Workspace}
    (h : p.glyphs = [] ∨ w.files.isDirectory p = true) :
    (Host.makeDirectories p : Session (Except IoCause Unit)) w = (.ok (), w) := by
  unfold Host.makeDirectories
  split
  · rfl
  · next hne =>
    have hdirectory := h.resolve_left hne
    have hmake : (Host.makeDirectory p : Session (Except IoCause Unit)) w =
        (.error .alreadyExists, w) := by
      simp only [Host.makeDirectory, change, makeDirectory_of_isDirectory hdirectory]
    have hlook : (Host.isDirectory p : Session Bool) w = (true, w) := by
      rw [← hdirectory]
      rfl
    rw [bind_apply, hmake]
    simp only [Host.retry, Host.unlessDirectory, bind_apply, hlook, if_true]
    rfl

end Session

end ShaderVariants
