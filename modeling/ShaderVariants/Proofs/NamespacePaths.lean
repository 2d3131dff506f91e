import Mathlib.Data.List.Infix
import ShaderVariants.Proofs.ResolvedSettings

/-!
# Namespace paths

The accepted namespaces are the empty one and the paths of the grammar
`identifier (:: identifier)*`. The grammar and the split of a path at `::` are stated here
without the functions that check a path, and the check is shown to decide the one and to name
the first bad part of the other. All settings that a run can get have an accepted namespace,
whatever reads the settings file.
-/

namespace ShaderVariants

namespace NamespaceGrammar

/-! ## The grammar -/

/-- `[A-Za-z_]`. -/
def Letter (c : Char) : Prop := 'A' ≤ c ∧ c ≤ 'Z' ∨ 'a' ≤ c ∧ c ≤ 'z' ∨ c = '_'

/-- `[0-9]`. -/
def Digit (c : Char) : Prop := '0' ≤ c ∧ c ≤ '9'

/-- `[A-Za-z_][A-Za-z0-9_]*`. -/
inductive Identifier : Text → Prop where
  | intro {c : Char} {t : Text} (first : Letter c) (rest : ∀ d ∈ t, Letter d ∨ Digit d) :
    Identifier (c :: t)

/-- `identifier (:: identifier)*`. -/
inductive Path : Text → Prop where
  | single {t : Text} (identifier : Identifier t) : Path t
  | cons {t path : Text} (identifier : Identifier t) (rest : Path path) :
    Path (t ++ ':' :: ':' :: path)

/-- The first `::` of `segment ++ "::" ++ rest` is the one behind `segment`. -/
def CutsAtFirst (segment rest : Text) : Prop :=
  ∀ shorter, shorter ++ [':', ':'] <+: segment ++ ':' :: ':' :: rest →
    segment.length ≤ shorter.length

/-- A text is cut at each `::` from left to right. -/
inductive Splits : Text → List Text → Prop where
  | last {t : Text} (whole : ¬[':', ':'] <:+: t) : Splits t [t]
  | cut {segment rest : Text} {segments : List Text} (first : CutsAtFirst segment rest)
    (further : Splits rest segments) : Splits (segment ++ ':' :: ':' :: rest) (segment :: segments)

/-- The segment is no identifier, and all before it in the split of the path are. -/
def FirstBad (path segment : Text) : Prop :=
  ∃ before after, Splits path (before ++ segment :: after) ∧
    (∀ earlier ∈ before, Identifier earlier) ∧ ¬Identifier segment

variable {c : Char} {t path segment rest : Text} {segments : List Text}

/-! ## Identifiers -/

theorem letter_iff : Letter c ↔ isIdentifierStart c = true := by
  have hupper : c.isUpper = true ↔ 'A' ≤ c ∧ c ≤ 'Z' := decide_eq_true_iff
  have hlower : c.isLower = true ↔ 'a' ≤ c ∧ c ≤ 'z' :=
    Bool.and_eq_true_iff.trans (and_congr decide_eq_true_iff decide_eq_true_iff)
  show Letter c ↔ (c.isUpper || c.isLower || c == '_') = true
  rw [Bool.or_eq_true, Bool.or_eq_true, hupper, hlower, beq_iff_eq, or_assoc, Letter]

theorem letter_or_digit_iff : Letter c ∨ Digit c ↔ isIdentifierPart c = true := by
  have hdigit : c.isDigit = true ↔ Digit c :=
    Bool.and_eq_true_iff.trans (and_congr decide_eq_true_iff decide_eq_true_iff)
  show Letter c ∨ Digit c ↔ (c.isAlpha || c.isDigit || c == '_') = true
  rw [letter_iff, isIdentifierStart, ← hdigit, Bool.or_right_comm, Bool.or_eq_true (_ || _)]

theorem identifier_iff : Identifier t ↔ t.isIdentifier = true := by
  cases t with
  | nil => exact ⟨nofun, nofun⟩
  | cons c t =>
    rw [Text.isIdentifier, Bool.and_eq_true, List.all_eq_true, ← letter_iff]
    simp only [← letter_or_digit_iff]
    constructor
    · intro h
      cases h with
      | intro first rest => exact ⟨first, rest⟩
    · intro h
      exact .intro h.1 h.2

theorem Identifier.colon_notMem (h : Identifier t) : ':' ∉ t := by
  obtain ⟨first, rest⟩ := h
  intro hmem
  have hcolon : ¬(Letter ':' ∨ Digit ':') := by
    rw [letter_or_digit_iff]
    decide
  rcases List.mem_cons.mp hmem with rfl | hmem
  · exact hcolon (.inl first)
  · exact hcolon (rest _ hmem)

/-! ## Splits -/

/-- Another first character that starts no `::` moves the first one on by a place. -/
theorem CutsAtFirst.cons (hcolon : ¬[':', ':'] <+: c :: (segment ++ ':' :: ':' :: rest))
    (h : CutsAtFirst segment rest) : CutsAtFirst (c :: segment) rest := by
  intro shorter hbegins
  cases shorter with
  | nil => exact absurd hbegins hcolon
  | cons d shorter =>
    have hshorter := h shorter (List.cons_prefix_cons.mp hbegins).2
    simpa using hshorter

theorem CutsAtFirst.tail (h : CutsAtFirst (c :: segment) rest) : CutsAtFirst segment rest := by
  intro shorter hbegins
  have hlength := h (c :: shorter) (List.cons_prefix_cons.mpr ⟨rfl, hbegins⟩)
  simpa using hlength

/-- Where a path does not start with `::`, its first character goes to the first segment. -/
theorem namespaceSegments_cons (hcolon : ¬[':', ':'] <+: c :: t)
    (h : namespaceSegments t = segment :: segments) :
    namespaceSegments (c :: t) = (c :: segment) :: segments := by
  rw [namespaceSegments, h]
  rintro t rfl rfl
  exact hcolon (List.prefix_append [':', ':'] t)

theorem namespaceSegments_append (h : CutsAtFirst segment rest) :
    namespaceSegments (segment ++ ':' :: ':' :: rest) = segment :: namespaceSegments rest := by
  induction segment with
  | nil => rw [List.nil_append, namespaceSegments]
  | cons c segment ih =>
    -- with `::` in front, the first cut would come before that of the segment
    refine namespaceSegments_cons (fun hbegins => ?_) (ih h.tail)
    exact absurd (h [] hbegins) (by simp)

theorem namespaceSegments_of_whole (h : ¬[':', ':'] <:+: t) : namespaceSegments t = [t] := by
  induction t with
  | nil => rfl
  | cons c t ih =>
    rw [List.infix_cons_iff, not_or] at h
    exact namespaceSegments_cons h.1 (ih h.2)

/-- Another first character that starts no `::` lengthens the first segment. -/
theorem Splits.cons (hcolon : ¬[':', ':'] <+: c :: t) (h : Splits t (segment :: segments)) :
    Splits (c :: t) ((c :: segment) :: segments) := by
  cases h with
  | last whole => exact .last (by rw [List.infix_cons_iff, not_or]; exact ⟨hcolon, whole⟩)
  | cut first further =>
    have hcut := Splits.cut (first.cons hcolon) further
    exact hcut

theorem splits_namespaceSegments (path : Text) : Splits path (namespaceSegments path) := by
  induction path using namespaceSegments.induct with
  | case1 => exact .last (by decide)
  | case2 t ih =>
    rw [namespaceSegments]
    have first : CutsAtFirst [] t := fun _ _ => Nat.zero_le _
    have hcut := Splits.cut first ih
    exact hcut
  | case3 c t hcolon hnil ih => exact absurd hnil (namespaceSegments_ne_nil t)
  | case4 c t hcolon segment rest h ih =>
    have hstart : ¬[':', ':'] <+: c :: t := by
      rintro ⟨t', heq⟩
      obtain ⟨rfl, rfl⟩ := List.cons.inj heq
      exact hcolon t' rfl rfl
    rw [namespaceSegments_cons hstart h]
    exact (h ▸ ih).cons hstart

/-- The segments of a path are its only split. -/
theorem splits_iff : Splits path segments ↔ segments = namespaceSegments path := by
  constructor
  · intro h
    induction h with
    | last whole => exact (namespaceSegments_of_whole whole).symm
    | cut first further ih => rw [namespaceSegments_append first, ih]
  · rintro rfl
    exact splits_namespaceSegments path

/-! ## Paths -/

/-- An identifier has no colon, so nothing in it or at its end is cut off earlier. -/
theorem Identifier.cutsAtFirst (h : Identifier segment) : CutsAtFirst segment rest := by
  intro shorter hbegins
  -- a `::` that starts earlier has at least its first colon in the identifier
  by_contra hlength
  rw [Nat.not_le] at hlength
  have hmem : shorter ++ [':'] <+: segment := by
    refine List.prefix_of_prefix_length_le ?_ (List.prefix_append segment (':' :: ':' :: rest)) ?_
    · exact List.IsPrefix.trans ⟨[':'], by simp⟩ hbegins
    · simpa [Nat.succ_le_iff] using hlength
  exact h.colon_notMem (hmem.subset (by simp))

theorem Path.identifier_of_mem (h : Path path) (hmem : segment ∈ namespaceSegments path) :
    Identifier segment := by
  induction h with
  | single identifier =>
    rw [namespaceSegments_of_whole fun hcut =>
      identifier.colon_notMem (hcut.subset (by simp)), List.mem_singleton] at hmem
    exact hmem ▸ identifier
  | cons identifier rest ih =>
    rw [namespaceSegments_append identifier.cutsAtFirst] at hmem
    rcases List.mem_cons.mp hmem with rfl | hmem
    · exact identifier
    · exact ih hmem

theorem path_of_splits (h : Splits path segments)
    (hall : ∀ segment ∈ segments, Identifier segment) : Path path := by
  induction h with
  | last whole => exact .single (hall _ (List.mem_singleton_self _))
  | cut first further ih =>
    exact .cons (hall _ List.mem_cons_self) (ih fun _ hmem => hall _ (List.mem_cons_of_mem _ hmem))

/-- The accepted namespaces are the empty one and those of the grammar. -/
theorem namespaceFault?_eq_none_iff_path : namespaceFault? path = none ↔ path = [] ∨ Path path := by
  rw [namespaceFault?_eq_none_iff]
  simp only [← identifier_iff]
  exact or_congr_right
    ⟨path_of_splits (splits_namespaceSegments path), fun h _ hmem => h.identifier_of_mem hmem⟩

/-- The fault names the first segment that is no identifier. -/
theorem namespaceFault?_eq_some_iff {fault : NamespaceFault} :
    namespaceFault? path = some fault ↔
      path ≠ [] ∧ ∃ segment, FirstBad path segment ∧ fault = ⟨path, segment⟩ := by
  by_cases hpath : path = []
  · simp [namespaceFault?, hpath]
  · simp only [namespaceFault?, hpath, if_false, Option.map_eq_some_iff,
      List.find?_eq_some_iff_append, FirstBad, splits_iff, identifier_iff, ne_eq, not_false_eq_true,
      true_and]
    constructor
    · rintro ⟨segment, ⟨hbad, before, after, hsegments, hbefore⟩, rfl⟩
      exact ⟨segment, ⟨before, after, hsegments.symm, by simpa using hbefore, by simpa using hbad⟩,
        rfl⟩
    · rintro ⟨segment, ⟨before, after, hsegments, hbefore, hbad⟩, rfl⟩
      exact ⟨segment, ⟨by simpa using hbad, before, after, hsegments.symm, by simpa using hbefore⟩,
        rfl⟩

end NamespaceGrammar

/-! ## Settings from any reader -/

section

variable {read : SettingsReader} {t : FileTree} {p : Path}
  {o : CommandLine.Options} {s base : Settings}

theorem Settings.isValid_default : ({} : Settings).IsValid := by decide +kernel

/-- Whatever a reader makes of a text, its namespace is checked. -/
theorem Settings.isValid_of_bind_checked {r : Except SettingsFault Settings}
    (h : r.bind checked = .ok s) : s.IsValid := by
  obtain ⟨s', -, hchecked⟩ := Except.exists_of_bind_eq_ok h
  exact isValid_of_checked hchecked

theorem Run.isValid_of_settingsReadBy (h : settingsReadBy read t p = .ok s) : s.IsValid := by
  obtain ⟨text, -, hsettings⟩ := Except.exists_of_bind_eq_ok h
  exact Settings.isValid_of_bind_checked (Except.eq_ok_of_mapError_eq_ok hsettings)

/-- The namespace of the arguments is checked where it replaces one that was. -/
theorem CommandLine.isValid_of_withNamespace (hbase : base.IsValid) {path : Option Text}
    (h : withNamespace base path = .ok s) : s.IsValid := by
  cases path with
  | none => exact Except.ok.inj h ▸ hbase
  | some path =>
    rw [withNamespace] at h
    split at h
    · cases h
    · next hnone => exact Except.ok.inj h ▸ hnone

theorem CommandLine.isValid_of_settingsReadBy (h : settingsReadBy read t o = .ok s) :
    s.IsValid := by
  obtain ⟨base, hbase, hnamespace⟩ := Except.exists_of_bind_eq_ok h
  refine isValid_of_withNamespace ?_ hnamespace
  replace hbase := Except.eq_ok_of_mapError_eq_ok hbase
  rw [baseSettings] at hbase
  split at hbase
  · exact Run.isValid_of_settingsReadBy hbase
  · exact Except.ok.inj hbase ▸ Settings.isValid_default

end

/-- The check accepts the empty path and those of the grammar, and where it does not, its wording
    names the first segment that is no identifier. Settings that are loaded or resolved have an
    accepted namespace, whatever reads the settings file; the program's runs are those with its own
    reader. -/
theorem accepted_namespaces :
    (∀ path, namespaceFault? path = none ↔ path = [] ∨ NamespaceGrammar.Path path) ∧
    (∀ path fault, namespaceFault? path = some fault ↔
      path ≠ [] ∧ ∃ segment, NamespaceGrammar.FirstBad path segment ∧ fault = ⟨path, segment⟩ ∧
        fault.message = "namespace '" ++ path ++ "' has invalid segment '" ++ segment ++ "'") ∧
    (∀ read t p settings, Run.settingsReadBy read t p = .ok settings →
      namespaceFault? settings.namespacePath = none) ∧
    (∀ read t o settings, CommandLine.settingsReadBy read t o = .ok settings →
      namespaceFault? settings.namespacePath = none) ∧
    (∀ p (w : Workspace),
      (w.run (Run.loadSettings p)).1 = Run.settingsReadBy Settings.unchecked w.files p) ∧
    ∀ o (w : Workspace), ((CommandLine.resolveSettings o :
        ExceptT CommandLine.Refusal Session Settings).run w).1 =
      CommandLine.settingsReadBy Settings.unchecked w.files o := by
  refine ⟨fun _ => NamespaceGrammar.namespaceFault?_eq_none_iff_path, fun path fault => ?_,
    fun _ _ _ _ => Run.isValid_of_settingsReadBy,
    fun _ _ _ _ => CommandLine.isValid_of_settingsReadBy, fun p w => ?_, fun o w => ?_⟩
  · rw [NamespaceGrammar.namespaceFault?_eq_some_iff]
    refine and_congr_right fun _ => exists_congr fun segment => and_congr_right fun _ => ?_
    exact ⟨fun h => ⟨h, h ▸ rfl⟩, And.left⟩
  · rw [Run.loadSettings, Run.run_loadSettingsBy]
    cases Run.settingsReadBy Settings.unchecked w.files p <;> rfl
  · rw [CommandLine.resolveSettings, CommandLine.run_resolveSettingsBy]

/-- A workspace with one settings file. -/
def settingsWorkspace : Workspace :=
  { files := ({} : FileTree).insert ["t"]
      (.file (Text.ofString "namespace = \"A::B\"").toUtf8) }

/-- The arguments that name it, with a namespace over that of the file. -/
def settingsOptions : CommandLine.Options where
  input := ⟨"s"⟩
  outputDir := ⟨"out"⟩
  namespacePath := some "C::_1"
  settingsFile := some ⟨"t"⟩

/-- A path with three colons is none of the grammar and its second segment is the first bad one.
    There the file gives its namespace and the arguments replace it, both accepted. -/
theorem accepted_namespaces_settings :
    ¬NamespaceGrammar.Path "a:::b:" ∧ NamespaceGrammar.FirstBad "a:::b:" ":b:" ∧
    (settingsWorkspace.run (Run.loadSettings ⟨"t"⟩)).1 = .ok { namespacePath := "A::B" } ∧
    namespaceFault? "A::B" = none ∧
    ((CommandLine.resolveSettings settingsOptions :
        ExceptT CommandLine.Refusal Session Settings).run settingsWorkspace).1 =
      .ok { namespacePath := "C::_1" } ∧
    namespaceFault? "C::_1" = none := by
  obtain ⟨haccepted, hfault, hloaded, hresolved, hload, hresolve⟩ := accepted_namespaces
  have hbad : namespaceFault? "a:::b:" = some ⟨"a:::b:", ":b:"⟩ := by decide +kernel
  obtain ⟨hne, segment, hfirst, heq, -⟩ := (hfault _ _).mp hbad
  obtain rfl : ":b:" = segment := congrArg NamespaceFault.segment heq
  have hfile : Run.settingsReadBy Settings.unchecked settingsWorkspace.files ⟨"t"⟩ =
      .ok { namespacePath := "A::B" } := by decide +kernel
  have harguments : CommandLine.settingsReadBy Settings.unchecked settingsWorkspace.files
      settingsOptions = .ok { namespacePath := "C::_1" } := by decide +kernel
  refine ⟨fun hpath => ?_, hfirst, (hload _ _).trans hfile, hloaded _ _ _ _ hfile,
    (hresolve _ _).trans harguments, hresolved _ _ _ _ harguments⟩
  rw [(haccepted _).mpr (.inr hpath)] at hbad
  cases hbad

end ShaderVariants
