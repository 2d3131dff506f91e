import ShaderVariants.Code.Frame
import ShaderVariants.Proofs.Cpp.Reading
import ShaderVariants.Proofs.Cpp.Spelling
import ShaderVariants.VariantShader

/-!
# The frame as C++

The banner and the lines outside the namespace spell nothing. A namespace that the
settings accept is a path of words, so what stands within it is read as its content.
-/

namespace ShaderVariants

open Cpp

/-! ## Paths -/

/-- A path with `::` between its parts. -/
def joinScope : List Text → Text
  | [] => []
  | first :: rest => first ++ rest.flatMap (':' :: ':' :: ·)

/-- A path is its segments with `::` between them. -/
theorem joinScope_namespaceSegments (path : Text) : joinScope (namespaceSegments path) = path := by
  induction path using namespaceSegments.induct with
  | case1 => rfl
  | case2 t ih =>
    rw [namespaceSegments]
    obtain ⟨first, rest, h⟩ := List.exists_cons_of_ne_nil (namespaceSegments_ne_nil t)
    rw [h] at ih ⊢
    rw [← ih]
    rfl
  | case3 c t hcolon hnil ih => exact absurd hnil (namespaceSegments_ne_nil t)
  | case4 c t hcolon segment rest h ih =>
    rw [namespaceSegments, h]
    · rw [h] at ih
      rw [← ih]
      rfl
    · exact hcolon

variable {path t : Text} {segments : List Text} {settings : Settings} {o rest : List Token}
  {α : Type}

def pathTokens : List Text → List Token
  | [] => []
  | [segment] => [.word segment]
  | segment :: rest => .word segment :: .mark "::" :: pathTokens rest

theorem isWhole_of_isIdentifier (h : t.isIdentifier = true) : IsWhole t := by
  cases t with
  | nil => exact absurd h Bool.false_ne_true
  | cons c t =>
    obtain ⟨hc, ht⟩ := Bool.and_eq_true_iff.1 h
    refine ⟨List.cons_ne_nil c t, fun d hd => ?_⟩
    rcases List.mem_cons.1 hd with rfl | hd
    · simp only [isIdentifierStart, isIdentifierPart, Char.isAlphanum, Bool.or_eq_true] at hc ⊢
      rcases hc with hc | hc
      · exact .inl (.inl hc)
      · exact .inr hc
    · exact List.all_eq_true.1 ht d hd

theorem isIdentifierPart_or_of_mem_joinScope (h : ∀ segment ∈ segments, IsWhole segment) :
    ∀ c ∈ joinScope segments, isIdentifierPart c = true ∨ c = ':' := by
  cases segments with
  | nil => exact fun c hc => absurd hc List.not_mem_nil
  | cons first rest =>
    intro c hc
    rcases List.mem_append.1 hc with hc | hc
    · exact .inl ((h first List.mem_cons_self).2 c hc)
    · obtain ⟨segment, hsegment, hc⟩ := List.mem_flatMap.1 hc
      simp only [List.mem_cons] at hc
      rcases hc with hc | hc | hc
      · exact .inr hc
      · exact .inr hc
      · exact .inl ((h segment (List.mem_cons_of_mem first hsegment)).2 c hc)

theorem spells_joinScope (hne : segments ≠ []) (h : ∀ segment ∈ segments, IsWhole segment)
    (ht : Ends t) (ho : Spells t o) :
    Spells (joinScope segments ++ t) (pathTokens segments ++ o) := by
  induction segments with
  | nil => exact absurd rfl hne
  | cons first rest ih =>
    have hfirst := h first List.mem_cons_self
    cases rest with
    | nil =>
      rw [joinScope, List.flatMap_nil, List.append_nil]
      exact ho.word hfirst ht
    | cons next rest =>
      have hrest := ih (List.cons_ne_nil next rest) fun s hs => h s (List.mem_cons_of_mem first hs)
      have hnext := h next (List.mem_cons_of_mem first List.mem_cons_self)
      have hbegins : ∃ c u, joinScope (next :: rest) ++ t = c :: u ∧ isIdentifierPart c = true := by
        obtain ⟨c, u, rfl⟩ := List.exists_cons_of_ne_nil hnext.1
        exact ⟨c, _, rfl, hnext.2 c List.mem_cons_self⟩
      have hpath := (hrest.scope hbegins).word hfirst ⟨':', _, rfl, by decide⟩
      simpa only [joinScope, pathTokens, List.flatMap_cons, List.append_assoc, List.cons_append]
        using hpath

theorem reads_path (hne : segments ≠ []) {m : Text} (hm : m ≠ "::") (rest : List Token) :
    Reader.path (pathTokens segments ++ .mark m :: rest) = some (segments, .mark m :: rest) := by
  induction segments with
  | nil => exact absurd rfl hne
  | cons first segments ih =>
    cases segments with
    | nil => simp [pathTokens, Reader.path, hm]
    | cons next segments =>
      simp [pathTokens, Reader.path, ih (List.cons_ne_nil next segments)]

/-! ## The namespace -/

namespace Settings

/-- The parts of the namespace, none where there is no namespace. -/
def scope (settings : Settings) : List Text :=
  if settings.namespacePath = [] then [] else namespaceSegments settings.namespacePath

/-- The tokens of a file with these tokens within the namespace. -/
def scopeTokens (settings : Settings) (tokens : List Token) : List Token :=
  if settings.namespacePath = [] then tokens
  else .word "namespace" :: (pathTokens (namespaceSegments settings.namespacePath) ++
    .mark "\x7b" :: (tokens ++ [.mark "\x7d"]))

theorem IsValid.isWhole (h : settings.IsValid) (hpath : settings.namespacePath ≠ []) :
    ∀ segment ∈ namespaceSegments settings.namespacePath, IsWhole segment := by
  rcases namespaceFault?_eq_none_iff.1 h with hnil | hsegments
  · exact absurd hnil hpath
  · exact fun segment hsegment => isWhole_of_isIdentifier (hsegments segment hsegment)

theorem reads_scoped {content : Reader α} {a : α}
    (hcontent : ∀ rest, content (o ++ rest) = some (a, rest))
    (ho : Reader.keyword "namespace" o = none) :
    Reader.scoped content (settings.scopeTokens o) = some ((settings.scope, a), []) := by
  by_cases hpath : settings.namespacePath = []
  · have hread := hcontent []
    rw [List.append_nil] at hread
    rw [scopeTokens, if_pos hpath, scope, if_pos hpath]
    simp [Reader.scoped, ho, hread]
  · have hsegments := namespaceSegments_ne_nil settings.namespacePath
    rw [scopeTokens, if_neg hpath, scope, if_neg hpath]
    simp [Reader.scoped, reads_path hsegments, hcontent]

end Settings

/-! ## The lines of a file -/

theorem forall_of_isIncludable (h : isIncludable t = true) : ∀ c ∈ t, breaksInclude c = false := by
  intro c hc
  simp only [isIncludable, Bool.not_eq_true', List.any_eq_false, Bool.not_eq_true] at h
  exact h c hc

theorem notMem_of_isIncludable {c : Char} (h : isIncludable t = true)
    (hc : breaksInclude c = true) : c ∉ t := by
  intro hmem
  exact Bool.false_ne_true ((forall_of_isIncludable h c hmem).symm.trans hc)

/-- The name of a source may stand in a comment. -/
theorem spells_banner {fileName : Text} (h : isIncludable fileName = true) (settings : Settings) :
    Spells (Text.unlines (Code.bannerLines settings fileName)) [] := by
  by_cases hbanner : settings.banner = true
  · have hwarning : Spells ("// GENERATED FILE - DO NOT EDIT" ++ ['\n']) [] := by
      rw [Text.ofString_ofList]
      exact (rfl : run _ _ = _)
    have hgenerator : Spells ("// Generator: shader-gen" ++ '\n' :: ['\n']) [] := by
      rw [Text.ofString_ofList]
      exact (rfl : run _ _ = _)
    have hopen : run .blank "// Source: " = ([], .skip) := by
      rw [Text.ofString_ofList]
      rfl
    have hlast : fileName.getLast? ≠ some '\\' := fun heq =>
      notMem_of_isIncludable h (by decide) (List.mem_of_getLast? heq)
    have hsource := Spells.skipped hopen (notMem_of_isIncludable h (by decide)) hlast
    simpa only [Code.bannerLines, hbanner, if_true, Text.unlines_cons, Text.unlines_nil,
      List.append_assoc, List.cons_append, List.nil_append] using
      hwarning.append (hsource.append hgenerator)
  · rw [Code.bannerLines, if_neg hbanner]
    exact Spells.nil

theorem spells_frame {fileName : Text} {outside inside : List Text} (hvalid : settings.IsValid)
    (hname : isIncludable fileName = true) (houtside : Spells (Text.unlines outside) [])
    (hinside : Spells (Text.unlines inside) o) :
    Spells (Text.unlines (Code.frameLines settings fileName outside inside))
      (settings.scopeTokens o) := by
  have habove := (spells_banner hname settings).append houtside
  by_cases hpath : settings.namespacePath = []
  · simpa only [Code.frameLines, Code.openingLines, Code.closingLines, Settings.scopeTokens,
      if_pos hpath, Text.unlines_append, Text.unlines_nil, List.append_nil, List.nil_append] using
      habove.append hinside
  · have hsegments := hvalid.isWhole hpath
    have hjoin := joinScope_namespaceSegments settings.namespacePath
    have hopen : Spells "namespace " [.word "namespace"] := by
      repeat rw [Text.ofString_ofList]
      exact (rfl : run _ _ = _)
    have hbrace : Spells (" \x7b" ++ '\n' :: ['\n']) [.mark "\x7b"] := by
      repeat rw [Text.ofString_ofList]
      exact (rfl : run _ _ = _)
    have hclose : Spells ('\n' :: "\x7d ") [.mark "\x7d"] := by
      repeat rw [Text.ofString_ofList]
      exact (rfl : run _ _ = _)
    have hcut : ("\x7d // namespace " : Text) = "\x7d " ++ "// namespace " := by
      repeat rw [Text.ofString_ofList]
      rfl
    have hcomment : run .blank "// namespace " = ([], .skip) := by
      rw [Text.ofString_ofList]
      rfl
    have hchars := isIdentifierPart_or_of_mem_joinScope hsegments
    rw [hjoin] at hchars
    have hnewline : '\n' ∉ settings.namespacePath := fun hmem =>
      absurd (hchars '\n' hmem) (by decide)
    have hlast : settings.namespacePath.getLast? ≠ some '\\' := fun heq =>
      absurd (hchars '\\' (List.mem_of_getLast? heq)) (by decide)
    have hbelow := hclose.append (Spells.skipped hcomment hnewline hlast)
    have hscope := spells_joinScope (namespaceSegments_ne_nil _) hsegments
      (((ends_fixed rfl rfl).append _).append _) (hbrace.append (hinside.append hbelow))
    rw [hjoin] at hscope
    simpa only [Code.frameLines, Code.openingLines, Code.closingLines, Settings.scopeTokens,
      if_neg hpath, hcut, Text.unlines_append, Text.unlines_cons, Text.unlines_nil,
      List.append_assoc, List.cons_append, List.nil_append, List.append_nil] using
      habove.append (hopen.append hscope)

end ShaderVariants
