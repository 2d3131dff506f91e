import ShaderVariants.Proofs.BodyStatements

/-!
# Pieces of a text

A text that is too long for one literal is cut as far on as the limit allows: the cut goes back,
byte by byte, to where a character ends, and what is left is cut in the same way. Here these two
loops are stated by themselves, on the bytes of the text. No character has more than four bytes,
so a limit of four or more ends both, and the pieces are those of the greedy packing.
-/

namespace ShaderVariants

/-! ## The first group of a packing -/

namespace Packing

variable {α : Type} {weight : α → Nat} {limit : Nat}

/-- What joins a group is as much as it has room for, and the rest is packed anew. -/
theorem exists_fill_eq (weight : α → Nat) (limit room : Nat) (l : List α) :
    ∃ joined rest, l = joined ++ rest ∧
      fill weight limit room l = (joined, pack weight limit rest) ∧
      total weight joined ≤ room ∧ ∀ b ∈ rest.head?, room < total weight joined + weight b := by
  induction l generalizing room with
  | nil => exact ⟨[], [], rfl, rfl, Nat.zero_le room, nofun⟩
  | cons a l ih =>
    by_cases ha : weight a ≤ room
    · obtain ⟨joined, rest, rfl, hfill, hroom, hnext⟩ := ih (room - weight a)
      refine ⟨a :: joined, rest, rfl, ?_, ?_, ?_⟩
      · simp [fill, ha, hfill]
      · rw [total_cons]
        omega
      · intro b hb
        have := hnext b hb
        rw [total_cons]
        omega
    · refine ⟨[], a :: l, rfl, ?_, Nat.zero_le room, ?_⟩
      · simp [fill, pack, ha]
      · intro b hb
        obtain rfl : a = b := by simpa using hb
        simpa using ha

theorem exists_pack_cons_eq {a : α} (ha : weight a ≤ limit) (l : List α) :
    ∃ joined rest, l = joined ++ rest ∧
      pack weight limit (a :: l) = (a :: joined) :: pack weight limit rest ∧
      total weight (a :: joined) ≤ limit ∧
      ∀ b ∈ rest.head?, limit < total weight (a :: joined) + weight b := by
  obtain ⟨joined, rest, rfl, hfill, hroom, hnext⟩ :=
    exists_fill_eq weight limit (limit - weight a) l
  refine ⟨joined, rest, rfl, ?_, ?_, ?_⟩
  · rw [pack, hfill]
  · rw [total_cons]
    omega
  · intro b hb
    have := hnext b hb
    rw [total_cons]
    omega

end Packing

namespace Text

variable {limit n m : Nat} {t head head' tail piece : Text} {l l' : List Text}

/-! ## Bytes of characters -/

theorem utf8Size_eq_zero_iff : t.utf8Size = 0 ↔ t = [] := by
  cases t with
  | nil => simp
  | cons c t =>
    have := c.utf8Size_pos
    simp only [utf8Size_cons, reduceCtorEq, iff_false]
    omega

/-- Of two beginnings of a text the one with fewer bytes begins the other. -/
theorem prefix_of_utf8Size_le (h : head <+: t) (h' : head' <+: t)
    (hsize : head.utf8Size ≤ head'.utf8Size) : head <+: head' := by
  rcases List.prefix_or_prefix_of_prefix h h' with hpre | ⟨rest, rfl⟩
  · exact hpre
  · rw [utf8Size_append] at hsize
    obtain rfl : rest = [] := utf8Size_eq_zero_iff.1 (by omega)
    simp

/-- A character of the text ends behind its first `n` bytes, or `n` is zero. -/
def IsBoundary (t : Text) (n : Nat) : Prop := ∃ head : Text, head <+: t ∧ head.utf8Size = n

/-- No character ends inside the next one. -/
theorem not_isBoundary {c : Char} (hlow : head.utf8Size < n)
    (hhigh : n < head.utf8Size + c.utf8Size) : ¬IsBoundary (head ++ c :: tail) n := by
  rintro ⟨longer, hpre, rfl⟩
  obtain ⟨rest, rfl⟩ := prefix_of_utf8Size_le (List.prefix_append head (c :: tail)) hpre hlow.le
  rw [List.prefix_append_right_inj] at hpre
  cases rest with
  | nil => simp at hlow
  | cons d rest =>
    obtain ⟨rfl, -⟩ := List.cons_prefix_cons.1 hpre
    simp only [utf8Size_append, utf8Size_cons] at hhigh
    omega

/-! ## The two loops -/

/-- Going back from byte `n` of the text, one byte at a time, stops at the boundary `m`. -/
inductive StepsBack (t : Text) : Nat → Nat → Prop
  | stop {n : Nat} (h : IsBoundary t n) : StepsBack t n n
  | back {n m : Nat} (h : ¬IsBoundary t (n + 1)) (hback : StepsBack t n m) : StepsBack t (n + 1) m

/-- Cutting the text, `limit` bytes on and back to a boundary while more than `limit` bytes are
    left, ends with these pieces. -/
inductive CutInto (limit : Nat) : Text → List Text → Prop
  | rest {t : Text} (h : t.utf8Size ≤ limit) : CutInto limit t [t]
  | piece {head tail : Text} {later : List Text} (h : limit < (head ++ tail).utf8Size)
      (hback : StepsBack (head ++ tail) limit head.utf8Size) (hlater : CutInto limit tail later) :
      CutInto limit (head ++ tail) (head :: later)

/-- The way back stops at the last boundary. -/
theorem stepsBack_iff :
    StepsBack t n m ↔ m ≤ n ∧ IsBoundary t m ∧ ∀ k, m < k → k ≤ n → ¬IsBoundary t k := by
  constructor
  · intro h
    induction h with
    | stop h => exact ⟨le_rfl, h, fun k hlow hhigh => absurd hhigh (by omega)⟩
    | @back n m h _ ih =>
      obtain ⟨hle, hm, hnone⟩ := ih
      refine ⟨by omega, hm, ?_⟩
      intro k hlow hhigh
      rcases Nat.le_succ_iff.1 hhigh with hk | rfl
      · exact hnone k hlow hk
      · exact h
  · rintro ⟨hle, hm, hnone⟩
    induction n with
    | zero =>
      obtain rfl : m = 0 := by omega
      exact .stop hm
    | succ n ih =>
      rcases Nat.le_succ_iff.1 hle with hle | rfl
      · refine .back (hnone (n + 1) (by omega) le_rfl) (ih hle ?_)
        intro k hlow hhigh
        exact hnone k hlow (by omega)
      · exact .stop hm

theorem StepsBack.unique {m' : Nat} (h : StepsBack t n m) (h' : StepsBack t n m') : m = m' := by
  obtain ⟨hle, hm, hnone⟩ := stepsBack_iff.1 h
  obtain ⟨hle', hm', hnone'⟩ := stepsBack_iff.1 h'
  rcases Nat.lt_trichotomy m m' with hlt | heq | hlt
  · exact absurd hm' (hnone m' hlt hle')
  · exact heq
  · exact absurd hm (hnone' m hlt hle)

theorem CutInto.unique (h : CutInto limit t l) (h' : CutInto limit t l') : l = l' := by
  induction h generalizing l' with
  | @rest t hsize =>
    cases h' with
    | rest => rfl
    | piece hmore => exact absurd hsize (by omega)
  | @piece head tail later hmore hback _ ih =>
    generalize ht : head ++ tail = t at h' hmore hback
    cases h' with
    | rest hsize => exact absurd hsize (by omega)
    | @piece head' tail' later' _ hback' hlater' =>
      have hsize : head.utf8Size = head'.utf8Size := hback.unique hback'
      have hhead : head = head' := by
        apply (prefix_of_utf8Size_le ⟨tail, ht⟩ ⟨tail', rfl⟩ hsize.le).eq_of_length_le
        exact (prefix_of_utf8Size_le ⟨tail', rfl⟩ ⟨tail, ht⟩ hsize.ge).length_le
      subst hhead
      obtain rfl : tail = tail' := List.append_cancel_left ht
      rw [ih hlater']

/-! ## The pieces -/

theorem pieces_of_ne_nil (h : t ≠ []) :
    t.pieces limit = Packing.pack Char.utf8Size limit t := by
  unfold pieces
  split
  · next hnil => exact absurd (Packing.pack_eq_nil_iff.1 hnil) h
  · rfl

theorem pieces_of_utf8Size_le (h : t.utf8Size ≤ limit) : t.pieces limit = [t] := by
  by_cases ht : t = []
  · subst ht
    rfl
  · rw [pieces_of_ne_nil ht]
    exact Packing.pack_of_total_le ht h

/-- The first piece of a text that is too long, and the character that it has no room for. -/
theorem exists_pieces_eq_cons (hlimit : 4 ≤ limit) (h : limit < t.utf8Size) :
    ∃ (head : Text) (c : Char) (tail : Text), t = head ++ c :: tail ∧ head ≠ [] ∧
      head.utf8Size ≤ limit ∧ limit < head.utf8Size + c.utf8Size ∧
      t.pieces limit = head :: pieces limit (c :: tail) := by
  cases t with
  | nil => exact absurd h (by simp)
  | cons a t =>
    have ha : a.utf8Size ≤ limit := a.utf8Size_le_four.trans hlimit
    obtain ⟨joined, rest, rfl, hpack, hle, hnext⟩ := Packing.exists_pack_cons_eq ha t
    cases rest with
    | nil =>
      rw [List.append_nil] at h
      exact absurd h (Nat.not_lt.2 hle)
    | cons c tail =>
      refine ⟨a :: joined, c, tail, rfl, List.cons_ne_nil a joined, hle, hnext c rfl, ?_⟩
      rw [pieces_of_ne_nil (List.cons_ne_nil a _), pieces_of_ne_nil (List.cons_ne_nil c tail),
        hpack]

/-- Cutting comes to an end, with the pieces. -/
theorem cutInto_pieces (hlimit : 4 ≤ limit) (t : Text) : CutInto limit t (t.pieces limit) := by
  -- each piece has a character, so what is left is shorter
  induction hlength : t.length using Nat.strong_induction_on generalizing t with
  | _ length ih =>
    by_cases hsize : t.utf8Size ≤ limit
    · rw [pieces_of_utf8Size_le hsize]
      exact .rest hsize
    · obtain ⟨head, c, tail, rfl, hne, hle, hnext, hpieces⟩ :=
        exists_pieces_eq_cons hlimit (Nat.not_le.1 hsize)
      rw [hpieces]
      refine .piece (Nat.not_le.1 hsize) (stepsBack_iff.2 ⟨hle, ?_, ?_⟩) (ih _ ?_ _ rfl)
      · exact ⟨head, List.prefix_append head _, rfl⟩
      · intro k hlow hhigh
        exact not_isBoundary hlow (by omega)
      · have := List.length_pos_iff.2 hne
        rw [← hlength, List.length_append]
        omega

theorem cutInto_iff (hlimit : 4 ≤ limit) : CutInto limit t l ↔ l = t.pieces limit := by
  constructor
  · intro h
    exact h.unique (cutInto_pieces hlimit t)
  · rintro rfl
    exact cutInto_pieces hlimit t

theorem CutInto.ne_nil (h : CutInto limit t l) : l ≠ [] := by
  cases h with
  | rest => exact List.cons_ne_nil _ _
  | piece => exact List.cons_ne_nil _ _

/-- A piece with another one behind it leaves less than four bytes of its room. -/
theorem CutInto.lt_utf8Size (h : CutInto limit t l) :
    ∀ piece ∈ l.dropLast, limit < piece.utf8Size + 4 := by
  induction h with
  | rest => simp
  | @piece head tail later hmore hback hlater ih =>
    obtain ⟨hle, -, hnone⟩ := stepsBack_iff.1 hback
    rw [List.dropLast_cons_of_ne_nil hlater.ne_nil]
    intro piece hpiece
    rcases List.mem_cons.1 hpiece with rfl | hpiece
    · cases tail with
      | nil =>
        rw [List.append_nil] at hmore
        omega
      | cons c tail =>
        -- behind the next character there is a boundary, so it is out of reach
        have hnext : IsBoundary (piece ++ c :: tail) (piece.utf8Size + c.utf8Size) :=
          ⟨piece ++ [c], by simp, by simp⟩
        have hpos := c.utf8Size_pos
        have hfour := c.utf8Size_le_four
        by_contra hroom
        exact hnone _ (by omega) (by omega) hnext
    · exact ih piece hpiece

theorem ne_nil_of_mem_pieces (ht : t ≠ []) (h : piece ∈ t.pieces limit) : piece ≠ [] := by
  rw [pieces_of_ne_nil ht] at h
  exact Packing.ne_nil_of_mem_pack h

/-- With a limit of four bytes or more, cutting a text comes to an end and gives these pieces and no
    others. There is at least one, together they are the text, and each is of whole characters and
    within the limit. Only the last may leave four bytes or more of its room, only the empty text
    has an empty piece, and a text within the limit is one piece. -/
theorem pieces_cut (hlimit : 4 ≤ limit) (t : Text) :
    (∀ l, CutInto limit t l ↔ l = t.pieces limit) ∧
    t.pieces limit ≠ [] ∧
    (t.pieces limit).flatten = t ∧
    (∀ piece ∈ t.pieces limit, piece.utf8Size ≤ limit) ∧
    (∀ piece ∈ (t.pieces limit).dropLast, limit < piece.utf8Size + 4) ∧
    (t ≠ [] → ∀ piece ∈ t.pieces limit, piece ≠ []) ∧
    (t.utf8Size ≤ limit → t.pieces limit = [t]) := by
  refine ⟨fun l => cutInto_iff hlimit, pieces_ne_nil limit t, flatten_pieces limit t,
    fun piece => utf8Size_le_of_mem_pieces hlimit, (cutInto_pieces hlimit t).lt_utf8Size, ?_,
    pieces_of_utf8Size_le⟩
  intro ht piece hpiece
  exact ne_nil_of_mem_pieces ht hpiece

/-- A character as wide as the limit stands alone, and the piece before it keeps three bytes
    free. -/
theorem pieces_cut_wide :
    CutInto 4 "a𝄞bc" ["a", "𝄞", "bc"] ∧
      (∀ piece ∈ (["a", "𝄞"] : List Text), 4 < piece.utf8Size + 4) ∧
      (∀ piece ∈ (["a", "𝄞", "bc"] : List Text), piece ≠ []) ∧
      pieces 4 "bc" = ["bc"] := by
  have hpieces : pieces 4 "a𝄞bc" = ["a", "𝄞", "bc"] := by decide +kernel
  obtain ⟨hcut, -, -, -, hroom, hne, -⟩ := pieces_cut le_rfl "a𝄞bc"
  obtain ⟨-, -, -, -, -, -, hwhole⟩ := pieces_cut le_rfl "bc"
  rw [hpieces] at hcut hroom hne
  exact ⟨(hcut _).2 rfl, hroom, hne (by decide +kernel), hwhole (by decide +kernel)⟩

end Text

end ShaderVariants
