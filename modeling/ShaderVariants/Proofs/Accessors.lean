import ShaderVariants.Proofs.Names

/-!
# Accessors

The accessor of a symbol is its name in Pascal case, with the bit behind it where an
earlier symbol has that name. While the symbols are bound, every name in use is without
an underscore or ends in a bit that is already bound; a new name is neither, so no two
accessors are the same.
-/

namespace ShaderVariants

theorem Text.decimal_inj {m n : Nat} : decimal m = decimal n ↔ m = n := by
  refine ⟨fun h => ?_, fun h => h ▸ rfl⟩
  have hvalue := congrArg (Nat.ofDigitChars 10 · 0) h
  simpa only [decimal, Nat.ofDigitChars_ten_toDigits] using hvalue

theorem Text.isDigit_of_mem_decimal {n : Nat} {c : Char} (h : c ∈ decimal n) : c.isDigit = true :=
  Nat.isDigit_of_mem_toDigits (by decide) (by decide) h

namespace Toggle

variable {bit m n : Nat} {taken l : List Text} {a b symbol : Text} {t : Toggle}

/-- A name with a bit behind it. -/
def numbered (base : Text) (bit : Nat) : Text := base ++ '_' :: Text.decimal bit

theorem numbered_inj (ha : '_' ∉ a) (h : numbered a m = numbered b n) : a = b ∧ m = n := by
  obtain ⟨hbase, -, hbit⟩ :=
    (List.append_cons_inj_of_notMem ha Nat.underscore_not_in_toDigits).1 h
  exact ⟨hbase, Text.decimal_inj.1 hbit⟩

/-- The accessor that the symbol at a bit gets where these names are taken. -/
def accessorAt (bit : Nat) (taken : List Text) (symbol : Text) : Text :=
  if accessorName symbol ∈ taken then numbered (accessorName symbol) bit else accessorName symbol

theorem bindFrom_cons (bit : Nat) (taken : List Text) (symbol : Text) (l : List Text) :
    bindFrom bit taken (symbol :: l) = ⟨symbol, accessorAt bit taken symbol, bit⟩ ::
      bindFrom (bit + 1) (accessorAt bit taken symbol :: taken) l := rfl

theorem accessorAt_eq (bit : Nat) (taken : List Text) (symbol : Text) :
    accessorAt bit taken symbol = accessorName symbol ∨
      accessorAt bit taken symbol = numbered (accessorName symbol) bit := by
  by_cases h : accessorName symbol ∈ taken
  · exact .inr (if_pos h)
  · exact .inl (if_neg h)

/-- An accessor is the name in Pascal case, alone or with the bit behind it. -/
theorem accessor_eq_of_mem_bindFrom (h : t ∈ bindFrom bit taken l) :
    t.accessor = accessorName t.symbol ∨ t.accessor = numbered (accessorName t.symbol) t.bit := by
  induction l generalizing bit taken with
  | nil => exact absurd h List.not_mem_nil
  | cons symbol l ih =>
    rw [bindFrom_cons] at h
    rcases List.mem_cons.1 h with rfl | h
    · exact accessorAt_eq bit taken symbol
    · exact ih h

/-! ## No accessor twice -/

/-- Every name in use is without an underscore or ends in a bit below `bit`. -/
def Settled (bit : Nat) (taken : List Text) : Prop :=
  ∀ name ∈ taken, '_' ∉ name ∨ ∃ base b, b < bit ∧ name = numbered base b

theorem Settled.nil : Settled bit [] := fun _ h => absurd h List.not_mem_nil

theorem Settled.cons (h : Settled bit taken) (symbol : Text) :
    Settled (bit + 1) (accessorAt bit taken symbol :: taken) := by
  have hplain := (isPascal_accessorName symbol).underscore_notMem
  intro name hname
  rcases List.mem_cons.1 hname with rfl | hname
  · rcases accessorAt_eq bit taken symbol with heq | heq
    · exact .inl (heq ▸ hplain)
    · exact .inr ⟨_, bit, Nat.lt_succ_self bit, heq⟩
  · refine (h name hname).imp_right ?_
    rintro ⟨base, b, hb, rfl⟩
    exact ⟨base, b, Nat.lt_succ_of_lt hb, rfl⟩

/-- A new accessor is not in use. -/
theorem Settled.accessorAt_notMem (h : Settled bit taken) (symbol : Text) :
    accessorAt bit taken symbol ∉ taken := by
  have hplain := (isPascal_accessorName symbol).underscore_notMem
  by_cases hmem : accessorName symbol ∈ taken
  · rw [accessorAt, if_pos hmem]
    intro hnumbered
    rcases h _ hnumbered with hnone | ⟨base, b, hb, heq⟩
    · exact hnone (List.mem_append_right _ List.mem_cons_self)
    · obtain ⟨-, rfl⟩ := numbered_inj hplain heq
      exact Nat.lt_irrefl bit hb
  · rwa [accessorAt, if_neg hmem]

theorem accessor_notMem_of_mem_bindFrom (hsettled : Settled bit taken)
    (h : t ∈ bindFrom bit taken l) : t.accessor ∉ taken := by
  induction l generalizing bit taken with
  | nil => exact absurd h List.not_mem_nil
  | cons symbol l ih =>
    rw [bindFrom_cons] at h
    rcases List.mem_cons.1 h with rfl | h
    · exact hsettled.accessorAt_notMem symbol
    · exact fun hmem => ih (hsettled.cons symbol) h (List.mem_cons_of_mem _ hmem)

theorem nodup_accessor_bindFrom (h : Settled bit taken) (l : List Text) :
    ((bindFrom bit taken l).map accessor).Nodup := by
  induction l generalizing bit taken with
  | nil => exact List.nodup_nil
  | cons symbol l ih =>
    rw [bindFrom_cons, List.map_cons, List.nodup_cons]
    refine ⟨fun hmem => ?_, ih (h.cons symbol)⟩
    obtain ⟨t, ht, heq⟩ := List.mem_map.1 hmem
    exact accessor_notMem_of_mem_bindFrom (h.cons symbol) ht (heq ▸ List.mem_cons_self)

/-- No two symbols have the same accessor. -/
theorem nodup_accessor_ofSymbols (s : Symbols) : ((ofSymbols s).map accessor).Nodup :=
  nodup_accessor_bindFrom Settled.nil s.names

theorem nodup_bit_ofSymbols (s : Symbols) : ((ofSymbols s).map Toggle.bit).Nodup := by
  rw [map_bit_ofSymbols]
  exact List.nodup_range'

theorem isIdentifierPart_of_mem_numbered (ha : ∀ c ∈ a, isIdentifierPart c = true) :
    ∀ c ∈ numbered a bit, isIdentifierPart c = true := by
  intro c hc
  rcases List.mem_append.1 hc with hc | hc
  · exact ha c hc
  · rcases List.mem_cons.1 hc with rfl | hc
    · decide
    · exact isIdentifierPart_of_isAlphanum
        (isAlphanum_of_isDigit (Text.isDigit_of_mem_decimal hc))

/-- An accessor is of characters of an identifier. -/
theorem isIdentifierPart_accessor {s : Symbols} (h : t ∈ ofSymbols s) :
    ∀ c ∈ t.accessor, isIdentifierPart c = true := by
  have hname := (isPascal_accessorName t.symbol).isIdentifierPart
  rcases accessor_eq_of_mem_bindFrom h with heq | heq
  · exact heq ▸ hname
  · exact heq ▸ isIdentifierPart_of_mem_numbered hname

end Toggle

end ShaderVariants
