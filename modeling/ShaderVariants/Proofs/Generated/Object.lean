import Mathlib.Data.List.Nodup
import ShaderVariants.Proofs.Generated.Files

/-!
# The object of the class

An object of the class stands for a variant: its mask is the variant's mask, and each
constant is the mask of its toggle. A new object stands for the empty variant, a setter
goes on to the variant with its toggle set, and the getters answer for the variant.
-/

namespace ShaderVariants

open Cpp

/-- What is found is the one member of the list that there is to find. -/
theorem find?_eq_some_of_forall {α : Type} {p : α → Bool} {l : List α} {a : α} (hmem : a ∈ l)
    (ha : p a = true) (h : ∀ b ∈ l, p b = true → b = a) : l.find? p = some a := by
  cases hfind : l.find? p with
  | none => exact absurd ha (by simp [List.find?_eq_none.1 hfind a hmem])
  | some b => rw [h b (List.mem_of_find?_eq_some hfind) (List.find?_some hfind)]

variable {s : VariantShader} {t : Toggle} {v : Variant} {object : Store}

/-! ## Looking members up -/

namespace Header

/-- The members of the class are the labels and the declarations of the members. -/
theorem mem_configRecord {b : Cpp.Member} :
    b ∈ (configRecord s).members ↔
      (∃ access, b = .label access ∧ (access = "public" ∨ access = "private")) ∨
        ∃ m ∈ members s, b = m.asCpp := by
  simp only [configRecord, members, List.mem_cons, List.mem_append, List.mem_map]
  constructor
  · rintro (h | ⟨m, hm, rfl⟩ | h | ⟨m, hm, rfl⟩)
    · exact .inl ⟨_, h, .inl rfl⟩
    · exact .inr ⟨m, .inl hm, rfl⟩
    · exact .inl ⟨_, h, .inr rfl⟩
    · exact .inr ⟨m, .inr hm, rfl⟩
  · rintro (⟨access, rfl, rfl | rfl⟩ | ⟨m, hm | hm, rfl⟩)
    · exact .inl rfl
    · exact .inr (.inr (.inl rfl))
    · exact .inr (.inl ⟨m, hm, rfl⟩)
    · exact .inr (.inr (.inr ⟨m, hm, rfl⟩))

/-- The member that answers is the declaration of the one member with that name. -/
theorem find?_member {p : Cpp.Member → Bool} {m : Code.Member} (hm : m ∈ members s)
    (hlabel : ∀ access, p (.label access) = false) (hp : p m.asCpp = true)
    (h : ∀ m' ∈ members s, p m'.asCpp = true → m'.asCpp = m.asCpp) :
    (configRecord s).members.find? p = some m.asCpp := by
  refine find?_eq_some_of_forall (mem_configRecord.2 (.inr ⟨m, hm, rfl⟩)) hp ?_
  intro b hb hpb
  rcases mem_configRecord.1 hb with ⟨access, rfl, -⟩ | ⟨m', hm', rfl⟩
  · exact absurd hpb (by simp [hlabel])
  · exact h m' hm' hpb

theorem find?_setter (ht : t ∈ s.toggles) :
    (configRecord s).members.find? (Cpp.Member.defines .void (Code.Member.setterName t.accessor)) =
      some (Code.Member.setter t.accessor t.symbol).asCpp := by
  refine find?_member (mem_members_iff.2 (.inl ⟨t, ht, .inr (.inl rfl)⟩)) (fun _ => rfl) ?_ ?_
  · simp [Code.Member.asCpp, Cpp.Member.defines]
  · intro m _ hm
    cases m <;> simp [Code.Member.asCpp, Cpp.Member.defines] at hm ⊢
    exact hm

theorem find?_getter (ht : t ∈ s.toggles) :
    (configRecord s).members.find? (Cpp.Member.defines .bool (Code.Member.getterName t.accessor)) =
      some (Code.Member.getter t.accessor).asCpp := by
  refine find?_member (mem_members_iff.2 (.inl ⟨t, ht, .inr (.inr rfl)⟩)) (fun _ => rfl) ?_ ?_
  · simp [Code.Member.asCpp, Cpp.Member.defines]
  · intro m _ hm
    cases m <;> simp [Code.Member.asCpp, Cpp.Member.defines] at hm ⊢
    · exact hm
    · simp [Code.Member.getterName, Text.ofString_eq_toList] at hm

theorem find?_maskGetter (s : VariantShader) :
    (configRecord s).members.find? (Cpp.Member.defines .uint64 "GetMask") =
      some Code.Member.maskGetter.asCpp := by
  refine find?_member (mem_members_iff.2 (.inr (.inl rfl))) (fun _ => rfl) ?_ ?_
  · simp [Code.Member.asCpp, Cpp.Member.defines]
  · intro m _ hm
    cases m <;> simp [Code.Member.asCpp, Cpp.Member.defines] at hm ⊢

theorem find?_maskField (s : VariantShader) :
    (configRecord s).members.find? (Cpp.Member.binds "mask_") =
      some Code.Member.maskField.asCpp := by
  refine find?_member (mem_members_iff.2 (.inr (.inr (.inr (.inr rfl))))) (fun _ => rfl) ?_ ?_
  · simp [Code.Member.asCpp, Cpp.Member.binds]
  · intro m _ hm
    cases m <;> simp [Code.Member.asCpp, Cpp.Member.binds] at hm ⊢
    simp [Code.Member.bitName, Text.ofString_eq_toList] at hm

/-- No other toggle has a constant of that name. -/
theorem find?_bitConstant (h : s.IsSound) (ht : t ∈ s.toggles) :
    (configRecord s).members.find? (Cpp.Member.binds (Code.Member.bitName t.accessor)) =
      some (Code.Member.bitConstant t.accessor t.bit).asCpp := by
  refine find?_member (mem_members_iff.2 (.inl ⟨t, ht, .inl rfl⟩)) (fun _ => rfl) ?_ ?_
  · simp [Code.Member.asCpp, Cpp.Member.binds]
  · intro m hm hbinds
    rcases mem_members_iff.1 hm with
      ⟨u, hu, rfl | rfl | rfl⟩ | rfl | ⟨op, rfl⟩ | rfl | rfl <;>
        simp [Code.Member.asCpp, Cpp.Member.binds] at hbinds
    · rw [List.inj_on_of_nodup_map h.nodup_accessor hu ht hbinds]
    · simp [Code.Member.bitName, Text.ofString_eq_toList] at hbinds

/-- The generated class has no constructor of its own. -/
theorem initial_configRecord (s : VariantShader) :
    (configRecord s).initial = (configRecord s).initialValues := by
  have hnone : (configRecord s).members.findSome?
      (Cpp.Member.constructs? (configRecord s).name) = none := by
    rw [List.findSome?_eq_none_iff]
    intro b hb
    rcases mem_configRecord.1 hb with ⟨access, rfl, -⟩ | ⟨m, -, rfl⟩
    · rfl
    · cases m <;> rfl
  rw [Record.initial, hnone]

end Header

/-! ## Running members -/

open Code.Member Header

/-- The object stands for the variant. -/
structure Represents (s : VariantShader) (v : Variant) (object : Store) : Prop where
  mask : object ["mask_"] = some (.word v.mask)
  bit : ∀ t ∈ s.toggles, object [bitName t.accessor] = some (.word t.mask)

/-- A new object stands for the variant without a symbol. -/
theorem represents_initial (h : s.IsSound) : Represents s ∅ (configRecord s).initial where
  mask := by
    rw [initial_configRecord, Record.initialValues, find?_maskField]
    rfl
  bit t ht := by
    have hbit := h.bit_lt t ht
    have hnat : (BitVec.ofNat 64 t.bit).toNat = t.bit :=
      BitVec.toNat_ofNat _ _ ▸ Nat.mod_eq_of_lt (Nat.lt_trans hbit (by decide))
    rw [initial_configRecord, Record.initialValues, find?_bitConstant h ht]
    simp [asCpp, Cpp.Member.initial?, Expr.eval, Operator.apply, hnat, hbit, Toggle.mask,
      BitVec.twoPow_eq]

theorem bitName_ne_enabled (accessor : Text) : bitName accessor ≠ "enabled" := by
  simp [bitName, Text.ofString_eq_toList]

theorem bitName_ne_mask (accessor : Text) : bitName accessor ≠ "mask_" := by
  simp [bitName, Text.ofString_eq_toList]

/-- With another mask in its field the object stands for the variant of that mask. -/
theorem Represents.setMask (h : Represents s v object) (w : Variant) :
    Represents s w (object.set ["mask_"] (.word w.mask)) where
  mask := if_pos rfl
  bit t ht := by
    rw [Store.set, if_neg (by simp [bitName_ne_mask])]
    exact h.bit t ht

/-- A setter changes the mask as the variant does. -/
theorem Represents.set (h : Represents s v object) (ht : t ∈ s.toggles) (enabled : Bool) :
    ∃ object', (configRecord s).set (setterName t.accessor) enabled object = some object' ∧
      Represents s (v.set t enabled) object' := by
  refine ⟨_, ?_, h.setMask (v.set t enabled)⟩
  have hmask := h.mask
  have hbit := h.bit t ht
  rw [Record.set, find?_setter ht]
  cases enabled
  all_goals
    simp [asCpp, runBody, Stmt.exec, Assignment.exec, Expr.eval, Frame.read, Frame.write,
      Store.set, Store.empty, AssignOp.apply, bitName_ne_enabled, hmask, hbit, Variant.set]

theorem Represents.setAll (h : Represents s v object) {calls : List (Toggle × Bool)}
    (hcalls : ∀ call ∈ calls, call.1 ∈ s.toggles) :
    ∃ object', (configRecord s).setAll
        (calls.map fun call => (setterName call.1.accessor, call.2)) object = some object' ∧
      Represents s (calls.foldl (fun v call => v.set call.1 call.2) v) object' := by
  induction calls generalizing v object with
  | nil => exact ⟨object, rfl, h⟩
  | cons call calls ih =>
    obtain ⟨object₁, hset, h₁⟩ := h.set (hcalls call List.mem_cons_self) call.2
    obtain ⟨object₂, hrest, h₂⟩ := ih h₁ fun c hc => hcalls c (List.mem_cons_of_mem call hc)
    refine ⟨object₂, ?_, h₂⟩
    rw [List.map_cons, Record.setAll, hset]
    exact hrest

theorem Represents.getMask (h : Represents s v object) :
    (configRecord s).get .uint64 "GetMask" object = some (.word v.mask) := by
  rw [Record.get, find?_maskGetter]
  simp [asCpp, runBody, Expr.eval, Frame.read, Store.empty, h.mask]

theorem Represents.get (h : Represents s v object) (ht : t ∈ s.toggles) :
    (configRecord s).get .bool (getterName t.accessor) object = some (.truth (v.get t)) := by
  have hmask := h.mask
  have hbit := h.bit t ht
  rw [Record.get, find?_getter ht]
  simp [asCpp, runBody, Expr.eval, Frame.read, Store.empty, Operator.apply, hmask, hbit,
    Variant.get]

end ShaderVariants
