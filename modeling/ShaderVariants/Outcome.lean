import ShaderVariants.Event

/-!
# Outcomes

What a pure step of a run comes to: a value or a fault, and what it told the log
on the way. The events of a step that fails are kept.
-/

namespace ShaderVariants

/-- A value or a fault, and the events on the way to it. -/
structure Outcome (ε α : Type) where
  /-- The events, first event first. -/
  events : List Event := []
  result : Except ε α

namespace Outcome

variable {ε δ α β : Type}

/-- The outcome with events before its own. -/
def after (earlier : List Event) (o : Outcome ε α) : Outcome ε α :=
  ⟨earlier ++ o.events, o.result⟩

/-- The outcome with its value changed. -/
def map (f : α → β) (o : Outcome ε α) : Outcome ε β := ⟨o.events, o.result.map f⟩

/-- The outcome with its fault changed. -/
def mapFault (f : ε → δ) (o : Outcome ε α) : Outcome δ α := ⟨o.events, o.result.mapError f⟩

/-- Goes on from the value, if there is one; the events add up. -/
def andThen (o : Outcome ε α) (next : α → Outcome ε β) : Outcome ε β :=
  match o.result with
  | .ok a => (next a).after o.events
  | .error e => ⟨o.events, .error e⟩

@[simp] theorem result_after (earlier : List Event) (o : Outcome ε α) :
    (o.after earlier).result = o.result := rfl

@[simp] theorem result_map (f : α → β) (o : Outcome ε α) :
    (o.map f).result = o.result.map f := rfl

@[simp] theorem result_mapFault (f : ε → δ) (o : Outcome ε α) :
    (o.mapFault f).result = o.result.mapError f := rfl

@[simp] theorem result_andThen (o : Outcome ε α) (next : α → Outcome ε β) :
    (o.andThen next).result = o.result.bind fun a => (next a).result := by
  unfold andThen
  cases o.result <;> rfl

theorem exists_of_map_eq_ok {o : Outcome ε α} {f : α → β} {b : β}
    (h : (o.map f).result = .ok b) : ∃ a, o.result = .ok a ∧ f a = b := by
  rw [result_map] at h
  cases hresult : o.result with
  | error e =>
    rw [hresult] at h
    change Except.error e = Except.ok b at h
    cases h
  | ok a =>
    rw [hresult] at h
    exact ⟨a, rfl, Except.ok.inj h⟩

theorem result_of_mapFault_eq_ok {o : Outcome ε α} {f : ε → δ} {a : α}
    (h : (o.mapFault f).result = .ok a) : o.result = .ok a := by
  rw [result_mapFault] at h
  cases hresult : o.result with
  | error e =>
    rw [hresult] at h
    change Except.error (f e) = Except.ok a at h
    cases h
  | ok b =>
    rw [hresult] at h
    exact congrArg Except.ok (Except.ok.inj h)

theorem exists_of_andThen_eq_ok {o : Outcome ε α} {next : α → Outcome ε β} {b : β}
    (h : (o.andThen next).result = .ok b) :
    ∃ a, o.result = .ok a ∧ (next a).result = .ok b := by
  rw [result_andThen] at h
  cases hresult : o.result with
  | error e =>
    rw [hresult] at h
    change Except.error e = Except.ok b at h
    cases h
  | ok a =>
    rw [hresult] at h
    exact ⟨a, rfl, h⟩

/-- What a computed outcome shows of its value. -/
theorem exists_of_toOption_map_eq_some {o : Outcome ε α} {f : α → β} {b : β}
    (h : o.result.toOption.map f = some b) : ∃ a, o.result = .ok a ∧ f a = b := by
  cases hresult : o.result with
  | error e =>
    rw [hresult] at h
    exact absurd h (Option.some_ne_none b).symm
  | ok a =>
    rw [hresult] at h
    exact ⟨a, rfl, Option.some.inj h⟩

end Outcome

end ShaderVariants
