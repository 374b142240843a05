/-!
# Outcomes without their errors

A reader either gives a value or says why it does not.  Where only the value
matters, its outcome is viewed as an option, and the lemmas below carry the
view through the ways in which outcomes are put together.  Where a value was
given, they take it apart into the values of the parts.
-/

namespace Except

variable {ε ε' α β : Type}

@[simp]
theorem toOption_ok (value : α) : (Except.ok value : Except ε α).toOption = some value :=
  rfl

@[simp]
theorem toOption_error (error : ε) : (Except.error error : Except ε α).toOption = none :=
  rfl

@[simp]
theorem toOption_bind (outcome : Except ε α) (next : α → Except ε β) :
    (outcome >>= next).toOption = outcome.toOption.bind fun value => (next value).toOption := by
  cases outcome <;> rfl

@[simp]
theorem toOption_map (outcome : Except ε α) (f : α → β) :
    (outcome.map f).toOption = outcome.toOption.map f := by
  cases outcome <;> rfl

@[simp]
theorem toOption_mapError (outcome : Except ε α) (f : ε → ε') :
    (outcome.mapError f).toOption = outcome.toOption := by
  cases outcome <;> rfl

theorem toOption_eq_some_iff {outcome : Except ε α} {value : α} :
    outcome.toOption = some value ↔ outcome = .ok value := by
  cases outcome <;> simp

theorem isSome_toOption_iff {outcome : Except ε α} :
    outcome.toOption.isSome = true ↔ ∃ value, outcome = .ok value := by
  simp only [Option.isSome_iff_exists, toOption_eq_some_iff]

theorem toOption_map_eq_some_iff {outcome : Except ε α} {f : α → β} {value : β} :
    outcome.toOption.map f = some value ↔ ∃ item, outcome = .ok item ∧ f item = value := by
  simp only [Option.map_eq_some_iff, toOption_eq_some_iff]

theorem map_eq_ok {outcome : Except ε α} {f : α → β} {value : β}
    (mapped : outcome.map f = .ok value) : ∃ item, outcome = .ok item ∧ f item = value := by
  cases outcome with
  | error error => cases mapped
  | ok item =>
      cases mapped
      exact ⟨item, rfl, rfl⟩

theorem ok_bind (value : α) (next : α → Except ε β) :
    (Except.ok value >>= next) = next value :=
  rfl

theorem bind_eq_ok {outcome : Except ε α} {next : α → Except ε β} {value : β}
    (bound : outcome >>= next = .ok value) :
    ∃ item, outcome = .ok item ∧ next item = .ok value := by
  cases outcome with
  | error error => cases bound
  | ok item => exact ⟨item, rfl, bound⟩

theorem mapError_eq_ok {outcome : Except ε α} {f : ε → ε'} {value : α}
    (mapped : outcome.mapError f = .ok value) : outcome = .ok value := by
  cases outcome with
  | error error => cases mapped
  | ok item =>
      cases mapped
      rfl

theorem toOption_mapM (f : α → Except ε β) (items : List α) :
    (items.mapM f).toOption = items.mapM fun item => (f item).toOption := by
  induction items with
  | nil => rfl
  | cons item rest ih =>
      simp only [List.mapM_cons, toOption_bind, ih]
      cases (f item).toOption with
      | none => rfl
      | some value => cases rest.mapM fun item => (f item).toOption <;> rfl

theorem mapM_eq_ok {f : α → Except ε β} {items : List α}
    (all : ∀ item ∈ items, ∃ value, f item = .ok value) :
    items.mapM f = .ok (items.filterMap fun item => (f item).toOption) := by
  induction items with
  | nil => rfl
  | cons item rest ih =>
      obtain ⟨value, given⟩ := all item List.mem_cons_self
      rw [List.mapM_cons, given, ih fun later member => all later (List.mem_cons_of_mem _ member),
        List.filterMap_cons, given]
      rfl

end Except
