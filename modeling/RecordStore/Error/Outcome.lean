import Mathlib.Data.List.Forall2

/-!
# Chains of outcomes

An outcome is a value or an error. A chain of outcomes ends with the value of its last one or with
the first error, and a list is read when all of its members are, one by one.
-/

namespace RecordStore

variable {ε α β : Type}

section Chains

variable {outcome : Except ε α} {next : α → Except ε β}

/-- A chain of two outcomes has a value exactly when the second one has it for the value of the
first. -/
theorem bind_eq_ok_iff {y : β} :
    (outcome >>= next) = .ok y ↔ ∃ x, outcome = .ok x ∧ next x = .ok y := by
  cases outcome <;> simp [bind, Except.bind]

/-- A chain of two outcomes fails exactly when the first one does, or the second one for the value
of the first. -/
theorem bind_eq_error_iff {e : ε} :
    (outcome >>= next) = .error e ↔
      outcome = .error e ∨ ∃ x, outcome = .ok x ∧ next x = .error e := by
  cases outcome <;> simp [bind, Except.bind]

/-- A chain of two outcomes fails when the first one does, or the second one for its value. -/
theorem bind_fails_iff :
    (∃ e, (outcome >>= next) = .error e) ↔
      (∃ e, outcome = .error e) ∨ ∃ x, outcome = .ok x ∧ ∃ e, next x = .error e := by
  cases outcome <;> simp [bind, Except.bind]

/-- Wrapping its error does not change whether an outcome fails. -/
@[simp] theorem mapError_fails_iff {ε' : Type} {wrap : ε → ε'} :
    (∃ e, outcome.mapError wrap = .error e) ↔ ∃ e, outcome = .error e := by
  cases outcome <;> simp [Except.mapError]

/-- What is made of its value does not change whether an outcome fails. -/
@[simp] theorem map_fails_iff {f : α → β} :
    (∃ e, outcome.map f = .error e) ↔ ∃ e, outcome = .error e := by
  cases outcome <;> simp [Except.map]

/-- A chain of two outcomes succeeds when the second one does for the value of the first one. -/
theorem exists_of_bind_eq_ok {y : β} (h : outcome >>= next = .ok y) :
    ∃ x, outcome = .ok x ∧ next x = .ok y :=
  bind_eq_ok_iff.1 h

/-- An outcome has a value exactly when it has no error. -/
theorem exists_eq_ok_iff : (∃ x, outcome = .ok x) ↔ ∀ e, outcome ≠ .error e := by
  cases outcome <;> simp

end Chains

section Lists

variable {read : α → Except ε β}

/-- A list that can be read is read element by element. -/
theorem forall₂_of_mapM_eq_ok {xs : List α} {ys : List β} (h : xs.mapM read = .ok ys) :
    List.Forall₂ (fun x y ↦ read x = .ok y) xs ys := by
  induction xs generalizing ys with
  | nil =>
    cases h
    exact .nil
  | cons x rest ih =>
    rw [List.mapM_cons] at h
    obtain ⟨y, hy, h⟩ := bind_eq_ok_iff.1 h
    obtain ⟨others, hothers, h⟩ := bind_eq_ok_iff.1 h
    cases h
    exact .cons hy (ih hothers)

/-- A list that cannot be read has a member that cannot be read. -/
theorem exists_mem_of_mapM_eq_error {e : ε} {xs : List α} (h : xs.mapM read = .error e) :
    ∃ x ∈ xs, read x = .error e := by
  induction xs with
  | nil => cases h
  | cons x rest ih =>
    rw [List.mapM_cons] at h
    rcases bind_eq_error_iff.1 h with hx | ⟨y, -, h⟩
    · exact ⟨x, List.mem_cons_self, hx⟩
    · rcases bind_eq_error_iff.1 h with hrest | ⟨ys, -, h⟩
      · obtain ⟨z, hz, hread⟩ := ih hrest
        exact ⟨z, List.mem_cons_of_mem _ hz, hread⟩
      · cases h

/-- A list is read unless one of its members cannot be read. -/
theorem mapM_fails_iff {xs : List α} :
    (∃ e, xs.mapM read = .error e) ↔ ∃ x ∈ xs, ∃ e, read x = .error e := by
  induction xs with
  | nil => exact iff_of_false nofun nofun
  | cons x rest ih =>
    rw [List.mapM_cons, List.exists_mem_cons_iff, ← ih]
    cases hx : read x with
    | error e => exact iff_of_true ⟨e, rfl⟩ (.inl ⟨e, rfl⟩)
    | ok y =>
      rw [or_iff_right (nofun : ¬∃ e, Except.ok y = .error e)]
      cases rest.mapM read with
      | error e => exact iff_of_true ⟨e, rfl⟩ ⟨e, rfl⟩
      | ok ys => exact iff_of_false nofun nofun

end Lists

end RecordStore
