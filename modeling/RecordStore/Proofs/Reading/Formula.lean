/-!
# Boolean formulas

A formula combines atoms by conjunctions and alternatives of any number of members. It is evaluated
under a valuation that says which atoms hold. There is no negation, so a formula whose conjunctions
and alternatives all have members holds when all its atoms do and fails when none does.
-/

namespace RecordStore.Reading

/-- A boolean formula over atoms. -/
inductive Formula (α : Type) where
  | atom (a : α)
  /-- Every member holds. -/
  | all (members : List (Formula α))
  /-- Some member holds. -/
  | any (members : List (Formula α))

namespace Formula

variable {α β : Type}

mutual

/-- Whether a formula holds under a valuation. -/
def holds (v : α → Bool) : Formula α → Bool
  | .atom a => v a
  | .all members => allHold v members
  | .any members => someHolds v members

/-- Whether every formula of a list holds. -/
def allHold (v : α → Bool) : List (Formula α) → Bool
  | [] => true
  | φ :: rest => φ.holds v && allHold v rest

/-- Whether some formula of a list holds. -/
def someHolds (v : α → Bool) : List (Formula α) → Bool
  | [] => false
  | φ :: rest => φ.holds v || someHolds v rest

end

mutual

/-- The atoms of a formula from left to right. -/
def atoms : Formula α → List α
  | .atom a => [a]
  | .all members => atomsOf members
  | .any members => atomsOf members

/-- The atoms of formulas from left to right. -/
def atomsOf : List (Formula α) → List α
  | [] => []
  | φ :: rest => φ.atoms ++ atomsOf rest

end

mutual

/-- The formula with each atom replaced. -/
def map (f : α → β) : Formula α → Formula β
  | .atom a => .atom (f a)
  | .all members => .all (mapAll f members)
  | .any members => .any (mapAll f members)

/-- The formulas with each atom replaced. -/
def mapAll (f : α → β) : List (Formula α) → List (Formula β)
  | [] => []
  | φ :: rest => φ.map f :: mapAll f rest

end

@[simp] theorem holds_atom (v : α → Bool) (a : α) : (atom a).holds v = v a := by
  rw [holds]

@[simp] theorem holds_all (v : α → Bool) (members : List (Formula α)) :
    (all members).holds v = members.all (holds v) := by
  rw [holds]
  induction members with
  | nil => simp [allHold]
  | cons φ rest ih => simp [allHold, ih]

@[simp] theorem holds_any (v : α → Bool) (members : List (Formula α)) :
    (any members).holds v = members.any (holds v) := by
  rw [holds]
  induction members with
  | nil => simp [someHolds]
  | cons φ rest ih => simp [someHolds, ih]

@[simp] theorem atoms_atom (a : α) : (atom a).atoms = [a] := by
  rw [atoms]

private theorem atomsOf_eq_flatMap (members : List (Formula α)) :
    atomsOf members = members.flatMap atoms := by
  induction members with
  | nil => simp [atomsOf]
  | cons φ rest ih => simp [atomsOf, ih]

@[simp] theorem atoms_all (members : List (Formula α)) :
    (all members).atoms = members.flatMap atoms := by
  rw [atoms, atomsOf_eq_flatMap]

@[simp] theorem atoms_any (members : List (Formula α)) :
    (any members).atoms = members.flatMap atoms := by
  rw [atoms, atomsOf_eq_flatMap]

@[simp] theorem map_atom (f : α → β) (a : α) : (atom a).map f = atom (f a) := by
  rw [map]

private theorem mapAll_eq_map (f : α → β) (members : List (Formula α)) :
    mapAll f members = members.map (map f) := by
  induction members with
  | nil => simp [mapAll]
  | cons φ rest ih => simp [mapAll, ih]

@[simp] theorem map_all (f : α → β) (members : List (Formula α)) :
    (all members).map f = all (members.map (map f)) := by
  rw [map, mapAll_eq_map]

@[simp] theorem map_any (f : α → β) (members : List (Formula α)) :
    (any members).map f = any (members.map (map f)) := by
  rw [map, mapAll_eq_map]

/-- Only a conjunction is mapped to a conjunction. -/
theorem map_eq_all_iff {f : α → β} {φ : Formula α} {members : List (Formula β)} :
    φ.map f = all members ↔ ∃ ψs, φ = all ψs ∧ ψs.map (map f) = members := by
  cases φ <;> simp

/-- Only alternatives are mapped to alternatives. -/
theorem map_eq_any_iff {f : α → β} {φ : Formula α} {members : List (Formula β)} :
    φ.map f = any members ↔ ∃ ψs, φ = any ψs ∧ ψs.map (map f) = members := by
  cases φ <;> simp

/-- Every conjunction and all alternatives of the formula have a member. -/
inductive Full : Formula α → Prop where
  | atom (a : α) : Full (.atom a)
  | all {members : List (Formula α)} (hne : members ≠ []) (h : ∀ φ ∈ members, Full φ) :
    Full (.all members)
  | any {members : List (Formula α)} (hne : members ≠ []) (h : ∀ φ ∈ members, Full φ) :
    Full (.any members)

/-- A full formula holds when all its atoms hold. -/
theorem Full.holds_of_atoms {φ : Formula α} (hφ : φ.Full) {v : α → Bool}
    (h : ∀ a ∈ φ.atoms, v a = true) : φ.holds v = true := by
  induction hφ with
  | atom a => simpa using h
  | all hne _ ih =>
    rw [holds_all, List.all_eq_true]
    intro φ hφ
    apply ih φ hφ
    intro a ha
    exact h a (by simpa using ⟨φ, hφ, ha⟩)
  | @any members hne _ ih =>
    obtain ⟨φ, rest, rfl⟩ := List.exists_cons_of_ne_nil hne
    rw [holds_any, List.any_cons, ih φ (by simp), Bool.true_or]
    intro a ha
    exact h a (by simp [ha])

/-- A full formula that holds has an atom that holds. -/
theorem Full.exists_atom_of_holds {φ : Formula α} (hφ : φ.Full) {v : α → Bool}
    (h : φ.holds v = true) : ∃ a ∈ φ.atoms, v a = true := by
  induction hφ with
  | atom a => exact ⟨a, by simp, by simpa using h⟩
  | @all members hne _ ih =>
    obtain ⟨φ, rest, rfl⟩ := List.exists_cons_of_ne_nil hne
    simp only [holds_all, List.all_cons, Bool.and_eq_true] at h
    obtain ⟨a, ha, hv⟩ := ih φ (by simp) h.1
    exact ⟨a, by simp [ha], hv⟩
  | any hne _ ih =>
    simp only [holds_any, List.any_eq_true] at h
    obtain ⟨φ, hφ, hv⟩ := h
    obtain ⟨a, ha, hva⟩ := ih φ hφ hv
    exact ⟨a, by simpa using ⟨φ, hφ, ha⟩, hva⟩

/-- A formula is full when it is so after its atoms have been replaced. -/
theorem Full.of_map {f : α → β} {φ : Formula α} (h : (φ.map f).Full) : φ.Full := by
  generalize hψ : φ.map f = ψ at h
  induction h generalizing φ with
  | atom b =>
    cases φ with
    | atom a => exact .atom a
    | all members => simp at hψ
    | any members => simp at hψ
  | all hne _ ih =>
    obtain ⟨ψs, rfl, rfl⟩ := map_eq_all_iff.1 hψ
    refine .all (by simpa using hne) ?_
    intro φ hφ
    exact ih (φ.map f) (List.mem_map_of_mem hφ) rfl
  | any hne _ ih =>
    obtain ⟨ψs, rfl, rfl⟩ := map_eq_any_iff.1 hψ
    refine .any (by simpa using hne) ?_
    intro φ hφ
    exact ih (φ.map f) (List.mem_map_of_mem hφ) rfl

end Formula

end RecordStore.Reading
