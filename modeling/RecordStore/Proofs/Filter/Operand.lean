import RecordStore.Proofs.Filter.Tree
import RecordStore.Proofs.Reading.Condition

/-!
# Filters as operands

Text that stands beside other filters must read as one alternative: `AND` would otherwise tear it
apart. When the leaves of a filter do so, every group in it does so too, and it means all or any of
the members that write something, whether or not it has parentheses.
-/

namespace RecordStore.Reading

variable {α : Type} {text : α → Atom}

/-- Formulas under a conjunction. -/
def Formula.ofMembers : Conjunction → List (Formula α) → Formula α
  | .and, members => .all members
  | .or, members => .any members

@[simp] theorem Formula.atoms_ofMembers (c : Conjunction) (members : List (Formula α)) :
    (ofMembers c members).atoms = members.flatMap atoms := by
  cases c <;> simp [ofMembers]

/-- A statement that reads as one alternative with the atoms and the meaning of a formula. -/
def IsOperand (text : α → Atom) (s : Statement) (φ : Formula α) : Prop :=
  ∃ clause, ReadsAs text s.sql.toList [clause] ∧ clause.flatMap Formula.atoms = φ.atoms ∧
    ∀ v, clause.all (Formula.holds v) = φ.holds v

/-- Filters with a conjunction between them read as their combined alternatives. -/
theorem readsAs_join (c : Conjunction) {parts : List Statement}
    {lists : List (List (List (Formula α)))} (hne : parts ≠ [])
    (h : List.Forall₂ (fun s clauses ↦ ReadsAs text s.sql.toList clauses) parts lists) :
    ReadsAs text (Statement.join c.separator parts).sql.toList (combineAll c lists) := by
  induction h with
  | nil => exact absurd rfl hne
  | @cons first clauses parts lists hfirst hrest ih =>
    cases hrest with
    | nil => exact hfirst
    | @cons second _ rest _ hsecond hrest =>
      have hjoin := ih (by simp)
      have hboth := hfirst.append c hjoin
      rw [combineAll]
      simpa [Statement.join] using hboth

/-- A condition in parentheses is an operand. -/
theorem ReadsAs.isOperand_paren {s : Statement} {clauses : List (List (Formula α))}
    (h : ReadsAs text s.sql.toList clauses) :
    IsOperand text ("(" ++ s ++ ")") (.ofAlternatives clauses) := by
  have hparen : ReadsAs text ("(" ++ s ++ ")").sql.toList [[.ofAlternatives clauses]] := by
    simpa using h.paren
  exact ⟨_, hparen, by simp, by simp⟩

/-- Hand-written SQL that is an operand is one with and without other filters beside it. -/
theorem IsOperand.raw {sql : String} {φ : Formula α} (h : IsOperand text (.ofText sql) φ)
    (beside : Bool) (args : List Json) :
    IsOperand text ((Expr.raw sql args).render beside) φ := by
  rw [Expr.render]
  cases beside && hasConjunction sql with
  | false => exact h
  | true =>
    obtain ⟨clause, hreads, hatoms, hholds⟩ := h
    refine ⟨[.ofAlternatives [clause]], ?_, ?_, ?_⟩
    · simpa [Statement.withArgs, Statement.ofText] using hreads.paren
    · simpa [Formula.ofAlternatives] using hatoms
    · simpa [Formula.ofAlternatives] using hholds

-- The alternatives of operands, one each, beside the formulas that they mean.
private theorem exists_clauses {parts : List Statement} {φs : List (Formula α)}
    (h : List.Forall₂ (IsOperand text) parts φs) :
    ∃ clauses : List (List (Formula α)),
      List.Forall₂ (fun s lists ↦ ReadsAs text s.sql.toList lists) parts
        (clauses.map fun clause ↦ [clause]) ∧
      clauses.flatMap (List.flatMap Formula.atoms) = φs.flatMap Formula.atoms ∧
      ∀ v, clauses.map (fun clause ↦ clause.all (Formula.holds v)) = φs.map (Formula.holds v) := by
  induction h with
  | nil => exact ⟨[], .nil, rfl, fun v ↦ rfl⟩
  | cons hhead _ ih =>
    obtain ⟨clause, hreads, hatoms, hholds⟩ := hhead
    obtain ⟨clauses, hrest, hrest_atoms, hrest_holds⟩ := ih
    refine ⟨clause :: clauses, .cons hreads hrest, ?_, ?_⟩
    · rw [List.flatMap_cons, hatoms, hrest_atoms, List.flatMap_cons]
    · intro v
      rw [List.map_cons, hholds, hrest_holds, List.map_cons]

/-- Operands with `AND` between them are an operand that means all of them. -/
theorem isOperand_join_and {parts : List Statement} {φs : List (Formula α)} (hne : parts ≠ [])
    (h : List.Forall₂ (IsOperand text) parts φs) :
    IsOperand text (Statement.join Conjunction.and.separator parts) (.all φs) := by
  obtain ⟨clauses, hreads, hatoms, hholds⟩ := exists_clauses h
  have hclauses : clauses ≠ [] := by
    rintro rfl
    exact hne (List.forall₂_nil_right_iff.1 hreads)
  have hjoin := readsAs_join .and hne hreads
  rw [combineAll_and_singletons hclauses] at hjoin
  refine ⟨_, hjoin, ?_, ?_⟩
  · rw [Formula.atoms_all, ← hatoms]
    simp only [List.flatMap_def, List.map_flatten, List.flatten_flatten, List.map_map]
    rfl
  · intro v
    rw [Formula.holds_all, List.all_flatten]
    have hlist := congrArg (List.all · id) (hholds v)
    simpa [List.all_map, Function.comp_def] using hlist

/-- Operands under a conjunction and in parentheses are an operand that means the conjunction. -/
theorem isOperand_group (c : Conjunction) {parts : List Statement} {φs : List (Formula α)}
    (hne : parts ≠ []) (h : List.Forall₂ (IsOperand text) parts φs) :
    IsOperand text ("(" ++ Statement.join c.separator parts ++ ")") (.ofMembers c φs) := by
  cases c with
  | and =>
    obtain ⟨clause, hreads, hatoms, hholds⟩ := isOperand_join_and hne h
    obtain ⟨outer, houter, houter_atoms, houter_holds⟩ := hreads.isOperand_paren
    refine ⟨outer, houter, ?_, ?_⟩
    · rw [houter_atoms, Formula.ofMembers, ← hatoms]
      simp [Formula.ofAlternatives]
    · intro v
      rw [houter_holds, Formula.ofMembers, ← hholds]
      simp [Formula.ofAlternatives]
  | or =>
    obtain ⟨clauses, hreads, hatoms, hholds⟩ := exists_clauses h
    have hjoin := readsAs_join .or hne hreads
    rw [combineAll_or_singletons] at hjoin
    obtain ⟨outer, houter, houter_atoms, houter_holds⟩ := hjoin.isOperand_paren
    refine ⟨outer, houter, ?_, ?_⟩
    · rw [houter_atoms, Formula.atoms_ofMembers, ← hatoms]
      simp [Formula.ofAlternatives, List.flatMap_map, Formula.atoms_all]
    · intro v
      rw [houter_holds, Formula.ofMembers, Formula.ofAlternatives, Formula.holds_any,
        Formula.holds_any]
      have hlist := congrArg (List.any · id) (hholds v)
      simpa [List.any_map, Function.comp_def] using hlist

/-- An operand that is alone under a conjunction means the conjunction. -/
theorem IsOperand.alone {s : Statement} {φ : Formula α} (h : IsOperand text s φ) (c : Conjunction) :
    IsOperand text s (.ofMembers c [φ]) := by
  obtain ⟨clause, hreads, hatoms, hholds⟩ := h
  refine ⟨clause, hreads, ?_, ?_⟩
  · simpa using hatoms
  · intro v
    rw [hholds]
    cases c <;> simp [Formula.ofMembers]

/-! ### The meaning of filters -/

mutual

/-- What a filter means when `leaf` tells what its leaves mean. -/
def formula (leaf : Expr → Formula α) : Expr → Formula α
  | .raw sql args => leaf (.raw sql args)
  | .compare column op arg => leaf (.compare column op arg)
  | .group c members => .ofMembers c (formulas leaf members)

/-- What those filters of a list mean that write something. -/
def formulas (leaf : Expr → Formula α) : List Expr → List (Formula α)
  | [] => []
  | e :: rest => if e.isEmpty then formulas leaf rest else formula leaf e :: formulas leaf rest

end

/-- A leaf means what `leaf` tells. -/
theorem formula_of_isLeaf {leaf : Expr → Formula α} {l : Expr} (h : l.isLeaf = true) :
    formula leaf l = leaf l := by
  match l, h with
  | .raw sql args, _ => rw [formula]
  | .compare column op arg, _ => rw [formula]

/-- A list of filters means what those mean that write something. -/
theorem formulas_eq_map (leaf : Expr → Formula α) (exprs : List Expr) :
    formulas leaf exprs = (Expr.nonEmpty exprs).map (formula leaf) := by
  induction exprs with
  | nil => simp [formulas, Expr.nonEmpty]
  | cons e rest ih => cases h : e.isEmpty <;> simp_all [formulas, Expr.nonEmpty]

mutual

/-- A filter has the atoms of its leaves. -/
theorem atoms_formula (leaf : Expr → Formula α) (e : Expr) :
    (formula leaf e).atoms = e.leaves.flatMap fun l ↦ (leaf l).atoms := by
  match e with
  | .raw sql args => simp [formula, Expr.leaves]
  | .compare column op arg => simp [formula, Expr.leaves]
  | .group c members =>
    rw [formula, Expr.leaves, Formula.atoms_ofMembers]
    exact atoms_formulas leaf members

/-- Filters have the atoms of their leaves. -/
theorem atoms_formulas (leaf : Expr → Formula α) (exprs : List Expr) :
    (formulas leaf exprs).flatMap Formula.atoms =
      (Expr.leavesOf exprs).flatMap fun l ↦ (leaf l).atoms := by
  match exprs with
  | [] => simp [formulas, Expr.leavesOf]
  | e :: rest =>
    rw [formulas, Expr.leavesOf]
    split
    · exact atoms_formulas leaf rest
    · rw [List.flatMap_cons, List.flatMap_append, atoms_formula leaf e, atoms_formulas leaf rest]

end

/-- Groups inherit from their members that their statement is an operand with their meaning. -/
theorem inherited_isOperand (text : α → Atom) (leaf : Expr → Formula α) :
    Expr.Inherited fun _ e s ↦ IsOperand text s (formula leaf e) where
  alone := by
    intro _ c members only s honly h
    rw [formula, formulas_eq_map, honly]
    exact h.alone c
  group := by
    intro _ c members parts hmany h
    rw [formula, formulas_eq_map]
    apply isOperand_group c
    · rintro rfl
      rw [List.forall₂_nil_right_iff.1 h] at hmany
      exact absurd hmany (by simp)
    · exact List.forall₂_map_right_iff.2 h.flip

/-- Filters whose leaves are operands, some of which write something, read as the conjunction of
what they mean. -/
theorem isOperand_conditions {leaf : Expr → Formula α} {exprs : List Expr}
    (hne : Expr.nonEmpty exprs ≠ [])
    (h : ∀ l ∈ Expr.leavesOf exprs, ∀ b, (1 < (Expr.nonEmpty exprs).length → b = true) →
      IsOperand text (l.render b) (formula leaf l)) :
    IsOperand text (conditions exprs) (.all (formulas leaf exprs)) := by
  have hmembers := (inherited_isOperand text leaf).renderMembers exprs
    (1 < (Expr.nonEmpty exprs).length) fun l hl b hb ↦ h l hl b (by simpa using hb)
  rw [conditions, formulas_eq_map]
  apply isOperand_join_and
  · rwa [Expr.renderMembers_eq_map, Ne, List.map_eq_nil_iff]
  · exact List.forall₂_map_right_iff.2 hmembers.flip

end RecordStore.Reading
