import RecordStore.Proofs.Filter.Operand

/-!
# Filters beside each other

Hand-written SQL gets parentheses beside other filters when it holds a keyword between two blanks.
Where the keyword `OR` stands next to other white space or a parenthesis, the text stays as it is,
and its alternatives are torn apart. Filters side by side mean what they mean one by one exactly
when this happens to none of them.
-/

namespace RecordStore.Reading

/-- Whether a text reads as several alternatives. -/
def HasAlternatives (cs : List Char) : Prop :=
  ∃ alternatives, read? cs = some (.any alternatives) ∧ 1 < alternatives.length

/-- Whether a filter that is no group keeps several alternatives without parentheses. -/
def IsExposed : Expr → Prop
  | .raw sql _ => hasConjunction sql = false ∧ HasAlternatives sql.toList
  | e => HasAlternatives (e.render false).sql.toList

variable {α : Type} {text : α → Atom}

/-- A filter that reads as a formula by itself. -/
def ReadsAlone (text : α → Atom) (e : Expr) (φ : Formula α) : Prop :=
  read? (e.render false).sql.toList = some (φ.map text)

/-- A filter beside others reads as the alternatives that it has alone, or as one operand with their
meaning. -/
theorem exists_readsAs_beside {l : Expr} {φ : Formula α} (hleaf : l.isLeaf = true)
    (h : ReadsAlone text l φ) :
    ∃ clauses, ReadsAs text (l.render true).sql.toList clauses ∧
      clauses.flatten.flatMap Formula.atoms = φ.atoms ∧ (IsExposed l ↔ 1 < clauses.length) ∧
        (clauses.length = 1 → ∀ v, clauses.flatten.all (Formula.holds v) = φ.holds v) := by
  obtain ⟨clauses, rfl, hreads⟩ := exists_readsAs h
  have hatoms : clauses.flatten.flatMap Formula.atoms = (Formula.ofAlternatives clauses).atoms := by
    simp [Formula.ofAlternatives, List.flatMap_def, List.map_flatten, List.flatten_flatten,
      Function.comp_def]
  have hone : clauses.length = 1 →
      ∀ v, clauses.flatten.all (Formula.holds v) = (Formula.ofAlternatives clauses).holds v := by
    intro hlength v
    obtain ⟨clause, rfl⟩ := List.length_eq_one_iff.1 hlength
    simp [Formula.ofAlternatives]
  have hseveral : HasAlternatives (l.render false).sql.toList ↔ 1 < clauses.length := by
    rw [HasAlternatives, h, Formula.ofAlternatives, Formula.map_any]
    simp
  cases l with
  | group c members => cases hleaf
  | compare column op arg => exact ⟨clauses, hreads, hatoms, hseveral, hone⟩
  | raw sql args =>
    cases hconjunction : hasConjunction sql with
    | false =>
      refine ⟨clauses, ?_, hatoms, ?_, hone⟩
      · simpa [Expr.render, Statement.withArgs, hconjunction] using hreads
      · rw [← hseveral, IsExposed, hconjunction]
        simp [Expr.render, Statement.withArgs]
    | true =>
      refine ⟨[[.ofAlternatives clauses]], ?_, by simp, ?_, by simp⟩
      · have hparen := hreads.paren
        simpa [Expr.render, Statement.withArgs, hconjunction] using hparen
      · rw [IsExposed, hconjunction]
        simp

/-- A filter that is not exposed is an operand beside others. -/
theorem isOperand_of_not_isExposed {l : Expr} {φ : Formula α} (hleaf : l.isLeaf = true)
    (h : ReadsAlone text l φ) (hexposed : ¬IsExposed l) :
    IsOperand text (l.render true) φ := by
  obtain ⟨clauses, hreads, hatoms, hiff, hholds⟩ := exists_readsAs_beside hleaf h
  rw [hiff] at hexposed
  have hfull := hreads.full
  match clauses with
  | [] =>
    cases hfull with
    | any hne _ => exact absurd rfl hne
  | [clause] =>
    refine ⟨clause, hreads, ?_, ?_⟩
    · simpa using hatoms
    · simpa using hholds rfl
  | first :: second :: rest => exact absurd (by simp) hexposed

/-! ### Alternatives across filters -/

-- A formula whose alternatives hold under the atoms of one of them alone has an atom among them.
private theorem exists_atom_of_alternative (first : List (List (Formula α)))
    {second : List (List (Formula α))} {clause : List (Formula α)}
    (hfull : (Formula.ofAlternatives (first ++ clause :: second)).Full)
    {φs : List (Formula α)} (hφs : ∀ φ ∈ φs, φ.Full)
    (hholds : ∀ v, (Formula.ofAlternatives (first ++ clause :: second)).holds v =
      φs.all (Formula.holds v)) {φ : Formula α} (hφ : φ ∈ φs) :
    ∃ a ∈ φ.atoms, a ∈ clause.flatMap Formula.atoms := by
  classical
  let v : α → Bool := fun a ↦ decide (a ∈ clause.flatMap Formula.atoms)
  have hclause : (Formula.all clause).Full := by
    cases hfull with
    | any _ h => exact h _ (by simp)
  have hv : (Formula.ofAlternatives (first ++ clause :: second)).holds v = true := by
    have hclause_holds : (Formula.all clause).holds v = true := by
      apply hclause.holds_of_atoms
      intro a ha
      rw [Formula.atoms_all] at ha
      exact decide_eq_true ha
    simp only [Formula.ofAlternatives, Formula.holds_any, List.any_map, List.any_append,
      List.any_cons, Function.comp_apply, hclause_holds, Bool.true_or, Bool.or_true]
  rw [hholds, List.all_eq_true] at hv
  obtain ⟨a, ha, hva⟩ := (hφs φ hφ).exists_atom_of_holds (hv φ hφ)
  exact ⟨a, ha, of_decide_eq_true hva⟩

-- Two cuts of a list without repetitions do not overlap crosswise.
private theorem not_crosswise {first second left right : List α}
    (h : first ++ second = left ++ right) (hnodup : (first ++ second).Nodup) {a b : α}
    (ha : a ∈ second) (ha_left : a ∈ left) (hb : b ∈ first) (hb_right : b ∈ right) : False := by
  have hleft := h ▸ hnodup
  rw [List.nodup_append] at hnodup hleft
  rcases List.append_eq_append_iff.1 h with ⟨middle, rfl, -⟩ | ⟨middle, rfl, -⟩
  · exact hleft.2.2 b (List.mem_append_left _ hb) b hb_right rfl
  · exact hnodup.2.2 a (List.mem_append_left _ ha_left) a ha rfl

/-- Alternatives that hold exactly when two formulas do, all atoms apart, are only one. -/
theorem length_lt_two_of_holds {clauses : List (List (Formula α))}
    (hfull : (Formula.ofAlternatives clauses).Full) {φ ψ : Formula α} {φs : List (Formula α)}
    (hφs : ∀ χ ∈ φ :: ψ :: φs, χ.Full)
    (hatoms : clauses.flatten.flatMap Formula.atoms = (φ :: ψ :: φs).flatMap Formula.atoms)
    (hnodup : ((φ :: ψ :: φs).flatMap Formula.atoms).Nodup)
    (hholds : ∀ v, (Formula.ofAlternatives clauses).holds v =
      (φ :: ψ :: φs).all (Formula.holds v)) : clauses.length < 2 := by
  match clauses with
  | [] => simp
  | [clause] => simp
  | first :: second :: rest =>
    exfalso
    -- The second formula has an atom in the first alternative, the first formula in the second one.
    have hφ : φ ∈ φ :: ψ :: φs := List.mem_cons_self
    have hψ : ψ ∈ φ :: ψ :: φs := List.mem_cons_of_mem φ List.mem_cons_self
    obtain ⟨a, ha, ha_first⟩ := exists_atom_of_alternative [] hfull hφs hholds hψ
    obtain ⟨b, hb, hb_second⟩ := exists_atom_of_alternative [first] hfull hφs hholds hφ
    rw [List.flatMap_cons] at hatoms hnodup
    have hcuts : φ.atoms ++ (ψ :: φs).flatMap Formula.atoms =
        first.flatMap Formula.atoms ++ (second :: rest).flatten.flatMap Formula.atoms := by
      rw [← hatoms, List.flatten_cons, List.flatMap_append]
    refine not_crosswise hcuts hnodup (a := a) (b := b) ?_ ha_first hb ?_
    · rw [List.flatMap_cons]
      exact List.mem_append_left _ ha
    · rw [List.flatten_cons, List.flatMap_append]
      exact List.mem_append_left _ hb_second

/-! ### Filters that are no groups -/

section

variable {exprs : List Expr} {φs : List (Formula α)}

-- The alternatives of filters beside each other, with those that are exposed.
private theorem exists_lists_beside (hleaf : ∀ e ∈ exprs, e.isLeaf = true)
    (h : List.Forall₂ (ReadsAlone text) exprs φs) :
    ∃ lists : List (List (List (Formula α))),
      List.Forall₂ (fun s clauses ↦ ReadsAs text s.sql.toList clauses)
        (exprs.map (Expr.render true)) lists ∧
      (lists.flatMap List.flatten).flatMap Formula.atoms = φs.flatMap Formula.atoms ∧
      ∀ e ∈ exprs, IsExposed e → ∃ clauses ∈ lists, 1 < clauses.length := by
  induction h with
  | nil => exact ⟨[], .nil, rfl, List.forall_mem_nil _⟩
  | @cons e φ exprs φs hfirst _ ih =>
    rw [List.forall_mem_cons] at hleaf
    obtain ⟨clauses, hreads, hatoms, hexposed, -⟩ := exists_readsAs_beside hleaf.1 hfirst
    obtain ⟨lists, hlists, hlists_atoms, hlists_exposed⟩ := ih hleaf.2
    refine ⟨clauses :: lists, .cons hreads hlists, ?_, ?_⟩
    · rw [List.flatMap_cons, List.flatMap_append, hatoms, hlists_atoms, List.flatMap_cons]
    · rw [List.forall_mem_cons]
      refine ⟨fun he ↦ ⟨clauses, by simp, hexposed.1 he⟩, ?_⟩
      intro e he hexposed
      obtain ⟨later, hlater, hlength⟩ := hlists_exposed e he hexposed
      exact ⟨later, List.mem_cons_of_mem _ hlater, hlength⟩

private theorem full_of_reads
    (h : List.Forall₂ (ReadsAlone text) exprs φs) :
    ∀ φ ∈ φs, φ.Full := by
  intro φ hφ
  obtain ⟨e, _, he⟩ := exists_mem_of_forall₂ h hφ
  obtain ⟨clauses, rfl, hreads⟩ := exists_readsAs he
  exact hreads.full

private theorem forall₂_isOperand_beside (hleaf : ∀ e ∈ exprs, e.isLeaf = true)
    (h : List.Forall₂ (ReadsAlone text) exprs φs)
    (hexposed : ∀ e ∈ exprs, ¬IsExposed e) :
    List.Forall₂ (IsOperand text) (exprs.map (Expr.render true)) φs := by
  induction h with
  | nil => exact .nil
  | cons hfirst _ ih =>
    rw [List.forall_mem_cons] at hleaf hexposed
    exact .cons (isOperand_of_not_isExposed hleaf.1 hfirst hexposed.1) (ih hleaf.2 hexposed.2)

-- Filters none of which is exposed are the operands of one alternative.
private theorem join_holds_of_not_isExposed (hleaf : ∀ e ∈ exprs, e.isLeaf = true)
    (hne : exprs.map (Expr.render true) ≠ []) (h : List.Forall₂ (ReadsAlone text) exprs φs)
    (hexposed : ∀ e ∈ exprs, ¬IsExposed e) :
    ∃ φ : Formula α,
      read? (Statement.join Conjunction.and.separator (exprs.map (Expr.render true))).sql.toList =
        some (φ.map text) ∧
      φ.atoms = φs.flatMap Formula.atoms ∧ ∀ v, φ.holds v = φs.all (Formula.holds v) := by
  obtain ⟨clause, hreads, hatoms, hholds⟩ :=
    isOperand_join_and hne (forall₂_isOperand_beside hleaf h hexposed)
  refine ⟨.ofAlternatives [clause], hreads.read?, ?_, ?_⟩
  · simpa [Formula.ofAlternatives] using hatoms
  · intro v
    simpa [Formula.ofAlternatives] using hholds v

-- Beside an exposed filter there are two alternatives, more than atoms that are all apart leave.
private theorem join_differs_of_isExposed (hleaf : ∀ e ∈ exprs, e.isLeaf = true)
    (hmany : 1 < exprs.length) (hne : exprs.map (Expr.render true) ≠ [])
    (h : List.Forall₂ (ReadsAlone text) exprs φs) {e : Expr} (he : e ∈ exprs)
    (hexposed : IsExposed e) :
    ∃ φ : Formula α,
      read? (Statement.join Conjunction.and.separator (exprs.map (Expr.render true))).sql.toList =
        some (φ.map text) ∧
      φ.atoms = φs.flatMap Formula.atoms ∧
      ((φs.flatMap Formula.atoms).Nodup → ¬∀ v, φ.holds v = φs.all (Formula.holds v)) := by
  obtain ⟨lists, hlists, hatoms, hlengths⟩ := exists_lists_beside hleaf h
  obtain ⟨clauses, hclauses, hlength⟩ := hlengths e he hexposed
  have hreads := readsAs_join .and hne hlists
  have hlists_ne : ∀ bs ∈ lists, bs ≠ [] := by
    intro bs hbs
    obtain ⟨s, -, hs⟩ := exists_mem_of_forall₂ hlists hbs
    rintro rfl
    cases hs.full with
    | any hnil _ => exact hnil rfl
  have hle := length_le_combineAll_and hlists_ne hclauses
  rw [← flatten_combineAll .and] at hatoms
  refine ⟨_, hreads.read?, ?_, ?_⟩
  · rw [← hatoms]
    simp [Formula.ofAlternatives, List.flatMap_def, List.map_flatten, List.flatten_flatten,
      Function.comp_def]
  · intro hnodup hholds
    obtain ⟨φ, ψ, rest, rfl⟩ : ∃ φ ψ rest, φs = φ :: ψ :: rest := by
      rw [h.length_eq] at hmany
      rcases φs with _ | ⟨φ, _ | ⟨ψ, rest⟩⟩
      · exact absurd hmany (by simp)
      · exact absurd hmany (by simp)
      · exact ⟨φ, ψ, rest, rfl⟩
    have hfew := length_lt_two_of_holds hreads.full (full_of_reads h) hatoms hnodup hholds
    omega

/-- Several filters that are no groups read as one condition with the atoms of all. It holds exactly
when each of them holds if none of them is exposed, and only then if their atoms are all apart. -/
theorem conditions_beside (hleaf : ∀ e ∈ Expr.nonEmpty exprs, e.isLeaf = true)
    (hmany : 1 < (Expr.nonEmpty exprs).length)
    (h : List.Forall₂ (ReadsAlone text) (Expr.nonEmpty exprs) φs) :
    ∃ φ : Formula α, read? (conditions exprs).sql.toList = some (φ.map text) ∧
      φ.atoms = φs.flatMap Formula.atoms ∧
      ((∀ e ∈ Expr.nonEmpty exprs, ¬IsExposed e) → ∀ v, φ.holds v = φs.all (Formula.holds v)) ∧
      ((φs.flatMap Formula.atoms).Nodup → (∀ v, φ.holds v = φs.all (Formula.holds v)) →
        ∀ e ∈ Expr.nonEmpty exprs, ¬IsExposed e) := by
  have htext : conditions exprs = Statement.join Conjunction.and.separator
      ((Expr.nonEmpty exprs).map (Expr.render true)) := by
    rw [conditions, Expr.renderMembers_eq_map, decide_eq_true hmany]
  have hne : (Expr.nonEmpty exprs).map (Expr.render true) ≠ [] := by
    rw [Ne, List.map_eq_nil_iff]
    intro hnil
    rw [hnil] at hmany
    exact absurd hmany (by simp)
  rw [htext]
  by_cases hexposed : ∃ e ∈ Expr.nonEmpty exprs, IsExposed e
  · obtain ⟨e, he, hexposed⟩ := hexposed
    obtain ⟨φ, hread, hatoms, hdiffers⟩ := join_differs_of_isExposed hleaf hmany hne h he hexposed
    refine ⟨φ, hread, hatoms, ?_, ?_⟩
    · intro hnone
      exact absurd hexposed (hnone e he)
    · intro hnodup hholds
      exact absurd hholds (hdiffers hnodup)
  · have hnone : ∀ e ∈ Expr.nonEmpty exprs, ¬IsExposed e := by
      intro e he hexposed_e
      exact hexposed ⟨e, he, hexposed_e⟩
    obtain ⟨φ, hread, hatoms, hholds⟩ := join_holds_of_not_isExposed hleaf hne h hnone
    refine ⟨φ, hread, hatoms, ?_, ?_⟩
    · intro _
      exact hholds
    · intro _ _
      exact hnone

end

end RecordStore.Reading
