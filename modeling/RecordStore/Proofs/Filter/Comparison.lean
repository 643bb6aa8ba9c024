import RecordStore.Proofs.Filter.Operand
import RecordStore.Proofs.Reading.WellFormed
import RecordStore.Sql.Identifier

/-!
# Comparisons of column references

A comparison of a plain column reference by an operator reads as one atom: the reference as a word,
the operator and a placeholder. So filters made of such comparisons keep their meaning in SQL text,
however they are nested. A reference or an operator that spells a keyword would be read as that
keyword.
-/

namespace RecordStore

namespace Reading

/-- The tokens that the text of an operator is read as. -/
def operatorTokens (op : String) : List Token :=
  ((lexemes? op.toList).getD []).filterMap fun
    | .token t => some t
    | _ => none

/-- A text that stands for an operator: it is read as tokens alone, and none of them is a keyword of
a conjunction. -/
structure IsOperator (op : String) : Prop where
  reads : lexemes? op.toList = some ((operatorTokens op).map .token)
  joinsNothing : ∀ t ∈ operatorTokens op, ∀ c, t.isKeyword (keyword c) = false

/-- The operators of SQL that compare two values are operators. -/
theorem isOperator_of_mem {op : String}
    (h : op ∈ ["=", "<>", "!=", "<", "<=", ">", ">=", "LIKE", "ILIKE"]) : IsOperator op := by
  have hall : ∀ op ∈ ["=", "<>", "!=", "<", "<=", ">", ">=", "LIKE", "ILIKE"],
      lexemes? op.toList = some ((operatorTokens op).map .token) ∧
        ∀ t ∈ operatorTokens op, t.isKeyword (keyword .and) = false ∧
          t.isKeyword (keyword .or) = false := by decide
  obtain ⟨hreads, hkeyword⟩ := hall op h
  refine ⟨hreads, ?_⟩
  intro t ht c
  cases c with
  | and => exact (hkeyword t ht).1
  | or => exact (hkeyword t ht).2

/-- The tokens of a comparison. -/
def comparisonTokens (column op : String) : List Token :=
  .word column.toList :: (operatorTokens op ++ [.symbol '?'])

/-- The text of a comparison as an atom. -/
def comparisonAtom : Expr → Atom
  | .compare column op _ => (comparisonTokens column op).map .token
  | _ => []

/-- Whether a filter compares a plain column reference that spells no keyword of a conjunction, by
an operator. -/
def ComparesReference : Expr → Prop
  | .compare column op _ =>
    Identifier.isColumnReference column = true ∧
      (∀ c, column.toList.map Char.toUpper ≠ keyword c) ∧ IsOperator op
  | _ => False

/-! ### Column references as words -/

-- The characters of column references begin nothing but words.
private theorem lexemesFrom_reference {cs : List Char} (pending : List Char)
    (h : ∀ c ∈ cs, c.isAlphanum = true ∨ c = '_' ∨ c = '.') :
    lexemesFrom none pending cs = some (flush (pending ++ cs)) := by
  induction cs generalizing pending with
  | nil => simp [lexemesFrom]
  | cons c rest ih =>
    rw [List.forall_mem_cons] at h
    have hword : isWordChar c = true := by
      rcases h.1 with hc | hc | hc <;> simp [isWordChar, hc]
    have hopens : opensUnread pending c rest.head? = false := by
      have hne : ∀ d, d.isAlphanum = false ∧ d ≠ '_' ∧ d ≠ '.' → c ≠ d := by
        rintro d ⟨hd, hunderscore, hpoint⟩ rfl
        rcases h.1 with hc | hc | hc
        · rw [hd] at hc
          cases hc
        · exact hunderscore hc
        · exact hpoint hc
      simp [opensUnread, hne '-' (by decide), hne '/' (by decide), hne '\'' (by decide),
        hne '$' (by decide)]
    rw [lexemesFrom, hopens, hword]
    simp [ih (pending ++ [c]) h.2]

/-! ### Comparisons as atoms -/

-- The text of a comparison is the column, a blank, the operator, and a blank with the placeholder.
private theorem lexemes?_comparison {column op : String}
    (h : Identifier.isColumnReference column = true) (hop : IsOperator op) :
    lexemes? (column ++ " " ++ op ++ " ?").toList =
      some ((comparisonTokens column op).map .token) := by
  obtain ⟨hne, hchars⟩ := Identifier.forall_of_isColumnReference h
  have htext : (column ++ " " ++ op ++ " ?").toList =
      column.toList ++ ' ' :: (op.toList ++ ' ' :: ['?']) := by
    simp [String.toList_append]
  have hword : lexemesFrom none [] column.toList = some [.token (.word column.toList)] := by
    rw [lexemesFrom_reference [] hchars, List.nil_append, flush,
      List.isEmpty_eq_false_iff.2 hne]
    rfl
  have hmark : lexemesFrom none [] ['?'] = some [.token (.symbol '?')] := by decide
  rw [htext, lexemes?, lexemesFrom_append hword rfl, lexemesFrom_append hop.reads rfl, hmark]
  simp [comparisonTokens, charLexemes, isSpaceChar]

-- No token of a comparison is the keyword of a conjunction.
private theorem not_isKeyword_of_mem {column op : String}
    (h : ∀ c, column.toList.map Char.toUpper ≠ keyword c) (hop : IsOperator op) {t : Token}
    (ht : t ∈ comparisonTokens column op) (c : Conjunction) : t.isKeyword (keyword c) = false := by
  rcases List.mem_cons.1 ht with rfl | ht
  · simpa [Token.isKeyword] using h c
  · rcases List.mem_append.1 ht with ht | ht
    · exact hop.joinsNothing t ht c
    · rw [List.mem_singleton.1 ht]
      rfl

/-- A comparison of a plain column reference reads as one atom. -/
theorem readsAs_comparison {l : Expr} (h : ComparesReference l) (b : Bool) :
    ReadsAs comparisonAtom (l.render b).sql.toList [[.atom l]] := by
  match l with
  | .compare column op arg =>
    refine readsAs_of_tokens ?_ rfl ?_ fun t ht c ↦
      not_isKeyword_of_mem h.2.1 h.2.2 ht c
    · rw [Expr.render]
      exact lexemes?_comparison h.1 h.2.2
    · simp [comparisonTokens]

/-- A comparison of a plain column reference is an operand. -/
theorem isOperand_comparison {l : Expr} (h : ComparesReference l) (b : Bool) :
    IsOperand comparisonAtom (l.render b) (formula .atom l) := by
  have hleaf : l.isLeaf = true := by
    match l, h with
    | .compare column op arg, _ => rfl
  rw [formula_of_isLeaf hleaf]
  exact ⟨[.atom l], readsAs_comparison h b, by simp, by simp⟩

/-! ### Filters made of comparisons -/

private theorem wellFormed_join (c : Conjunction) {parts : List Statement} (hne : parts ≠ [])
    (h : ∀ s ∈ parts, WellFormed s.sql.toList) :
    WellFormed (Statement.join c.separator parts).sql.toList := by
  induction parts with
  | nil => exact absurd rfl hne
  | cons first rest ih =>
    rw [List.forall_mem_cons] at h
    cases rest with
    | nil => exact h.1
    | cons second rest =>
      have hjoin := h.1.append c (ih (by simp) h.2)
      simpa [Statement.join] using hjoin

/-- Groups inherit from their members that their text is well formed. -/
theorem inherited_wellFormed : Expr.Inherited fun _ _ s ↦ WellFormed s.sql.toList where
  alone := by
    intro _ c members only s _ h
    exact h
  group := by
    intro _ c members parts hmany h
    have hne : parts ≠ [] := by
      rintro rfl
      rw [List.forall₂_nil_right_iff.1 h] at hmany
      exact absurd hmany (by simp)
    have hjoin := wellFormed_join c hne (Expr.forall_of_forall₂ h)
    simpa using hjoin.paren

/-- A comparison of a plain column reference is well formed. -/
theorem wellFormed_comparison {l : Expr} (h : ComparesReference l) (b : Bool) :
    WellFormed (l.render b).sql.toList := by
  match l with
  | .compare column op arg =>
    refine ⟨(comparisonTokens column op).map .token, ?_, ?_⟩
    · rw [terms?_eq_some_iff, termLexemes_map_token, Expr.render]
      exact lexemes?_comparison h.1 h.2.2
    · rw [termLexemes_map_token]
      apply complete_of_forall_not
      · simp [comparisonTokens]
      · intro l hl
        obtain ⟨t, ht, rfl⟩ := List.mem_map.1 hl
        have hnot := not_isKeyword_of_mem h.2.1 h.2.2 ht
        refine ⟨nofun, nofun, ?_⟩
        rw [Lexeme.isConnective, hnot, hnot]
        rfl

private theorem flatMap_args {exprs : List Expr} {parts : List Statement}
    (h : List.Forall₂ (fun e s ↦ s.args = e.leaves.flatMap Expr.ownArgs) exprs parts) :
    parts.flatMap Statement.args = (exprs.flatMap Expr.leaves).flatMap Expr.ownArgs := by
  induction h with
  | nil => rfl
  | cons hfirst _ ih => simp [hfirst, ih]

/-- Groups inherit from their members that their arguments are those of their leaves in order. -/
theorem inherited_args :
    Expr.Inherited fun _ e s ↦ s.args = e.leaves.flatMap Expr.ownArgs where
  alone := by
    intro _ c members only s honly h
    rw [h, Expr.leaves, Expr.leavesOf_eq_flatMap, honly]
    simp
  group := by
    intro _ c members parts _ h
    rw [Expr.leaves, Expr.leavesOf_eq_flatMap, ← flatMap_args h,
      ← Statement.args_join c.separator]
    simp

/-- Filters made of comparisons of plain column references read as the conjunction of what they
mean: their text is well formed, has the comparisons as its atoms and brings their arguments along,
both in order. -/
theorem conditions_of_comparisons (exprs : List Expr)
    (h : ∀ l ∈ Expr.leavesOf exprs, ComparesReference l) :
    (conditions exprs).args = (Expr.leavesOf exprs).flatMap Expr.ownArgs ∧
      (Expr.nonEmpty exprs = [] → conditions exprs = ∅) ∧
      (Expr.nonEmpty exprs ≠ [] → WellFormed (conditions exprs).sql.toList ∧
        ∃ φ : Formula Expr,
          read? (conditions exprs).sql.toList = some (φ.map comparisonAtom) ∧
            φ.atoms = Expr.leavesOf exprs ∧
            ∀ v, φ.holds v =
              (Expr.nonEmpty exprs).all fun e ↦ (formula .atom e).holds v) := by
  refine ⟨?_, ?_, ?_⟩
  · have hmembers := inherited_args.renderMembers exprs (1 < (Expr.nonEmpty exprs).length) (by
      intro l hl b _
      match l, h l hl with
      | .compare column op arg, _ => simp [Expr.render, Expr.leaves, Expr.ownArgs])
    rw [conditions, Statement.args_join, flatMap_args hmembers, Expr.leavesOf_eq_flatMap]
  · intro hnil
    rw [conditions, Expr.renderMembers_eq_map, hnil]
    rfl
  · intro hne
    have hparts : Expr.renderMembers (1 < (Expr.nonEmpty exprs).length) exprs ≠ [] := by
      rwa [Expr.renderMembers_eq_map, Ne, List.map_eq_nil_iff]
    refine ⟨?_, ?_⟩
    · have hmembers := inherited_wellFormed.renderMembers exprs
        (1 < (Expr.nonEmpty exprs).length) fun l hl b _ ↦ wellFormed_comparison (h l hl) b
      exact wellFormed_join .and hparts (Expr.forall_of_forall₂ hmembers)
    · have hoperands : ∀ l ∈ Expr.leavesOf exprs, ∀ b,
          (1 < (Expr.nonEmpty exprs).length → b = true) →
          IsOperand comparisonAtom (l.render b) (formula .atom l) :=
        fun l hl b _ ↦ isOperand_comparison (h l hl) b
      obtain ⟨clause, hreads, hatoms, hholds⟩ := isOperand_conditions hne hoperands
      refine ⟨.ofAlternatives [clause], hreads.read?, ?_, ?_⟩
      · have hleaves := atoms_formulas (.atom : Expr → Formula Expr) exprs
        rw [Formula.atoms_all, hleaves] at hatoms
        simpa [Formula.ofAlternatives] using hatoms
      · intro v
        have hclause := hholds v
        rw [formulas_eq_map] at hclause
        simpa [Formula.ofAlternatives, List.all_map, Function.comp_def] using hclause

/-- Two filters beside blank text: an alternative with a conjunction and an empty group in it, and a
comparison alone in two groups. -/
def nestedComparisons : List Expr :=
  [.group .or [.compare "a" "=" .null, .group .and [],
      .group .and [.compare "t.b" "LIKE" (.string "x"), .compare "c" "<" .null]],
    .raw " " [], .group .or [.group .and [.compare "d" ">=" .null, .raw "" []]]]

/-- A comparison alone in its groups loses their parentheses, several filters under a conjunction
keep them, and blank text and an empty group are left out. -/
theorem conditions_nestedComparisons :
    (∀ l ∈ Expr.leavesOf nestedComparisons, ComparesReference l) ∧
      (conditions nestedComparisons).sql = "(a = ? OR (t.b LIKE ? AND c < ?)) AND d >= ?" ∧
      WellFormed (conditions nestedComparisons).sql.toList ∧
      ∃ φ : Formula Expr,
        read? (conditions nestedComparisons).sql.toList = some (φ.map comparisonAtom) ∧
          ∀ v, φ.holds v =
            ((v (.compare "a" "=" .null) ||
              (v (.compare "t.b" "LIKE" (.string "x")) && v (.compare "c" "<" .null))) &&
              v (.compare "d" ">=" .null)) := by
  have hleaves : ∀ l ∈ Expr.leavesOf nestedComparisons, ComparesReference l := by
    change ∀ l ∈ [Expr.compare "a" "=" .null, .compare "t.b" "LIKE" (.string "x"),
      .compare "c" "<" .null, .compare "d" ">=" .null], ComparesReference l
    simp only [List.forall_mem_cons, ComparesReference]
    refine ⟨⟨by decide, ?_, isOperator_of_mem (by decide)⟩,
      ⟨by decide, ?_, isOperator_of_mem (by decide)⟩,
      ⟨by decide, ?_, isOperator_of_mem (by decide)⟩,
      ⟨by decide, ?_, isOperator_of_mem (by decide)⟩, List.forall_mem_nil _⟩
    all_goals
      intro c
      cases c <;> decide
  obtain ⟨-, -, hne⟩ := conditions_of_comparisons nestedComparisons hleaves
  obtain ⟨hformed, φ, hread, -, hholds⟩ := hne (by decide)
  refine ⟨hleaves, by decide, hformed, φ, hread, ?_⟩
  intro v
  have hmeaning : formulas Formula.atom nestedComparisons =
      [.any [.atom (.compare "a" "=" .null),
          .all [.atom (.compare "t.b" "LIKE" (.string "x")), .atom (.compare "c" "<" .null)]],
        .any [.all [.atom (.compare "d" ">=" .null)]]] := by rfl
  have hall := List.all_map (f := formula Formula.atom) (p := Formula.holds v)
    (l := Expr.nonEmpty nestedComparisons)
  rw [← formulas_eq_map, hmeaning] at hall
  rw [hholds]
  exact hall.symm.trans (by simp)

end Reading

end RecordStore
