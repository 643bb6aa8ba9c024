import RecordStore.Proofs.Filter.Siblings
import RecordStore.Proofs.Query.Where

/-!
# The scope of a query

A query of a table that keeps deleted rows asks in every read, count, update and soft deletion that
the mark of deletion is null. The mark is a quoted name and reads as one atom, whatever the name is.
So a row that is marked as deleted is out of reach as long as no filter of the caller is exposed.
-/

namespace RecordStore

open Reading

/-! ### Quoted names as tokens -/

namespace Reading

/-- The tokens of a quoted name whose first characters are read already. A quote that stands twice
in the text ends one token and begins the next. -/
def quotedTokens (read : List Char) : List Char → List Token
  | [] => [.quoted '"' read]
  | c :: rest =>
    if c = '"' then .quoted '"' read :: quotedTokens [] rest else quotedTokens (read ++ [c]) rest

private theorem opensUnread_quote (pending : List Char) (next : Option Char) :
    opensUnread pending '"' next = false := by
  simp [opensUnread]

private theorem lexemesFrom_quoted (name read after : List Char) :
    lexemesFrom (some '"') read (name.flatMap Identifier.quotedChar ++ '"' :: after) =
      (lexemesFrom none [] after).map ((quotedTokens read name).map .token ++ ·) := by
  induction name generalizing read with
  | nil => simp [lexemesFrom, quotedTokens]
  | cons c rest ih =>
    rw [List.flatMap_cons, quotedTokens]
    by_cases hc : c = '"'
    · simp only [hc, Identifier.quotedChar, ↓reduceIte, List.cons_append, List.nil_append,
        lexemesFrom, opensUnread_quote, Bool.false_eq_true, or_true]
      rw [if_neg (by decide), ih [], Option.map_map, Option.map_map]
      rfl
    · simp only [hc, Identifier.quotedChar, ↓reduceIte, List.cons_append, List.nil_append,
        lexemesFrom, ih (read ++ [c])]

/-- A quoted name is read as its tokens, whatever comes after it. -/
theorem lexemesFrom_quoteChars (pending name after : List Char) :
    lexemesFrom none pending (Identifier.quoteChars name ++ after) =
      (lexemesFrom none [] after).map
        (flush pending ++ (quotedTokens [] name).map .token ++ ·) := by
  have hquoted := lexemesFrom_quoted name [] after
  rw [Identifier.quoteChars, List.cons_append, List.append_assoc, List.cons_append,
    List.nil_append, lexemesFrom]
  simp only [opensUnread_quote, Bool.false_eq_true, ↓reduceIte, or_true]
  rw [if_neg (by decide), hquoted, Option.map_map]
  congr 1
  funext ls
  simp [List.append_assoc]

/-- The tokens of the test that a column of a table is null. -/
def nullTestTokens (table column : String) : List Token :=
  quotedTokens [] table.toList ++ .word ['.'] ::
    (quotedTokens [] column.toList ++ [.word ['I', 'S'], .word ['N', 'U', 'L', 'L']])

/-- The test that a column of a table is null, as an atom. -/
def nullTestAtom (table column : String) : Atom := (nullTestTokens table column).map .token

private theorem lexemes?_nullTest (table column : String) :
    lexemes? (Identifier.qualified table column ++ " IS NULL").toList =
      some ((nullTestTokens table column).map .token) := by
  have htext : (Identifier.qualified table column ++ " IS NULL").toList =
      Identifier.quoteChars table.toList ++
        '.' :: (Identifier.quoteChars column.toList ++ " IS NULL".toList) := by
    simp [Identifier.qualified, String.toList_append]
  have hend : lexemesFrom none [] " IS NULL".toList =
      some [.token (.word ['I', 'S']), .token (.word ['N', 'U', 'L', 'L'])] := by decide
  have hpoint : lexemesFrom none []
      ('.' :: (Identifier.quoteChars column.toList ++ " IS NULL".toList)) =
      lexemesFrom none ['.'] (Identifier.quoteChars column.toList ++ " IS NULL".toList) := by
    rw [lexemesFrom]
    simp [opensUnread, isWordChar]
  rw [htext, lexemes?, lexemesFrom_quoteChars, hpoint, lexemesFrom_quoteChars, hend]
  simp [nullTestTokens, flush]

private theorem isKeyword_quotedTokens (name : List Char) (read keyword : List Char) :
    ∀ t ∈ quotedTokens read name, t.isKeyword keyword = false := by
  induction name generalizing read with
  | nil => simp [quotedTokens, Token.isKeyword]
  | cons c rest ih =>
    rw [quotedTokens]
    split
    · rw [List.forall_mem_cons]
      exact ⟨rfl, ih []⟩
    · exact ih _

private theorem isKeyword_nullTestTokens (table column : String) (c : Conjunction) :
    ∀ t ∈ nullTestTokens table column, t.isKeyword (keyword c) = false := by
  intro t ht
  rcases List.mem_append.1 ht with ht | ht
  · exact isKeyword_quotedTokens _ _ _ t ht
  · rcases List.mem_cons.1 ht with rfl | ht
    · cases c <;> decide
    · rcases List.mem_append.1 ht with ht | ht
      · exact isKeyword_quotedTokens _ _ _ t ht
      · have hwords : ∀ u ∈ [Token.word ['I', 'S'], .word ['N', 'U', 'L', 'L']],
            u.isKeyword (keyword c) = false := by cases c <;> decide
        exact hwords t ht

/-- The test that a column of a table is null reads as one atom, whatever their names are. -/
theorem readsAs_nullTest {α : Type} {text : α → Atom} {table column : String} {label : α}
    (hlabel : text label = nullTestAtom table column) :
    ReadsAs text (Identifier.qualified table column ++ " IS NULL").toList [[.atom label]] :=
  readsAs_of_tokens (lexemes?_nullTest table column) hlabel (by simp [nullTestTokens])
    fun t ht c ↦ isKeyword_nullTestTokens table column c t ht

end Reading

namespace Query

/-! ### The conditions of a scoped query -/

section

variable {α : Type} {text : α → Atom}

private theorem isBlankText_nullTest (name : String) :
    isBlankText (name ++ " IS NULL") = false := by
  have hend : " IS NULL".toList.all isBlankChar = false := by decide
  rw [isBlankText, String.toList_append, List.all_append, hend, Bool.and_false]

/-- A scoped query asks one thing more than its caller does: that the mark of deletion is null. -/
theorem scope_eq {q : Query} {column : String} (hmark : q.identity.softDelete = some column)
    (hscoped : q.includesDeleted = false) :
    q.scope = [.raw (Identifier.qualified q.table column ++ " IS NULL") []] := by
  rw [scope, hmark, hscoped]
  rfl

private theorem nonEmpty_callerFilters (q : Query) (conds : List Condition) :
    Expr.nonEmpty (q.callerFilters conds) = q.callerFilters conds := by
  rw [callerFilters, Expr.nonEmpty, Expr.nonEmpty, List.filter_filter]
  simp

/-- The conditions of a scoped query read as the conjunction of what the caller asks and of the mark
of deletion being null, when no leaf of the caller's filters is exposed. -/
theorem isOperand_scoped {q : Query} {column : String}
    (hmark : q.identity.softDelete = some column) (hscoped : q.includesDeleted = false)
    {label : α} (hlabel : text label = nullTestAtom q.table column) {leaf : Expr → Formula α}
    {conds : List Condition}
    (h : ∀ l ∈ Expr.leavesOf (q.callerFilters conds), ReadsAlone text l (leaf l) ∧ ¬IsExposed l) :
    IsOperand text (conditions (q.callerFilters conds ++ q.scope))
      (.all (formulas leaf (q.callerFilters conds) ++ [.atom label])) := by
  have hscope : IsOperand text (.ofText (Identifier.qualified q.table column ++ " IS NULL"))
      (.atom label) := ⟨[.atom label], readsAs_nullTest hlabel, by simp, by simp⟩
  have hnonEmpty : Expr.nonEmpty (q.callerFilters conds ++ q.scope) =
      q.callerFilters conds ++ [.raw (Identifier.qualified q.table column ++ " IS NULL") []] := by
    rw [scope_eq hmark hscoped, Expr.nonEmpty, List.filter_append, ← Expr.nonEmpty,
      nonEmpty_callerFilters]
    simp [Expr.isEmpty, isBlankText_nullTest]
  have hcallers := (inherited_isOperand text leaf).renderMembers (q.callerFilters conds)
    (1 < (q.callerFilters conds).length + 1) (by
      intro l hl b hb
      have hne : q.callerFilters conds ≠ [] := by
        intro hnil
        rw [hnil, Expr.leavesOf] at hl
        cases hl
      have hpos := List.length_pos_iff.2 hne
      rw [hb (decide_eq_true (by omega)), formula_of_isLeaf (Expr.isLeaf_of_mem_leavesOf _ l hl)]
      exact isOperand_of_not_isExposed (Expr.isLeaf_of_mem_leavesOf _ l hl) (h l hl).1 (h l hl).2)
  rw [conditions, Expr.renderMembers_eq_map, hnonEmpty, List.length_append, List.map_append]
  apply isOperand_join_and (by simp)
  rw [Expr.renderMembers_eq_map, nonEmpty_callerFilters] at hcallers
  rw [formulas_eq_map, nonEmpty_callerFilters]
  refine List.rel_append (List.forall₂_map_right_iff.2 hcallers.flip) ?_
  exact .cons (hscope.raw _ []) .nil

end

/-! ### Filters beside others and beside the scope -/

/-- Several filters that are no groups hold together exactly when each of them holds, if none of
them is exposed, and only then if their atoms are all apart. The same goes for the filters of a
scoped query beside its scope: every read, count, update and soft deletion asks in its WHERE clause
what the caller asks and that the mark of deletion is null. -/
theorem filters_beside_scope {α : Type} (text : α → Atom) :
    (∀ {exprs : List Expr} {φs : List (Formula α)},
      (∀ e ∈ Expr.nonEmpty exprs, e.isLeaf = true) → 1 < (Expr.nonEmpty exprs).length →
      List.Forall₂ (ReadsAlone text) (Expr.nonEmpty exprs) φs →
      ∃ φ : Formula α, read? (conditions exprs).sql.toList = some (φ.map text) ∧
        φ.atoms = φs.flatMap Formula.atoms ∧
        ((∀ e ∈ Expr.nonEmpty exprs, ¬IsExposed e) →
          ∀ v, φ.holds v = φs.all (Formula.holds v)) ∧
        ((φs.flatMap Formula.atoms).Nodup → (∀ v, φ.holds v = φs.all (Formula.holds v)) →
          ∀ e ∈ Expr.nonEmpty exprs, ¬IsExposed e)) ∧
    (∀ {leaf : Expr → Formula α} {label : α} {q : Query} {conds : List Condition}
      {column : String},
      q.identity.softDelete = some column → q.includesDeleted = false →
      text label = nullTestAtom q.table column →
      (∀ l ∈ Expr.leavesOf (q.callerFilters conds),
        ReadsAlone text l (leaf l) ∧ ¬IsExposed l) →
      ∃ body : Statement,
        (∃ φ : Formula α, read? body.sql.toList = some (φ.map text) ∧
          ∀ v, φ.holds v =
            ((formulas leaf (q.callerFilters conds)).all (Formula.holds v) && v label)) ∧
        (∀ columns, q.selectColumns columns conds =
          (q.selectHead columns).withWhere body (q.groupClause ++ q.windowClause)) ∧
        q.countStatement conds = q.countHead.withWhere body q.countTail ∧
        (∀ values s, q.updateStatement values conds = .ok s →
          s = (q.updateHead values).withWhere body "") ∧
        (∀ s, q.deleteStatement conds .soft = .ok s →
          s = (q.markHead column).withWhere body "")) := by
  refine ⟨fun hleaf hmany h ↦ conditions_beside hleaf hmany h, ?_⟩
  intro leaf label q conds column hmark hscoped hlabel h
  have hne : q.scopedFilters conds ≠ [] := by
    rw [scopedFilters, scope_eq hmark hscoped]
    simp
  refine ⟨conditions (q.scopedFilters conds), ?_, selectColumns_eq hne, countStatement_eq hne,
    fun _ _ ↦ updateStatement_eq, fun _ ↦ deleteStatement_soft_eq hmark⟩
  obtain ⟨clause, hreads, -, hholds⟩ := isOperand_scoped hmark hscoped hlabel h
  refine ⟨_, hreads.read?, ?_⟩
  intro v
  have hclause := hholds v
  rw [Formula.holds_all, List.all_append] at hclause
  simpa [Formula.ofAlternatives] using hclause

/-- The atom of a comparison of a column named by one letter; `d` marks rows of `t` as deleted. -/
def letterAtom (c : Char) : Atom :=
  if c = 'd' then nullTestAtom "t" "d"
  else [.token (.word [c]), .token (.symbol '='), .token (.symbol '?')]

/-- A keyword with a line break after it exposes its text; one between blanks does not, and neither
does a conjunction beside it. -/
theorem filters_beside_scope_letters :
    (∃ φ : Formula Char,
      read? (conditions [.raw "a = ? OR\nb = ?" [.null, .null], .raw "c = ?" [.null]]).sql.toList =
        some (φ.map letterAtom) ∧ ¬∀ v, φ.holds v = ((v 'a' || v 'b') && v 'c')) ∧
    ∃ body : Statement, (∃ φ : Formula Char, read? body.sql.toList = some (φ.map letterAtom) ∧
        ∀ v, φ.holds v = ((v 'a' || v 'b') && v 'c' && v 'd')) ∧
      (((ofTable "t").withSoftDelete "d").filterRaw "a = ? OR b = ?" [.null, .null]).countStatement
        [.raw "c = ?" [.null]] = (ofTable "t").countHead.withWhere body "" := by
  refine ⟨?_, ?_⟩
  · let exprs : List Expr := [.raw "a = ? OR\nb = ?" [.null, .null], .raw "c = ?" [.null]]
    have halone : List.Forall₂ (ReadsAlone letterAtom) (Expr.nonEmpty exprs)
        [.any [.all [.atom 'a'], .all [.atom 'b']], .any [.all [.atom 'c']]] :=
      .cons (by rfl) (.cons (by rfl) .nil)
    obtain ⟨φ, hread, -, -, honly⟩ := (filters_beside_scope letterAtom).1 (by decide) (by decide)
      halone
    refine ⟨φ, hread, ?_⟩
    intro hholds
    have hexposed := honly (by decide) (by simpa using hholds)
      (.raw "a = ? OR\nb = ?" [.null, .null]) (by exact .head _)
    exact hexposed ⟨by decide, _, rfl, by decide⟩
  · let leaf : Expr → Formula Char := fun l ↦
      if l.ownArgs.length = 1 then .any [.all [.atom 'c']]
      else .any [.all [.atom 'a'], .all [.atom 'b']]
    let q := ((ofTable "t").withSoftDelete "d").filterRaw "a = ? OR b = ?" [.null, .null]
    have hone : ¬IsExposed (.raw "c = ?" [.null]) := by
      rintro ⟨-, alternatives, hread, hlength⟩
      have hc : read? "c = ?".toList = some ((Formula.any [.all [.atom 'c']]).map letterAtom) := rfl
      rw [hc, Option.some.injEq, Formula.map_any, Formula.any.injEq] at hread
      subst hread
      exact absurd hlength (by decide)
    have hlabel : letterAtom 'd' = nullTestAtom q.table "d" := rfl
    have hleaves : ∀ l ∈ Expr.leavesOf (q.callerFilters [.raw "c = ?" [.null]]),
        ReadsAlone letterAtom l (leaf l) ∧ ¬IsExposed l := by
      change ∀ l ∈ [Expr.raw "a = ? OR b = ?" [.null, .null], .raw "c = ?" [.null]], _
      simp only [List.forall_mem_cons]
      exact ⟨⟨rfl, fun h ↦ absurd h.1 (by decide)⟩, ⟨rfl, hone⟩, List.forall_mem_nil _⟩
    obtain ⟨body, ⟨φ, hread, hholds⟩, -, hcount, -⟩ :=
      (filters_beside_scope letterAtom).2 rfl rfl hlabel hleaves
    refine ⟨body, ⟨φ, hread, ?_⟩, hcount⟩
    intro v
    have hmeaning : formulas leaf (q.callerFilters [.raw "c = ?" [.null]]) =
        [.any [.all [.atom 'a'], .all [.atom 'b']], .any [.all [.atom 'c']]] := rfl
    rw [hholds, hmeaning]
    simp [Bool.and_assoc]

end Query

end RecordStore
