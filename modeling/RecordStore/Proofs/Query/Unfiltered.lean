import RecordStore.Proofs.Filter.Emptiness
import RecordStore.Proofs.Query.Chain
import RecordStore.Proofs.Query.Where

/-!
# Writes without a filter

A chain of calls asks for filters, and those that write nothing are dropped on the way. A write is
refused exactly when nothing is left of what was asked for, its own conditions included, whatever
the scope; and a write that is made holds everything that was asked for in its WHERE clause.
-/

namespace RecordStore

namespace Call

/-- The filters that have been asked for after a call, given those asked for before it. -/
def asks (q : Query) (given : List Expr) : Call → List Expr
  | .filter e => given ++ [e]
  | .filterEqual column value =>
    given ++ [Condition.equality (Identifier.quoteReference column) value]
  | .search group => given ++ (group.bind KeywordGroup.compile).toList
  | .batch _ (some key) => given ++ [.raw (q.keyColumn ++ " > ?") [key]]
  | .reset => []
  | _ => given

/-- The filters that have been asked for after calls, one after another. -/
def asked (q : Query) (given : List Expr) : List Call → List Expr
  | [] => given
  | call :: rest => asked (call.apply q) (call.asks q given) rest

end Call

namespace Query

variable {q : Query} {given : List Expr}

private theorem filters_filter (h : q.filters = Expr.nonEmpty given) (e : Expr) :
    (q.filter e).filters = Expr.nonEmpty (given ++ [e]) := by
  rw [filter, Expr.nonEmpty, List.filter_append, ← Expr.nonEmpty, ← h]
  cases he : e.isEmpty <;> simp [he]

-- A call keeps of what is asked for the filters that write something.
private theorem filters_apply (h : q.filters = Expr.nonEmpty given) (call : Call) :
    (call.apply q).filters = Expr.nonEmpty (call.asks q given) := by
  cases call with
  | filter e => exact filters_filter h e
  | filterEqual column value => exact filters_filter h _
  | search group =>
    rw [Call.apply, Call.asks, search]
    cases group.bind KeywordGroup.compile with
    | none => simpa using h
    | some e => exact filters_filter h e
  | orderBy term =>
    rw [Call.apply, orderBy]
    split <;> exact h
  | batch size after =>
    cases after with
    | none => exact h
    | some key =>
      have hordered :
          { q with ordering := [q.keyColumn], limit := some size, offset := none }.filters =
            Expr.nonEmpty given := h
      exact filters_filter hordered (.raw (q.keyColumn ++ " > ?") [key])
  | reset => rfl
  | _ => exact h

/-- The filters of a query are those that calls asked for and that write something. -/
theorem filters_applyAll (h : q.filters = Expr.nonEmpty given) (calls : List Call) :
    (Call.applyAll q calls).filters = Expr.nonEmpty (Call.asked q given calls) := by
  induction calls generalizing q given with
  | nil => exact h
  | cons call rest ih => exact ih (filters_apply h call)

/-- What an operation is asked to be narrowed by: the filters of calls, then its own conditions. -/
def asking (q : Query) (given : List Expr) (conds : List Condition) : List Expr :=
  given ++ conds.map (Condition.toExpr q.table q.primaryKey)

/-- What is asked of a query for an operation, less what writes nothing. -/
theorem callerFilters_eq (h : q.filters = Expr.nonEmpty given) (conds : List Condition) :
    q.callerFilters conds = Expr.nonEmpty (q.asking given conds) := by
  rw [callerFilters, asking, h, Expr.nonEmpty, Expr.nonEmpty, Expr.nonEmpty, List.filter_append,
    List.filter_append, List.filter_filter]
  simp only [Bool.and_self]

/-- A deletion up to its conditions. -/
def deleteHead (q : Query) : Deletion → Statement
  | .soft =>
    match q.identity.softDelete with
    | some column => q.markHead column
    | none => q.removeHead
  | .hard => q.removeHead

end Query

namespace Statement

/-- A statement narrowed by filters, of which at least one writes something: after its head and
`WHERE` stands a body that is not blank and has each filter that writes something as a part of its
conjunction. -/
def NarrowedBy (s head : Statement) (exprs : List Expr) : Prop :=
  ∃ body, s = head.withWhere body "" ∧ isBlankText body.sql = false ∧
    (∃ e ∈ exprs, ¬e.WritesNothing) ∧
    ∀ e ∈ exprs, ¬e.WritesNothing → ∃ beside, (e.render beside).IsConjunct body

end Statement

-- What stands beside the filters, such as a scope, takes none of them away.
private theorem narrowedBy_conditions {s head : Statement} {exprs : List Expr}
    (beside : List Expr) (hne : Expr.nonEmpty exprs ≠ [])
    (hs : s = head.withWhere (conditions (Expr.nonEmpty exprs ++ beside)) "") :
    s.NarrowedBy head exprs := by
  have hconjunct : ∀ e ∈ exprs, e.isEmpty = false →
      (e.render (1 < (Expr.nonEmpty (Expr.nonEmpty exprs ++ beside)).length)).IsConjunct
        (conditions (Expr.nonEmpty exprs ++ beside)) := by
    intro e hmem he
    have hkept : e ∈ Expr.nonEmpty exprs := List.mem_filter.2 ⟨hmem, by rw [he]; rfl⟩
    exact Expr.isConjunct_conditions (List.mem_append_left _ hkept) he
  obtain ⟨e, hkept⟩ := List.exists_mem_of_ne_nil _ hne
  obtain ⟨hmem, he⟩ := List.mem_filter.1 hkept
  rw [Bool.not_eq_true'] at he
  refine ⟨_, hs, (hconjunct e hmem he).not_blank (Expr.isBlankText_render he _), ⟨e, hmem, ?_⟩, ?_⟩
  · rw [Expr.writesNothing_iff, he]
    exact nofun
  · intro e hmem he
    rw [Expr.writesNothing_iff, Bool.not_eq_true] at he
    exact ⟨_, hconjunct e hmem he⟩

/-- The writes of a query for which some filters have been asked: one is refused as unfiltered
exactly when each of the filters and of its own conditions writes nothing, and one that is made is
narrowed by all of them. -/
structure Query.FiltersWrites (q : Query) (given : List Expr) : Prop where
  update_refused : ∀ values conds, q.updateStatement values conds = .error (.unfiltered .update) ↔
    ∀ e ∈ q.asking given conds, e.WritesNothing
  delete_refused : ∀ conds deletion,
    q.deleteStatement conds deletion = .error (.unfiltered .delete) ↔
      ∀ e ∈ q.asking given conds, e.WritesNothing
  update_narrowed : ∀ values conds s, q.updateStatement values conds = .ok s →
    s.NarrowedBy (q.updateHead values) (q.asking given conds)
  delete_narrowed : ∀ conds deletion s, q.deleteStatement conds deletion = .ok s →
    s.NarrowedBy (q.deleteHead deletion) (q.asking given conds)

namespace Query

variable {q : Query} {given : List Expr} {conds : List Condition} {s : Statement}

private theorem update_unfiltered_iff (q : Query) (values : Fields) (conds : List Condition) :
    q.updateStatement values conds = .error (.unfiltered .update) ↔ q.callerFilters conds = [] := by
  simp only [updateStatement]
  constructor
  · intro h
    split at h
    · next hempty => exact List.isEmpty_iff.1 hempty
    · split at h <;> cases h
  · intro hnil
    rw [hnil]
    rfl

private theorem delete_unfiltered_iff (q : Query) (conds : List Condition) (deletion : Deletion) :
    q.deleteStatement conds deletion = .error (.unfiltered .delete) ↔
      q.callerFilters conds = [] := by
  simp only [deleteStatement]
  constructor
  · intro h
    split at h
    · next hempty => exact List.isEmpty_iff.1 hempty
    · split at h <;> cases h
  · intro hnil
    rw [hnil]
    rfl

/-- The writes of a query are filtered by all that has been asked for. -/
theorem filtersWrites (h : q.filters = Expr.nonEmpty given) : q.FiltersWrites given where
  update_refused := by
    intro values conds
    rw [update_unfiltered_iff, callerFilters_eq h, Expr.nonEmpty_eq_nil_iff]
  delete_refused := by
    intro conds deletion
    rw [delete_unfiltered_iff, callerFilters_eq h, Expr.nonEmpty_eq_nil_iff]
  update_narrowed := by
    intro values conds s hs
    have hne : q.callerFilters conds ≠ [] := by
      rw [ne_eq, ← update_unfiltered_iff q values, hs]
      intro hrefused
      cases hrefused
    rw [callerFilters_eq h] at hne
    apply narrowedBy_conditions q.scope hne
    rw [updateStatement_eq hs, scopedFilters, callerFilters_eq h]
  delete_narrowed := by
    intro conds deletion s hs
    have hne : q.callerFilters conds ≠ [] := by
      rw [ne_eq, ← delete_unfiltered_iff q conds deletion, hs]
      intro hrefused
      cases hrefused
    rw [callerFilters_eq h] at hne
    have hremoved (hard : q.identity.softDelete = none ∨ deletion = .hard) :
        s.NarrowedBy q.removeHead (q.asking given conds) := by
      apply narrowedBy_conditions [] hne
      rw [deleteStatement_hard_eq hard hs, callerFilters_eq h, List.append_nil]
    cases deletion with
    | hard => exact hremoved (.inr rfl)
    | soft =>
      rw [deleteHead]
      split
      · next column hmark =>
        apply narrowedBy_conditions q.scope hne
        rw [deleteStatement_soft_eq hmark hs, scopedFilters, callerFilters_eq h]
      · next hmark => exact hremoved (.inl hmark)

/-- A query that a chain of calls reaches from its table filters its writes by what they asked for.
-/
theorem filtersWrites_applyAll (identity : TableIdentity) (calls : List Call) :
    (Call.applyAll (.ofIdentity identity) calls).FiltersWrites
      (Call.asked (.ofIdentity identity) [] calls) :=
  filtersWrites (filters_applyAll rfl calls)

end Query

end RecordStore
