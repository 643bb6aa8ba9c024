import RecordStore.Proofs.Filter.Pruned
import RecordStore.Proofs.Query.Chain
import RecordStore.Proofs.Query.Shape

/-!
# Queries with pruned filters

It makes no difference to a query whether its filters are given to it as they are or pruned: what it
reads is narrowed by the same body, its updates and deletions are the same statements, and they are
refused in the same cases. The filters may come at any places of a chain of calls.
-/

namespace RecordStore

namespace Call

/-- A call that adds a filter adds what the filter is pruned to; every other call is as it is. -/
def pruned : Call → List Call
  | .filter e => (Expr.pruneAll [e]).map .filter
  | call => [call]

end Call

namespace Query

/-- The query without its filters. -/
def withoutFilters (q : Query) : Query := { q with filters := [] }

/-- Queries that differ at most in their filters, which are pruned to the same form. -/
structure SamePruned (p q : Query) : Prop where
  filters : Expr.pruneAll p.filters = Expr.pruneAll q.filters
  others : p.withoutFilters = q.withoutFilters

namespace SamePruned

variable {p q : Query}

theorem refl (q : Query) : q.SamePruned q := ⟨rfl, rfl⟩

theorem identity (h : p.SamePruned q) : p.identity = q.identity :=
  (congrArg Query.identity h.others :)

/-- Filters of one pruned form are added. -/
theorem filter (h : p.SamePruned q) {e e' : Expr} (he : Expr.pruneAll [e] = Expr.pruneAll [e']) :
    (p.filter e).SamePruned (q.filter e') := by
  have hisEmpty : e.isEmpty = e'.isEmpty := by
    rw [Bool.eq_iff_iff]
    have hnil := Expr.pruneAll_eq_nil_iff [e]
    rw [he, Expr.pruneAll_eq_nil_iff] at hnil
    simpa [Expr.allEmpty] using hnil.symm
  rw [Query.filter, Query.filter, hisEmpty]
  split
  · exact h
  · refine ⟨?_, h.others⟩
    change Expr.pruneAll (p.filters ++ [e]) = Expr.pruneAll (q.filters ++ [e'])
    rw [Expr.pruneAll_append, Expr.pruneAll_append, h.filters, he]

/-- One call is made on both. -/
theorem apply (h : p.SamePruned q) (call : Call) :
    (call.apply p).SamePruned (call.apply q) := by
  have hothers := congrArg call.apply h.others
  cases call with
  | filter e => exact h.filter rfl
  | filterEqual column value => exact h.filter rfl
  | search group =>
    rw [Call.apply, Call.apply, search, search]
    split
    · exact h.filter rfl
    · exact h
  | orderBy term =>
    rw [Call.apply, Call.apply, orderBy, orderBy]
    split
    · exact h
    · exact ⟨h.filters, congrArg (fun q ↦ { q with ordering := q.ordering ++ [term] }) h.others⟩
  | batch size after =>
    have hkey : p.keyColumn = q.keyColumn := by
      rw [keyColumn, keyColumn, table, table, primaryKey, primaryKey, h.identity]
    have hordered : (p.batch size none).SamePruned (q.batch size none) :=
      ⟨h.filters, congrArg (fun q : Query ↦ q.batch size none) h.others⟩
    cases after with
    | none => exact hordered
    | some key =>
      change ((p.batch size none).filterRaw (p.keyColumn ++ " > ?") [key]).SamePruned
        ((q.batch size none).filterRaw (q.keyColumn ++ " > ?") [key])
      rw [hkey]
      exact hordered.filter rfl
  | reset => exact ⟨rfl, hothers⟩
  | _ => exact ⟨h.filters, hothers⟩

/-- A call is made on one, and with its filter pruned on the other. -/
theorem pruned (h : p.SamePruned q) (call : Call) :
    (Call.applyAll p call.pruned).SamePruned (call.apply q) := by
  have hsame := h.apply call
  cases call with
  | filter e =>
    rw [Call.pruned, Expr.pruneAll]
    cases he : e.isEmpty with
    | true =>
      have hkept : q.filter e = q := by rw [Query.filter, he, if_pos rfl]
      change p.SamePruned (q.filter e)
      rw [hkept]
      exact h
    | false =>
      have hprune := Expr.pruneAll_eq_of_steps (Expr.steps_prune e [])
      exact h.filter hprune.symm
  | _ => exact hsame

/-- Chains of calls with filters as they are and with pruned ones. -/
theorem applyAll (h : p.SamePruned q) (calls : List Call) :
    (Call.applyAll p (calls.flatMap Call.pruned)).SamePruned (Call.applyAll q calls) := by
  induction calls generalizing p q with
  | nil => exact h
  | cons call rest ih =>
    rw [List.flatMap_cons, Call.applyAll, List.foldl_append]
    exact ih (h.pruned call)

/-! ### Statements -/

theorem table (h : p.SamePruned q) : p.table = q.table := by
  rw [Query.table, Query.table, h.identity]

/-- What an operation is narrowed by is pruned to the same form, and it is as many filters. -/
theorem callerFilters (h : p.SamePruned q) (conds : List Condition) :
    Expr.pruneAll (p.callerFilters conds) = Expr.pruneAll (q.callerFilters conds) ∧
      (p.callerFilters conds).length = (q.callerFilters conds).length := by
  have hasked : Expr.pruneAll (p.filters ++ conds.map (Condition.toExpr p.table p.primaryKey)) =
      Expr.pruneAll (q.filters ++ conds.map (Condition.toExpr q.table q.primaryKey)) := by
    rw [Expr.pruneAll_append, Expr.pruneAll_append, h.filters, h.table, primaryKey, primaryKey,
      h.identity]
  rw [Query.callerFilters, Query.callerFilters]
  constructor
  · rw [Expr.pruneAll_nonEmpty, Expr.pruneAll_nonEmpty, hasked]
  · rw [← Expr.length_pruneAll, ← Expr.length_pruneAll, hasked]

theorem scope (h : p.SamePruned q) : p.scope = q.scope := by
  have hdeleted : p.includesDeleted = q.includesDeleted :=
    (congrArg Query.includesDeleted h.others :)
  rw [Query.scope, Query.scope, h.table, h.identity, hdeleted]

theorem updatedFields (h : p.SamePruned q) (values : Fields) :
    p.updatedFields values = q.updatedFields values := by
  have hselected : p.selected = q.selected := (congrArg Query.selected h.others :)
  have homitted : p.omitted = q.omitted := (congrArg Query.omitted h.others :)
  have hwritable : p.isWritable = q.isWritable := by
    funext column
    rw [isWritable, isWritable, hselected, homitted, h.identity]
  rw [Query.updatedFields, Query.updatedFields, primaryKey, primaryKey, h.identity, hwritable]

/-- An operation has the same body, whatever stands behind the filters. -/
theorem body? (h : p.SamePruned q) (conds : List Condition) (behind : List Expr) :
    Query.body? (p.callerFilters conds ++ behind) =
      Query.body? (q.callerFilters conds ++ behind) := by
  obtain ⟨hfilters, hlength⟩ := h.callerFilters conds
  have hisEmpty : (p.callerFilters conds ++ behind).isEmpty =
      (q.callerFilters conds ++ behind).isEmpty := by
    apply isEmpty_eq_of_length_eq
    rw [List.length_append, List.length_append, hlength]
  have hpruned : Expr.pruneAll (p.callerFilters conds ++ behind) =
      Expr.pruneAll (q.callerFilters conds ++ behind) := by
    rw [Expr.pruneAll_append, Expr.pruneAll_append, hfilters]
  rw [Query.body?, Query.body?, hisEmpty, Expr.conditions_congr hpruned]

end SamePruned

/-- Queries that are narrowed alike: by one body, with one update and one deletion, each of them
refused for both or for neither. -/
structure NarrowedAlike (p q : Query) : Prop where
  body : ∀ conds, p.whereBody? conds = q.whereBody? conds
  update : ∀ values conds, p.updateStatement values conds = q.updateStatement values conds
  delete : ∀ conds deletion, p.deleteStatement conds deletion = q.deleteStatement conds deletion

/-- Queries are narrowed alike when their filters are pruned to one form. -/
theorem SamePruned.narrowedAlike {p q : Query} (h : p.SamePruned q) : p.NarrowedAlike q where
  body := by
    intro conds
    rw [whereBody?, whereBody?, h.scope, h.body?]
  update := by
    intro values conds
    have hisEmpty := isEmpty_eq_of_length_eq (h.callerFilters conds).2
    simp only [updateStatement, whereClause]
    rw [hisEmpty, h.updatedFields, h.scope, h.body?, h.table]
  delete := by
    intro conds deletion
    have hisEmpty := isEmpty_eq_of_length_eq (h.callerFilters conds).2
    have halone := h.body? conds []
    rw [List.append_nil, List.append_nil] at halone
    simp only [deleteStatement, whereClause]
    rw [hisEmpty, h.identity, h.scope, h.body?, halone, h.table]

end Query

/-- What a filter adds to a statement: nothing at all when it is empty, and else a text that is not
blank. -/
structure Expr.AddsUnlessEmpty (e : Expr) (s : Statement) : Prop where
  empty_iff : e.isEmpty = true ↔ (s ++ conditions [e]).sql = s.sql
  unchanged : e.isEmpty = true → s ++ conditions [e] = s
  added : e.isEmpty = false →
    ∃ text, isBlankText text = false ∧ (s ++ conditions [e]).sql = s.sql ++ text

/-- A filter adds something to a statement exactly when it is not empty. -/
theorem Expr.addsUnlessEmpty (e : Expr) (s : Statement) : e.AddsUnlessEmpty s := by
  have hempty (he : e.isEmpty = true) : s ++ conditions [e] = s := by
    have hnothing : conditions [e] = ∅ := e.writesNothing_iff.2 he
    rw [hnothing, Statement.append_empty]
  have hadded (he : e.isEmpty = false) : isBlankText (conditions [e]).sql = false :=
    (isConjunct_conditions (List.mem_singleton_self e) he).not_blank (isBlankText_render he _)
  refine ⟨⟨?_, ?_⟩, hempty, fun he ↦ ⟨_, hadded he, rfl⟩⟩
  · intro he
    rw [hempty he]
  · intro hsame
    by_contra he
    rw [Statement.sql_append, String.append_eq_left_iff] at hsame
    have hblank := hadded (Bool.eq_false_iff.2 he)
    rw [hsame] at hblank
    exact absurd hblank (by decide)

/-- A filter is empty exactly when it adds nothing to a statement. Filters are pruned to one form,
whatever the order of the steps; the form adds the same text, arguments and casts to a statement as
the filters; and a query that a chain of calls reaches is narrowed in the same way when the filters
in the chain are pruned. -/
theorem Query.pruning_keeps_statements (s : Statement) (e : Expr) (exprs : List Expr)
    (identity : TableIdentity) (calls : List Call) :
    e.AddsUnlessEmpty s ∧
      (∀ form, Expr.PrunesTo exprs form ↔ form = Expr.pruneAll exprs) ∧
      s ++ conditions (Expr.pruneAll exprs) = s ++ conditions exprs ∧
      (Call.applyAll (.ofIdentity identity) (calls.flatMap Call.pruned)).NarrowedAlike
        (Call.applyAll (.ofIdentity identity) calls) :=
  ⟨e.addsUnlessEmpty s, Expr.prunesTo_iff exprs, by rw [Expr.conditions_pruneAll],
    ((SamePruned.refl _).applyAll calls).narrowedAlike⟩

-- A group that is left with one member passes on that it stands alone.
example :
    Expr.pruneAll
      [.group .or [.raw " " [], .group .and [.raw "a = 1 OR b = 2" []]], .group .and []] =
      [.raw "a = 1 OR b = 2" []] := by
  rfl

end RecordStore
