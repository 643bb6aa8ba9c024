import RecordStore.Proofs.Query.Unfiltered
import RecordStore.Proofs.Repository.Operations

/-!
# Updates and deletions of a repository

Whatever the store answers, no update or deletion is executed without a filter of the caller or the
primary key of a row in its WHERE clause, the scope apart; and a write that is refused leaves the
store as it is.
-/

namespace RecordStore

/-! ### Statements that write -/

namespace Statement

/-- A statement that updates or deletes rows. -/
def IsWrite (s : Statement) : Prop :=
  "UPDATE ".toList <+: s.sql.toList ∨ "DELETE ".toList <+: s.sql.toList

/-- What is made of the head of a write is a write. -/
theorem IsWrite.withWhere {head : Statement} (h : head.IsWrite) (body : Statement)
    (after : String) : (head.withWhere body after).IsWrite := by
  have hhead : head.sql.toList <+: (head.withWhere body after).sql.toList := by
    rw [Statement.withWhere, sql_append, String.toList_append]
    exact List.prefix_append _ _
  exact h.imp (fun hword ↦ hword.trans hhead) fun hword ↦ hword.trans hhead

end Statement

/-- An update is a write. -/
theorem Query.isWrite_updateHead (q : Query) (values : Fields) : (q.updateHead values).IsWrite := by
  left
  simp only [updateHead, Statement.withArgs, String.toList_append, List.append_assoc]
  exact List.prefix_append _ _

/-- A statement is a write when it is narrowed after the head of one. -/
theorem Statement.NarrowedBy.isWrite {s head : Statement} {exprs : List Expr}
    (h : s.NarrowedBy head exprs) (hhead : head.IsWrite) : s.IsWrite := by
  obtain ⟨body, rfl, -⟩ := h
  exact hhead.withWhere body ""

-- A statement begins with one word.
private theorem not_isWrite {s : Statement} {word : List Char} (h : word <+: s.sql.toList)
    (hupdate : ¬"UPDATE ".toList <+: word) (hdelete : ¬"DELETE ".toList <+: word)
    (hlength : 7 ≤ word.length) : ¬s.IsWrite := by
  rintro (hwrite | hwrite)
  · exact hupdate (List.prefix_of_prefix_length_le hwrite h hlength)
  · exact hdelete (List.prefix_of_prefix_length_le hwrite h hlength)

/-- A read is no write. -/
theorem Query.not_isWrite_selectStatement (q : Query) (conds : List Condition) :
    ¬(q.selectStatement conds).IsWrite := by
  have hword : "SELECT ".toList <+: (q.selectStatement conds).sql.toList := by
    rw [selectStatement, selectColumns, unordered]
    simp only [Statement.append_text_eq, Statement.text_append_eq, Statement.sql_append,
      Statement.ofText, String.toList_append, List.append_assoc]
    exact List.prefix_append _ _
  exact not_isWrite hword (by decide) (by decide) (by decide)

/-- An insertion is no write, whatever it does to rows that are there already. -/
theorem Query.not_isWrite_insertStatement {q : Query} {rows : List Fields} {s : Statement}
    (h : q.insertStatement rows = .ok s) : ¬s.IsWrite := by
  have hword : "INSERT ".toList <+: s.sql.toList := by
    simp only [insertStatement] at h
    split at h
    · cases h
    · cases h
      simp only [Statement.withArgs, String.toList_append, List.append_assoc]
      have hinto : "INSERT ".toList <+: "INSERT INTO ".toList := by decide
      exact hinto.trans (List.prefix_append _ _)
  exact not_isWrite hword (by decide) (by decide) (by decide)

/-! ### What is executed -/

namespace Action

variable {ε α : Type} {P : Statement → Prop} {action : Action ε α}

/-- Whatever session an action runs in, each statement that it executes has a property. -/
def Executes (P : Statement → Prop) (action : Action ε α) : Prop :=
  ∀ session, ∃ sent : List Statement,
    (action.runIn session).2.executed = session.executed ++ sent.map Executed.ofStatement ∧
      ∀ s ∈ sent, P s

/-- An action that keeps a discipline executes what the discipline allows. -/
theorem Obeys.executes {d : Discipline ε} (h : action.Obeys d) (hsends : ∀ s, d.sends s → P s) :
    action.Executes P := by
  intro session
  obtain ⟨sent, hkept⟩ := h session
  refine ⟨sent, ?_, fun s hs ↦ hsends s (hkept.sends s hs)⟩
  rw [hkept.later]
  rfl

end Action

namespace Repository

variable {α : Type} {r : Repository α} {given : List Expr}

/-- A write that is to be narrowed by filters. What it executes is narrowed by them; when each of
them writes nothing it is refused; and when it is refused, for whatever reason, nothing is executed
and one event is logged. -/
structure NarrowedWrite (r : Repository α) (write : FilteredWrite) (head : Statement)
    (exprs : List Expr) (action : Action RepositoryError Nat) : Prop where
  executes : action.Executes fun s ↦ s.NarrowedBy head exprs
  refuses : (∀ e ∈ exprs, e.WritesNothing) → ∀ session,
    ∃ later, action.runIn session = (.error ⟨.database, .refusal (.unfiltered write)⟩, later)
  untouched : ∀ session refusal later,
    action.runIn session = (.error ⟨.database, .refusal refusal⟩, later) →
      later = session.after [] [r.context.event ⟨.database, .refusal refusal⟩]

private theorem narrowedWrite (r : Repository α) {statement : Except Refusal Statement}
    {write : FilteredWrite} {head : Statement} {exprs : List Expr}
    (hmade : ∀ s, statement = .ok s → s.NarrowedBy head exprs)
    (hrefused : (∀ e ∈ exprs, e.WritesNothing) → statement = .error (.unfiltered write)) :
    r.NarrowedWrite write head exprs (r.write statement) where
  executes := (r.obeys_write statement).executes hmade
  refuses := by
    intro hnothing session
    rw [hrefused hnothing, runIn_write_error]
    exact ⟨_, rfl⟩
  untouched := by
    intro session refusal later h
    cases statement with
    | ok s => exact absurd h (r.runIn_write_ok_ne_refusal s session refusal later)
    | error other =>
      rw [runIn_write_error] at h
      cases h
      rfl

/-- The writes of a repository whose query some filters have been asked for. -/
structure NarrowsWrites (r : Repository α) (given : List Expr) : Prop where
  /-- By the filters, or by the key that a value has. -/
  update : ∀ values, (r.update values).Executes fun s ↦ ∃ f changed,
    s.NarrowedBy (r.query.updateHead changed)
      (r.query.asking given (keyConditions r.query.primaryKey f))
  updateColumn : ∀ column value,
    r.NarrowedWrite .update (r.query.updateHead (.singleton column value))
      (r.query.asking given []) (r.updateColumn column value)
  delete : ∀ conds,
    r.NarrowedWrite .delete (r.query.deleteHead .soft) (r.query.asking given conds) (r.delete conds)
  hardDelete : ∀ conds,
    r.NarrowedWrite .delete (r.query.deleteHead .hard) (r.query.asking given conds)
      (r.hardDelete conds)
  /-- By the key of the row that was found. -/
  findOrCreate : ∀ conds, (r.findOrCreate conds).Executes fun s ↦ s.IsWrite →
    ∃ key, s.NarrowedBy (r.rowScope.updateHead r.query.assigned)
      [Condition.toExpr r.query.table r.query.primaryKey (.primaryKey key)]

private theorem findOrCreate_executes (r : Repository α) (conds : List Condition) :
    (r.findOrCreate conds).Executes fun s ↦ s.IsWrite →
      ∃ key, s.NarrowedBy (r.rowScope.updateHead r.query.assigned)
        [Condition.toExpr r.query.table r.query.primaryKey (.primaryKey key)] := by
  refine (r.obeys_findOrCreate conds).executes ?_
  rintro s (rfl | ⟨found, hs⟩ | ⟨group, hs⟩) hwrite
  · exact absurd hwrite (Query.not_isWrite_selectStatement _ conds)
  · -- The scope of a found row has no filters of its own.
    have hscope : r.rowScope.FiltersWrites [] := Query.filtersWrites rfl
    exact ⟨r.keyOf found, hscope.update_narrowed _ _ s hs⟩
  · exact absurd hwrite (Query.not_isWrite_insertStatement hs)

/-- A repository narrows its writes by what its query was asked for. -/
theorem narrowsWrites (h : r.query.FiltersWrites given) : r.NarrowsWrites given where
  update := by
    intro values
    refine (r.obeys_update values).executes ?_
    rintro s ⟨f, changed, hs⟩
    exact ⟨f, changed, h.update_narrowed _ _ s hs⟩
  updateColumn := fun column value ↦
    r.narrowedWrite (h.update_narrowed _ []) (h.update_refused _ []).2
  delete := fun conds ↦
    r.narrowedWrite (h.delete_narrowed conds .soft) (h.delete_refused conds .soft).2
  hardDelete := fun conds ↦
    r.narrowedWrite (h.delete_narrowed conds .hard) (h.delete_refused conds .hard).2
  findOrCreate := r.findOrCreate_executes

/-- A write is refused as unfiltered exactly when each filter that calls asked for and each
condition writes nothing, whatever the scope, and a write that is made holds all of them beside its
scope. So no operation updates or deletes without a filter of the caller or the key of a row, and
one that is refused leaves the store as it is. -/
theorem no_unfiltered_write (model : Model α) (ctx : Context) (calls : List Call) :
    let r := (ofModel model ctx).refine fun q ↦ Call.applyAll q calls
    let asked := Call.asked model.query [] calls
    r.query.FiltersWrites asked ∧ r.NarrowsWrites asked := by
  intro r asked
  have hfilters : r.query.FiltersWrites asked := Query.filtersWrites_applyAll model.identity calls
  exact ⟨hfilters, narrowsWrites hfilters⟩

/-- Products of which nothing is asked are not deleted; those of a kind are updated by that kind. -/
theorem no_unfiltered_write_products :
    let reached (calls : List Call) := ofProducts.refine fun q ↦ Call.applyAll q calls
    let kind : Expr := .raw "k = ?" [.int 7]
    (∀ session, ∃ event, ((reached [.filter (.raw " " [])]).delete []).runIn session =
      (.error ⟨.database, .refusal (.unfiltered .delete)⟩, session.after [] [event])) ∧
    ∃ s, (reached [.filter kind]).query.updateStatement (.singleton "price" (.int 5)) [] = .ok s ∧
      s.IsWrite ∧
      s.NarrowedBy ((reached [.filter kind]).query.updateHead (.singleton "price" (.int 5)))
        [kind] := by
  intro reached kind
  have hblank := (no_unfiltered_write ofProducts.model ofProducts.context [.filter (.raw " " [])]).2
  have hkind := (no_unfiltered_write ofProducts.model ofProducts.context [.filter kind]).1
  have hnarrowed := hkind.update_narrowed (.singleton "price" (.int 5)) [] _ rfl
  refine ⟨fun session ↦ ?_, _, rfl, hnarrowed.isWrite (Query.isWrite_updateHead _ _), hnarrowed⟩
  have hnothing : ∀ e ∈ [Expr.raw " " []], e.WritesNothing := List.forall_mem_singleton.2 rfl
  obtain ⟨later, hrun⟩ := (hblank.delete []).refuses hnothing session
  rw [(hblank.delete []).untouched session _ later hrun] at hrun
  exact ⟨_, hrun⟩

end Repository

end RecordStore
