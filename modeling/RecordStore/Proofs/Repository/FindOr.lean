import RecordStore.Proofs.Filter.Emptiness
import RecordStore.Proofs.Model.Entry
import RecordStore.Proofs.Query.InsertedColumns
import RecordStore.Proofs.Query.Where
import RecordStore.Proofs.Repository.BuiltRow
import RecordStore.Proofs.Repository.StoredRows

/-!
# A row that is found or made

Both operations look up the first row that matches, and end there when the look-up fails. Nothing
else is executed by the one that builds a missing row. The one that inserts it executes at most one
statement more: an update of the row that was found, by its primary key and nothing else, or an
insertion of the row that was built, never the one in place of the other.
-/

namespace RecordStore

open RecordStore.Action

/-! ### Texts -/

/-- A statement whose text begins with a word. -/
def Statement.Begins (s : Statement) (word : String) : Prop := word.toList <+: s.sql.toList

/-- The predicate of the rows with a primary key: null is tested for, and an array holds several
keys. -/
def Query.keyPredicate (q : Query) : Json → Statement
  | .null => .ofText (q.keyColumn ++ " IS NULL")
  | .array [] => .ofText "1 = 0"
  | .array (key :: keys) =>
    .withArgs
      (q.keyColumn ++ " IN (" ++ String.intercalate ", " ((key :: keys).map fun _ ↦ "?") ++ ")")
      (key :: keys)
  | key => .withArgs (q.keyColumn ++ " = ?") [key]

namespace Query

variable (q : Query)

/-- The filter on the primary key says something, whatever the key is. -/
theorem isEmpty_primaryKey (key : Json) :
    (Condition.toExpr q.table q.primaryKey (.primaryKey key)).isEmpty = false := by
  cases key with
  | array keys =>
    rw [Condition.toExpr, Condition.membership]
    split
    · decide
    · have hend : isBlankText ")" = false := by decide
      rw [Expr.isEmpty, isBlankText_append, hend, Bool.and_false]
  | null =>
    have hend : isBlankText " IS NULL" = false := by decide
    change isBlankText (_ ++ " IS NULL") = false
    rw [isBlankText_append, hend, Bool.and_false]
  | _ =>
    have hend : isBlankText " = ?" = false := by decide
    change isBlankText (_ ++ " = ?") = false
    rw [isBlankText_append, hend, Bool.and_false]

private theorem render_primaryKey (key : Json) :
    (Condition.toExpr q.table q.primaryKey (.primaryKey key)).render false =
      q.keyPredicate key := by
  cases key with
  | array keys => cases keys <;> rfl
  | _ => rfl

private theorem conditions_primaryKey (key : Json) :
    conditions [Condition.toExpr q.table q.primaryKey (.primaryKey key)] = q.keyPredicate key := by
  have hempty := q.isEmpty_primaryKey key
  simp only [conditions, Expr.nonEmpty, List.filter_cons, List.filter_nil, hempty, Bool.not_false,
    ↓reduceIte, List.length_singleton, Nat.lt_irrefl, decide_false, Expr.renderMembers,
    Bool.false_eq_true, Statement.join, render_primaryKey]

/-- The update of the row with a key, whatever has been accumulated, has the predicate of the key
and nothing else in its WHERE clause. -/
theorem updateStatement_primaryKey (values : Fields) (key : Json) :
    q.reset.unscoped.updateStatement values [.primaryKey key] =
      if (q.reset.updatedFields values).isEmpty then .error .noColumns
      else .ok ((q.reset.updateHead values).withWhere (q.keyPredicate key) "") := by
  have hfilters : q.reset.unscoped.callerFilters [.primaryKey key] =
      [Condition.toExpr q.table q.primaryKey (.primaryKey key)] := by
    have hkept : (!(Condition.toExpr q.table q.primaryKey (.primaryKey key)).isEmpty) = true := by
      rw [q.isEmpty_primaryKey key]
      rfl
    exact List.filter_cons_of_pos (p := fun e : Expr ↦ !e.isEmpty) hkept
  have hscope : q.reset.unscoped.scope = [] := by
    rw [scope]
    split <;> rfl
  rw [← conditions_primaryKey]
  split
  · next hnothing =>
    simp only [updateStatement, hfilters]
    exact if_pos hnothing
  · next hsome =>
    have hfiltered : ¬[Condition.toExpr q.table q.primaryKey (.primaryKey key)].isEmpty = true :=
      Bool.false_ne_true
    have hwritten : ¬(q.reset.unscoped.updatedFields values).isEmpty = true := hsome
    cases hs : q.reset.unscoped.updateStatement values [.primaryKey key] with
    | error refusal =>
      simp only [updateStatement, hfilters] at hs
      rw [if_neg hfiltered, if_neg hwritten] at hs
      cases hs
    | ok s =>
      rw [updateStatement_eq hs, scopedFilters, hfilters, hscope]
      rfl

private theorem begins_updateHead (values : Fields) (body : Statement) :
    ((q.updateHead values).withWhere body "").Begins "UPDATE " := by
  rw [Statement.Begins, Statement.withWhere, Statement.sql_append, updateHead, Statement.withArgs]
  simp only [String.toList_append, List.append_assoc]
  exact List.prefix_append _ _

end Query

-- A text does not begin with two different words of one length.
private theorem Statement.Begins.not_begins {s : Statement} {word other : String}
    (h : s.Begins word) (hlength : other.toList.length = word.toList.length) (hne : other ≠ word) :
    ¬s.Begins other := by
  intro hother
  have hbegins := List.prefix_of_prefix_length_le hother h (Nat.le_of_eq hlength)
  exact hne (String.toList_inj.1 (hbegins.eq_of_length hlength))

private theorem begins_insertStatement {q : Query} {rows : List Fields} {s : Statement}
    (h : q.insertStatement rows = .ok s) : s.Begins "INSERT " := by
  obtain ⟨-, rfl⟩ := (Query.insertStatement_eq_ok_iff s).1 h
  rw [Statement.Begins, Query.insertionInto, Statement.withArgs]
  simp only [String.toList_append, List.append_assoc]
  have hinto : "INSERT ".toList <+: "INSERT INTO ".toList := by decide
  exact hinto.trans (List.prefix_append _ _)

namespace Repository

variable {α : Type} (r : Repository α)

/-- The statement that both operations look up a row by. -/
def lookupOf (conds : List Condition) : Statement := r.query.first.selectStatement conds

/-- What the store answers to the look-up, read as a row if there is one. -/
def sought (session : Session) : Except StoreError (Option α) :=
  (session.answer 0).decodeOptional r.model.ofRow

/-- The update that assigns to the row with a key: its WHERE clause holds the predicate of the key
and nothing else. -/
def assignment (key : Json) : Statement :=
  (r.query.reset.updateHead r.query.assigned).withWhere (r.query.keyPredicate key) ""

/-- How values are assigned to a row that has been found, in a session after the look-up. At most
one statement is executed, an update by the key that the JSON of the row has, or by null. -/
inductive AssignsTo (r : Repository α) (found : α) (session : Session) :
    Except RepositoryError α × Session → Prop
  | unread {refusal : Refusal}
    (hread : r.model.ReadsLayers found [r.query.assigned] (.error refusal)) :
    AssignsTo r found session (r.context.ended session [] (.error (.refused refusal)))
  | unwritten {updated : α}
    (hread : r.model.ReadsLayers found [r.query.assigned] (.ok updated))
    (hnothing : (r.query.reset.updatedFields r.query.assigned).isEmpty = true) :
    AssignsTo r found session (r.context.ended session [] (.error (.refused .noColumns)))
  | written {updated : α} {key : Json} {s : Statement}
    (hread : r.model.ReadsLayers found [r.query.assigned] (.ok updated))
    (hsome : (r.query.reset.updatedFields r.query.assigned).isEmpty = false)
    (hkey : key = (r.model.entry? found r.query.primaryKey).getD .null) (hs : s = r.assignment key)
    (hupdate : s.Begins "UPDATE ") (hinsert : ¬s.Begins "INSERT ") :
    AssignsTo r found session (r.context.ended session [s]
      (((session.answer 0).toCount.mapError RepositoryError.ofStore).map fun _ ↦ updated))

/-- How a row that has been built, if it has, is inserted in a session after the look-up. At most
one statement is executed, an insertion of the row. The row is given back as stored. -/
inductive Inserts (r : Repository α) (session : Session) :
    Except Refusal α → Except RepositoryError α × Session → Prop
  | unbuilt (refusal : Refusal) : Inserts r session (.error refusal)
    (r.context.ended session [] (.error (.refused refusal)))
  | refused {row : α} {refusal : Refusal}
    (hrefused : (do r.query.insertStatement [← r.model.fields row]) = .error refusal) :
    Inserts r session (.ok row) (r.context.ended session [] (.error (.refused refusal)))
  | inserted {row : α} {f : Fields} {s : Statement} (hf : r.model.fields row = .ok f)
    (hs : r.query.insertStatement [f] = .ok s)
    (hinsert : s.Begins "INSERT ") (hupdate : ¬s.Begins "UPDATE ") :
    Inserts r session (.ok row) (r.context.ended session [s]
      ((((session.answer 0).decodeAll r.model.ofRow).mapError RepositoryError.ofStore).map
        fun stored ↦ stored.headD row))

/-- The two operations that find a row or make one. -/
structure FindsOrMakes (r : Repository α) (conds : List Condition) (session : Session) : Prop where
  /-- Nothing else is executed when the look-up fails. -/
  failed : ∀ e, r.sought session = .error e →
    (r.findOrInit conds).runIn session =
        r.context.ended session [r.lookupOf conds] (.error (.ofStore e)) ∧
      (r.findOrCreate conds).runIn session =
        r.context.ended session [r.lookupOf conds] (.error (.ofStore e))
  /-- The assigned values are laid over a row that is found, and nothing else is executed. -/
  found : ∀ row, r.sought session = .ok (some row) → ∃ outcome,
    r.model.ReadsLayers row [r.query.assigned] outcome ∧
      (r.findOrInit conds).runIn session =
        r.context.ended session [r.lookupOf conds] (outcome.mapError .refused)
  /-- Without assigned values a row is given back as it was found. -/
  kept : ∀ row, r.sought session = .ok (some row) → r.query.assigned.isEmpty = true →
    (r.findOrCreate conds).runIn session = (.ok row, session.after [r.lookupOf conds] [])
  assigned : ∀ row, r.sought session = .ok (some row) → r.query.assigned.isEmpty = false →
    r.AssignsTo row (session.after [r.lookupOf conds] []) ((r.findOrCreate conds).runIn session)
  /-- One row is built by both operations, and inserted by one of them. -/
  absent : r.sought session = .ok none → ∃ outcome,
    r.model.ReadsLayers r.model.default (r.layers conds) outcome ∧
      (r.findOrInit conds).runIn session =
        r.context.ended session [r.lookupOf conds] (outcome.mapError .refused) ∧
      r.Inserts (session.after [r.lookupOf conds] []) outcome
        ((r.findOrCreate conds).runIn session)

/-! ### The look-up -/

variable {r} {conds : List Condition} {session : Session}

/-- The look-up executes one statement, and gives the row that is sought. -/
theorem runIn_findOptional (r : Repository α) (conds : List Condition)
    (session : Session) :
    (r.findOptional conds).runIn session = r.context.ended session [r.lookupOf conds]
      ((r.sought session).mapError RepositoryError.ofStore) :=
  Context.runIn_database_eq (Store.asks_fetchOptional (r.lookupOf conds) r.model.ofRow)

private theorem runIn_bind_error {β : Type} {e : StoreError}
    (h : r.sought session = .error e) (next : Option α → Action RepositoryError β) :
    (r.findOptional conds >>= next).runIn session =
      r.context.ended session [r.lookupOf conds] (.error (.ofStore e)) := by
  have hlookup := runIn_findOptional r conds session
  rw [h] at hlookup
  exact Context.runIn_bind_error hlookup next

private theorem runIn_bind_ok {β : Type} {found : Option α}
    (h : r.sought session = .ok found) (next : Option α → Action RepositoryError β) :
    (r.findOptional conds >>= next).runIn session =
      (next found).runIn (session.after [r.lookupOf conds] []) := by
  have hlookup := runIn_findOptional r conds session
  rw [h] at hlookup
  exact Context.runIn_bind_ok hlookup next

-- What is required after the look-up executes nothing.
private theorem runIn_require_after (outcome : Except Refusal α) :
    (r.context.require outcome).runIn (session.after [r.lookupOf conds] []) =
      r.context.ended session [r.lookupOf conds] (outcome.mapError .refused) := by
  rw [Context.runIn_require_eq, Context.ended_after]
  rfl

/-- A row that is found is assigned to, when there are assigned values. -/
theorem runIn_findOrCreate_assigned {found : α} (h : r.sought session = .ok (some found))
    (hassigned : r.query.assigned.isEmpty = false) :
    (r.findOrCreate conds).runIn session =
      (r.assignTo found).runIn (session.after [r.lookupOf conds] []) := by
  rw [findOrCreate, runIn_bind_ok h]
  simp only [hassigned, Bool.false_eq_true, ↓reduceIte]

/-! ### Assigning and inserting -/

/-- Nothing is executed for a row that the assigned values cannot be laid over. -/
theorem runIn_assignTo_of_error {found : α} {refusal : Refusal}
    (hmerge : r.model.merge found r.query.assigned = .error refusal) (session : Session) :
    (r.assignTo found).runIn session =
      r.context.ended session [] (.error (.refused refusal)) := by
  rw [assignTo, hmerge, runIn_bind, Context.runIn_require_eq]
  rfl

/-- A row that the assigned values can be laid over is updated by its key, if they leave something
to write. -/
theorem runIn_assignTo_of_ok {found updated : α}
    (hmerge : r.model.merge found r.query.assigned = .ok updated) (session : Session) :
    (r.assignTo found).runIn session =
      if (r.query.reset.updatedFields r.query.assigned).isEmpty then
        r.context.ended session [] (.error (.refused .noColumns))
      else
        r.context.ended session
          [r.assignment ((r.model.entry? found r.query.primaryKey).getD .null)]
          (((session.answer 0).toCount.mapError RepositoryError.ofStore).map fun _ ↦ updated) := by
  have hrun (s : Statement) : (r.write (.ok s)).runIn session = r.context.ended session [s]
      ((session.answer 0).toCount.mapError RepositoryError.ofStore) :=
    Context.runIn_database_eq (Store.asks_execute s)
  rw [assignTo, hmerge, runIn_bind, Context.require, runIn_pure]
  dsimp only
  rw [rowScope, Query.updateStatement_primaryKey, keyOf_eq]
  split
  · rw [runIn_bind, runIn_write_error]
    rfl
  · exact Context.runIn_bind_pure (hrun _) _

private theorem assignsTo_assignTo (r : Repository α) (found : α) (session : Session) :
    r.AssignsTo found session ((r.assignTo found).runIn session) := by
  have hread := r.readsLayers_assigned found
  cases hmerge : r.model.merge found r.query.assigned with
  | error refusal =>
    rw [runIn_assignTo_of_error hmerge]
    exact .unread (hmerge ▸ hread)
  | ok updated =>
    rw [hmerge] at hread
    rw [runIn_assignTo_of_ok hmerge]
    split
    · next hnothing => exact .unwritten hread hnothing
    · next hsome =>
      have hupdate := r.query.reset.begins_updateHead r.query.assigned
        (r.query.keyPredicate ((r.model.entry? found r.query.primaryKey).getD .null))
      rw [Bool.not_eq_true] at hsome
      exact .written hread hsome rfl rfl hupdate (hupdate.not_begins (by decide) (by decide))

-- Of the rows that the store gives for one input, the first one counts.
private theorem inOrder_zip_singleton (stored : List α) (complete : Bool) :
    (Stored.mk ([0].zip stored) complete).inOrder = stored.take 1 := by
  rw [Stored.inOrder]
  cases stored with
  | nil => split <;> simp
  | cons row rest => split <;> simp

private theorem append_none (stored : Stored α) : stored.append .none = stored := by
  simp [Stored.append, Stored.none]

private theorem none_append (stored : Stored α) : Stored.none.append stored = stored := by
  simp [Stored.append, Stored.none]

private theorem partitionByKey_singleton (primaryKey : String) (f : Fields) :
    partitionByKey primaryKey [f] =
      if isKeyed primaryKey f then ([(f, 0)], []) else ([], [(f, 0)]) := by
  rw [partitionByKey, List.partition_eq_filter_filter]
  cases h : isKeyed primaryKey f <;> simp [h]

-- One row makes one group, whether it has a key or not; the other group is empty.
private theorem runIn_insert_group {row : α} {f : Fields} (hf : r.model.fields row = .ok f)
    (q : Query) (session : Session) :
    (r.insert q [row]).runIn session =
      (r.insertGroup q [(f, 0)] >>= fun stored ↦ pure stored.inOrder).runIn session := by
  have hrows : [row].mapM r.model.fields = .ok [f] := by
    rw [List.mapM_cons, hf]
    rfl
  rw [insert_eq, runIn_bind, hrows]
  simp only [Context.require, runIn_pure, partitionByKey_singleton]
  cases isKeyed q.primaryKey f with
  | true =>
    simp only [↓reduceIte]
    rw [runIn_bind, runIn_bind]
    cases (r.insertGroup q [(f, 0)]).runIn session with
    | mk outcome later =>
      cases outcome with
      | error e => rfl
      | ok stored =>
        dsimp only
        rw [runIn_bind, runIn_insertGroup_nil]
        dsimp only
        rw [append_none]
  | false =>
    simp only [Bool.false_eq_true, ↓reduceIte]
    rw [runIn_bind, runIn_insertGroup_nil]
    simp only [none_append]

private theorem runIn_insert_fieldless {row : α} {refusal : Refusal}
    (hf : r.model.fields row = .error refusal) (q : Query) (session : Session) :
    (r.insert q [row]).runIn session =
      r.context.ended session [] (.error (.refused refusal)) := by
  have hrows : [row].mapM r.model.fields = .error refusal := by
    rw [List.mapM_cons, hf]
    rfl
  rw [insert_eq, runIn_bind, hrows, Context.runIn_require_eq]
  rfl

private theorem runIn_insert_refused {q : Query} {row : α} {f : Fields} {refusal : Refusal}
    (hf : r.model.fields row = .ok f) (hs : q.insertStatement [f] = .error refusal)
    (session : Session) :
    (r.insert q [row]).runIn session =
      r.context.ended session [] (.error (.refused refusal)) := by
  rw [runIn_insert_group hf, runIn_bind, runIn_insertGroup r q (List.cons_ne_nil (f, 0) []),
    List.map_singleton, hs]
  dsimp only
  rw [Context.runIn_require_eq]
  rfl

-- One row is inserted by one statement, and of the rows in its answer the first one is given back.
private theorem runIn_insert_sent {q : Query} {row : α} {f : Fields} {s : Statement}
    (hf : r.model.fields row = .ok f) (hs : q.insertStatement [f] = .ok s) (session : Session) :
    (r.insert q [row]).runIn session = r.context.ended session [s]
      ((((session.answer 0).decodeAll r.model.ofRow).mapError RepositoryError.ofStore).map
        (List.take 1)) := by
  rw [runIn_insert_group hf, runIn_bind, runIn_insertGroup r q (List.cons_ne_nil (f, 0) []),
    List.map_singleton, hs]
  dsimp only
  cases (session.answer 0).decodeAll r.model.ofRow with
  | error e => rfl
  | ok stored =>
    change (Except.ok (Stored.mk ([0].zip stored) _).inOrder, _) = (Except.ok (stored.take 1), _)
    rw [inOrder_zip_singleton]

-- A row that is built is inserted and given back as stored.
private theorem inserts_outcome (r : Repository α) (session : Session)
    (outcome : Except Refusal α) :
    r.Inserts session outcome
      ((do
        let row ← r.context.require outcome
        let stored ← r.insert r.query [row]
        return stored.getLastD row : Action RepositoryError α).runIn session) := by
  rw [runIn_bind, Context.runIn_require_eq]
  cases outcome with
  | error refusal => exact .unbuilt refusal
  | ok row =>
    change r.Inserts session (.ok row) (Action.runIn (_ >>= _) (session.after [] []))
    rw [Session.after_nil]
    cases hf : r.model.fields row with
    | error refusal =>
      rw [Context.runIn_bind_pure (runIn_insert_fieldless hf r.query session)]
      refine .refused ?_
      rw [hf]
      rfl
    | ok f =>
      cases hs : r.query.insertStatement [f] with
      | error refusal =>
        rw [Context.runIn_bind_pure (runIn_insert_refused hf hs session)]
        refine .refused ?_
        rw [hf]
        exact hs
      | ok s =>
        have hinsert := begins_insertStatement hs
        have hgiven (found : Except RepositoryError (List α)) :
            (found.map (List.take 1)).map (fun stored ↦ stored.getLastD row) =
              found.map fun stored ↦ stored.headD row := by
          cases found with
          | error e => rfl
          | ok stored => cases stored <;> rfl
        rw [Context.runIn_bind_pure (runIn_insert_sent hf hs session), hgiven]
        exact .inserted hf hs hinsert (hinsert.not_begins (by decide) (by decide))

/-- Whatever the store answers, both operations look a row up first and end there when that fails.
Building a row executes nothing. A row that is found is updated by its key alone, when values are
assigned, and one that is made is inserted; neither executes more than one statement. -/
theorem findsOrMakes (r : Repository α) (conds : List Condition) (session : Session) :
    r.FindsOrMakes conds session where
  failed := fun e he ↦ ⟨runIn_bind_error he _, runIn_bind_error he _⟩
  found := by
    intro row hrow
    refine ⟨_, r.readsLayers_assigned row, ?_⟩
    rw [findOrInit, runIn_bind_ok hrow]
    exact runIn_require_after _
  kept := by
    intro row hrow hnothing
    rw [findOrCreate, runIn_bind_ok hrow]
    simp only [hnothing, ↓reduceIte, runIn_pure]
  assigned := by
    intro row hrow hsome
    rw [runIn_findOrCreate_assigned hrow hsome]
    exact assignsTo_assignTo r row _
  absent := by
    intro hnone
    refine ⟨_, r.readsLayers_initial conds, ?_, ?_⟩
    · rw [findOrInit, runIn_bind_ok hnone]
      exact runIn_require_after _
    · rw [findOrCreate, runIn_bind_ok hnone]
      exact inserts_outcome r _ _

/-- A product that is found under a filter is updated by its key alone, which is bound behind the
assigned price. When none is found, a product takes its key from one condition, and its price
neither from the other one nor from the attributes but from the values that are assigned. -/
theorem findsOrMakes_products :
    let product (id price : Int) : Fields :=
      .ofList [("id", .int id), ("price", .int price), ("deleted_at", .null)]
    let r := ofProducts.refine fun q ↦ ((q.filterRaw "k = ?" [.int 1]).withAttrs
      (.singleton "price" (.int 3))).assign (.singleton "price" (.int 5))
    let conds : List Condition := [.primaryKey (.int 7), .equal "products.price" (.int 2)]
    let found : Session := ⟨[.rows [product 7 2], .affected 1], [], []⟩
    let absent : Session := ⟨[.rows []], [], []⟩
    r.AssignsTo (product 7 2) (found.after [r.lookupOf conds] [])
        ((r.findOrCreate conds).runIn found) ∧
      ((r.findOrCreate conds).runIn found).1 = .ok (product 7 5) ∧
      ((r.findOrCreate conds).runIn found).2.executed.drop 1 =
        [⟨"UPDATE \"products\" SET \"price\" = (SELECT \"price\" FROM " ++
            "jsonb_populate_record(NULL::\"products\", $1::jsonb)) WHERE \"products\".\"id\" = $2",
          [.jsonb (.object [("price", .int 5)]), .int8 7]⟩] ∧
      r.model.ReadsLayers r.model.default (r.layers conds) (.ok (product 7 5)) ∧
      ((r.findOrInit conds).runIn absent).1 = .ok (product 7 5) := by
  intro product r conds found absent
  have hfound : r.sought found = .ok (some (product 7 2)) := by decide +kernel
  have habsent : r.sought absent = .ok none := by decide +kernel
  have hupdated : ((r.findOrCreate conds).runIn found).1 = .ok (product 7 5) := by decide +kernel
  have hinit : ((r.findOrInit conds).runIn absent).1 = .ok (product 7 5) := by decide +kernel
  refine ⟨(findsOrMakes r conds found).assigned _ hfound rfl, hupdated, by decide +kernel, ?_,
    hinit⟩
  obtain ⟨outcome, hread, hrun, -⟩ := (findsOrMakes r conds absent).absent habsent
  rw [hrun] at hinit
  cases outcome with
  | error refusal => cases hinit
  | ok row =>
    cases hinit
    exact hread

end Repository

end RecordStore
