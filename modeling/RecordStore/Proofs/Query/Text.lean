import RecordStore.Proofs.Query.InsertedColumns
import RecordStore.Proofs.Query.Shape
import RecordStore.Proofs.Query.Where

/-!
# The text of a statement does not depend on values

Queries that differ in values alone send statements of one text with as many arguments: reads,
counts and deletions as they are, insertions for rows with the same names whose keys are assigned
alike, and updates for values with the same names. So nothing that a value says is ever read as SQL.
-/

namespace RecordStore

variable {typed : Prop}

/-- Statements that are sent with the same text and as many arguments; if they are `typed`, with the
same text for PostgreSQL too. -/
structure Statement.SameText (typed : Prop) (s t : Statement) : Prop where
  sql : s.sql = t.sql
  args : s.args.length = t.args.length
  toPostgres : typed → s.toPostgres = t.toPostgres

/-- Writes that are refused for one reason, or made by statements of one text. -/
inductive SameWrite (typed : Prop) :
    Except Refusal Statement → Except Refusal Statement → Prop where
  | refused (refusal : Refusal) : SameWrite typed (.error refusal) (.error refusal)
  | made {s t : Statement} (h : s.SameText typed t) : SameWrite typed (.ok s) (.ok t)

/-- Rows with the same names, whose keys are both assigned or neither. -/
structure Fields.SameShape (key : String) (f g : Fields) : Prop where
  names : f.names = g.names
  key : (f.get? key).map Json.isUnassigned = (g.get? key).map Json.isUnassigned

namespace Statement.SameShape

theorem sameText {s t : Statement} (h : s.SameShape typed t) : s.SameText typed t :=
  ⟨h.sql, h.args, h.toPostgres⟩

private theorem rel_sameText {s t : Option Statement}
    (h : Option.Rel (Statement.SameShape typed) s t) :
    Option.Rel (Statement.SameText typed) s t := by
  cases h with
  | none => exact .none
  | some hstatement => exact .some hstatement.sameText

end Statement.SameShape

namespace Query.SameShape

variable {q q' : Query} {conds conds' : List Condition}

/-! #### Conditions -/

private theorem callerFilters (h : q.SameShape typed q')
    (hconds : List.Forall₂ Condition.SameShape conds conds') :
    List.Forall₂ (Expr.SameShape typed) (q.callerFilters conds) (q'.callerFilters conds') := by
  rw [Query.callerFilters, Query.callerFilters, h.table, h.primaryKey]
  apply Expr.SameShape.nonEmpty
  exact List.rel_append h.filters (List.rel_map (fun _ _ hcond ↦ hcond.toExpr _ _) hconds)

private theorem scopedFilters (h : q.SameShape typed q')
    (hconds : List.Forall₂ Condition.SameShape conds conds') :
    List.Forall₂ (Expr.SameShape typed) (q.callerFilters conds ++ q.scope)
      (q'.callerFilters conds' ++ q'.scope) := by
  have hscope : q.scope = q'.scope := by
    simp only [Query.scope, Query.table, h.identity, h.includesDeleted]
  rw [hscope]
  exact List.rel_append (h.callerFilters hconds) (Expr.SameShape.forall₂_refl _)

private theorem body? {exprs exprs' : List Expr}
    (h : List.Forall₂ (Expr.SameShape typed) exprs exprs') :
    Option.Rel (Statement.SameShape typed) (Query.body? exprs) (Query.body? exprs') := by
  cases h with
  | nil => exact .none
  | cons he hrest => exact .some (Expr.SameShape.conditions (.cons he hrest))

private theorem whereClause {exprs exprs' : List Expr}
    (h : List.Forall₂ (Expr.SameShape typed) exprs exprs') :
    (Query.whereClause exprs).SameShape typed (Query.whereClause exprs') := by
  have hbody := body? h
  rw [Query.whereClause, Query.whereClause]
  generalize Query.body? exprs = body at hbody ⊢
  generalize Query.body? exprs' = body' at hbody ⊢
  cases hbody with
  | none => exact .refl _
  | some hstatement => exact (Statement.SameShape.refl (.ofText " WHERE ")).append hstatement

/-! #### Reads -/

private theorem joinClause {joins joins' : List Statement}
    (h : List.Forall₂ (Statement.SameShape typed) joins joins') :
    (Query.joinClause joins).SameShape typed (Query.joinClause joins') := by
  induction h with
  | nil => exact .refl _
  | cons hjoin _ ih =>
    exact (Statement.SameShape.refl (.ofText " ")).append (hjoin.append ih)

private theorem fromClause (h : q.SameShape typed q')
    (hconds : List.Forall₂ Condition.SameShape conds conds') :
    (q.fromClause conds).SameShape typed (q'.fromClause conds') := by
  have hgroup : q.groupClause = q'.groupClause := by
    rw [Query.groupClause, Query.groupClause, h.grouping]
  rw [Query.fromClause, Query.fromClause, h.table, hgroup]
  exact (Statement.SameShape.refl (.ofText _)).append
    ((joinClause h.joins).append
      ((whereClause (h.scopedFilters hconds)).append (.refl (.ofText _))))

private theorem unordered (h : q.SameShape typed q') (columns : String)
    (hconds : List.Forall₂ Condition.SameShape conds conds') :
    (q.unordered columns conds).SameShape typed (q'.unordered columns conds') := by
  rw [Query.unordered, Query.unordered, h.isDistinct]
  exact (Statement.SameShape.refl (.ofText _)).append (h.fromClause hconds)

private theorem selectList (h : q.SameShape typed q') : q.selectList = q'.selectList := by
  simp only [Query.selectList, Query.table, h.identity, h.selected, h.omitted]

private theorem selectColumns (h : q.SameShape typed q') (columns : String)
    (hconds : List.Forall₂ Condition.SameShape conds conds') :
    (q.selectColumns columns conds).SameShape typed (q'.selectColumns columns conds') := by
  have hwindow : q.windowClause = q'.windowClause := by
    simp only [Query.windowClause, Query.orderClause, h.ordering, h.limit, h.offset, h.clauses]
  rw [Query.selectColumns, Query.selectColumns, hwindow]
  exact (h.unordered columns hconds).append (.refl (.ofText _))

private theorem countStatement (h : q.SameShape typed q')
    (hconds : List.Forall₂ Condition.SameShape conds conds') :
    (q.countStatement conds).SameShape typed (q'.countStatement conds') := by
  rw [Query.countStatement, Query.countStatement, h.grouping, h.isDistinct, h.selectList]
  split
  · exact h.unordered _ hconds
  · exact (h.unordered _ hconds).between _ _

/-! #### Writes -/

private theorem isWritable (h : q.SameShape typed q') : q.isWritable = q'.isWritable := by
  funext column
  simp only [Query.isWritable, h.identity, h.selected, h.omitted]

-- A filter that tells fields apart by name, and the key by whether it is assigned, keeps the same
-- names of rows of one shape.
private theorem names_filter {f g : Fields} (hnames : f.names = g.names)
    {keep : String → Json → Bool}
    (h : ∀ name v w, f.get? name = some v → g.get? name = some w → keep name v = keep name w) :
    (f.filter keep).names = (g.filter keep).names := by
  rw [Fields.names_filter, Fields.names_filter, ← hnames]
  apply List.filter_congr
  intro name hname
  obtain ⟨v, hv⟩ := (f.mem_names_iff name).1 hname
  rw [hnames] at hname
  obtain ⟨w, hw⟩ := (g.mem_names_iff name).1 hname
  rw [hv, hw, Option.any_some, Option.any_some, h name v w hv hw]

/-- Of rows of one shape an insertion writes fields with the same names. -/
theorem names_insertedFields (q : Query) {f g : Fields}
    (h : f.SameShape q.primaryKey g) :
    (q.insertedFields f).names = (q.insertedFields g).names := by
  apply names_filter h.names
  intro name v w hv hw
  by_cases hname : name = q.primaryKey
  · have hkey := h.key
    rw [← hname, hv, hw, Option.map_some, Option.map_some, Option.some.injEq] at hkey
    rw [hkey]
  · simp only [hname, decide_false, Bool.false_and]

private theorem insertedColumns (h : q.SameShape typed q') {rows rows' : List Fields}
    (hrows : List.Forall₂ (Fields.SameShape q.primaryKey) rows rows') :
    q.insertedColumns rows = q'.insertedColumns rows' := by
  have hunion : ∀ rows : List Fields, Query.columnUnion rows = (rows.map Fields.names).foldl
      (fun columns names ↦ columns ++ names.filter fun column ↦ !columns.contains column) [] := by
    intro rows
    rw [List.foldl_map, Query.columnUnion]
  have hnames : (rows.map q.insertedFields).map Fields.names =
      (rows'.map q'.insertedFields).map Fields.names := by
    have hfields : q.insertedFields = q'.insertedFields := by
      funext row
      simp only [Query.insertedFields, h.primaryKey, h.isWritable]
    rw [← hfields]
    induction hrows with
    | nil => rfl
    | cons hrow _ ih =>
      simp only [List.map_cons, names_insertedFields q hrow, ih]
  rw [Query.insertedColumns, Query.insertedColumns, hunion, hunion, hnames]

private theorem insertStatement (h : q.SameShape typed q') {rows rows' : List Fields}
    (hrows : List.Forall₂ (Fields.SameShape q.primaryKey) rows rows') :
    SameWrite typed (q.insertStatement rows) (q'.insertStatement rows') := by
  have hinsert : ∀ (q : Query) (rows : List Fields), q.insertStatement rows =
      if (q.insertedColumns rows).isEmpty then .error .noColumns
      else .ok (q.insertionInto (q.insertedColumns rows) (rows.map q.insertedFields)) :=
    fun _ _ ↦ rfl
  have hinto : ∀ columns objects objects', (q.insertionInto columns objects).SameShape typed
      (q'.insertionInto columns objects') := by
    intro columns objects objects'
    have hconflict : q.conflictClause columns = q'.conflictClause columns := by
      simp only [Query.conflictClause, h.clauses, h.primaryKey]
    rw [Query.insertionInto, Query.insertionInto, h.table, hconflict]
    exact .withArgs _ rfl
  rw [hinsert, hinsert, h.insertedColumns hrows]
  split
  · exact .refused _
  · exact .made (hinto _ _ _).sameText

private theorem isEmpty_callerFilters (h : q.SameShape typed q')
    (hconds : List.Forall₂ Condition.SameShape conds conds') :
    (q.callerFilters conds).isEmpty = (q'.callerFilters conds').isEmpty :=
  isEmpty_eq_of_length_eq (h.callerFilters hconds).length_eq

private theorem updateStatement (h : q.SameShape typed q')
    (hconds : List.Forall₂ Condition.SameShape conds conds') {values values' : Fields}
    (hvalues : values.names = values'.names) :
    SameWrite typed (q.updateStatement values conds) (q'.updateStatement values' conds') := by
  have hupdate : ∀ (q : Query) (values : Fields) (conds : List Condition),
      q.updateStatement values conds =
        if (q.callerFilters conds).isEmpty then .error (.unfiltered .update)
        else if (q.updatedFields values).isEmpty then .error .noColumns
        else .ok (q.updateHead values ++ Query.whereClause (q.callerFilters conds ++ q.scope)) :=
    fun _ _ _ ↦ rfl
  have hnames : (q.updatedFields values).names = (q'.updatedFields values').names := by
    have hfields : q.updatedFields = q'.updatedFields := by
      funext values
      simp only [Query.updatedFields, h.primaryKey, h.isWritable]
    rw [← hfields]
    exact names_filter hvalues fun _ _ _ _ _ ↦ rfl
  have hempty : (q.updatedFields values).isEmpty = (q'.updatedFields values').isEmpty := by
    have hlength := congrArg List.length hnames
    rw [Fields.names, Fields.names, List.length_map, List.length_map] at hlength
    exact isEmpty_eq_of_length_eq hlength
  have hhead : (q.updateHead values).SameShape typed (q'.updateHead values') := by
    rw [Query.updateHead, Query.updateHead, h.table, hnames]
    exact .withArgs _ rfl
  rw [hupdate, hupdate, h.isEmpty_callerFilters hconds, hempty]
  split
  · exact .refused _
  · split
    · exact .refused _
    · exact .made (hhead.append (whereClause (h.scopedFilters hconds))).sameText

private theorem deleteStatement (h : q.SameShape typed q')
    (hconds : List.Forall₂ Condition.SameShape conds conds') (deletion : Deletion) :
    SameWrite typed (q.deleteStatement conds deletion) (q'.deleteStatement conds' deletion) := by
  simp only [Query.deleteStatement, h.isEmpty_callerFilters hconds, h.identity, h.table]
  split
  · exact .refused _
  · split
    · exact .made ((Statement.SameShape.refl (.ofText _)).append
        (whereClause (h.scopedFilters hconds))).sameText
    · exact .made ((Statement.SameShape.refl (.ofText _)).append
        (whereClause (h.callerFilters hconds))).sameText

end Query.SameShape

namespace Query

/-- The statements of two queries, each pair of which has one text. -/
structure SameTexts (typed : Prop) (q q' : Query) (conds conds' : List Condition) : Prop where
  select : (q.selectStatement conds).SameText typed (q'.selectStatement conds')
  selectColumns : ∀ columns,
    (q.selectColumns columns conds).SameText typed (q'.selectColumns columns conds')
  count : (q.countStatement conds).SameText typed (q'.countStatement conds')
  body : Option.Rel (Statement.SameText typed) (q.whereBody? conds) (q'.whereBody? conds')
  insert : ∀ rows rows', List.Forall₂ (Fields.SameShape q.primaryKey) rows rows' →
    SameWrite typed (q.insertStatement rows) (q'.insertStatement rows')
  update : ∀ values values', values.names = values'.names →
    SameWrite typed (q.updateStatement values conds) (q'.updateStatement values' conds')
  delete : ∀ deletion,
    SameWrite typed (q.deleteStatement conds deletion) (q'.deleteStatement conds' deletion)

/-- Chains of calls and conditions that differ in values alone lead to statements of one text, and
to writes that are refused alike. So no content of a value reaches the text of a statement. -/
theorem text_independent_of_values (identity : TableIdentity) {calls calls' : List Call}
    (hcalls : List.Forall₂ (Call.SameShape typed) calls calls') {conds conds' : List Condition}
    (hconds : List.Forall₂ Condition.SameShape conds conds') :
    SameTexts typed (Call.applyAll (.ofIdentity identity) calls)
      (Call.applyAll (.ofIdentity identity) calls') conds conds' := by
  have hstart : (Query.ofIdentity identity).SameShape typed (.ofIdentity identity) :=
    .ofIdentity identity
  have h := hstart.applyAll hcalls
  constructor
  case select =>
    rw [selectStatement, selectStatement, h.selectList]
    exact (h.selectColumns _ hconds).sameText
  case selectColumns => exact fun columns ↦ (h.selectColumns columns hconds).sameText
  case count => exact (h.countStatement hconds).sameText
  case body => exact Statement.SameShape.rel_sameText (SameShape.body? (h.scopedFilters hconds))
  case insert => exact fun rows rows' hrows ↦ h.insertStatement hrows
  case update => exact fun values values' hvalues ↦ h.updateStatement hconds hvalues
  case delete => exact h.deleteStatement hconds

/-- Values that would end a quote or a statement change no text: neither that of a count whose
conditions they are, nor that of an insertion or an update of them; and a number in place of a text
changes a cast alone. -/
theorem text_independent_of_values_hostile :
    let chain (name : String) (key : Json) : List Call :=
      [.join "JOIN u ON k = ?" [key], .filterEqual "name" (.string name),
        .search (some (.anywhere name ["a", "b"]))]
    let reached (name : String) (key : Json) :=
      Call.applyAll (.ofIdentity (.named "t")) (chain name key)
    let compared (value : Json) := (ofTable "t").filter (.compare "c" "=" value)
    let row (name : String) (key : Json) : Fields := .ofList [("id", key), ("name", .string name)]
    ((reached "'; DROP TABLE t; --" .null).countStatement
        [.primaryKey (.array [.string "\") OR 1 = 1 --"])]).toPostgres =
      "SELECT COUNT(*) FROM \"t\" JOIN u ON k = $1 WHERE \"name\" = $2" ++
        " AND (a::text LIKE $3 OR b::text LIKE $4) AND \"t\".\"id\" IN ($5)" ∧
    SameWrite True ((reached "x" (.int 7)).insertStatement [row "x" (.int 0)])
      ((reached "'; DROP TABLE t; --" .null).insertStatement [row "'; DROP TABLE t; --" .null]) ∧
    SameWrite True ((reached "x" (.int 7)).updateStatement (row "x" (.int 0)) [])
      ((reached "?" .null).updateStatement (row "?" .null) []) ∧
    ((compared (.int 1)).selectStatement []).sql =
      ((compared (.string "1 OR 1 = 1")).selectStatement []).sql := by
  intro chain reached compared row
  have hchain : ∀ (name : String) (key : Json), name.isEmpty = false →
      List.Forall₂ (Call.SameShape True) (chain "x" (.int 7)) (chain name key) := by
    intro name key hname
    exact .cons (.join rfl) (.cons (.filterEqual rfl)
      (.cons (.search (.anywhere (Eq.trans (by decide) hname.symm) _)) .nil))
  have hhostile := hchain "'; DROP TABLE t; --" .null (by decide)
  refine ⟨?_, ?_, ?_, ?_⟩
  · have hconds : List.Forall₂ Condition.SameShape [.primaryKey (.array [.int 1])]
        [.primaryKey (.array [.string "\") OR 1 = 1 --"])] := .cons (.primaryKeys rfl) .nil
    have htexts := text_independent_of_values (.named "t") hhostile hconds
    exact (htexts.count.toPostgres trivial).symm.trans (by decide +kernel)
  · have htexts := text_independent_of_values (.named "t") hhostile .nil
    refine htexts.insert _ _ (.cons ⟨?_, ?_⟩ .nil) <;> decide +kernel
  · have htexts := text_independent_of_values (.named "t") (hchain "?" .null (by decide)) .nil
    refine htexts.update _ _ ?_
    decide +kernel
  · have hcalls : List.Forall₂ (Call.SameShape False) [.filter (.compare "c" "=" (.int 1))]
        [.filter (.compare "c" "=" (.string "1 OR 1 = 1"))] :=
      .cons (.filter (.compare nofun)) .nil
    exact (text_independent_of_values (.named "t") hcalls .nil).select.sql

end Query

end RecordStore
