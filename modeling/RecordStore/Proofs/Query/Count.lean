import RecordStore.Proofs.Query.Casts
import RecordStore.Proofs.Query.Chain
import RecordStore.Proofs.Session.Answers
import RecordStore.Store.Paginate

/-!
# The total of a page

A count and a read of one query are the same rows between different texts: the rows of the table
when neither grouping nor distinct rows are asked for, and else the whole read up to its order. So
both have the same arguments, and the rows have the same numbers and casts in both. Order, window
and modifiers take no part in a count, so every page of a query comes with the same total.
-/

namespace RecordStore

open Placeholder

namespace Query

/-- A text of an order, the bounds of a window and locks, any of which may be missing. -/
def IsWindow (text : String) : Prop :=
  ∃ order limit offset, ∃ locks : List String,
    text = order ++ limit ++ offset ++ String.join locks ∧
      (order = "" ∨ ∃ terms, order = " ORDER BY " ++ terms) ∧
      (limit = "" ∨ ∃ n, limit = " LIMIT " ++ integerText n) ∧
      (offset = "" ∨ ∃ n, offset = " OFFSET " ++ integerText n) ∧
      ∀ lock ∈ locks, lock = "" ∨ lock = " FOR UPDATE" ∨ lock = " FOR SHARE"

/-- A count and a read of the same rows: each is the rows between two texts, and behind the rows of
the read stands its window. -/
structure CountsRows (q : Query) (conds : List Condition) (rows : Statement)
    (countFront countBack readFront : String) : Prop where
  count_eq : q.countStatement conds = countFront ++ (rows ++ countBack)
  read_eq : q.selectStatement conds = readFront ++ (rows ++ q.windowClause)
  args_eq : (q.countStatement conds).args = (q.selectStatement conds).args

/-- A count and a read in which PostgreSQL takes the same rows, numbered and cast alike. -/
structure CountsNumberedRows (q : Query) (conds : List Condition) (rows : Statement)
    (countFront countBack readFront : String) : Prop where
  count_eq : (q.countStatement conds).toPostgres = countFront ++ rows.toPostgres ++ countBack
  read_eq : (q.selectStatement conds).toPostgres =
    readFront ++ rows.toPostgres ++ rows.continued q.windowClause

/-- Queries that differ at most in order, window, modifiers, relations to load and the values of
new rows. -/
structure MatchesAs (q other : Query) : Prop where
  identity : other.identity = q.identity
  filters : other.filters = q.filters
  joins : other.joins = q.joins
  grouping : other.grouping = q.grouping
  isDistinct : other.isDistinct = q.isDistinct
  selected : other.selected = q.selected
  omitted : other.omitted = q.omitted
  includesDeleted : other.includesDeleted = q.includesDeleted

variable {q other : Query}

/-! ### Texts around the rows -/

private theorem isWindow_windowClause (q : Query) : IsWindow q.windowClause := by
  have hbound : ∀ (keyword : String) (bound : Option Int64), boundClause keyword bound = "" ∨
      ∃ n, boundClause keyword bound = " " ++ keyword ++ " " ++ integerText n := by
    intro keyword bound
    cases bound with
    | none => exact .inl rfl
    | some n => exact .inr ⟨n.toInt, rfl⟩
  refine ⟨q.orderClause, boundClause "LIMIT" q.limit, boundClause "OFFSET" q.offset,
    q.clauses.map lockText, rfl, ?_, hbound "LIMIT" q.limit, hbound "OFFSET" q.offset, ?_⟩
  · unfold orderClause
    split
    · exact .inl rfl
    · exact .inr ⟨_, rfl⟩
  · intro lock hlock
    obtain ⟨clause, -, rfl⟩ := List.mem_map.1 hlock
    cases clause <;> simp [lockText]

-- Without grouping and distinct rows, the rows of the table are counted.
private theorem countsRows_from (h : q.countsRead = false) (conds : List Condition) :
    q.CountsRows conds (q.fromClause conds) "SELECT COUNT(*)" "" ("SELECT " ++ q.selectList) := by
  have hdistinct : q.isDistinct = false := (Bool.or_eq_false_iff.1 h).2
  have hcount : q.countStatement conds = "SELECT COUNT(*)" ++ (q.fromClause conds ++ "") := by
    rw [countStatement, countsRead_eq, h, unordered, hdistinct]
    simp
  have hread : q.selectStatement conds =
      ("SELECT " ++ q.selectList) ++ (q.fromClause conds ++ q.windowClause) := by
    rw [selectStatement, selectColumns, unordered, hdistinct]
    simp [String.append_assoc]
  refine ⟨hcount, hread, ?_⟩
  rw [hcount, hread]
  simp

-- With grouping or distinct rows, the rows of the read are counted.
private theorem countsRows_read (h : q.countsRead = true) (conds : List Condition) :
    q.CountsRows conds (q.unordered q.selectList conds) "SELECT COUNT(*) FROM ("
      ") AS \"counted\"" "" := by
  have hcount : q.countStatement conds =
      "SELECT COUNT(*) FROM (" ++ (q.unordered q.selectList conds ++ ") AS \"counted\"") := by
    rw [countStatement, countsRead_eq, h]
    simp [String.append_assoc]
  have hread : q.selectStatement conds =
      "" ++ (q.unordered q.selectList conds ++ q.windowClause) :=
    (Statement.empty_append _).symm
  refine ⟨hcount, hread, ?_⟩
  rw [hcount, hread]
  simp

/-- Rows that have all their casts in them are numbered alike in the count and in the read when what
stands in front of them is plain. -/
theorem CountsRows.numbered {conds : List Condition} {rows : Statement}
    {countFront countBack readFront : String}
    (h : q.CountsRows conds rows countFront countBack readFront) (hrows : rows.CastsPlaced)
    (hcount : IsPlain countFront.toList) (hread : IsPlain readFront.toList)
    (hback : '?' ∉ countBack.toList) :
    q.CountsNumberedRows conds rows countFront countBack readFront where
  count_eq := by
    rw [h.count_eq, Statement.toPostgres_text_append hcount, hrows.toPostgres_append,
      rows.continued_of_not_mem hback, String.append_assoc]
  read_eq := by
    rw [h.read_eq, Statement.toPostgres_text_append hread, hrows.toPostgres_append,
      String.append_assoc]

/-! ### Casts of the rows -/

private theorem castsPlaced_whereClause (exprs : List Expr) :
    (whereClause exprs).CastsPlaced := by
  rw [whereClause, body?]
  cases exprs.isEmpty with
  | true => exact .ofText ""
  | false => exact (Statement.CastsPlaced.ofText " WHERE ").append (Expr.castsPlaced_conditions _)

private theorem castsPlaced_fromClause (h : ∀ join ∈ q.joins, join.CastsPlaced)
    (conds : List Condition) : (q.fromClause conds).CastsPlaced := by
  have hgroup := Statement.CastsPlaced.ofText q.groupClause
  exact (Statement.CastsPlaced.ofText _).append
    ((castsPlaced_joinClause h).append ((castsPlaced_whereClause _).append hgroup))

private theorem castsPlaced_unordered (h : ∀ join ∈ q.joins, join.CastsPlaced) (columns : String)
    (conds : List Condition) : (q.unordered columns conds).CastsPlaced :=
  (Statement.CastsPlaced.ofText _).append (castsPlaced_fromClause h conds)

private theorem joins_filter (q : Query) (e : Expr) : (q.filter e).joins = q.joins := by
  rw [filter]
  split <;> rfl

private theorem castsPlaced_apply (h : ∀ join ∈ q.joins, join.CastsPlaced) (call : Call) :
    ∀ join ∈ (call.apply q).joins, join.CastsPlaced := by
  cases call with
  | filter e =>
    rw [Call.apply, joins_filter]
    exact h
  | filterEqual column value =>
    rw [Call.apply, filterEqual, joins_filter]
    exact h
  | search group =>
    rw [Call.apply, search]
    split
    · rw [joins_filter]
      exact h
    · exact h
  | join sql args =>
    change ∀ join ∈ q.joins ++ [Statement.withArgs sql args], join.CastsPlaced
    rw [List.forall_mem_append, List.forall_mem_singleton]
    exact ⟨h, .of_casts_eq_nil rfl⟩
  | orderBy term =>
    rw [Call.apply, orderBy]
    split <;> exact h
  | reset => exact List.forall_mem_nil _
  | batch size after =>
    cases after with
    | none => exact h
    | some key =>
      rw [Call.apply, batch, filterRaw, joins_filter]
      exact h
  | _ => exact h

/-- The joins of a query that calls reach have all their casts in them. -/
theorem castsPlaced_applyAll (h : ∀ join ∈ q.joins, join.CastsPlaced) (calls : List Call) :
    ∀ join ∈ (Call.applyAll q calls).joins, join.CastsPlaced := by
  induction calls generalizing q with
  | nil => exact h
  | cons call rest ih => exact ih (castsPlaced_apply h call)

/-! ### Queries with one total -/

namespace MatchesAs

theorem refl (q : Query) : q.MatchesAs q := ⟨rfl, rfl, rfl, rfl, rfl, rfl, rfl, rfl⟩

theorem orderBy (h : q.MatchesAs other) (term : String) : q.MatchesAs (other.orderBy term) := by
  rw [Query.orderBy]
  split
  · exact h
  · exact { h with }

theorem sortedBy (h : q.MatchesAs other) (directives : List String) :
    q.MatchesAs (other.sortedBy directives) := by
  induction directives generalizing other with
  | nil => exact h
  | cons directive rest ih => exact ih (h.orderBy directive)

/-- Queries that match the same rows are counted by the same statement. -/
theorem countStatement_eq (h : q.MatchesAs other) (conds : List Condition) :
    other.countStatement conds = q.countStatement conds := by
  cases q
  cases other
  obtain ⟨⟨⟩, ⟨⟩, ⟨⟩, ⟨⟩, ⟨⟩, ⟨⟩, ⟨⟩, ⟨⟩⟩ := h
  rfl

end MatchesAs

/-- A page is the count of the query and then, when that gave a number, the read of the page. -/
theorem runIn_paginate {α : Type} (q : Query) (read : RowReader α) (o : PageOptions)
    (session : Session) :
    (q.paginate read o).runIn session =
      match (session.answer 0).decodeOne Row.int64 with
      | .error e => (.error e, session.after [q.countStatement []] [])
      | .ok total =>
        (((session.answer 1).decodeAll read).map fun items ↦
          (items,
            { total
              limit := (servedWindow o).limit
              count := Int64.ofNat items.length
              page := (servedWindow o).page
              q := o.q
              orderBy := o.orderBy }),
          session.after [q.countStatement [], (q.onPage o).selectStatement []] []) := by
  have hcount := ((MatchesAs.refl q).sortedBy o.orderBy).countStatement_eq []
  rw [paginate, hcount, Store.count, Action.runIn_bind, Store.asks_fetchOne _ Row.int64 session]
  cases (session.answer 0).decodeOne Row.int64 with
  | error e => rfl
  | ok total =>
    dsimp only
    rw [Action.runIn_bind, Store.asks_fetchAll _ read, Session.answer_after, Session.after_after]
    cases (session.answer 1).decodeAll read with
    | error e => rfl
    | ok items => rfl

-- The count comes first, and its statement does not depend on the page.
private theorem paginate_sends {α : Type} (q : Query) (read : RowReader α) (o : PageOptions)
    (session : Session) :
    ∃ sent, ((q.paginate read o).runIn session).2 =
        session.after (q.countStatement [] :: sent) [] ∧
      (sent = [] ∨ sent = [(q.onPage o).selectStatement []]) := by
  rw [runIn_paginate]
  cases (session.answer 0).decodeOne Row.int64 with
  | error e => exact ⟨[], rfl, .inl rfl⟩
  | ok total => exact ⟨[(q.onPage o).selectStatement []], rfl, .inr rfl⟩

/-- The count of a query that calls reach counts what its read selects: the same rows, with the same
arguments, numbers and casts, and only a window behind them in the read. It is the same count for
all queries that match the same rows, and so for all pages of a query. -/
theorem total_counts_page {α : Type} (identity : TableIdentity) (calls : List Call)
    (conds : List Condition) (read : RowReader α) :
    let q := Call.applyAll (.ofIdentity identity) calls
    (q.countsRead = false →
      q.CountsRows conds (q.fromClause conds) "SELECT COUNT(*)" "" ("SELECT " ++ q.selectList) ∧
      ((∀ c ∈ q.selected, Identifier.isColumnReference c = false → IsPlain c.toList) →
        q.CountsNumberedRows conds (q.fromClause conds) "SELECT COUNT(*)" ""
          ("SELECT " ++ q.selectList))) ∧
    (q.countsRead = true →
      q.CountsRows conds (q.unordered q.selectList conds) "SELECT COUNT(*) FROM ("
        ") AS \"counted\"" "" ∧
      q.CountsNumberedRows conds (q.unordered q.selectList conds) "SELECT COUNT(*) FROM ("
        ") AS \"counted\"" "") ∧
    IsWindow q.windowClause ∧
    (∀ other, q.MatchesAs other → other.countStatement conds = q.countStatement conds) ∧
    ∀ (o : PageOptions) (session : Session), ∃ sent,
      ((q.paginate read o).runIn session).2 = session.after (q.countStatement [] :: sent) [] ∧
        (sent = [] ∨ sent = [(q.onPage o).selectStatement []]) := by
  intro q
  have hjoins : ∀ join ∈ q.joins, join.CastsPlaced :=
    castsPlaced_applyAll (List.forall_mem_nil _) calls
  refine ⟨?_, ?_, q.isWindow_windowClause, ?_, q.paginate_sends read⟩
  · intro htable
    have hrows := countsRows_from htable conds
    refine ⟨hrows, ?_⟩
    intro hselected
    have hselect : IsPlain "SELECT ".toList := by decide
    exact hrows.numbered (castsPlaced_fromClause hjoins conds) (by decide)
      (hselect.text_append (isPlain_selectList hselected)) (by decide)
  · intro hread
    have hrows := countsRows_read hread conds
    exact ⟨hrows, hrows.numbered (castsPlaced_unordered hjoins q.selectList conds) (by decide)
      IsPlain.nil (by decide)⟩
  · intro other hother
    exact hother.countStatement_eq conds

/-- A cast and the numbers are the same in the count and in the read, whether the rows of the table
or those of the read are counted; a placeholder in the order is numbered behind them. -/
theorem total_counts_page_cast :
    let q :=
      (((ofTable "t").filter (.compare "é" "=" (.string "x"))).orderBy "a = ?").withLimit 2
    (q.countStatement [.raw "b = ?" [.null]]).toPostgres =
        "SELECT COUNT(*) FROM \"t\" WHERE é::text = $1 AND b = $2" ∧
      (q.selectStatement [.raw "b = ?" [.null]]).toPostgres =
        "SELECT \"t\".* FROM \"t\" WHERE é::text = $1 AND b = $2 ORDER BY a = $3 LIMIT 2" ∧
      (q.distinct.countStatement []).toPostgres =
        "SELECT COUNT(*) FROM (SELECT DISTINCT \"t\".* FROM \"t\" WHERE é::text = $1)" ++
          " AS \"counted\"" ∧
      (q.distinct.orderBy "b").countStatement [] = q.distinct.countStatement [] := by
  intro q
  let calls : List Call :=
    [.filter (.compare "é" "=" (.string "x")), .orderBy "a = ?", .limit 2]
  obtain ⟨htable, -, -, -, -⟩ :=
    total_counts_page (.named "t") calls [.raw "b = ?" [.null]] Row.int64
  obtain ⟨-, hread, -, hsame, -⟩ :=
    total_counts_page (.named "t") (calls ++ [.distinct]) [] Row.int64
  have hnumbered := (htable (by decide +kernel)).2 (by decide)
  have hread_numbered := (hread (by decide +kernel)).2
  refine ⟨hnumbered.count_eq.trans (by decide +kernel), hnumbered.read_eq.trans (by decide +kernel),
    hread_numbered.count_eq.trans (by decide +kernel), ?_⟩
  exact hsame _ ((MatchesAs.refl _).orderBy "b")

end Query

end RecordStore
