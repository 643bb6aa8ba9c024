import RecordStore.Model.Schema
import RecordStore.Proofs.Page.Window
import RecordStore.Proofs.Query.Count
import RecordStore.Repository.Read

/-!
# Pages that are served

A request for a page is served by two statements, the count of the query and the read of the page's
window, and the second one is executed only when the first one gave a number. The rows that the
second one gave are the items of the page, in their order, once their relations have been loaded.
-/

namespace RecordStore

open Query

namespace Repository

variable {α : Type} (r : Repository α)

/-- Rows with the relations of the query loaded into them; without rows nothing is loaded. -/
def completed (rows : List α) : Except StoreError (List α) :=
  if rows.isEmpty then .ok rows
  else r.query.preloads.foldlM (fun rows p ↦ r.model.load p rows) rows

/-- How the run of a request for a page ends that is answered by a read. Every number that the page
tells is that of the window, of the reply to the count or of the rows in the reply to the read. -/
inductive ServesPage (read : Statement) (limit page : Int64) (session : Session) :
    Except RepositoryError (Pagination α) × Session → Prop
  | uncounted {e : StoreError} (hcount : (session.answer 0).decodeOne Row.int64 = .error e) :
    ServesPage read limit page session
      (r.context.ended session [r.query.countStatement []] (.error (.ofStore e)))
  | unread {total : Int64} {e : StoreError}
    (hcount : (session.answer 0).decodeOne Row.int64 = .ok total)
    (hread : (session.answer 1).decodeAll r.model.ofRow = .error e) :
    ServesPage read limit page session
      (r.context.ended session [r.query.countStatement [], read] (.error (.ofStore e)))
  | unloaded {total : Int64} {rows : List α} {e : StoreError}
    (hcount : (session.answer 0).decodeOne Row.int64 = .ok total)
    (hread : (session.answer 1).decodeAll r.model.ofRow = .ok rows)
    (hload : r.completed rows = .error e) :
    ServesPage read limit page session
      (r.context.ended session [r.query.countStatement [], read] (.error (.ofStore e)))
  | served {total count : Int64} {rows items : List α}
    (hcount : (session.answer 0).decodeOne Row.int64 = .ok total)
    (hread : (session.answer 1).decodeAll r.model.ofRow = .ok rows)
    (hload : r.completed rows = .ok items)
    (hitems : r.query.preloads = [] → items = rows)
    (hlength : (∀ p xs ys, r.model.load p xs = .ok ys → ys.length = xs.length) →
      items.length = rows.length)
    (hcounted : rows.length < 2 ^ 63 → count.toInt = rows.length) :
    ServesPage read limit page session
      (r.context.ended session [r.query.countStatement [], read]
        (.ok { page, total, limit, count, items }))

/-! ### Relations -/

private theorem runIn_loadEach (preloads : List Preload) (rows : List α) (session : Session) :
    (r.loadEach preloads rows).runIn session = r.context.ended session []
      ((preloads.foldlM (fun rows p ↦ r.model.load p rows) rows).mapError
        RepositoryError.ofStore) := by
  induction preloads generalizing rows with
  | nil =>
    change (Except.ok rows, session) = (Except.ok rows, session.after [] [])
    rw [Session.after_nil]
  | cons p rest ih =>
    have hload : (r.context.database (.ofExcept (r.model.load p rows))).runIn session =
        r.context.ended session [] ((r.model.load p rows).mapError RepositoryError.ofStore) :=
      Context.runIn_database (by rw [Action.runIn_ofExcept, Session.after_nil])
    rw [loadEach, List.foldlM_cons]
    cases hloaded : r.model.load p rows with
    | error e =>
      rw [hloaded] at hload
      exact Context.runIn_bind_error hload _
    | ok loaded =>
      rw [hloaded] at hload
      rw [Context.runIn_bind_ok hload, Session.after_nil]
      exact ih loaded

/-- Loading relations executes nothing and ends as it does without a session. -/
theorem runIn_loadPreloads (rows : List α) (session : Session) :
    (r.loadPreloads rows).runIn session =
      r.context.ended session [] ((r.completed rows).mapError RepositoryError.ofStore) := by
  rw [loadPreloads, completed]
  split
  · change (Except.ok rows, session) = (Except.ok rows, session.after [] [])
    rw [Session.after_nil]
  · exact r.runIn_loadEach r.query.preloads rows session

/-- Rows without relations to load are complete. -/
theorem completed_of_preloads_eq_nil (h : r.query.preloads = []) (rows : List α) :
    r.completed rows = .ok rows := by
  rw [completed, h]
  split <;> rfl

private theorem length_foldlM_load {load : Preload → List α → Except StoreError (List α)}
    (hload : ∀ p xs ys, load p xs = .ok ys → ys.length = xs.length) {preloads : List Preload}
    {rows items : List α}
    (h : preloads.foldlM (fun rows p ↦ load p rows) rows = .ok items) :
    items.length = rows.length := by
  induction preloads generalizing rows with
  | nil =>
    cases h
    rfl
  | cons p rest ih =>
    rw [List.foldlM_cons] at h
    cases hloaded : load p rows with
    | error e =>
      rw [hloaded] at h
      cases h
    | ok loaded =>
      rw [hloaded] at h
      exact (ih h).trans (hload p rows loaded hloaded)

/-- Loading relations into rows where they stand keeps their number. -/
theorem length_completed (hload : ∀ p xs ys, r.model.load p xs = .ok ys → ys.length = xs.length)
    {rows items : List α} (h : r.completed rows = .ok items) : items.length = rows.length := by
  rw [completed] at h
  split at h
  · cases h
    rfl
  · exact length_foldlM_load hload h

/-! ### Pages -/

/-- Under a configuration that is built from settings, every request for a page is served the count
of the query and then the read of a window: one between one row and the largest page, whatever the
request asks for and the query had accumulated. -/
theorem pagination_serves (m : Model α) (s : ConfigSettings) (requestId : String) (q : Query)
    (o : PageOptions) (session : Session) :
    let r : Repository α := ⟨m, ⟨s.build, requestId⟩, q⟩
    ∃ limit page offset : Int64, o.IsServed s.build limit page offset ∧
      r.ServesPage (q.pageRead (o.orderBy.filterMap SortDirective.normalize?) limit offset) limit
        page session ((r.pagination o).runIn session) := by
  intro r
  refine ⟨_, _, _, o.isServed_servedWindow s, ?_⟩
  have hpaginate := q.runIn_paginate m.ofRow (o.normalized s.build) session
  rw [selectStatement_onPage] at hpaginate
  rw [pagination]
  cases hcount : (session.answer 0).decodeOne Row.int64 with
  | error e =>
    rw [hcount] at hpaginate
    rw [Context.runIn_bind_error (Context.runIn_database hpaginate)]
    exact .uncounted hcount
  | ok total =>
    rw [hcount] at hpaginate
    cases hread : (session.answer 1).decodeAll m.ofRow with
    | error e =>
      rw [hread] at hpaginate
      rw [Context.runIn_bind_error (Context.runIn_database hpaginate)]
      exact .unread hcount hread
    | ok rows =>
      rw [hread] at hpaginate
      rw [Context.runIn_bind_ok (Context.runIn_database hpaginate)]
      dsimp only
      rw [Context.runIn_bind_pure (r.runIn_loadPreloads rows _), Context.ended_after,
        List.append_nil]
      cases hcompleted : r.completed rows with
      | error e => exact .unloaded hcount hread hcompleted
      | ok items =>
        refine .served hcount hread hcompleted ?_ ?_ Int64.toInt_ofNat_of_lt
        · intro hpreloads
          rw [r.completed_of_preloads_eq_nil hpreloads] at hcompleted
          exact (Except.ok.inj hcompleted).symm
        · intro hkeeps
          exact r.length_completed hkeeps hcompleted

/-- The third page of the products that cost something: behind the order that the query has, they
are sorted by the one directive of the two that is read, in a window of the largest page, and the
limit that the query had is gone. -/
theorem pagination_serves_products :
    let products : Model Fields := Schema.model
      [.column "id" .integer (.int 0), .column "price" .integer (.int 0)] (.named "products")
    let s : ConfigSettings := { databaseUrl := "", pageLimitMax := 2 }
    let q := ((products.query.filterRaw "price > ?" [.int 0]).orderBy "id").withLimit 7
    let o : PageOptions := { limit := 500, page := 3, orderBy := ["price upwards", "price desc"] }
    let r : Repository Fields := ⟨products, ⟨s.build, "req"⟩, q⟩
    let product (id : Int) : Row := .ofList [("id", .int id), ("price", .int 1)]
    let session : Session :=
      ⟨[.rows [.singleton "count" (.int 6)], .rows [product 5, product 6]], [], []⟩
    (∃ limit page offset : Int64, o.IsServed s.build limit page offset ∧
      r.ServesPage (q.pageRead ["price DESC"] limit offset) limit page session
        ((r.pagination o).runIn session)) ∧
    ((r.pagination o).runIn session).2.executed =
      [⟨"SELECT COUNT(*) FROM \"products\" WHERE price > $1", [.int8 0]⟩,
        ⟨"SELECT \"products\".* FROM \"products\" WHERE price > $1 " ++
            "ORDER BY id, price DESC LIMIT 2 OFFSET 4", [.int8 0]⟩] ∧
    ((r.pagination o).runIn session).1 =
      .ok { page := 3, total := 6, limit := 2, count := 2, items := [product 5, product 6] } := by
  intro products s q o r product session
  have hdirectives : o.orderBy.filterMap SortDirective.normalize? = ["price DESC"] := by
    decide +kernel
  have hserves := pagination_serves products s "req" q o session
  rw [hdirectives] at hserves
  exact ⟨hserves, by decide +kernel, by decide +kernel⟩

end Repository

end RecordStore
