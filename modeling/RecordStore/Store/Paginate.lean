import RecordStore.Page.Options
import RecordStore.Page.Response
import RecordStore.Query.Select
import RecordStore.Store.Session

/-!
# Serving a page

A page is served by two statements, the count of all rows that match and the read of the page's
rows. The limit and the page number are raised to at least 1, so any request is served a window.
-/

namespace RecordStore

namespace Query

/-- The query with the sort directives of a request after its own order. -/
def sortedBy (q : Query) (directives : List String) : Query := directives.foldl orderBy q

/-- The window that a request is served: its limit and page raised to at least 1. -/
def servedWindow (o : PageOptions) : PageOptions :=
  { limit := max o.limit 1, page := max o.page 1 }

/-- The query of the rows of one page. -/
def onPage (q : Query) (o : PageOptions) : Query :=
  ((q.sortedBy o.orderBy).withLimit (servedWindow o).limit).withOffset (servedWindow o).offset

/-- The rows of a page and what is told about it. -/
def paginate {α : Type} (q : Query) (read : RowReader α) (o : PageOptions) :
    Action StoreError (List α × PageResponse) := do
  let total ← Store.count ((q.sortedBy o.orderBy).countStatement [])
  let items ← Store.fetchAll read ((q.onPage o).selectStatement [])
  return (items,
    { total
      limit := (servedWindow o).limit
      count := Int64.ofNat items.length
      page := (servedWindow o).page
      q := o.q
      orderBy := o.orderBy })

end Query

end RecordStore
