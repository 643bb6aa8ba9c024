/-!
# Served pages

What is told about a page that was served, and the page with its rows.
-/

namespace RecordStore

/-- What is told about one served page. -/
structure PageResponse where
  /-- The number of rows that match, whatever the page. -/
  total : Int64
  limit : Int64
  /-- The number of rows of the page. -/
  count : Int64
  page : Int64
  q : String
  orderBy : List String
deriving DecidableEq

/-- A page of rows. -/
structure Pagination (α : Type) where
  page : Int64
  total : Int64
  limit : Int64
  count : Int64
  items : List α
deriving DecidableEq

/-- The page with the given rows that a response tells about. -/
def PageResponse.withItems {α : Type} (r : PageResponse) (items : List α) : Pagination α :=
  { page := r.page, total := r.total, limit := r.limit, count := r.count, items }

end RecordStore
