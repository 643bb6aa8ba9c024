import RecordStore.Json.Record
import RecordStore.Page.Options
import RecordStore.Page.Response

/-!
# Pages as JSON

A request may leave out members, which then have their defaults; a response has all of its own.
-/

namespace RecordStore

/-- A 64-bit integer as JSON. -/
def Json.int64 (n : Int64) : Json := .int n.toInt

/-- A list of texts as JSON. -/
def Json.strings (texts : List String) : Json := .array (texts.map .string)

/-- The value of a member that may be absent: the default then, and else what is read from it. -/
def Json.memberOr {α : Type} (absent : α) (read : Json → Option α) : Option Json → Option α
  | none => some absent
  | some v => read v

namespace PageOptions

/-- A request as JSON. -/
def toJson (o : PageOptions) : Json :=
  (Fields.ofList
    [("q", .string o.q), ("limit", .int64 o.limit), ("page", .int64 o.page),
      ("orderBy", .strings o.orderBy)]).toJson

/-- The request that a value holds. -/
def ofJson? (v : Json) : Option PageOptions := do
  let [q, limit, page, orderBy] ← v.members? ["q", "limit", "page", "orderBy"] | none
  return {
    q := ← Json.memberOr "" Json.string? q
    limit := ← Json.memberOr 0 Json.int64? limit
    page := ← Json.memberOr 0 Json.int64? page
    orderBy := ← Json.memberOr [] Json.strings? orderBy }

end PageOptions

namespace PageResponse

/-- A response as JSON. -/
def toJson (r : PageResponse) : Json :=
  (Fields.ofList
    [("total", .int64 r.total), ("limit", .int64 r.limit), ("count", .int64 r.count),
      ("page", .int64 r.page), ("q", .string r.q), ("orderBy", .strings r.orderBy)]).toJson

/-- The response that a value holds. -/
def ofJson? (v : Json) : Option PageResponse := do
  let [some total, some limit, some count, some page, some q, some orderBy] ←
    v.members? ["total", "limit", "count", "page", "q", "orderBy"] | none
  return {
    total := ← total.int64?
    limit := ← limit.int64?
    count := ← count.int64?
    page := ← page.int64?
    q := ← q.string?
    orderBy := ← orderBy.strings? }

end PageResponse

/-- A page as JSON, given how its rows are written. -/
def Pagination.toJson {α : Type} (p : Pagination α) (item : α → Json) : Json :=
  (Fields.ofList
    [("page", .int64 p.page), ("total", .int64 p.total), ("limit", .int64 p.limit),
      ("count", .int64 p.count), ("items", .array (p.items.map item))]).toJson

end RecordStore
