import RecordStore.Config.Basic
import RecordStore.Integer.Text
import RecordStore.Page.OrderBy

/-!
# Requests for a page

A request says what it looks for, how many rows a page has, which page it wants and how the rows
are sorted. Normalizing holds it to what the configuration allows.
-/

namespace RecordStore

/-- A request for one page. -/
structure PageOptions where
  q : String := ""
  limit : Int64 := 0
  page : Int64 := 0
  orderBy : List String := []
deriving DecidableEq

namespace PageOptions

/-- The request held to a configuration: a limit that is not positive becomes the default, one
above the largest becomes the largest, the page is at least 1, and what is no sort directive is
dropped. -/
def normalized (o : PageOptions) (config : StoreConfig) : PageOptions :=
  { o with
    limit := if o.limit ≤ 0 then config.pageLimitDefault else min o.limit config.pageLimitMax
    page := max o.page 1
    orderBy := o.orderBy.filterMap SortDirective.normalize? }

/-- The number of rows before the page, held at the largest 64-bit integer. -/
def offset (o : PageOptions) : Int64 := saturatingProduct (max o.limit 0) (max o.page 1 - 1)

/-- The number that a parameter holds, blanks around it ignored; 0 when it holds none. -/
def parameterNumber (value : String) : Int64 := (readInt64 (trimChars value.toList)).getD 0

/-- The request with one more parameter read; a parameter of another name changes nothing. -/
def withParameter (o : PageOptions) (key value : String) : PageOptions :=
  if key = "q" then { o with q := value }
  else if key = "limit" then { o with limit := parameterNumber value }
  else if key = "page" then { o with page := parameterNumber value }
  else if key = "order_by" ∨ key = "orderBy" then { o with orderBy := OrderBy.parse value }
  else o

/-- The request that a list of parameters makes, of which the last of a name counts. -/
def ofParameters (parameters : List (String × String)) : PageOptions :=
  parameters.foldl (fun (o : PageOptions) parameter ↦ o.withParameter parameter.1 parameter.2) {}

end PageOptions

end RecordStore
