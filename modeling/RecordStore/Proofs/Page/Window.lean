import RecordStore.Proofs.Filter.Emptiness
import RecordStore.Store.Paginate

/-!
# The window of a page

Whatever a request asks for, a configuration that is built from settings serves it a window between
one row and its largest page: from the first row on, and never past the largest 64-bit integer. The
window and the sort directives of the request are what the read of the page adds to the query.
-/

namespace RecordStore

open Query

/-- The limits of a configuration: each one is at least 1, and the default is not above the
largest. -/
theorem ConfigSettings.limits_build (s : ConfigSettings) :
    1 ≤ s.build.pageLimitDefault.toInt ∧
      s.build.pageLimitDefault.toInt ≤ s.build.pageLimitMax.toInt := by
  simp only [build, toInt_max, toInt_min, Int64.toInt_one]
  omega

namespace PageOptions

/-- A window that a request is served under a configuration: as many rows as it asks for, the
default if it asks for none, never more than the largest page, with the rows of the pages before it
skipped. -/
structure IsServed (o : PageOptions) (config : StoreConfig) (limit page offset : Int64) : Prop where
  pos : 1 ≤ limit.toInt
  le : limit.toInt ≤ config.pageLimitMax.toInt
  asked : 1 ≤ o.limit.toInt → o.limit.toInt ≤ config.pageLimitMax.toInt → limit = o.limit
  above : config.pageLimitMax.toInt < o.limit.toInt → limit = config.pageLimitMax
  unasked : o.limit.toInt ≤ 0 → limit = config.pageLimitDefault
  page_eq : page.toInt = max o.page.toInt 1
  offset_eq : offset.toInt = min (limit.toInt * (max o.page.toInt 1 - 1)) int64Max

variable (o : PageOptions)

/-- The value of a limit held to a configuration. -/
theorem toInt_limit_normalized (config : StoreConfig) :
    (o.normalized config).limit.toInt =
      if o.limit.toInt ≤ 0 then config.pageLimitDefault.toInt
      else min o.limit.toInt config.pageLimitMax.toInt := by
  change (if o.limit ≤ 0 then config.pageLimitDefault
    else min o.limit config.pageLimitMax).toInt = _
  split
  · next h =>
    rw [Int64.le_iff_toInt_le, Int64.toInt_zero] at h
    rw [if_pos h]
  · next h =>
    rw [Int64.le_iff_toInt_le, Int64.toInt_zero] at h
    rw [if_neg h, toInt_min]

/-- The number of pages before one is exact; pages below the first one count as it. -/
theorem toInt_pagesBefore (page : Int64) : (max page 1 - 1).toInt = max page.toInt 1 - 1 := by
  have hmax : (max page 1).toInt = max page.toInt 1 := by
    rw [toInt_max, Int64.toInt_one]
  have hle : 1 ≤ max page 1 := by
    rw [Int64.le_iff_toInt_le, hmax, Int64.toInt_one]
    omega
  rw [Int64.toInt_sub_of_le _ _ (by decide) hle, hmax, Int64.toInt_one]

/-- The rows before a page, held at the largest 64-bit integer. -/
theorem toInt_offset (hlimit : 1 ≤ o.limit.toInt) :
    o.offset.toInt = min (o.limit.toInt * (max o.page.toInt 1 - 1)) int64Max := by
  have hlimit_max : (max o.limit 0).toInt = o.limit.toInt := by
    rw [toInt_max, Int64.toInt_zero]
    omega
  have hproduct : 0 ≤ o.limit.toInt * (max o.page.toInt 1 - 1) :=
    Int.mul_nonneg (by omega) (by omega)
  rw [offset, toInt_saturatingProduct, hlimit_max, toInt_pagesBefore]
  simp only [int64Min, int64Max]
  omega

/-- Under a configuration that is built from settings, a request held to it is served a window
whose limit is that of the request held to it. -/
theorem isServed_servedWindow (s : ConfigSettings) :
    o.IsServed s.build (servedWindow (o.normalized s.build)).limit
      (servedWindow (o.normalized s.build)).page (servedWindow (o.normalized s.build)).offset := by
  obtain ⟨hdefault, hmax⟩ := s.limits_build
  have hnormalized := o.toInt_limit_normalized s.build
  have hlimit : (servedWindow (o.normalized s.build)).limit.toInt =
      (o.normalized s.build).limit.toInt := by
    rw [servedWindow, toInt_max, Int64.toInt_one, hnormalized]
    split <;> omega
  have hpage : (servedWindow (o.normalized s.build)).page.toInt = max o.page.toInt 1 := by
    simp only [servedWindow, normalized, toInt_max, Int64.toInt_one]
    omega
  rw [hnormalized] at hlimit
  refine ⟨?_, ?_, ?_, ?_, ?_, hpage, ?_⟩
  · split at hlimit <;> omega
  · split at hlimit <;> omega
  · intro hpos hle
    rw [← Int64.toInt_inj, hlimit, if_neg (by omega)]
    omega
  · intro habove
    rw [← Int64.toInt_inj, hlimit, if_neg (by omega)]
    omega
  · intro hnone
    rw [← Int64.toInt_inj, hlimit, if_pos hnone]
  · have hmax : max (max o.page.toInt 1) 1 = max o.page.toInt 1 := by omega
    rw [toInt_offset, hpage, hmax]
    split at hlimit <;> omega

end PageOptions

namespace Query

/-- The read of one page: the rows of a query, in its order and then by some directives, with a
limit and an offset in place of those that it has. -/
def pageRead (q : Query) (directives : List String) (limit offset : Int64) : Statement :=
  q.unordered q.selectList [] ++
    ((if q.ordering ++ directives = [] then ""
      else " ORDER BY " ++ String.intercalate ", " (q.ordering ++ directives)) ++
      " LIMIT " ++ integerText limit.toInt ++ " OFFSET " ++ integerText offset.toInt ++
      String.join (q.clauses.map lockText))

private theorem isBlankText_of_normalize? {directive normal : String}
    (h : SortDirective.normalize? directive = some normal) : isBlankText normal = false := by
  obtain ⟨d, -, rfl⟩ := Option.map_eq_some_iff.1 h
  have hkeyword : isBlankText d.direction.keyword = false := by
    cases d.direction <;> decide
  rw [SortDirective.text, isBlankText_append, hkeyword, Bool.and_false]

/-- Sorting by directives that are not blank adds all of them to the order. -/
theorem sortedBy_eq (q : Query) {directives : List String}
    (h : ∀ d ∈ directives, isBlankText d = false) :
    q.sortedBy directives = { q with ordering := q.ordering ++ directives } := by
  induction directives generalizing q with
  | nil => rw [List.append_nil]; rfl
  | cons directive rest ih =>
    obtain ⟨hdirective, hrest⟩ := List.forall_mem_cons.1 h
    have hstep : q.orderBy directive = { q with ordering := q.ordering ++ [directive] } := by
      rw [orderBy, hdirective]
      rfl
    change (q.orderBy directive).sortedBy rest = _
    rw [hstep, ih _ hrest, List.append_assoc]
    rfl

/-- A request held to a configuration sorts by all its directives. -/
theorem sortedBy_normalized (q : Query) (o : PageOptions) (config : StoreConfig) :
    q.sortedBy (o.normalized config).orderBy =
      { q with ordering := q.ordering ++ o.orderBy.filterMap SortDirective.normalize? } := by
  apply sortedBy_eq
  intro normal hnormal
  obtain ⟨directive, -, hdirective⟩ := List.mem_filterMap.1 hnormal
  exact isBlankText_of_normalize? hdirective

private theorem selectStatement_window (q : Query) (directives : List String)
    (limit offset : Int64) :
    { q with
      ordering := q.ordering ++ directives
      limit := some limit
      offset := some offset : Query }.selectStatement [] = q.pageRead directives limit offset := by
  have hlimit : boundClause "LIMIT" (some limit) = " LIMIT " ++ integerText limit.toInt := rfl
  have hoffset : boundClause "OFFSET" (some offset) = " OFFSET " ++ integerText offset.toInt := rfl
  have horder : orderClause { q with ordering := q.ordering ++ directives } =
      if q.ordering ++ directives = [] then ""
      else " ORDER BY " ++ String.intercalate ", " (q.ordering ++ directives) := by
    rw [orderClause]
    simp only [List.isEmpty_iff]
  change q.unordered q.selectList [] ++
    (orderClause { q with ordering := q.ordering ++ directives } ++
      boundClause "LIMIT" (some limit) ++ boundClause "OFFSET" (some offset) ++
      String.join (q.clauses.map lockText)) = _
  rw [pageRead, horder, hlimit, hoffset]
  simp only [String.append_assoc]

private theorem bound?_eq_some {n : Int64} (h : 0 ≤ n.toInt) : bound? n = some n := by
  rw [bound?, if_pos]
  rwa [Int64.le_iff_toInt_le, Int64.toInt_zero]

/-- The read of the page that a request is served. -/
theorem selectStatement_onPage (q : Query) (o : PageOptions) (s : ConfigSettings) :
    (q.onPage (o.normalized s.build)).selectStatement [] =
      q.pageRead (o.orderBy.filterMap SortDirective.normalize?)
        (servedWindow (o.normalized s.build)).limit
        (servedWindow (o.normalized s.build)).offset := by
  have hserved := o.isServed_servedWindow s
  have hoffset : 0 ≤ (servedWindow (o.normalized s.build)).offset.toInt := by
    have hproduct := Int.mul_nonneg (Int.le_of_lt hserved.pos)
      (show 0 ≤ max o.page.toInt 1 - 1 by omega)
    rw [hserved.offset_eq]
    exact Int.le_min.2 ⟨hproduct, by decide⟩
  rw [onPage, sortedBy_normalized, withLimit, withOffset,
    bound?_eq_some (Int.le_of_lt hserved.pos), bound?_eq_some hoffset]
  exact q.selectStatement_window _ _ _

end Query

end RecordStore
