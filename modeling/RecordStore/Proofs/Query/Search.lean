import RecordStore.Proofs.Filter.Keyword
import RecordStore.Proofs.Query.Casts

/-!
# Keyword searches of a query

Keyword searches go on behind the filters that a query has, one filter for each search with an
option that takes part. The others leave the query as it is. In its WHERE clause each filter writes
the comparisons of its search, whatever the other filters are.
-/

namespace RecordStore

open Statement KeywordGroup

/-- A keyword search. -/
inductive Search where
  /-- By a group of options, if there is one. -/
  | group (group : Option KeywordGroup)
  /-- By a text in any of several columns. -/
  | anywhere (text : String) (columns : List String)

namespace Search

/-- The conjunction between the comparisons of a search. -/
def conjunction : Search → Conjunction
  | .group (some g) => g.conjunction
  | .group none => .or
  | .anywhere _ _ => .or

/-- The options of a search. A text is a wildcard for each column. -/
def options : Search → List KeywordOption
  | .group (some g) => g.options
  | .group none => []
  | .anywhere text columns => columns.map fun column ↦ ⟨.wildcard, column, .string text⟩

/-- The options of a search that take part, in their order: those with a plain column reference and
a value that is neither null nor the empty text. -/
def applicable (s : Search) : List KeywordOption :=
  s.options.filter fun o ↦
    Identifier.isColumnReference o.key ∧ o.value ≠ .null ∧ o.value ≠ .string ""

end Search

namespace Query

/-- The query after a search. -/
def applySearch (q : Query) : Search → Query
  | .group group => q.search group
  | .anywhere text columns => q.searchText text columns

/-- The query after searches, one after another. -/
def searchAll (q : Query) (searches : List Search) : Query := searches.foldl applySearch q

/-- Searches that add some filters to a query: one for each search with an option that takes part,
which writes the comparisons of that search, in the order of the searches behind the filters there
are. Nothing else of the query changes, and each filter stands in the conditions of a read between
what is asked before and after it. -/
structure SearchesAdd (q : Query) (searches : List Search) (added : List Expr) : Prop where
  skipped : ∀ before s after, searches = before ++ s :: after → s.applicable = [] →
    q.searchAll (before ++ [s]) = q.searchAll before
  appended : ∀ before s after, searches = before ++ s :: after → s.applicable ≠ [] →
    ∃ e, q.searchAll (before ++ [s]) =
      { q.searchAll before with filters := (q.searchAll before).filters ++ [e] }
  searchAll_eq : q.searchAll searches = { q with filters := q.filters ++ added }
  writes : List.Forall₂ (fun s e ↦ e.WritesKeywords s.conjunction s.applicable)
    (searches.filter fun s ↦ s.applicable ≠ []) added
  body : ∀ conds, ∀ e ∈ added, ∃ beside head rest, head.CastsPlaced ∧
    (q.searchAll searches).whereBody? conds = some (head ++ (e.render beside ++ rest))
  read : (∀ join ∈ q.joins, join.CastsPlaced) → ∀ conds, ∀ e ∈ added,
    ∃ beside head rest, head.CastsPlaced ∧
      (q.searchAll searches).selectStatement conds = head ++ (e.render beside ++ rest)

end Query

/-! ### One search -/

namespace Search

variable {s : Search}

-- The group of a search, whose compilation is the filter that the search adds.
private theorem applySearch_eq (q : Query) (s : Search) :
    (s.applicable = [] ∧ q.applySearch s = q) ∨
      ∃ g : KeywordGroup, g.conjunction = s.conjunction ∧ g.applicable = s.applicable ∧
        q.applySearch s = q.search (some g) := by
  have happlicable (g : KeywordGroup) : g.applicable = g.options.filter fun o ↦
      Identifier.isColumnReference o.key ∧ o.value ≠ .null ∧ o.value ≠ .string "" := by
    rw [KeywordGroup.applicable]
    apply List.filter_congr
    intro o _
    rw [Bool.eq_iff_iff, o.isApplicable_iff, decide_eq_true_eq]
  cases s with
  | group group =>
    cases group with
    | none => exact .inl ⟨rfl, rfl⟩
    | some g => exact .inr ⟨g, rfl, happlicable g, rfl⟩
  | anywhere text columns => exact .inr ⟨.anywhere text columns, rfl, happlicable _, rfl⟩

/-- A search without an option that takes part leaves the query as it is. -/
theorem applySearch_of_applicable_eq_nil (h : s.applicable = []) (q : Query) :
    q.applySearch s = q := by
  rcases applySearch_eq q s with ⟨-, heq⟩ | ⟨g, -, happlicable, heq⟩
  · exact heq
  · rw [heq, Query.search, Option.bind_some, compile_eq_none_iff.2 (happlicable.trans h)]

/-- A search with options that take part adds one filter, which writes their comparisons. -/
theorem exists_applySearch_eq (h : s.applicable ≠ []) (q : Query) :
    ∃ e : Expr, e.isEmpty = false ∧ e.WritesKeywords s.conjunction s.applicable ∧
      q.applySearch s = { q with filters := q.filters ++ [e] } := by
  rcases applySearch_eq q s with ⟨hnil, -⟩ | ⟨g, hconjunction, happlicable, heq⟩
  · exact absurd hnil h
  · have hcompile : g.compile ≠ none := by
      rwa [ne_eq, compile_eq_none_iff, happlicable]
    obtain ⟨e, he⟩ := Option.ne_none_iff_exists'.1 hcompile
    have hempty := isEmpty_of_compile he
    have hwrites := writesKeywords_of_compile he
    rw [hconjunction, happlicable] at hwrites
    refine ⟨e, hempty, hwrites, ?_⟩
    rw [heq, Query.search, Option.bind_some, he]
    change q.filter e = _
    rw [Query.filter, hempty]
    rfl

end Search

namespace Query

/-! ### Searches one after another -/

private theorem searchAll_append (q : Query) (searches : List Search) (s : Search) :
    q.searchAll (searches ++ [s]) = (q.searchAll searches).applySearch s := by
  rw [searchAll, List.foldl_append]
  rfl

-- Each search is told by the query that the ones before it leave.
private theorem exists_searchAll_eq (q : Query) (searches : List Search) :
    ∃ added : List Expr, (∀ e ∈ added, e.isEmpty = false) ∧
      List.Forall₂ (fun s e ↦ e.WritesKeywords s.conjunction s.applicable)
        (searches.filter fun s ↦ s.applicable ≠ []) added ∧
      q.searchAll searches = { q with filters := q.filters ++ added } := by
  induction searches generalizing q with
  | nil => exact ⟨[], List.forall_mem_nil _, .nil, by rw [List.append_nil]; rfl⟩
  | cons s rest ih =>
    by_cases happlicable : s.applicable = []
    · obtain ⟨added, hempty, hwrites, heq⟩ := ih q
      have hskip : q.searchAll (s :: rest) = q.searchAll rest :=
        congrArg (searchAll · rest) (Search.applySearch_of_applicable_eq_nil happlicable q)
      refine ⟨added, hempty, ?_, hskip.trans heq⟩
      rwa [List.filter_cons_of_neg (by simpa using happlicable)]
    · obtain ⟨e, he, hwrite, hadd⟩ := Search.exists_applySearch_eq happlicable q
      obtain ⟨added, hempty, hwrites, heq⟩ := ih { q with filters := q.filters ++ [e] }
      have hstep : q.searchAll (s :: rest) =
          searchAll { q with filters := q.filters ++ [e] } rest := congrArg (searchAll · rest) hadd
      refine ⟨e :: added, List.forall_mem_cons.2 ⟨he, hempty⟩, ?_, ?_⟩
      · rw [List.filter_cons_of_pos (by simpa using happlicable)]
        exact .cons hwrite hwrites
      · rw [hstep, heq, List.append_assoc]
        rfl

-- A filter that writes something is among what a read asks.
private theorem mem_scopedFilters {q : Query} {e : Expr} (h : e ∈ q.filters)
    (he : e.isEmpty = false) (conds : List Condition) : e ∈ q.scopedFilters conds :=
  List.mem_append_left _
    (List.mem_filter.2 ⟨List.mem_append_left _ h, by rw [he]; rfl⟩)

/-- Whatever searches are made, each with an option that takes part adds one filter with the
comparisons of the options that do, and the others change nothing. -/
theorem exists_searchesAdd (q : Query) (searches : List Search) :
    ∃ added, q.SearchesAdd searches added := by
  obtain ⟨added, hempty, hwrites, heq⟩ := q.exists_searchAll_eq searches
  have hmem : ∀ conds, ∀ e ∈ added, e ∈ (q.searchAll searches).scopedFilters conds := by
    intro conds e he
    refine mem_scopedFilters ?_ (hempty e he) conds
    rw [heq]
    exact List.mem_append_right _ he
  refine ⟨added, ?_, ?_, heq, hwrites, ?_, ?_⟩
  · rintro before s - - happlicable
    rw [searchAll_append, Search.applySearch_of_applicable_eq_nil happlicable]
  · rintro before s - - happlicable
    obtain ⟨e, -, -, hadd⟩ := Search.exists_applySearch_eq happlicable (q.searchAll before)
    exact ⟨e, by rw [searchAll_append, hadd]⟩
  · intro conds e he
    obtain ⟨beside, head, rest, hhead, hconditions⟩ :=
      Expr.exists_conditions_eq (hmem conds e he) (hempty e he)
    refine ⟨beside, head, rest, hhead, ?_⟩
    rw [whereBody?, ← scopedFilters, body?,
      List.isEmpty_eq_false_iff.2 (List.ne_nil_of_mem (hmem conds e he)), ← hconditions]
    rfl
  · intro hjoins conds e he
    obtain ⟨beside, head, rest, hhead, hconditions⟩ :=
      Expr.exists_conditions_eq (hmem conds e he) (hempty e he)
    let r := q.searchAll searches
    have hselect := selectColumns_eq (List.ne_nil_of_mem (hmem conds e he)) r.selectList
    have hfront : (r.selectHead r.selectList).CastsPlaced := by
      apply castsPlaced_selectHead
      change ∀ join ∈ (q.searchAll searches).joins, _
      rw [heq]
      exact hjoins
    refine ⟨beside, r.selectHead r.selectList ++ ofText " WHERE " ++ head,
      rest ++ ofText (r.groupClause ++ r.windowClause),
      (hfront.append (.ofText " WHERE ")).append hhead, hselect.trans ?_⟩
    rw [hconditions, withWhere]
    simp only [text_append_eq, append_text_eq, append_assoc]
    rfl

/-- A group with a text, a number and a null, no group, a group without a value, and a text in two
columns of which one is none. -/
def mixedSearches : List Search :=
  [.group (some ⟨.and, [⟨.wildcard, "a", .string "é"⟩, ⟨.exact, "t.b", .int 7⟩,
      ⟨.exact, "c", .null⟩]⟩),
    .group none, .group (some ⟨.or, [⟨.wildcard, "a", .string ""⟩]⟩),
    .anywhere "x" ["d", "lower(e)"]]

/-- Behind hand-written alternatives, two searches add a filter each: the comparisons of the first
one in parentheses, that of the second one bare, numbered on and with the texts cast. -/
theorem exists_searchesAdd_mixed :
    ∃ added : List Expr, added.length = 2 ∧
      ((ofTable "t").filterRaw "a = ? OR b = ?" [.null, .null]).SearchesAdd mixedSearches added ∧
      let q := ((ofTable "t").filterRaw "a = ? OR b = ?" [.null, .null]).searchAll mixedSearches
      (q.selectStatement []).toPostgres =
          "SELECT \"t\".* FROM \"t\" WHERE (a = $1 OR b = $2)" ++
            " AND (a::text LIKE $3 AND t.b = $4) AND d::text LIKE $5" ∧
        (q.selectStatement []).args =
          [.null, .null, .string "%é%", .int 7, .string "%x%"] := by
  obtain ⟨added, hadd⟩ :=
    exists_searchesAdd ((ofTable "t").filterRaw "a = ? OR b = ?" [.null, .null]) mixedSearches
  have hlength := hadd.writes.length_eq
  have happlicable : (mixedSearches.filter fun s ↦ s.applicable ≠ []).length = 2 := by decide
  exact ⟨added, hlength.symm.trans happlicable, hadd, by decide +kernel, by decide +kernel⟩

end Query

end RecordStore
