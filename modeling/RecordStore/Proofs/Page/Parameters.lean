import Mathlib.Data.List.Induction
import RecordStore.Page.Options

/-!
# The parameters of a request

A request is made from a list of named values. Of each parameter the last value counts, whatever
stands before it, and a value of another name counts for nothing. So two lists make the same request
when each parameter has the same last value in both, and what is taken from a value is told apart
from where it stands.
-/

namespace RecordStore

/-- A parameter of a request. -/
inductive Parameter where
  | search
  | limit
  | page
  | sort

namespace Parameter

/-- The names that a parameter goes by. -/
def names : Parameter → List String
  | .search => ["q"]
  | .limit => ["limit"]
  | .page => ["page"]
  | .sort => ["order_by", "orderBy"]

/-- The values of a parameter in a list of named values, in order. -/
def values (p : Parameter) (pairs : List (String × String)) : List String :=
  (pairs.filter fun pair ↦ pair.1 ∈ p.names).map Prod.snd

/-- The last value of a parameter, if it has one. -/
def last? (p : Parameter) (pairs : List (String × String)) : Option String :=
  (p.values pairs).getLast?

@[simp] theorem values_nil (p : Parameter) : p.values [] = [] := rfl

/-- The first value of a list belongs to the parameter that goes by its name. -/
theorem values_cons (p : Parameter) (key value : String) (rest : List (String × String)) :
    p.values ((key, value) :: rest) =
      if key ∈ p.names then value :: p.values rest else p.values rest := by
  by_cases h : key ∈ p.names <;> simp [values, h]

/-- The values of two lists are those of the first and then those of the second. -/
theorem values_append (p : Parameter) (first second : List (String × String)) :
    p.values (first ++ second) = p.values first ++ p.values second := by
  rw [values, List.filter_append, List.map_append]
  rfl

/-- The value at the end of a list is the last one of its parameter. -/
theorem last?_concat (p : Parameter) (pairs : List (String × String)) (pair : String × String) :
    p.last? (pairs ++ [pair]) = if pair.1 ∈ p.names then some pair.2 else p.last? pairs := by
  rw [last?, values_append, values_cons, values_nil]
  split
  · exact List.getLast?_concat
  · rw [List.append_nil]
    rfl

/-- A value is the last one when none of the parameter stands behind it. -/
theorem last?_append_cons (p : Parameter) {key : String} (hkey : key ∈ p.names) (value : String)
    (before : List (String × String)) {after : List (String × String)}
    (hafter : ∀ pair ∈ after, pair.1 ∉ p.names) :
    p.last? (before ++ (key, value) :: after) = some value := by
  have hnone : p.values after = [] := by
    rw [values, List.filter_eq_nil_iff.2 (by simpa using hafter)]
    rfl
  rw [last?, values_append, values_cons, if_pos hkey, hnone, List.getLast?_concat]

end Parameter

/-- The number that the last value of a parameter counts as: the integer of the value, blanks around
it ignored, and 0 when there is no value or it holds no signed 64-bit integer. -/
inductive CountsAs : Option String → Int64 → Prop
  | missing : CountsAs none 0
  | number {value : String} {n : Int64} (h : IsNumeral (trim value).toList n.toInt) :
    CountsAs (some value) n
  | other {value : String} (h : ∀ n : Int64, ¬IsNumeral (trim value).toList n.toInt) :
    CountsAs (some value) 0

namespace PageOptions

/-- A request made from the last value of each parameter, with the default where there is none. -/
structure TakesLast (o : PageOptions) (pairs : List (String × String)) : Prop where
  q : o.q = (Parameter.search.last? pairs).getD ""
  limit : CountsAs (Parameter.limit.last? pairs) o.limit
  page : CountsAs (Parameter.page.last? pairs) o.page
  orderBy : o.orderBy = ((Parameter.sort.last? pairs).map OrderBy.parse).getD []

/-! ### Numbers -/

/-- What a value counts as is the number that is read from it. -/
theorem countsAs_iff {value? : Option String} {n : Int64} :
    CountsAs value? n ↔ n = (value?.map parameterNumber).getD 0 := by
  cases value? with
  | none =>
    constructor
    · rintro ⟨⟩
      rfl
    · rintro rfl
      exact .missing
  | some value =>
    rw [Option.map_some, Option.getD_some, parameterNumber, ← toList_trim]
    constructor
    · intro h
      cases h with
      | number h => rw [readInt64_eq_some_iff.2 h, Option.getD_some]
      | other h =>
        rw [Option.eq_none_iff_forall_ne_some.2 fun n hn ↦ h n (readInt64_eq_some_iff.1 hn),
          Option.getD_none]
    · rintro rfl
      cases hread : readInt64 (trim value).toList with
      | none =>
        refine .other fun n hn ↦ ?_
        rw [readInt64_eq_some_iff.2 hn] at hread
        cases hread
      | some n => exact .number (readInt64_eq_some_iff.1 hread)

/-! ### The request of a list -/

/-- One more value changes what is taken from its parameter and nothing else. -/
theorem withParameter_eq (o : PageOptions) (key value : String) :
    o.withParameter key value =
      { q := if key ∈ Parameter.search.names then value else o.q
        limit := if key ∈ Parameter.limit.names then parameterNumber value else o.limit
        page := if key ∈ Parameter.page.names then parameterNumber value else o.page
        orderBy := if key ∈ Parameter.sort.names then OrderBy.parse value else o.orderBy } := by
  simp only [withParameter, Parameter.names, List.mem_cons, List.not_mem_nil, or_false]
  split_ifs <;> simp_all

/-- The request of a list has the last value of each parameter. -/
theorem ofParameters_eq (pairs : List (String × String)) :
    ofParameters pairs =
      { q := (Parameter.search.last? pairs).getD ""
        limit := ((Parameter.limit.last? pairs).map parameterNumber).getD 0
        page := ((Parameter.page.last? pairs).map parameterNumber).getD 0
        orderBy := ((Parameter.sort.last? pairs).map OrderBy.parse).getD [] } := by
  -- From the end of the list, where the last value stands.
  induction pairs using List.reverseRecOn with
  | nil => rfl
  | append_singleton pairs pair ih =>
    have hfold : ofParameters (pairs ++ [pair]) =
        (ofParameters pairs).withParameter pair.1 pair.2 := by
      rw [ofParameters, List.foldl_append]
      rfl
    rw [hfold, withParameter_eq, ih]
    simp only [Parameter.last?_concat]
    congr 1 <;> split <;> rfl

/-- The request that takes the last value of each parameter is the one that the list makes. -/
theorem takesLast_iff {o : PageOptions} {pairs : List (String × String)} :
    o.TakesLast pairs ↔ o = ofParameters pairs := by
  rw [ofParameters_eq]
  constructor
  · intro h
    rw [← h.q, ← countsAs_iff.1 h.limit, ← countsAs_iff.1 h.page, ← h.orderBy]
  · rintro rfl
    exact ⟨rfl, countsAs_iff.2 rfl, countsAs_iff.2 rfl, rfl⟩

private theorem ofParameters_congr {pairs others : List (String × String)}
    (h : ∀ p : Parameter, p.last? others = p.last? pairs) :
    ofParameters others = ofParameters pairs := by
  rw [← takesLast_iff]
  have hmade : (ofParameters others).TakesLast others := takesLast_iff.2 rfl
  exact ⟨h .search ▸ hmade.q, h .limit ▸ hmade.limit, h .page ▸ hmade.page,
    h .sort ▸ hmade.orderBy⟩

/-- The request of a list of named values, held to a configuration, is made from the last value of
each parameter and from nothing else: a value of another name may stand anywhere in the list, and
its values may stand in any order that is the same within each parameter. -/
theorem ofParameters_takesLast (config : StoreConfig) :
    (∀ pairs : List (String × String), ∃ o : PageOptions, o.TakesLast pairs) ∧
    (∀ (pairs : List (String × String)) (o : PageOptions), o.TakesLast pairs →
      (ofParameters pairs).normalized config = o.normalized config) ∧
    (∀ (before after : List (String × String)) (key value : String),
      (∀ p : Parameter, key ∉ p.names) →
        (ofParameters (before ++ (key, value) :: after)).normalized config =
          (ofParameters (before ++ after)).normalized config) ∧
    ∀ pairs others : List (String × String),
      (∀ p : Parameter, p.values others = p.values pairs) →
        (ofParameters others).normalized config = (ofParameters pairs).normalized config := by
  refine ⟨?_, ?_, ?_, ?_⟩
  · intro pairs
    exact ⟨ofParameters pairs, takesLast_iff.2 rfl⟩
  · intro pairs o h
    rw [takesLast_iff.1 h]
  · intro before after key value hkey
    have hlast : ∀ p : Parameter,
        p.last? (before ++ (key, value) :: after) = p.last? (before ++ after) := by
      intro p
      rw [Parameter.last?, Parameter.last?, p.values_append, p.values_append, p.values_cons,
        if_neg (hkey p)]
    rw [ofParameters_congr hlast]
  · intro pairs others h
    have hlast : ∀ p : Parameter, p.last? others = p.last? pairs := by
      intro p
      rw [Parameter.last?, Parameter.last?, h p]
    rw [ofParameters_congr hlast]

/-- Of two limits the last counts, which is no number, and of two sort parameters the last, under
whichever name. -/
theorem ofParameters_takesLast_titles :
    let config := ({ databaseUrl := "" } : ConfigSettings).build
    let pairs := [("limit", "7"), ("orderBy", "id"), ("limit", "x"), ("page", " +3 "),
      ("order_by", "title,id asc")]
    let others := [("page", " +3 "), ("order_by", "id"), ("limit", "7"),
      ("orderBy", "title,id asc"), ("limit", "x")]
    let o : PageOptions := { limit := 0, page := 3, orderBy := ["title desc", "id asc"] }
    o.TakesLast pairs ∧ (ofParameters pairs).normalized config = o.normalized config ∧
      (∀ p : Parameter, "lang" ∉ p.names) ∧
      (ofParameters (("lang", "en") :: pairs)).normalized config =
        (ofParameters pairs).normalized config ∧
      (∀ p : Parameter, p.values others = p.values pairs) ∧
      (ofParameters others).normalized config = (ofParameters pairs).normalized config := by
  intro config pairs others o
  obtain ⟨-, hlast, hother, hsame⟩ := ofParameters_takesLast config
  have htakes : o.TakesLast pairs := takesLast_iff.2 (by decide)
  have hlang : ∀ p : Parameter, "lang" ∉ p.names := by
    intro p
    cases p <;> decide
  have hvalues : ∀ p : Parameter, p.values others = p.values pairs := by
    intro p
    cases p <;> decide
  exact ⟨htakes, hlast pairs o htakes, hlang, hother [] pairs "lang" "en" hlang, hvalues,
    hsame pairs others hvalues⟩

end PageOptions

end RecordStore
