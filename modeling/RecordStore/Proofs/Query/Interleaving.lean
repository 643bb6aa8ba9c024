import RecordStore.Proofs.Query.Chain
import RecordStore.Repository.Basic

/-!
# Calls of different kinds

A call of a chain is about one part of a query. It changes that part, by what it finds there alone,
and leaves every other part as it is. So a chain is told by its calls of each kind, in their order:
calls of different kinds may change places. Whatever a chain has accumulated, dropping it leads back
to the query that the chain started from.
-/

namespace RecordStore

/-- What a call of a chain is about. -/
inductive CallKind where
  | filters
  | joins
  | ordering
  | grouping
  | limit
  | offset
  | distinct
  | selected
  | omitted
  | preloads
  | scope
  | clauses
  | attrs
  | assigned
deriving DecidableEq

namespace CallKind

/-- The values of a part of a query. -/
abbrev Part : CallKind → Type
  | filters => List Expr
  | joins => List Statement
  | ordering | grouping | selected | omitted => List String
  | limit | offset => Option Int64
  | distinct | scope => Bool
  | preloads => List Preload
  | clauses => List Clause
  | attrs | assigned => Fields

end CallKind

namespace Call

/-- What a call is about. A call that names another table, or that makes a query of its own from the
one there is, belongs to no chain. -/
def kind? : Call → Option CallKind
  | .filter _ | .filterEqual _ _ | .search _ => some .filters
  | .join _ _ => some .joins
  | .orderBy _ => some .ordering
  | .groupBy _ => some .grouping
  | .limit _ => some .limit
  | .offset _ => some .offset
  | .distinct => some .distinct
  | .select _ => some .selected
  | .omitting _ => some .omitted
  | .preload _ => some .preloads
  | .unscoped => some .scope
  | .clause _ => some .clauses
  | .attrs _ => some .attrs
  | .assign _ => some .assigned
  | .withTable _ | .withSoftDelete _ | .withPrimaryKey _ | .reset | .first | .batch _ _ => none

/-- The calls of a chain that are about one part, in their order. -/
def ofKind (kind : CallKind) (calls : List Call) : List Call :=
  calls.filter fun call ↦ call.kind? = some kind

/-- Calls that make up a chain. -/
def IsChain (calls : List Call) : Prop := ∀ call ∈ calls, call.kind? ≠ none

end Call

namespace Query

/-- A query that nothing has been accumulated for: one of a table or of a model, perhaps with
another name, another primary key or another mark of deletion. -/
inductive Fresh : Query → Prop where
  | ofTable (table : String) : Fresh (.ofTable table)
  | ofModel {α : Type} (m : Model α) : Fresh m.query
  | withTable {q : Query} (h : Fresh q) (table : String) : Fresh (q.withTable table)
  | withSoftDelete {q : Query} (h : Fresh q) (column : String) : Fresh (q.withSoftDelete column)
  | withPrimaryKey {q : Query} (h : Fresh q) (primaryKey : String) :
    Fresh (q.withPrimaryKey primaryKey)

/-- Dropping what has been accumulated changes nothing when there is nothing. -/
theorem Fresh.reset_eq {q : Query} (h : q.Fresh) : q.reset = q := by
  induction h with
  | ofTable table => rfl
  | ofModel m => rfl
  | @withTable q _ table ih => exact congrArg (fun q : Query ↦ q.withTable table) ih
  | @withSoftDelete q _ column ih => exact congrArg (fun q : Query ↦ q.withSoftDelete column) ih
  | @withPrimaryKey q _ key ih => exact congrArg (fun q : Query ↦ q.withPrimaryKey key) ih

/-! ### The parts of a query -/

/-- One part of a query. -/
def part (q : Query) : (kind : CallKind) → kind.Part
  | .filters => q.filters
  | .joins => q.joins
  | .ordering => q.ordering
  | .grouping => q.grouping
  | .limit => q.limit
  | .offset => q.offset
  | .distinct => q.isDistinct
  | .selected => q.selected
  | .omitted => q.omitted
  | .preloads => q.preloads
  | .scope => q.includesDeleted
  | .clauses => q.clauses
  | .attrs => q.attrs
  | .assigned => q.assigned

/-- The query with one part replaced. -/
def withPart (q : Query) : (kind : CallKind) → kind.Part → Query
  | .filters, filters => { q with filters }
  | .joins, joins => { q with joins }
  | .ordering, ordering => { q with ordering }
  | .grouping, grouping => { q with grouping }
  | .limit, limit => { q with limit }
  | .offset, offset => { q with offset }
  | .distinct, isDistinct => { q with isDistinct }
  | .selected, selected => { q with selected }
  | .omitted, omitted => { q with omitted }
  | .preloads, preloads => { q with preloads }
  | .scope, includesDeleted => { q with includesDeleted }
  | .clauses, clauses => { q with clauses }
  | .attrs, attrs => { q with attrs }
  | .assigned, assigned => { q with assigned }

variable {q q' : Query} {kind other : CallKind}

private theorem part_withPart (q : Query) (kind : CallKind) (x : kind.Part) :
    (q.withPart kind x).part kind = x := by
  cases kind <;> rfl

private theorem part_withPart_of_ne (h : kind ≠ other) (q : Query) (x : kind.Part) :
    (q.withPart kind x).part other = q.part other := by
  cases kind <;> cases other <;> first | rfl | exact absurd rfl h

private theorem identity_withPart (q : Query) (kind : CallKind) (x : kind.Part) :
    (q.withPart kind x).identity = q.identity := by
  cases kind <;> rfl

/-- A query is its table and its parts. -/
theorem ext_part (hidentity : q.identity = q'.identity)
    (h : ∀ kind, q.part kind = q'.part kind) : q = q' := by
  cases q
  cases q'
  have hfilters := h .filters
  have hjoins := h .joins
  have hordering := h .ordering
  have hgrouping := h .grouping
  have hlimit := h .limit
  have hoffset := h .offset
  have hdistinct := h .distinct
  have hselected := h .selected
  have homitted := h .omitted
  have hpreloads := h .preloads
  have hscope := h .scope
  have hclauses := h .clauses
  have hattrs := h .attrs
  have hassigned := h .assigned
  simp only [part] at *
  simp only [*]

/-! ### Calls and chains -/

private theorem exists_filter_eq (e : Expr) :
    ∃ f : List Expr → List Expr, ∀ q : Query, q.filter e = { q with filters := f q.filters } := by
  cases h : e.isEmpty with
  | false => exact ⟨(· ++ [e]), fun q ↦ by simp [filter, h]⟩
  | true => exact ⟨id, fun q ↦ by simp [filter, h]⟩

/-- A call of a chain replaces the part that it is about by what it makes of that part. -/
theorem exists_apply_eq {call : Call} (h : call.kind? = some kind) :
    ∃ f : kind.Part → kind.Part, ∀ q : Query, call.apply q = q.withPart kind (f (q.part kind)) := by
  cases call with
  | filter e =>
    cases h
    exact exists_filter_eq e
  | filterEqual column value =>
    cases h
    exact exists_filter_eq _
  | search group =>
    cases h
    cases hcompile : group.bind KeywordGroup.compile with
    | none => exact ⟨id, fun q ↦ by simp only [Call.apply, search, hcompile]; rfl⟩
    | some e =>
      obtain ⟨f, hf⟩ := exists_filter_eq e
      exact ⟨f, fun q ↦ by simp only [Call.apply, search, hcompile]; exact hf q⟩
  | orderBy term =>
    cases h
    cases hblank : isBlankText term with
    | false => exact ⟨(· ++ [term]), fun q ↦ by simp [Call.apply, orderBy, hblank, withPart, part]⟩
    | true => exact ⟨id, fun q ↦ by simp [Call.apply, orderBy, hblank, withPart, part]⟩
  | join sql args => cases h; exact ⟨(· ++ [.withArgs sql args]), fun q ↦ rfl⟩
  | groupBy term => cases h; exact ⟨(· ++ [term]), fun q ↦ rfl⟩
  | limit n => cases h; exact ⟨fun _ ↦ bound? n, fun q ↦ rfl⟩
  | offset n => cases h; exact ⟨fun _ ↦ bound? n, fun q ↦ rfl⟩
  | distinct => cases h; exact ⟨fun _ ↦ true, fun q ↦ rfl⟩
  | select columns => cases h; exact ⟨fun _ ↦ columns, fun q ↦ rfl⟩
  | omitting columns => cases h; exact ⟨(· ++ columns), fun q ↦ rfl⟩
  | preload p => cases h; exact ⟨(· ++ [p]), fun q ↦ rfl⟩
  | unscoped => cases h; exact ⟨fun _ ↦ true, fun q ↦ rfl⟩
  | clause c => cases h; exact ⟨(· ++ [c]), fun q ↦ rfl⟩
  | attrs values => cases h; exact ⟨(·.overlay values), fun q ↦ rfl⟩
  | assign values => cases h; exact ⟨(·.overlay values), fun q ↦ rfl⟩
  | withTable table => cases h
  | withSoftDelete column => cases h
  | withPrimaryKey primaryKey => cases h
  | reset => cases h
  | first => cases h
  | batch size after => cases h

/-- A call of a chain keeps the table's identity. -/
theorem identity_apply {call : Call} (h : call.kind? ≠ none) (q : Query) :
    (call.apply q).identity = q.identity := by
  obtain ⟨kind, hkind⟩ := Option.ne_none_iff_exists'.1 h
  obtain ⟨f, hf⟩ := exists_apply_eq hkind
  rw [hf, identity_withPart]

/-- A call of a chain leaves the parts that it is not about as they are. -/
theorem part_apply_of_ne {call : Call} (h : call.kind? ≠ none) (hother : call.kind? ≠ some kind)
    (q : Query) : (call.apply q).part kind = q.part kind := by
  obtain ⟨own, hown⟩ := Option.ne_none_iff_exists'.1 h
  obtain ⟨f, hf⟩ := exists_apply_eq hown
  have hne : own ≠ kind := fun heq ↦ hother (heq ▸ hown)
  rw [hf, part_withPart_of_ne hne]

/-- A call of a chain makes equal parts from equal parts, whatever the rest of the queries is. -/
theorem part_apply_congr {call : Call} (h : call.kind? = some kind)
    (hpart : q.part kind = q'.part kind) :
    (call.apply q).part kind = (call.apply q').part kind := by
  obtain ⟨f, hf⟩ := exists_apply_eq h
  rw [hf, hf, part_withPart, part_withPart, hpart]

/-- A chain keeps the table's identity. -/
theorem identity_applyAll {calls : List Call} (h : Call.IsChain calls) (q : Query) :
    (Call.applyAll q calls).identity = q.identity := by
  induction calls generalizing q with
  | nil => rfl
  | cons call rest ih =>
    obtain ⟨hcall, hrest⟩ := List.forall_mem_cons.1 h
    exact (ih hrest _).trans (identity_apply hcall q)

-- The second query is general: it has run behind by the calls of the other kinds.
private theorem part_applyAll_congr {calls : List Call} (h : Call.IsChain calls)
    (hpart : q.part kind = q'.part kind) :
    (Call.applyAll q calls).part kind =
      (Call.applyAll q' (Call.ofKind kind calls)).part kind := by
  induction calls generalizing q q' with
  | nil => exact hpart
  | cons call rest ih =>
    obtain ⟨hcall, hrest⟩ := List.forall_mem_cons.1 h
    by_cases hkind : call.kind? = some kind
    · rw [Call.ofKind, List.filter_cons_of_pos (by simpa using hkind)]
      exact ih hrest (part_apply_congr hkind hpart)
    · rw [Call.ofKind, List.filter_cons_of_neg (by simpa using hkind)]
      exact ih hrest ((part_apply_of_ne hcall hkind q).trans hpart)

/-- A chain makes of a part what the calls that are about it make of it alone. -/
theorem part_applyAll {calls : List Call} (h : Call.IsChain calls) (q : Query)
    (kind : CallKind) :
    (Call.applyAll q calls).part kind = (Call.applyAll q (Call.ofKind kind calls)).part kind :=
  part_applyAll_congr h rfl

/-- Dropping what a chain has accumulated leads back to a fresh query that it started from. -/
theorem Fresh.reset_applyAll {calls : List Call} (hq : q.Fresh) (h : Call.IsChain calls) :
    (Call.applyAll q calls).reset = q := by
  calc (Call.applyAll q calls).reset
      = ofIdentity (Call.applyAll q calls).identity := rfl
    _ = ofIdentity q.identity := by rw [identity_applyAll h]
    _ = q := hq.reset_eq

/-- Two chains with the same calls of each kind, in whatever way the kinds are mixed, make one query
of a fresh query, so that every statement and every refusal is the same. Dropping what either has
accumulated leads back to the fresh query, and a new session of a repository to the repository as it
was. -/
theorem Fresh.applyAll_of_ofKind_eq (hq : q.Fresh) {calls calls' : List Call}
    (h : Call.IsChain calls) (h' : Call.IsChain calls')
    (hkinds : ∀ kind, Call.ofKind kind calls = Call.ofKind kind calls') :
    Call.applyAll q calls = Call.applyAll q calls' ∧
      (Call.applyAll q calls).reset = q ∧ (Call.applyAll q calls').reset = q ∧
      ∀ {α : Type} (r : Repository α), r.query = q →
        (r.refine (Call.applyAll · calls)).newSession = r ∧
        (r.refine (Call.applyAll · calls')).newSession = r := by
  have hsession : ∀ {calls : List Call}, Call.IsChain calls →
      ∀ {α : Type} (r : Repository α), r.query = q →
        (r.refine (Call.applyAll · calls)).newSession = r := by
    rintro calls hchain α ⟨model, context, _⟩ rfl
    exact congrArg (Repository.mk model context) (hq.reset_applyAll hchain)
  refine ⟨?_, hq.reset_applyAll h, hq.reset_applyAll h',
    fun r hr ↦ ⟨hsession h r hr, hsession h' r hr⟩⟩
  apply ext_part
  · rw [identity_applyAll h, identity_applyAll h']
  · intro kind
    rw [part_applyAll h, part_applyAll h', hkinds]

/-- Filters, limits and an order of a log that keeps deleted rows, mixed in two ways. -/
theorem applyAll_logs :
    let logs := (ofTable "logs").withSoftDelete "deleted_at"
    let level : Call := .filterEqual "level" (.string "warn")
    let text : Call := .search (some (.anywhere "disk" ["message"]))
    let calls : List Call := [level, .limit 3, .orderBy "at", text, .unscoped, .limit (-1)]
    let calls' : List Call := [.unscoped, .limit 3, .limit (-1), level, text, .orderBy "at"]
    Call.applyAll logs calls = Call.applyAll logs calls' ∧
      (Call.applyAll logs calls).reset = logs ∧ (Call.applyAll logs calls').reset = logs := by
  intro logs level text calls calls'
  have hfresh : logs.Fresh := .withSoftDelete (.ofTable "logs") "deleted_at"
  have hcalls : Call.IsChain calls := by simp [Call.IsChain, Call.kind?, calls, level, text]
  have hcalls' : Call.IsChain calls' := by simp [Call.IsChain, Call.kind?, calls', level, text]
  have hkinds : ∀ kind, Call.ofKind kind calls = Call.ofKind kind calls' := by
    intro kind
    cases kind <;> rfl
  obtain ⟨hequal, hreset, hreset', -⟩ := hfresh.applyAll_of_ofKind_eq hcalls hcalls' hkinds
  exact ⟨hequal, hreset, hreset'⟩

end Query

end RecordStore
