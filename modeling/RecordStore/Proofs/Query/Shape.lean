import RecordStore.Proofs.Filter.Shape
import RecordStore.Proofs.Query.Chain

/-!
# Chains of calls of one shape

Two chains of calls have one shape when they differ in values alone: the arguments of hand-written
SQL, the values of conditions and keywords, what is laid down for new rows. What decides between
different texts has to agree: how many arguments there are, whether a value is null, whether a key
is an array and of which length, and whether a keyword takes part. The queries that two such chains
reach differ in values alone too.
-/

namespace RecordStore

variable {typed : Prop}

/-- Of lists of one length, both are empty or neither is. -/
theorem isEmpty_eq_of_length_eq {α β : Type} {xs : List α} {ys : List β}
    (h : xs.length = ys.length) : xs.isEmpty = ys.isEmpty := by
  rw [Bool.eq_iff_iff, List.isEmpty_iff_length_eq_zero, List.isEmpty_iff_length_eq_zero, h]

/-! ### Conditions and keywords -/

namespace Condition

/-- Conditions that differ in values alone. The values of a key are arrays of one length, or neither
is an array and both are null or neither is. -/
inductive SameShape : Condition → Condition → Prop where
  | primaryKey {v w : Json} (hv : v.isArray = false) (hw : w.isArray = false)
    (h : v.isNull = w.isNull) : SameShape (.primaryKey v) (.primaryKey w)
  | primaryKeys {values values' : List Json} (h : values.length = values'.length) :
    SameShape (.primaryKey (.array values)) (.primaryKey (.array values'))
  | equal {column : String} {v w : Json} (h : v.isNull = w.isNull) :
    SameShape (.equal column v) (.equal column w)
  | raw {sql : String} {args args' : List Json} (h : args.length = args'.length) :
    SameShape (.raw sql args) (.raw sql args')

/-- The comparison with a value shows only whether that is null. -/
theorem sameShape_equality (column : String) {v w : Json} (h : v.isNull = w.isNull) :
    (equality column v).SameShape typed (equality column w) := by
  rw [equality, equality, h]
  split
  · exact .refl _
  · exact .raw rfl

private theorem sameShape_membership (column : String) {values values' : List Json}
    (h : values.length = values'.length) :
    (membership column values).SameShape typed (membership column values') := by
  rw [membership, membership, isEmpty_eq_of_length_eq h, List.map_const', List.map_const', h]
  split
  · exact .refl _
  · exact .raw h

/-- Conditions of one shape are filters of one shape. -/
theorem SameShape.toExpr {cond cond' : Condition} (h : cond.SameShape cond')
    (table primaryKey : String) :
    (cond.toExpr table primaryKey).SameShape typed (cond'.toExpr table primaryKey) := by
  cases h with
  | primaryKey hv hw h =>
    rw [toExpr_primaryKey hv, toExpr_primaryKey hw]
    exact sameShape_equality _ h
  | primaryKeys h => exact sameShape_membership _ h
  | equal h => exact sameShape_equality _ h
  | raw h => exact .raw h

end Condition

/-- Keyword options that differ in the keyword alone and take part alike. -/
structure KeywordOption.SameShape (typed : Prop) (o o' : KeywordOption) : Prop where
  kind : o.kind = o'.kind
  key : o.key = o'.key
  isApplicable : o.isApplicable = o'.isApplicable
  isString : typed → o.kind = .exact → o.value.isString = o'.value.isString

/-- Keyword groups that differ in keywords alone. -/
structure KeywordGroup.SameShape (typed : Prop) (g g' : KeywordGroup) : Prop where
  conjunction : g.conjunction = g'.conjunction
  options : List.Forall₂ (KeywordOption.SameShape typed) g.options g'.options

/-- Keyword options of one shape stand for comparisons of one shape: a wildcard always compares
with a text. -/
theorem KeywordOption.SameShape.toExpr {o o' : KeywordOption} (h : o.SameShape typed o') :
    o.toExpr.SameShape typed o'.toExpr := by
  rw [KeywordOption.toExpr, KeywordOption.toExpr, ← h.kind, ← h.key]
  cases hkind : o.kind with
  | exact => exact .compare fun htyped ↦ h.isString htyped hkind
  | wildcard => exact .compare fun _ ↦ rfl

namespace KeywordGroup.SameShape

theorem refl (g : KeywordGroup) : g.SameShape typed g where
  conjunction := rfl
  options := List.forall₂_same.2 fun _ _ ↦ ⟨rfl, rfl, rfl, fun _ _ ↦ rfl⟩

/-- Searches for two texts have one shape when both texts are empty or neither is. -/
theorem anywhere {text text' : String} (h : text.isEmpty = text'.isEmpty)
    (columns : List String) :
    (KeywordGroup.anywhere text columns).SameShape typed
      (KeywordGroup.anywhere text' columns) where
  conjunction := rfl
  options := by
    apply List.rel_map _ (List.forall₂_same.2 fun column _ ↦ Eq.refl column)
    rintro column _ rfl
    refine ⟨rfl, rfl, ?_, fun _ _ ↦ rfl⟩
    simp only [KeywordOption.isApplicable, KeywordOption.isKeyword, h]

/-- Keyword groups of one shape compile to filters of one shape, or neither has one. -/
theorem compile {g g' : KeywordGroup} (h : g.SameShape typed g') :
    Option.Rel (Expr.SameShape typed) g.compile g'.compile := by
  have hoptions : List.Forall₂ (KeywordOption.SameShape typed)
      (g.options.filter KeywordOption.isApplicable)
      (g'.options.filter KeywordOption.isApplicable) := by
    apply List.rel_filter _ h.options
    intro o o' ho
    simp only [ho.isApplicable]
  have hmembers := List.rel_map (fun _ _ ho ↦ KeywordOption.SameShape.toExpr ho) hoptions
  rw [KeywordGroup.compile, KeywordGroup.compile, ← h.conjunction]
  generalize (g.options.filter _).map _ = members at hmembers ⊢
  generalize (g'.options.filter _).map _ = members' at hmembers ⊢
  cases hmembers with
  | nil => exact .none
  | cons hfirst hrest =>
    cases hrest with
    | nil => exact .some hfirst
    | cons hsecond hrest => exact .some (.group (.cons hfirst (.cons hsecond hrest)))

end KeywordGroup.SameShape

/-! ### Calls and queries -/

/-- Calls that differ in values alone. -/
inductive Call.SameShape (typed : Prop) : Call → Call → Prop where
  | same (call : Call) : SameShape typed call call
  | filter {e e' : Expr} (h : e.SameShape typed e') : SameShape typed (.filter e) (.filter e')
  | filterEqual {column : String} {v w : Json} (h : v.isNull = w.isNull) :
    SameShape typed (.filterEqual column v) (.filterEqual column w)
  | search {g g' : KeywordGroup} (h : g.SameShape typed g') :
    SameShape typed (.search (some g)) (.search (some g'))
  | join {sql : String} {args args' : List Json} (h : args.length = args'.length) :
    SameShape typed (.join sql args) (.join sql args')
  | preload {relation : String} {args args' : List Json} :
    SameShape typed (.preload ⟨relation, args⟩) (.preload ⟨relation, args'⟩)
  | attrs {values values' : Fields} : SameShape typed (.attrs values) (.attrs values')
  | assign {values values' : Fields} : SameShape typed (.assign values) (.assign values')
  | batch {size : Int64} {key key' : Json} :
    SameShape typed (.batch size (some key)) (.batch size (some key'))

/-- Queries that differ at most in values, in relations to load and in the values of new rows. -/
structure Query.SameShape (typed : Prop) (q q' : Query) : Prop where
  identity : q.identity = q'.identity
  filters : List.Forall₂ (Expr.SameShape typed) q.filters q'.filters
  joins : List.Forall₂ (Statement.SameShape typed) q.joins q'.joins
  ordering : q.ordering = q'.ordering
  grouping : q.grouping = q'.grouping
  limit : q.limit = q'.limit
  offset : q.offset = q'.offset
  isDistinct : q.isDistinct = q'.isDistinct
  selected : q.selected = q'.selected
  omitted : q.omitted = q'.omitted
  includesDeleted : q.includesDeleted = q'.includesDeleted
  clauses : q.clauses = q'.clauses

namespace Query.SameShape

variable {q q' : Query}

theorem ofIdentity (identity : TableIdentity) :
    (Query.ofIdentity identity).SameShape typed (Query.ofIdentity identity) :=
  ⟨rfl, .nil, .nil, rfl, rfl, rfl, rfl, rfl, rfl, rfl, rfl, rfl⟩

theorem table (h : q.SameShape typed q') : q.table = q'.table := by
  rw [Query.table, Query.table, h.identity]

theorem primaryKey (h : q.SameShape typed q') : q.primaryKey = q'.primaryKey := by
  rw [Query.primaryKey, Query.primaryKey, h.identity]

theorem keyColumn (h : q.SameShape typed q') : q.keyColumn = q'.keyColumn := by
  rw [Query.keyColumn, Query.keyColumn, h.table, h.primaryKey]

theorem filter (h : q.SameShape typed q') {e e' : Expr} (he : e.SameShape typed e') :
    (q.filter e).SameShape typed (q'.filter e') := by
  rw [Query.filter, Query.filter, he.isEmpty_eq]
  split
  · exact h
  · exact { h with filters := List.rel_append h.filters (.cons he .nil) }

private theorem filterEqual (h : q.SameShape typed q') (column : String) {v w : Json}
    (hnull : v.isNull = w.isNull) :
    (q.filterEqual column v).SameShape typed (q'.filterEqual column w) := by
  rw [Query.filterEqual, Query.filterEqual]
  exact h.filter (Condition.sameShape_equality _ hnull)

private theorem search (h : q.SameShape typed q') {g g' : KeywordGroup}
    (hg : g.SameShape typed g') :
    (q.search (some g)).SameShape typed (q'.search (some g')) := by
  have hcompile := hg.compile
  rw [Query.search, Query.search, Option.bind_some, Option.bind_some]
  generalize g.compile = e at hcompile ⊢
  generalize g'.compile = e' at hcompile ⊢
  cases hcompile with
  | none => exact h
  | some he => exact h.filter he

private theorem join (h : q.SameShape typed q') (sql : String) {args args' : List Json}
    (hargs : args.length = args'.length) :
    (q.join sql args).SameShape typed (q'.join sql args') :=
  { h with joins := List.rel_append h.joins (.cons (.withArgs sql hargs) .nil) }

private theorem orderBy (h : q.SameShape typed q') (term : String) :
    (q.orderBy term).SameShape typed (q'.orderBy term) := by
  rw [Query.orderBy, Query.orderBy]
  split
  · exact h
  · exact { h with ordering := congrArg (· ++ [term]) h.ordering }

private theorem batch (h : q.SameShape typed q') (size : Int64) {after after' : Option Json}
    (hafter : after.isSome = after'.isSome) :
    (q.batch size after).SameShape typed (q'.batch size after') := by
  have hordered : { q with
      ordering := [q.keyColumn], limit := some size, offset := none : Query }.SameShape typed
      { q' with ordering := [q'.keyColumn], limit := some size, offset := none } :=
    { h with
      ordering := congrArg (fun column ↦ [column]) h.keyColumn
      limit := rfl
      offset := rfl }
  cases after with
  | none =>
    cases after' with
    | none => exact hordered
    | some key => cases hafter
  | some key =>
    cases after' with
    | none => cases hafter
    | some key' =>
      simp only [Query.batch, Query.filterRaw, h.keyColumn] at hordered ⊢
      exact hordered.filter (.raw rfl)

private theorem apply_same (h : q.SameShape typed q') (call : Call) :
    (call.apply q).SameShape typed (call.apply q') := by
  cases call with
  | withTable table =>
    exact { h with identity := congrArg (fun i : TableIdentity ↦ { i with table }) h.identity }
  | withSoftDelete column =>
    exact { h with
      identity := congrArg (fun i : TableIdentity ↦ { i with softDelete := some column })
        h.identity }
  | withPrimaryKey primaryKey =>
    exact { h with
      identity := congrArg (fun i : TableIdentity ↦ { i with primaryKey }) h.identity }
  | filter e => exact h.filter (.refl e)
  | filterEqual column value => exact h.filter (.refl _)
  | search group =>
    cases group with
    | none => exact h
    | some g => exact h.search (.refl g)
  | join sql args => exact h.join sql rfl
  | orderBy term => exact h.orderBy term
  | groupBy term => exact { h with grouping := congrArg (· ++ [term]) h.grouping }
  | limit n => exact { h with limit := rfl }
  | offset n => exact { h with offset := rfl }
  | distinct => exact { h with isDistinct := rfl }
  | select columns => exact { h with selected := rfl }
  | omitting columns => exact { h with omitted := congrArg (· ++ columns) h.omitted }
  | preload p => exact { h with }
  | unscoped => exact { h with includesDeleted := rfl }
  | clause c => exact { h with clauses := congrArg (· ++ [c]) h.clauses }
  | attrs values => exact { h with }
  | assign values => exact { h with }
  | reset =>
    rw [Call.apply, Call.apply, reset, reset, h.identity]
    exact ofIdentity _
  | first =>
    rw [Call.apply, Call.apply, first, first, h.keyColumn]
    exact { h with ordering := congrArg (· ++ [q'.keyColumn]) h.ordering, limit := rfl }
  | batch size after => exact h.batch size rfl

/-- Calls of one shape lead from queries of one shape to such queries. -/
theorem apply (h : q.SameShape typed q') {call call' : Call} (hcall : call.SameShape typed call') :
    (call.apply q).SameShape typed (call'.apply q') := by
  cases hcall with
  | same call => exact h.apply_same call
  | filter he => exact h.filter he
  | filterEqual hnull => exact h.filterEqual _ hnull
  | search hg => exact h.search hg
  | join hargs => exact h.join _ hargs
  | preload => exact { h with }
  | attrs => exact { h with }
  | assign => exact { h with }
  | @batch size key key' =>
    have hafter : (some key).isSome = (some key').isSome := rfl
    exact (h.batch size hafter :)

/-- Chains of calls of one shape lead from queries of one shape to such queries. -/
theorem applyAll (h : q.SameShape typed q') {calls calls' : List Call}
    (hcalls : List.Forall₂ (Call.SameShape typed) calls calls') :
    (Call.applyAll q calls).SameShape typed (Call.applyAll q' calls') := by
  induction hcalls generalizing q q' with
  | nil => exact h
  | cons hcall _ ih => exact ih (h.apply hcall)

end Query.SameShape

end RecordStore
