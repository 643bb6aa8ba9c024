import RecordStore.Repository.FindOr

/-!
# Rows made of layers

A row that is built, and a row that is found and assigned to, are read from an object that is made
of layers: each field comes from the last layer that has it. The layers of a built row are the
model's default, the conditions in their order, the query's attributes and its assigned values.
-/

namespace RecordStore

/-- The value of a name in the last of several layers that has it. -/
def Fields.lastOf (layers : List Fields) (name : String) : Option Json :=
  layers.reverse.findSome? (·.get? name)

/-- The fields that a condition gives to a built row: an equality with a value gives that value to
its column, whose table is left out, or to the primary key. Null, several keys and hand-written SQL
give nothing. -/
def Condition.layer (primaryKey : String) : Condition → Fields
  | .primaryKey value => if value.isNull || value.isArray then ∅ else .singleton primaryKey value
  | .equal column value =>
    if value.isNull then ∅ else .singleton (.ofList (afterLast '.' column.toList)) value
  | .raw _ _ => ∅

/-- What is read from the fields of a value with layers over them. It is refused when the value has
no fields, and when the object that the layers make up is no row of the model. -/
inductive Model.ReadsLayers {α : Type} (m : Model α) (base : α) (layers : List Fields) :
    Except Refusal α → Prop
  | read {own f : Fields} {row : α} (hown : m.fields base = .ok own)
    (hf : ∀ name, f.get? name = Fields.lastOf (own :: layers) name)
    (hrow : m.ofFields? f = some row) : ReadsLayers m base layers (.ok row)
  | unreadable {own f : Fields} (hown : m.fields base = .ok own)
    (hf : ∀ name, f.get? name = Fields.lastOf (own :: layers) name)
    (hrow : m.ofFields? f = none) : ReadsLayers m base layers (.error .unreadable)
  | fieldless {refusal : Refusal} (hown : m.fields base = .error refusal) :
    ReadsLayers m base layers (.error refusal)

namespace Fields

@[simp] theorem lastOf_singleton (f : Fields) (name : String) : lastOf [f] name = f.get? name := by
  rw [lastOf, List.reverse_singleton, List.findSome?_singleton]

/-- The later layers come before the earlier ones. -/
theorem lastOf_append (first second : List Fields) (name : String) :
    lastOf (first ++ second) name = (lastOf second name).or (lastOf first name) := by
  rw [lastOf, List.reverse_append, List.findSome?_append]
  rfl

end Fields

private theorem layer_eq (primaryKey : String) (c : Condition) :
    c.layer primaryKey =
      (c.pinned? primaryKey).elim ∅ fun entry ↦ Fields.singleton entry.1 entry.2 := by
  cases c with
  | primaryKey value =>
    rw [Condition.layer, Condition.pinned?, Bool.or_comm]
    split <;> rfl
  | equal column value =>
    rw [Condition.layer, Condition.pinned?]
    split <;> rfl
  | raw sql args => rfl

-- What conditions pin, in any order, is looked up in their layers in the same order.
private theorem lookup_pinned (primaryKey name : String) (conds : List Condition) :
    Fields.lookup name (conds.filterMap (Condition.pinned? primaryKey)) =
      (conds.map (Condition.layer primaryKey)).findSome? (·.get? name) := by
  induction conds with
  | nil => rfl
  | cons c rest ih =>
    rw [List.filterMap_cons, List.map_cons, List.findSome?_cons, layer_eq, ← ih]
    cases c.pinned? primaryKey with
    | none => rfl
    | some entry =>
      rw [Option.elim_some, Fields.singleton, Fields.get?_insert, Fields.get?_empty, Fields.lookup]
      split <;> rfl

namespace Repository

variable {α : Type} (r : Repository α)

/-- What is laid over the default of a row that is built: the conditions in their order, the
attributes and the assigned values. -/
def layers (conds : List Condition) : List Fields :=
  conds.map (Condition.layer r.query.primaryKey) ++ [r.query.attrs, r.query.assigned]

/-- The fields of a new row are those of its layers. -/
theorem get?_seededFields (conds : List Condition) (name : String) :
    (r.seededFields conds).get? name = Fields.lastOf (r.layers conds) name := by
  have hpinned :
      (Fields.ofList (conds.filterMap (Condition.pinned? r.query.primaryKey))).get? name =
        Fields.lastOf (conds.map (Condition.layer r.query.primaryKey)) name := by
    rw [Fields.get?_ofList, ← List.filterMap_reverse, lookup_pinned, List.map_reverse]
    rfl
  rw [seededFields, Fields.get?_overlay, Fields.get?_overlay, hpinned, layers,
    Fields.lastOf_append _ [r.query.attrs, r.query.assigned], ← List.singleton_append,
    Fields.lastOf_append, Fields.lastOf_singleton, Fields.lastOf_singleton, Option.or_assoc]

end Repository

private theorem Model.merge_of_error {α : Type} (m : Model α) {base : α} (patch : Fields)
    {refusal : Refusal} (hown : m.fields base = .error refusal) :
    m.merge base patch = .error refusal := by
  rw [merge, hown]
  rfl

private theorem Model.merge_of_ok {α : Type} (m : Model α) {base : α} (patch : Fields)
    {own : Fields} (hown : m.fields base = .ok own) :
    m.merge base patch = (m.ofFields? (own.overlay patch)).elim (.error .unreadable) .ok := by
  simp only [merge, hown, bind, Except.bind]
  cases m.ofFields? (own.overlay patch) <;> rfl

/-- Laying fields over a value reads it from the layers that the fields are made of. -/
theorem Model.readsLayers_merge {α : Type} (m : Model α) (base : α) {patch : Fields}
    {layers : List Fields} (hpatch : ∀ name, patch.get? name = Fields.lastOf layers name) :
    m.ReadsLayers base layers (m.merge base patch) := by
  have hlayers : ∀ own : Fields, ∀ name,
      (own.overlay patch).get? name = Fields.lastOf (own :: layers) name := by
    intro own name
    rw [Fields.get?_overlay, hpatch, ← List.singleton_append, Fields.lastOf_append,
      Fields.lastOf_singleton]
  cases hown : m.fields base with
  | error refusal => exact m.merge_of_error patch hown ▸ .fieldless hown
  | ok own =>
    rw [m.merge_of_ok patch hown]
    cases hrow : m.ofFields? (own.overlay patch) with
    | none => exact .unreadable hown (hlayers own) hrow
    | some row => exact .read hown (hlayers own) hrow

/-- A row that is built is read from its layers over the default. -/
theorem Repository.readsLayers_initial {α : Type} (r : Repository α) (conds : List Condition) :
    r.model.ReadsLayers r.model.default (r.layers conds) (r.initial conds) :=
  r.model.readsLayers_merge r.model.default (r.get?_seededFields conds)

/-- A row that is assigned to is read from the assigned values over it. -/
theorem Repository.readsLayers_assigned {α : Type} (r : Repository α) (found : α) :
    r.model.ReadsLayers found [r.query.assigned] (r.model.merge found r.query.assigned) :=
  r.model.readsLayers_merge found fun name ↦ (Fields.lastOf_singleton _ name).symm

end RecordStore
