import RecordStore.Proofs.Model.EachField
import RecordStore.Proofs.Repository.FindOr

/-!
# Rows that are given back after values were assigned to them

A row that was found is given back with all the assigned values laid over it, but an update never
writes the primary key, and it writes only columns that the table declares. So the row that is given
back is the row as it then stands in the store exactly when no other value changes it.
-/

namespace RecordStore

/-- A field that an update of one row may write. -/
def Query.MayUpdate (q : Query) (name : String) : Prop :=
  name ≠ q.primaryKey ∧ (q.identity.columns = [] ∨ name ∈ q.identity.columns)

instance (q : Query) : DecidablePred q.MayUpdate :=
  fun name ↦ inferInstanceAs
    (Decidable (name ≠ q.primaryKey ∧ (q.identity.columns = [] ∨ name ∈ q.identity.columns)))

/-- An update of one row writes those of the values that it may. -/
theorem Query.get?_updatedFields_reset (q : Query) (values : Fields) (name : String) :
    (q.reset.updatedFields values).get? name =
      if q.MayUpdate name then values.get? name else none := by
  have hkeep : (decide (name ≠ q.reset.primaryKey) && q.reset.isWritable name) =
      decide (q.MayUpdate name) := by
    rw [Bool.eq_iff_iff, Bool.and_eq_true, decide_eq_true_eq, decide_eq_true_eq]
    simp [isWritable, MayUpdate, reset, ofIdentity, primaryKey]
  rw [updatedFields, Fields.get?_filter, hkeep]
  cases values.get? name with
  | none => simp
  | some value => by_cases hmay : q.MayUpdate name <;> simp [hmay]

namespace Fields

variable {read : String → Option Json → Option Json} {own new assigned written : Fields}
  {may : String → Prop}

/-- Every field that changes is written, with a value that is read as the new one. -/
def ChangesWritten (read : String → Option Json → Option Json) (own new written : Fields) : Prop :=
  ∀ name, new.get? name ≠ own.get? name →
    ∃ value, written.get? name = some value ∧ read name (some value) = new.get? name

/-- The new fields are those of the row once some fields have been written to it. -/
def IsStored (read : String → Option Json → Option Json) (own new written : Fields) : Prop :=
  ∀ name, new.get? name = read name ((own.overlay written).get? name)

/-- Each value that is read as another one than the row has is of some kind of field. -/
def ChangesOnly (read : String → Option Json → Option Json) (own assigned : Fields)
    (may : String → Prop) : Prop :=
  ∀ name value, assigned.get? name = some value → read name (some value) ≠ own.get? name → may name

-- What is laid over a row is read where it is, and the row keeps its own values elsewhere.
private theorem read_overlay (hown : ∀ name, read name (own.get? name) = own.get? name)
    (laid : Fields) (name : String) :
    read name ((own.overlay laid).get? name) =
      (laid.get? name).elim (own.get? name) fun value ↦ read name (some value) := by
  rw [get?_overlay]
  cases laid.get? name with
  | none => exact hown name
  | some value => rfl

section

variable [DecidablePred may] (hown : ∀ name, read name (own.get? name) = own.get? name)
  (hnew : ∀ name, new.get? name = read name ((own.overlay assigned).get? name))
  (hwritten : ∀ name, written.get? name = if may name then assigned.get? name else none)

include hown hnew hwritten

/-- When some of the values laid over a row are written, all changes are written exactly when only
those values change it. -/
theorem changesWritten_iff :
    ChangesWritten read own new written ↔ ChangesOnly read own assigned may := by
  constructor
  · intro h name value hvalue hchange
    have hread : new.get? name = read name (some value) := by
      rw [hnew, read_overlay hown, hvalue, Option.elim_some]
    obtain ⟨stored, hstored, -⟩ := h name (by rwa [hread])
    by_contra hmay
    rw [hwritten, if_neg hmay] at hstored
    cases hstored
  · intro h name hchange
    rw [hnew, read_overlay hown] at hchange ⊢
    cases hvalue : assigned.get? name with
    | none =>
      rw [hvalue] at hchange
      exact absurd rfl hchange
    | some value =>
      rw [hvalue, Option.elim_some] at hchange
      refine ⟨value, ?_, rfl⟩
      rw [hwritten, if_pos (h name value hvalue hchange), hvalue]

/-- When some of the values laid over a row are written, the row that they make is the one that is
stored exactly when only those values change it. -/
theorem isStored_iff : IsStored read own new written ↔ ChangesOnly read own assigned may := by
  constructor
  · intro h name value hvalue hchange
    by_contra hmay
    have hstored := h name
    rw [hnew, read_overlay hown, read_overlay hown, hvalue, hwritten, if_neg hmay] at hstored
    exact hchange hstored
  · intro h name
    rw [hnew, read_overlay hown, read_overlay hown, hwritten]
    cases hvalue : assigned.get? name with
    | none =>
      split <;> rfl
    | some value =>
      split
      · rfl
      · next hmay =>
        by_contra hchange
        exact hmay (h name value hvalue hchange)

end

end Fields

namespace Repository

variable {α : Type} {r : Repository α} {conds : List Condition} {session : Session}
  {found updated : α}

/-- The fields that an assignment to a row writes. -/
def assignedFields (r : Repository α) : Fields := r.query.reset.updatedFields r.query.assigned

/-- The fields of a row that was found and of the row that is given back, which is read from the
assigned values over the first one. All changes are written, and what is given back is the row as it
is stored, exactly when only such values change the row as an update may write. -/
structure AssignedRow (r : Repository α) (read : String → Option Json → Option Json)
    (found updated : α) (own new : Fields) : Prop where
  own_eq : r.model.fields found = .ok own
  new_eq : r.model.fields updated = .ok new
  reads : ∀ name, new.get? name = read name ((own.overlay r.query.assigned).get? name)
  written : Fields.ChangesWritten read own new r.assignedFields ↔
    Fields.ChangesOnly read own r.query.assigned r.query.MayUpdate
  stored : Fields.IsStored read own new r.assignedFields ↔
    Fields.ChangesOnly read own r.query.assigned r.query.MayUpdate

-- How the operation ends when the assigned values can be laid over the row.
private theorem runIn_findOrCreate_of_merge (hfound : r.sought session = .ok (some found))
    (hassigned : r.query.assigned.isEmpty = false)
    (hmerge : r.model.merge found r.query.assigned = .ok updated) :
    (r.findOrCreate conds).runIn session =
      if r.assignedFields.isEmpty then
        r.context.ended session [r.lookupOf conds] (.error (.refused .noColumns))
      else
        r.context.ended session
          [r.lookupOf conds, r.assignment ((r.model.entry? found r.query.primaryKey).getD .null)]
          (((session.answer 1).toCount.mapError RepositoryError.ofStore).map fun _ ↦ updated) := by
  rw [runIn_findOrCreate_assigned hfound hassigned, runIn_assignTo_of_ok hmerge,
    Context.ended_after, Context.ended_after, Session.answer_after]
  rfl

private theorem fst_ended {β : Type} (ctx : Context) (session : Session) (sent : List Statement)
    (outcome : Except RepositoryError β) : (ctx.ended session sent outcome).1 = outcome := by
  cases outcome <;> rfl

private theorem runIn_findOrCreate_ok_iff (hfound : r.sought session = .ok (some found))
    (hassigned : r.query.assigned.isEmpty = false) :
    ((r.findOrCreate conds).runIn session).1 = .ok updated ↔
      r.model.merge found r.query.assigned = .ok updated ∧ r.assignedFields.isEmpty = false ∧
        ∃ n, (session.answer 1).toCount = .ok n := by
  cases hmerge : r.model.merge found r.query.assigned with
  | error refusal =>
    rw [runIn_findOrCreate_assigned hfound hassigned, runIn_assignTo_of_error hmerge]
    exact iff_of_false nofun nofun
  | ok other =>
    rw [runIn_findOrCreate_of_merge hfound hassigned hmerge]
    cases r.assignedFields.isEmpty with
    | true => exact iff_of_false nofun nofun
    | false =>
      rw [if_neg Bool.false_ne_true, fst_ended]
      cases (session.answer 1).toCount with
      | error e =>
        refine iff_of_false nofun ?_
        rintro ⟨-, -, n, ⟨⟩⟩
      | ok n =>
        constructor
        · rintro ⟨⟩
          exact ⟨rfl, rfl, n, rfl⟩
        · rintro ⟨⟨⟩, -, -⟩
          rfl

-- A row that the look-up gave has been read from a row of the store.
private theorem exists_ofRow_of_sought (hfound : r.sought session = .ok (some found)) :
    ∃ row, r.model.ofRow row = .ok found := by
  rw [sought, Reply.decodeOptional] at hfound
  cases hrows : (session.answer 0).toRows with
  | error e =>
    rw [hrows] at hfound
    cases hfound
  | ok rows =>
    rw [hrows] at hfound
    cases rows with
    | nil => cases hfound
    | cons row rest =>
      refine ⟨row, ?_⟩
      cases hread : r.model.ofRow row with
      | error e => simp [hread, Except.map] at hfound
      | ok x => simpa [hread, Except.map] using hfound

-- The row that is given back is read from the assigned values over the row that was found.
private theorem exists_assignedRow {read : String → Option Json → Option Json}
    (hread : r.model.ReadsEach read) (hfound : r.sought session = .ok (some found))
    (hmerge : r.model.merge found r.query.assigned = .ok updated) :
    ∃ own new, r.AssignedRow read found updated own new := by
  obtain ⟨row, hrow⟩ := exists_ofRow_of_sought hfound
  obtain ⟨own, hown, hstable⟩ := hread.ofRow row found hrow
  have hlayers := r.readsLayers_assigned found
  rw [hmerge] at hlayers
  cases hlayers with
  | @read other f _ hother hf hupdated =>
    obtain rfl : own = other := Except.ok.inj (hown.symm.trans hother)
    obtain ⟨new, hnew, hfields⟩ := hread.ofFields f updated hupdated
    have hreads : ∀ name, new.get? name =
        read name ((own.overlay r.query.assigned).get? name) := by
      intro name
      rw [hfields, hf, Fields.get?_overlay, ← List.singleton_append, Fields.lastOf_append,
        Fields.lastOf_singleton, Fields.lastOf_singleton]
    have hwritten := r.query.get?_updatedFields_reset r.query.assigned
    exact ⟨own, new, hown, hnew, hreads, Fields.changesWritten_iff hstable hreads hwritten,
      Fields.isStored_iff hstable hreads hwritten⟩

/-- A row that was found is given back after an assignment exactly when the assigned values can be
laid over it, they leave something to write and the store executes the update, which is one by the
key that the JSON of the row has, or by null. The values of the primary key and of columns that the
table does not declare are not written but given back all the same, so what is given back is the row
as it is stored exactly when no such value changes it. -/
theorem assigned_row_stored_iff (r : Repository α) (conds : List Condition) (session : Session)
    {found : α} (hfound : r.sought session = .ok (some found))
    (hassigned : r.query.assigned.isEmpty = false) :
    (∀ name, r.assignedFields.get? name =
      if r.query.MayUpdate name then r.query.assigned.get? name else none) ∧
    ∀ updated : α, (((r.findOrCreate conds).runIn session).1 = .ok updated ↔
        r.model.merge found r.query.assigned = .ok updated ∧ r.assignedFields.isEmpty = false ∧
          ∃ n, (session.answer 1).toCount = .ok n) ∧
      (((r.findOrCreate conds).runIn session).1 = .ok updated →
        ((r.findOrCreate conds).runIn session).2 =
          session.after
            [r.lookupOf conds, r.assignment ((r.model.entry? found r.query.primaryKey).getD .null)]
            [] ∧
        ∀ {read : String → Option Json → Option Json}, r.model.ReadsEach read →
          ∃ own new, r.AssignedRow read found updated own new) := by
  refine ⟨r.query.get?_updatedFields_reset r.query.assigned, ?_⟩
  intro updated
  refine ⟨runIn_findOrCreate_ok_iff hfound hassigned, ?_⟩
  intro hok
  obtain ⟨hmerge, hsome, n, hcount⟩ := (runIn_findOrCreate_ok_iff hfound hassigned).1 hok
  constructor
  · rw [runIn_findOrCreate_of_merge hfound hassigned hmerge, hsome, hcount]
    rfl
  · intro read hread
    exact exists_assignedRow hread hfound hmerge

/-- A product that another key and a price are assigned to is given back under the other key, but
only the price is written, and to the row with the key that was found. -/
theorem assigned_row_stored_iff_products :
    let schema : Schema := [.column "id" .integer (.int 0), .column "price" .integer (.int 0)]
    let product (id price : Int) : Fields := .ofList [("id", .int id), ("price", .int price)]
    let r := (ofModel (schema.model (.named "products")) ⟨⟨"", 10, 20, 100⟩, "req"⟩).refine
      fun q ↦ q.assign (product 9 5)
    let session : Session := ⟨[.rows [product 7 2], .affected 1], [], []⟩
    ((r.findOrCreate []).runIn session).1 = .ok (product 9 5) ∧
      r.assignedFields = .singleton "price" (.int 5) ∧
      ((r.findOrCreate []).runIn session).2.executed.drop 1 =
        [⟨"UPDATE \"products\" SET \"price\" = (SELECT \"price\" FROM " ++
            "jsonb_populate_record(NULL::\"products\", $1::jsonb)) WHERE \"products\".\"id\" = $2",
          [.jsonb (.object [("price", .int 5)]), .int8 7]⟩] ∧
      r.AssignedRow schema.readField (product 7 2) (product 9 5) (product 7 2) (product 9 5) ∧
      ¬Fields.ChangesWritten schema.readField (product 7 2) (product 9 5) r.assignedFields ∧
      ¬Fields.IsStored schema.readField (product 7 2) (product 9 5) r.assignedFields := by
  intro schema product r session
  have hread : r.model.ReadsEach schema.readField := Schema.readsEach_model _ _
  have hfound : r.sought session = .ok (some (product 7 2)) := by decide +kernel
  have hok : ((r.findOrCreate []).runIn session).1 = .ok (product 9 5) := by decide +kernel
  have hfields (x : Fields) : r.model.fields x = .ok x := Schema.fields_model _ x
  obtain ⟨-, hrow⟩ := assigned_row_stored_iff r [] session hfound (by decide +kernel)
  obtain ⟨own, new, hassigned⟩ := ((hrow (product 9 5)).2 hok).2 hread
  obtain rfl : product 7 2 = own := Except.ok.inj ((hfields _).symm.trans hassigned.own_eq)
  obtain rfl : product 9 5 = new := Except.ok.inj ((hfields _).symm.trans hassigned.new_eq)
  have hkey : ¬Fields.ChangesOnly schema.readField (product 7 2) r.query.assigned
      r.query.MayUpdate := by
    intro honly
    exact (honly "id" (.int 9) (by decide +kernel) (by decide +kernel)).1 rfl
  exact ⟨hok, by decide +kernel, by decide +kernel, hassigned, hassigned.written.not.2 hkey,
    hassigned.stored.not.2 hkey⟩

end Repository

end RecordStore
