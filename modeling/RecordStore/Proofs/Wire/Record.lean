import RecordStore.Json.Record
import RecordStore.Proofs.Reading.Operands

/-!
# Formats of records

A format writes values as JSON and reads them from it. The format of a record writes an object with
the values of its members, and reads the members of an object by their names or those of an array by
their places; an absent member counts as a fixed value, or is missed when it has none. Whatever its
members are, such a format reads back what it writes and looks at nothing but the members.
-/

namespace RecordStore

/-- A way to write values as JSON and to read them from it. -/
structure WireFormat (α : Type) where
  write : α → Json
  read? : Json → Option α
  /-- The names of the members, in their order. -/
  members : List String
  /-- The value that a member counts as when it is absent; none for one that has to be there. -/
  whenAbsent : String → Option Json

namespace WireFormat

variable {α : Type} (w : WireFormat α)

/-- What fields give for a member: its value, or the one that it counts as when it is absent. -/
def given (f : Fields) (name : String) : Option Json := (f.get? name).or (w.whenAbsent name)

/-- A format that reads back what it writes, and reads from an object what its members give. -/
structure ReadsBack : Prop where
  /-- What has been written is read back. -/
  read_write : ∀ x, w.read? (w.write x) = some x
  /-- Writing what has been read does not change what is read. -/
  read_again : ∀ v x, w.read? v = some x → w.read? (w.write x) = w.read? v
  /-- All members are written, and nothing else. -/
  names : ∀ x, ∃ f : Fields, w.write x = f.toJson ∧ ∀ name, name ∈ f.names ↔ name ∈ w.members
  /-- Fields that give the same for all members are read alike. -/
  alike : ∀ f g : Fields, (∀ name ∈ w.members, w.given f name = w.given g name) →
    w.read? f.toJson = w.read? g.toJson
  /-- Nothing is read from fields that give nothing for a member. -/
  needed : ∀ (f : Fields) x, w.read? f.toJson = some x → ∀ name ∈ w.members, w.given f name ≠ none
  /-- An array is read as the object with its items under the names of the first members. -/
  array : ∀ items, w.read? (.array items) =
    if items.length ≤ w.members.length then
      w.read? (Fields.ofList (w.members.zip items)).toJson
    else none

/-- The values of all members, each one found or counted as it is when absent. -/
def filled (found : List (Option Json)) : Option (List Json) :=
  (w.members.zip found).mapM fun entry ↦ entry.2.or (w.whenAbsent entry.1)

/-- A format of records, told by the values of the members. -/
structure IsRecord (values : α → List Json) (ofValues? : List Json → Option α) : Prop where
  nodup : w.members.Nodup
  length_values : ∀ x, (values x).length = w.members.length
  ofValues?_values : ∀ x, ofValues? (values x) = some x
  write_eq : ∀ x, w.write x = (Fields.ofList (w.members.zip (values x))).toJson
  read_eq : ∀ v, w.read? v = (v.members? w.members).bind fun found ↦ (w.filled found).bind ofValues?

end WireFormat

/-! ### Members -/

/-- The members of an object are the values of their names. -/
theorem Json.members?_toJson (names : List String) (f : Fields) :
    f.toJson.members? names = some (names.map f.get?) := rfl

/-- Each member is found or absent. -/
theorem Json.length_of_members? {names : List String} {v : Json} {found : List (Option Json)}
    (h : v.members? names = some found) : found.length = names.length := by
  cases v with
  | object entries =>
    cases h
    rw [List.length_map]
  | array items =>
    rw [members?] at h
    split at h
    · cases h
      simp only [List.length_append, List.length_map, List.length_replicate]
      omega
    · cases h
  | _ => cases h

-- By induction on the names: no later entry has the name of the first.
private theorem map_lookup_zip {names : List String} (hnames : names.Nodup) {items : List Json}
    (hlength : items.length ≤ names.length) :
    names.map (fun name ↦ Fields.lookup name (names.zip items)) =
      items.map some ++ List.replicate (names.length - items.length) none := by
  induction names generalizing items with
  | nil =>
    obtain rfl : items = [] := List.length_eq_zero_iff.1 (Nat.le_zero.1 hlength)
    rfl
  | cons name rest ih =>
    cases items with
    | nil => simp [Fields.lookup, List.map_const', List.replicate_succ]
    | cons item more =>
      obtain ⟨hname, hrest⟩ := List.nodup_cons.1 hnames
      have hlater : rest.map (fun other ↦ Fields.lookup other ((name :: rest).zip (item :: more))) =
          rest.map fun other ↦ Fields.lookup other (rest.zip more) := by
        refine List.map_congr_left fun other hother ↦ ?_
        have hne : name ≠ other := by
          rintro rfl
          exact hname hother
        rw [List.zip_cons_cons, Fields.lookup, if_neg hne]
      rw [List.map_cons, hlater, ih hrest (Nat.le_of_succ_le_succ hlength)]
      simp [Fields.lookup]

private theorem map_fst_zip_sublist (names : List String) (items : List Json) :
    ((names.zip items).map (·.1)).Sublist names := by
  induction names generalizing items with
  | nil => simp
  | cons name rest ih =>
    cases items with
    | nil => simp
    | cons item more => exact (ih more).cons_cons name

/-- The object with the items of an array under the first names has the members of the array. -/
theorem Json.members?_ofList_zip {names : List String} (hnames : names.Nodup) {items : List Json}
    (hlength : items.length ≤ names.length) :
    (Fields.ofList (names.zip items)).toJson.members? names =
      (Json.array items).members? names := by
  have hzip : ((names.zip items).map (·.1)).Nodup :=
    hnames.sublist (map_fst_zip_sublist names items)
  rw [members?_toJson, members?, if_pos hlength, ← map_lookup_zip hnames hlength]
  exact congrArg some (List.map_congr_left fun name _ ↦ Fields.get?_ofList_of_nodup hzip name)

/-- Lists are read alike when their items are, one by one. -/
theorem mapM_congr_of_forall₂ {β γ δ : Type} {f : β → Option δ} {g : γ → Option δ} {bs : List β}
    {cs : List γ} (h : List.Forall₂ (fun b c ↦ f b = g c) bs cs) : bs.mapM f = cs.mapM g := by
  induction h with
  | nil => rfl
  | cons hitem _ ih => rw [List.mapM_cons, List.mapM_cons, hitem, ih]

namespace WireFormat

variable {α : Type} {w : WireFormat α}

/-- Values of all members need no filling in. -/
theorem filled_map_some {vs : List Json} (h : vs.length = w.members.length) :
    w.filled (vs.map some) = some vs := by
  have hentry : ∀ entry : String × Json,
      (some entry.2).or (w.whenAbsent entry.1) = pure entry.2 := fun _ ↦ rfl
  rw [filled, List.zip_map_right, List.mapM_map]
  simp only [Function.comp_def, Prod.map_snd, Prod.map_fst, id_eq, hentry, List.mapM_pure]
  exact congrArg some (List.map_snd_zip (Nat.le_of_eq h))

/-- The members of an object are filled in to what its fields give for them. -/
theorem filled_map_get? (f : Fields) :
    w.filled (w.members.map f.get?) = w.members.mapM (w.given f) := by
  rw [filled, ← List.map_prod_left_eq_zip, List.mapM_map]
  rfl

/-- A format is read from the values of all members when what it makes of the members that are found
is told by these values. -/
theorem read_eq_of_members {ofMembers? : List (Option Json) → Option α}
    {ofValues? : List Json → Option α}
    (hread : ∀ v, w.read? v = (v.members? w.members).bind ofMembers?)
    (hfound : ∀ found, found.length = w.members.length →
      ofMembers? found = (w.filled found).bind ofValues?) (v : Json) :
    w.read? v = (v.members? w.members).bind fun found ↦ (w.filled found).bind ofValues? := by
  rw [hread]
  cases h : v.members? w.members with
  | none => rfl
  | some found => exact hfound found (Json.length_of_members? h)

namespace IsRecord

variable {values : α → List Json} {ofValues? : List Json → Option α}

/-- An object is read from what its fields give for the members. -/
theorem read?_toJson (h : w.IsRecord values ofValues?) (f : Fields) :
    w.read? f.toJson = (w.members.mapM (w.given f)).bind ofValues? := by
  rw [h.read_eq, Json.members?_toJson, Option.bind_some, filled_map_get?]

/-- What has been written is read back. -/
theorem read?_write (h : w.IsRecord values ofValues?) (x : α) : w.read? (w.write x) = some x := by
  have hlength := h.length_values x
  have hle : (values x).length ≤ w.members.length := Nat.le_of_eq hlength
  have hmembers : (w.write x).members? w.members = some ((values x).map some) := by
    rw [h.write_eq, Json.members?_ofList_zip h.nodup hle, Json.members?, if_pos hle, hlength,
      Nat.sub_self, List.replicate_zero, List.append_nil]
  rw [h.read_eq, hmembers, Option.bind_some, filled_map_some hlength, Option.bind_some,
    h.ofValues?_values]

/-- All members are written, and nothing else. -/
theorem mem_names_write (h : w.IsRecord values ofValues?) (x : α) :
    ∃ f : Fields, w.write x = f.toJson ∧ ∀ name, name ∈ f.names ↔ name ∈ w.members := by
  refine ⟨_, h.write_eq x, fun name ↦ ?_⟩
  rw [Fields.mem_names_ofList, List.map_fst_zip (Nat.le_of_eq (h.length_values x).symm)]

/-- An array is read as the object with its items under the names of the first members. -/
theorem read?_array (h : w.IsRecord values ofValues?) (items : List Json) :
    w.read? (.array items) =
      if items.length ≤ w.members.length then
        w.read? (Fields.ofList (w.members.zip items)).toJson
      else none := by
  split
  · next hlength => rw [h.read_eq, h.read_eq, Json.members?_ofList_zip h.nodup hlength]
  · next hlength => rw [h.read_eq, Json.members?, if_neg hlength, Option.bind_none]

/-- The format of a record reads back what it writes. -/
theorem readsBack (h : w.IsRecord values ofValues?) : w.ReadsBack where
  read_write := h.read?_write
  read_again v x hread := by rw [h.read?_write, hread]
  names := h.mem_names_write
  alike f g hgiven := by
    rw [h.read?_toJson, h.read?_toJson, mapM_congr_of_forall₂ (List.forall₂_same.2 hgiven)]
  needed f x hread name hname hnone := by
    rw [h.read?_toJson] at hread
    obtain ⟨vs, hvs, -⟩ := Option.bind_eq_some_iff.1 hread
    obtain ⟨v, -, hv⟩ := Reading.exists_mem_of_forall₂ (Reading.mapM_eq_some_iff.1 hvs).flip hname
    rw [hnone] at hv
    cases hv
  array := h.read?_array

end IsRecord

end WireFormat

end RecordStore
