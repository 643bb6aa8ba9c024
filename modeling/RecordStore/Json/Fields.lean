import RecordStore.Json.Basic

/-!
# Named values

`Fields` is the content of a JSON object: values by name, each name once, in the order of the
names. The order of the entries is the order of the characters' code points, and it is visible: it
decides the order of columns. The view of fields is `get?`; each operation has one law about it.
-/

namespace RecordStore

/-- Values by name, each name once, in the order of the names. -/
@[ext]
structure Fields where
  entries : List (String × Json)
  sorted : entries.Pairwise fun a b ↦ a.1 < b.1
deriving DecidableEq

namespace Fields

/-- No fields. -/
def empty : Fields := ⟨[], .nil⟩

instance : EmptyCollection Fields := ⟨empty⟩

instance : Inhabited Fields := ⟨empty⟩

/-- The names, in order. -/
def names (f : Fields) : List String := f.entries.map (·.1)

/-- Whether there is no field. -/
def isEmpty (f : Fields) : Bool := f.entries.isEmpty

/-- The value of the first entry with a name. -/
def lookup (name : String) : List (String × Json) → Option Json
  | [] => none
  | (key, value) :: rest => if key = name then some value else lookup name rest

/-- The value of a name. -/
def get? (f : Fields) (name : String) : Option Json := lookup name f.entries

/-- Puts an entry into a sorted list of entries, in place of one of the same name. -/
def insertEntry (name : String) (value : Json) : List (String × Json) → List (String × Json)
  | [] => [(name, value)]
  | (other, held) :: rest =>
    if name < other then (name, value) :: (other, held) :: rest
    else if name = other then (name, value) :: rest
    else (other, held) :: insertEntry name value rest

/-- The entries after an insertion are the inserted one and earlier ones. -/
theorem mem_insertEntry {name : String} {value : Json} {entry : String × Json}
    {entries : List (String × Json)} (h : entry ∈ insertEntry name value entries) :
    entry = (name, value) ∨ entry ∈ entries := by
  induction entries with
  | nil => simpa [insertEntry] using h
  | cons head rest ih =>
    obtain ⟨other, held⟩ := head
    rw [insertEntry] at h
    split at h
    · simpa using h
    · split at h
      · rcases List.mem_cons.1 h with h | h
        · exact .inl h
        · exact .inr (List.mem_cons_of_mem _ h)
      · rcases List.mem_cons.1 h with h | h
        · exact .inr (h ▸ List.mem_cons_self)
        · exact (ih h).imp id (List.mem_cons_of_mem _)

/-- Insertion keeps the order of the names. -/
theorem pairwise_insertEntry (name : String) (value : Json) {entries : List (String × Json)}
    (h : entries.Pairwise fun a b ↦ a.1 < b.1) :
    (insertEntry name value entries).Pairwise fun a b ↦ a.1 < b.1 := by
  induction entries with
  | nil => simp [insertEntry]
  | cons head rest ih =>
    obtain ⟨other, held⟩ := head
    obtain ⟨hhead, hrest⟩ := List.pairwise_cons.1 h
    rw [insertEntry]
    split
    · rename_i hlt
      refine List.pairwise_cons.2 ⟨fun entry hentry ↦ ?_, h⟩
      rcases List.mem_cons.1 hentry with rfl | hentry
      · exact hlt
      · exact String.lt_trans hlt (hhead entry hentry)
    · rename_i hnot
      split
      · rename_i heq
        subst heq
        exact List.pairwise_cons.2 ⟨hhead, hrest⟩
      · rename_i hne
        refine List.pairwise_cons.2 ⟨fun entry hentry ↦ ?_, ih hrest⟩
        rcases mem_insertEntry hentry with rfl | hentry
        · rcases Classical.em (other < name) with hgt | hgt
          · exact hgt
          · exact absurd (String.le_antisymm (String.not_lt.1 hgt) (String.not_lt.1 hnot)) hne
        · exact hhead entry hentry

/-- Gives a name a value, in place of the one it has. -/
def insert (f : Fields) (name : String) (value : Json) : Fields :=
  ⟨insertEntry name value f.entries, pairwise_insertEntry name value f.sorted⟩

/-- One field. -/
def singleton (name : String) (value : Json) : Fields := empty.insert name value

/-- The fields of a list of entries in any order; the last value of a name counts. -/
def ofList (entries : List (String × Json)) : Fields :=
  entries.foldl (fun f entry ↦ f.insert entry.1 entry.2) empty

/-- The fields of `base` with those of `patch` laid over them. -/
def overlay (base patch : Fields) : Fields :=
  patch.entries.foldl (fun f entry ↦ f.insert entry.1 entry.2) base

/-- The fields whose name and value pass a test. -/
def filter (f : Fields) (keep : String → Json → Bool) : Fields :=
  ⟨f.entries.filter fun entry ↦ keep entry.1 entry.2, f.sorted.filter _⟩

/-- The JSON object with these fields. -/
def toJson (f : Fields) : Json := .object f.entries

/-- Looking up after an insertion finds the inserted value under its name and else what was
there. -/
theorem lookup_insertEntry (name : String) (value : Json) (entries : List (String × Json))
    (other : String) :
    lookup other (insertEntry name value entries)
      = if name = other then some value else lookup other entries := by
  induction entries with
  | nil => rfl
  | cons head rest ih =>
    obtain ⟨key, held⟩ := head
    rw [insertEntry]
    split
    · rfl
    · split
      · rename_i heq
        subst heq
        by_cases h : name = other <;> simp [lookup, h]
      · rename_i hne
        by_cases hkey : key = other
        · subst hkey
          simp [lookup, hne]
        · simp [lookup, hkey, ih]

/-- Inserting sets the value of one name and of no other. -/
@[simp] theorem get?_insert (f : Fields) (name : String) (value : Json) (other : String) :
    (f.insert name value).get? other = if name = other then some value else f.get? other :=
  lookup_insertEntry name value f.entries other

@[simp] theorem get?_empty (name : String) : empty.get? name = none := rfl

/-- A name above all others goes to the end. -/
theorem insertEntry_of_lt {name : String} {entries : List (String × Json)}
    (h : ∀ entry ∈ entries, entry.1 < name) (value : Json) :
    insertEntry name value entries = entries ++ [(name, value)] := by
  induction entries with
  | nil => rfl
  | cons head rest ih =>
    obtain ⟨other, held⟩ := head
    have hother : other < name := h (other, held) List.mem_cons_self
    have hne : name ≠ other := by
      rintro rfl
      exact String.lt_irrefl name hother
    rw [insertEntry, if_neg (String.lt_asymm hother), if_neg hne,
      ih fun entry hentry ↦ h entry (List.mem_cons_of_mem _ hentry)]
    rfl

-- Inserting entries that come after all those there, in order, appends them.
private theorem entries_foldl_insert (entries : List (String × Json)) (f : Fields)
    (h : (f.entries ++ entries).Pairwise fun a b ↦ a.1 < b.1) :
    (entries.foldl (fun f entry ↦ f.insert entry.1 entry.2) f).entries = f.entries ++ entries := by
  induction entries generalizing f with
  | nil => simp
  | cons entry rest ih =>
    have hlast : (f.insert entry.1 entry.2).entries = f.entries ++ [entry] :=
      insertEntry_of_lt
        (fun other hother ↦ (List.pairwise_append.1 h).2.2 other hother entry List.mem_cons_self)
        entry.2
    rw [List.foldl_cons, ih _ (by rw [hlast]; simpa using h), hlast]
    simp

private theorem mem_of_lookup {name : String} {value : Json} {entries : List (String × Json)}
    (h : lookup name entries = some value) : (name, value) ∈ entries := by
  induction entries with
  | nil => cases h
  | cons head rest ih =>
    obtain ⟨key, held⟩ := head
    rw [lookup] at h
    split at h
    · next heq =>
      cases h
      subst heq
      exact List.mem_cons_self
    · exact List.mem_cons_of_mem _ (ih h)

-- The entries after the first have other names, since names increase.
private theorem lookup_of_mem {name : String} {value : Json} {entries : List (String × Json)}
    (hsorted : entries.Pairwise fun a b ↦ a.1 < b.1) (h : (name, value) ∈ entries) :
    lookup name entries = some value := by
  induction entries with
  | nil => cases h
  | cons head rest ih =>
    obtain ⟨key, held⟩ := head
    obtain ⟨hhead, hrest⟩ := List.pairwise_cons.1 hsorted
    rw [lookup]
    rcases List.mem_cons.1 h with heq | h
    · cases heq
      exact if_pos rfl
    · have hne : key ≠ name := by
        rintro rfl
        exact String.lt_irrefl key (hhead (key, value) h)
      rw [if_neg hne]
      exact ih hrest h

/-- The entries are the names with their values. -/
theorem mem_entries_iff (f : Fields) (name : String) (value : Json) :
    (name, value) ∈ f.entries ↔ f.get? name = some value :=
  ⟨lookup_of_mem f.sorted, mem_of_lookup⟩

/-- The names are those that have a value. -/
theorem mem_names_iff (f : Fields) (name : String) :
    name ∈ f.names ↔ ∃ value, f.get? name = some value := by
  rw [names, List.mem_map]
  constructor
  · rintro ⟨⟨key, value⟩, hentry, rfl⟩
    exact ⟨value, (f.mem_entries_iff key value).1 hentry⟩
  · rintro ⟨value, hvalue⟩
    exact ⟨(name, value), (f.mem_entries_iff name value).2 hvalue, rfl⟩

/-- A filter keeps the value of a name when the two pass its test. -/
theorem get?_filter (f : Fields) (keep : String → Json → Bool) (name : String) :
    (f.filter keep).get? name = (f.get? name).filter (keep name) := by
  apply Option.ext
  intro value
  rw [← mem_entries_iff, filter, List.mem_filter, mem_entries_iff, Option.filter_eq_some_iff]

/-- A filter keeps the names that pass its test with their values, in order. -/
theorem names_filter (f : Fields) (keep : String → Json → Bool) :
    (f.filter keep).names = f.names.filter fun name ↦ (f.get? name).any (keep name) := by
  rw [names, names, filter, List.filter_map]
  congr 1
  apply List.filter_congr
  intro entry hentry
  have hvalue : f.get? entry.1 = some entry.2 := (f.mem_entries_iff entry.1 entry.2).1 hentry
  rw [Function.comp_apply, hvalue, Option.any_some]

/-- The entries of fields make up the same fields again. -/
@[simp] theorem ofList_entries (f : Fields) : ofList f.entries = f := by
  have hsorted : (empty.entries ++ f.entries).Pairwise fun a b ↦ a.1 < b.1 := f.sorted
  apply Fields.ext
  exact entries_foldl_insert f.entries empty hsorted

/-- Looking up in two lists of entries goes on to the second when the first lacks the name. -/
theorem lookup_append (name : String) (first second : List (String × Json)) :
    lookup name (first ++ second) = (lookup name first).or (lookup name second) := by
  induction first with
  | nil => rfl
  | cons head rest ih =>
    rw [List.cons_append, lookup, lookup]
    split
    · rfl
    · exact ih

-- By induction on the entries: each one is looked up before those that were inserted earlier.
private theorem get?_foldl_insert (entries : List (String × Json)) (f : Fields) (name : String) :
    (entries.foldl (fun f entry ↦ f.insert entry.1 entry.2) f).get? name =
      (lookup name entries.reverse).or (f.get? name) := by
  induction entries generalizing f with
  | nil => rfl
  | cons entry rest ih =>
    have hentry : (f.insert entry.1 entry.2).get? name =
        (lookup name [entry]).or (f.get? name) := by
      rw [get?_insert, lookup]
      split <;> rfl
    rw [List.foldl_cons, ih, hentry, List.reverse_cons, lookup_append, Option.or_assoc]

/-- The fields of a list of entries have the value of the last entry with a name. -/
theorem get?_ofList (entries : List (String × Json)) (name : String) :
    (ofList entries).get? name = lookup name entries.reverse := by
  rw [ofList, get?_foldl_insert, get?_empty, Option.or_none]

/-- A value is found exactly under the names of the entries. -/
theorem exists_lookup_iff {name : String} {entries : List (String × Json)} :
    (∃ value, lookup name entries = some value) ↔ name ∈ entries.map (·.1) := by
  induction entries with
  | nil => simp [lookup]
  | cons head rest ih =>
    obtain ⟨key, held⟩ := head
    rw [lookup, List.map_cons, List.mem_cons, ← ih]
    by_cases h : key = name
    · simp [h]
    · simp [h, Ne.symm h]

/-- The names of fields are those of the entries that they are made of. -/
theorem mem_names_ofList {name : String} {entries : List (String × Json)} :
    name ∈ (ofList entries).names ↔ name ∈ entries.map (·.1) := by
  rw [mem_names_iff, get?_ofList, exists_lookup_iff, List.map_reverse, List.mem_reverse]

/-- With each name once, the fields of a list of entries have the value of the entry with a
name. -/
theorem get?_ofList_of_nodup {entries : List (String × Json)} (h : (entries.map (·.1)).Nodup)
    (name : String) : (ofList entries).get? name = lookup name entries := by
  rw [get?_ofList]
  induction entries with
  | nil => rfl
  | cons head rest ih =>
    obtain ⟨key, held⟩ := head
    obtain ⟨hkey, hrest⟩ := List.nodup_cons.1 h
    rw [List.reverse_cons, lookup_append, ih hrest, lookup, lookup, lookup]
    split
    · next heq =>
      subst heq
      rw [← exists_lookup_iff, not_exists] at hkey
      rw [Option.eq_none_iff_forall_ne_some.2 hkey, Option.none_or]
    · rw [Option.or_none]

/-- What is laid over fields has its values, and elsewhere the fields keep theirs. -/
theorem get?_overlay (base patch : Fields) (name : String) :
    (base.overlay patch).get? name = (patch.get? name).or (base.get? name) := by
  rw [overlay, get?_foldl_insert, ← get?_ofList, ofList_entries]

end Fields

namespace Json

/-- The fields of an object; none for a value of another kind. -/
def fields? : Json → Option Fields
  | .object entries => some (.ofList entries)
  | _ => none

/-- Fields written as an object are its fields. -/
@[simp] theorem fields?_toJson (f : Fields) : f.toJson.fields? = some f := by
  simp [Fields.toJson, fields?]

/-- The fields of an object; a value of another kind counts as one without fields. -/
def fieldsOrEmpty (v : Json) : Fields := v.fields?.getD ∅

end Json

end RecordStore
