import Mathlib.Data.List.Sort
import RecordStore.Model.Schema

/-!
# The changed fields of an object

The changed fields of a whole value are the least that has to be laid over the default to get back
what is set in the value. Of an object that is no whole value nothing but nulls is left out, so a
value that a caller gives explicitly is written although it equals the default.
-/

namespace RecordStore

namespace Json

-- By recursion on the value, its items and its entries together.
mutual

/-- Every value is the same as itself. -/
theorem sameValue_refl (x : Json) : x.sameValue x = true := by
  cases x with
  | number n => cases n <;> simp [sameValue, alike, Number.sameValue, Binary64.sameValue]
  | array items => exact sameItems_refl items
  | object entries => exact sameEntries_refl entries
  | _ => simp [sameValue, alike]

private theorem sameItems_refl (items : List Json) :
    alikeItems Number.sameValue items items = true := by
  match items with
  | [] => rfl
  | x :: rest =>
    have hx : x.alike Number.sameValue x = true := sameValue_refl x
    rw [alikeItems, hx, sameItems_refl rest]
    rfl

private theorem sameEntries_refl (entries : List (String × Json)) :
    alikeEntries Number.sameValue entries entries = true := by
  match entries with
  | [] => rfl
  | (name, x) :: rest =>
    have hx : x.alike Number.sameValue x = true := sameValue_refl x
    rw [alikeEntries, hx, sameEntries_refl rest, decide_eq_true rfl]
    rfl

end

private theorem names_eq_of_alikeEntries {xs ys : List (String × Json)}
    (h : alikeEntries Number.sameValue xs ys = true) : xs.map (·.1) = ys.map (·.1) := by
  induction xs generalizing ys with
  | nil => cases ys <;> simp_all [alikeEntries]
  | cons x rest ih =>
    cases ys with
    | nil => simp [alikeEntries] at h
    | cons y others =>
      simp only [alikeEntries, Bool.and_eq_true, decide_eq_true_eq] at h
      rw [List.map_cons, List.map_cons, h.1.1, ih h.2]

private theorem alikeEntries_of_names_eq {xs ys : List (String × Json)}
    (hnames : xs.map (·.1) = ys.map (·.1))
    (h : ∀ x ∈ xs, ∀ y ∈ ys, x.1 = y.1 → x.2.sameValue y.2 = true) :
    alikeEntries Number.sameValue xs ys = true := by
  induction xs generalizing ys with
  | nil => cases ys <;> simp_all [alikeEntries]
  | cons x rest ih =>
    cases ys with
    | nil => simp at hnames
    | cons y others =>
      rw [List.map_cons, List.map_cons, List.cons.injEq] at hnames
      have hhead := h x List.mem_cons_self y List.mem_cons_self hnames.1
      have hrest := ih hnames.2 fun a ha b hb ↦
        h a (List.mem_cons_of_mem _ ha) b (List.mem_cons_of_mem _ hb)
      rw [alikeEntries, hnames.1, hrest]
      simpa [sameValue] using hhead

end Json

namespace Fields

/-- Fields that have the same names have them in the same order. -/
theorem names_eq_of_mem_iff {f g : Fields} (h : ∀ name, name ∈ f.names ↔ name ∈ g.names) :
    f.names = g.names :=
  (List.pairwise_map.2 f.sorted).eq_of_mem_iff (List.pairwise_map.2 g.sorted) h

/-- Fields with the same names are the same object when they have the same values. -/
theorem sameValue_toJson {f g : Fields} (hnames : f.names = g.names)
    (h : ∀ name v w, f.get? name = some v → g.get? name = some w → v.sameValue w = true) :
    f.toJson.sameValue g.toJson = true := by
  refine Json.alikeEntries_of_names_eq hnames ?_
  intro x hx y hy hname
  refine h x.1 x.2 y.2 ((f.mem_entries_iff x.1 x.2).1 hx) ?_
  rw [hname]
  exact (g.mem_entries_iff y.1 y.2).1 hy

/-- The same object has the same names. -/
theorem names_eq_of_sameValue {v : Json} {f g : Fields} (hv : v.fields? = some f)
    (h : v.sameValue g.toJson = true) : f.names = g.names := by
  cases v with
  | object entries =>
    have hnames : entries.map (·.1) = g.names := Json.names_eq_of_alikeEntries h
    have hsorted : entries.Pairwise fun a b ↦ a.1 < b.1 := by
      rw [← List.pairwise_map (f := fun entry : String × Json ↦ entry.1), hnames]
      exact List.pairwise_map.2 g.sorted
    obtain rfl : ofList entries = f := by simpa [Json.fields?] using hv
    rw [ofList_entries ⟨entries, hsorted⟩]
    exact hnames
  | _ => cases hv

end Fields

namespace Model

variable {α : Type} {m : Model α}

/-- Fields that are a whole value: they make up one, and it is written as the same object again. -/
def Whole (m : Model α) (f : Fields) : Prop :=
  ∃ y, m.ofFields? f = some y ∧ (m.toJson y).sameValue f.toJson = true

/-- Changed fields that say, beside the default, what is set in a value, and nothing more. -/
structure Patches (own defaults changed : Fields) : Prop where
  /-- What is changed is what the value has. -/
  taken : ∀ name v, changed.get? name = some v → own.get? name = some v
  /-- Nothing is written that is null or as in the default. -/
  minimal : ∀ name v, changed.get? name = some v →
    v.isNull = false ∧ ∀ d, defaults.get? name = some d → d.sameValue v = false
  /-- What is not null comes back. -/
  set : ∀ name v, own.get? name = some v → v.isNull = false →
    ∃ w, (defaults.overlay changed).get? name = some w ∧ w.sameValue v = true
  /-- What is null or absent stays as in the default. -/
  unset : ∀ name, (own.get? name).all Json.isNull = true →
    (defaults.overlay changed).get? name = defaults.get? name
  /-- A value with the names of the default and no null in place of a default comes back. -/
  whole : own.names = defaults.names →
    (∀ name, own.get? name = some .null → defaults.get? name = some .null) →
    (defaults.overlay changed).toJson.sameValue own.toJson = true

private theorem isWhole_iff (f : Fields) : m.isWhole f = true ↔ m.Whole f := by
  rw [isWhole, Whole]
  cases m.ofFields? f <;> simp

section

variable {own defaults changed : Fields}

-- The fields of a value that are set and differ from the default.
private def Differs (own defaults changed : Fields) : Prop :=
  ∀ name v, changed.get? name = some v ↔ own.get? name = some v ∧ v.isNull = false ∧
    ∀ d, defaults.get? name = some d → d.sameValue v = false

private theorem Differs.set (h : Differs own defaults changed) {name : String} {v : Json}
    (hv : own.get? name = some v) (hnull : v.isNull = false) :
    ∃ w, (defaults.overlay changed).get? name = some w ∧ w.sameValue v = true := by
  rw [Fields.get?_overlay]
  cases hchanged : changed.get? name with
  | some w =>
    obtain rfl : w = v := Option.some.inj (((h name w).1 hchanged).1.symm.trans hv)
    exact ⟨w, rfl, w.sameValue_refl⟩
  | none =>
    -- A value that is left out is that of the default.
    by_contra hnone
    refine absurd ((h name v).2 ⟨hv, hnull, fun d hd ↦ ?_⟩) (by simp [hchanged])
    rw [← Bool.not_eq_true]
    exact fun hsame ↦ hnone ⟨d, hd, hsame⟩

private theorem Differs.unset (h : Differs own defaults changed) {name : String}
    (hown : (own.get? name).all Json.isNull = true) :
    (defaults.overlay changed).get? name = defaults.get? name := by
  have hchanged : changed.get? name = none := by
    rw [Option.eq_none_iff_forall_ne_some]
    intro v hv
    obtain ⟨hv, hnull, -⟩ := (h name v).1 hv
    simp [hv, hnull] at hown
  rw [Fields.get?_overlay, hchanged, Option.none_or]

-- Where the value has a null, the default has the same.
private theorem Differs.exists_sameValue (h : Differs own defaults changed)
    (hnulls : ∀ name, own.get? name = some .null → defaults.get? name = some .null)
    {name : String} {v : Json} (hv : own.get? name = some v) :
    ∃ w, (defaults.overlay changed).get? name = some w ∧ w.sameValue v = true := by
  cases hnull : v.isNull with
  | false => exact h.set hv hnull
  | true =>
    obtain rfl : v = .null := by cases v <;> first | rfl | cases hnull
    exact ⟨.null, (h.unset (by rw [hv]; rfl)).trans (hnulls name hv), Json.sameValue_refl .null⟩

private theorem Differs.whole (h : Differs own defaults changed)
    (hnames : own.names = defaults.names)
    (hnulls : ∀ name, own.get? name = some .null → defaults.get? name = some .null) :
    (defaults.overlay changed).toJson.sameValue own.toJson = true := by
  apply Fields.sameValue_toJson
  · apply Fields.names_eq_of_mem_iff
    intro name
    constructor
    · intro hname
      obtain ⟨v, hv⟩ := (Fields.mem_names_iff _ name).1 hname
      rw [Fields.get?_overlay, Option.or_eq_some_iff] at hv
      rcases hv with hv | ⟨-, hv⟩
      · exact (own.mem_names_iff name).2 ⟨v, ((h name v).1 hv).1⟩
      · rw [hnames]
        exact (defaults.mem_names_iff name).2 ⟨v, hv⟩
    · intro hname
      obtain ⟨v, hv⟩ := (own.mem_names_iff name).1 hname
      obtain ⟨w, hw, -⟩ := h.exists_sameValue hnulls hv
      exact (Fields.mem_names_iff _ name).2 ⟨w, hw⟩
  · intro name v w hv hw
    obtain ⟨u, hu, hsame⟩ := h.exists_sameValue hnulls hw
    obtain rfl : u = v := Option.some.inj (hu.symm.trans hv)
    exact hsame

private theorem Differs.patches (h : Differs own defaults changed) :
    Patches own defaults changed where
  taken name v hv := ((h name v).1 hv).1
  minimal name v hv := ((h name v).1 hv).2
  set _ _ hv hnull := h.set hv hnull
  unset _ hown := h.unset hown
  whole hnames hnulls := h.whole hnames hnulls

end

/-- The changed fields of an object, when the default is one. -/
theorem changedFields_eq {defaults : Fields} (hdefaults : m.fields m.default = .ok defaults)
    (f : Fields) :
    m.changedFields f = .ok (f.filter fun name value ↦
      !value.isNull && !(m.isWhole f && (defaults.get? name).any (·.sameValue value))) := by
  rw [changedFields, hdefaults]
  rfl

private theorem differs_of_whole {own defaults : Fields} (hown : m.Whole own) :
    Differs own defaults (own.filter fun name value ↦
      !value.isNull && !(m.isWhole own && (defaults.get? name).any (·.sameValue value))) := by
  intro name v
  rw [Fields.get?_filter, Option.filter_eq_some_iff, (isWhole_iff own).2 hown]
  cases defaults.get? name <;> simp

/-- A whole value has the names of the object that it is read from. -/
theorem Whole.names_eq {f read : Fields} {y : α} (h : m.Whole f) (hy : m.ofFields? f = some y)
    (hread : m.fields y = .ok read) : read.names = f.names := by
  obtain ⟨z, hz, hsame⟩ := h
  obtain rfl : z = y := Option.some.inj (hz.symm.trans hy)
  rw [fields] at hread
  split at hread
  · next g hg =>
    cases hread
    exact Fields.names_eq_of_sameValue hg hsame
  · cases hread

/-- The changed fields of a whole value are a least patch to the default that loses nothing of what
is set; what a value is written as is whole if it is read back unchanged. The changed fields of any
other object are its fields without the nulls. An object is no whole value when a name is missing
from it, or is too much. -/
theorem changedFields_patches {defaults : Fields}
    (hdefaults : m.fields m.default = .ok defaults) (f : Fields) :
    (m.Whole f → ∃ changed, m.changedFields f = .ok changed ∧ Patches f defaults changed) ∧
      (¬m.Whole f → m.changedFields f = .ok (f.filter fun _ v ↦ !v.isNull)) ∧
      ∀ y read, m.ofFields? f = some y → m.fields y = .ok read → read.names ≠ f.names →
        ¬m.Whole f := by
  refine ⟨fun h ↦ ⟨_, changedFields_eq hdefaults f, (differs_of_whole h).patches⟩, ?_, ?_⟩
  · intro h
    rw [← isWhole_iff, Bool.not_eq_true] at h
    simp only [changedFields_eq hdefaults, h, Bool.false_and, Bool.not_false, Bool.and_true]
  · intro y read hy hread hnames h
    exact hnames (h.names_eq hy hread)

/-- A whole product with an empty title is reduced to a patch of the default product; an empty title
by itself is written. -/
theorem changedFields_patches_titles :
    let m := Schema.model [.column "price" .integer (.int 0), .column "title" .text (.string "")]
      (.named "products")
    let product := (Fields.singleton "price" (.int 5)).insert "title" (.string "")
    let title := Fields.singleton "title" (.string "")
    (m.Whole product ∧ ∃ changed, m.changedFields product = .ok changed ∧
      Patches product m.default changed) ∧
      ¬m.Whole title ∧ m.changedFields title = .ok (title.filter fun _ v ↦ !v.isNull) := by
  intro m product title
  have hdefaults : m.fields m.default = .ok m.default := rfl
  have hproduct : m.Whole product := ⟨product, by decide, by decide⟩
  have htitle : ¬m.Whole title := by
    rintro ⟨y, hy, -⟩
    cases hy
  exact ⟨⟨hproduct, (changedFields_patches hdefaults product).1 hproduct⟩, htitle,
    (changedFields_patches hdefaults title).2.1 htitle⟩

end Model

end RecordStore
