import RecordStore.Page.Wire
import RecordStore.Proofs.Wire.Record
import RecordStore.Search.Wire

/-!
# The formats of groups, requests and responses

Keyword options, keyword groups, requests for a page and responses are records. An option, a group
and a response have to have all of their members; a member that a request leaves out counts as the
default request has it. An option inside of a group is read as one on its own.
-/

namespace RecordStore

/-! ### Values -/

@[simp] theorem KeywordMatch.ofName?_name (kind : KeywordMatch) :
    ofName? kind.name = some kind := by
  cases kind <;> rfl

@[simp] theorem Conjunction.ofName?_name (c : Conjunction) : ofName? c.name = some c := by
  cases c <;> rfl

namespace Json

@[simp] theorem int64?_int64 (n : Int64) : (int64 n).int64? = some n := toInt64?_eq_some_iff.2 rfl

/-- Items that are written are read back one by one. -/
theorem mapM_map_eq_some {α : Type} {write : α → Json} {read? : Json → Option α}
    (h : ∀ x, read? (write x) = some x) (xs : List α) : (xs.map write).mapM read? = some xs := by
  rw [List.mapM_map, show read? ∘ write = pure from funext h, List.mapM_pure, List.map_id']
  rfl

@[simp] theorem strings?_strings (texts : List String) : (strings texts).strings? = some texts := by
  have hread : ∀ text, string? (.string text) = some text := fun _ ↦ rfl
  exact mapM_map_eq_some hread texts

/-- A member that may be absent is read as the value that its default is written as. -/
theorem memberOr_eq {α : Type} {absent : α} {read : Json → Option α} {written : Json}
    (h : read written = some absent) (v : Option Json) :
    memberOr absent read v = read (v.getD written) := by
  cases v with
  | none => exact h.symm
  | some v => rfl

end Json

/-! ### Options and groups -/

namespace KeywordOption

/-- The format of options. -/
def wire : WireFormat KeywordOption where
  write := toJson
  read? := ofJson?
  members := ["type", "key", "value"]
  whenAbsent _ := none

/-- The values of the members of an option. -/
def values (o : KeywordOption) : List Json := [.string o.kind.name, .string o.key, o.value]

/-- The option that the values of all members make up. -/
def ofValues? : List Json → Option KeywordOption
  | [kind, key, value] => do
    return ⟨← kind.tag?.bind KeywordMatch.ofName?, ← key.string?, value⟩
  | _ => none

/-- Options are records. -/
theorem isRecord_wire : wire.IsRecord values ofValues? where
  nodup := by decide
  length_values _ := rfl
  ofValues?_values o := by simp [values, ofValues?, Json.tag?, Json.string?]
  write_eq _ := rfl
  read_eq := by
    refine WireFormat.read_eq_of_members (fun _ ↦ rfl) fun found hfound ↦ ?_
    obtain ⟨kind, key, value, rfl⟩ := List.length_eq_three.1 hfound
    cases kind <;> cases key <;> cases value <;> rfl

end KeywordOption

namespace KeywordGroup

/-- The format of groups. -/
def wire : WireFormat KeywordGroup where
  write := toJson
  read? := ofJson?
  members := ["condition", "options"]
  whenAbsent _ := none

/-- The values of the members of a group. -/
def values (g : KeywordGroup) : List Json :=
  [.string g.conjunction.name, .array (g.options.map KeywordOption.toJson)]

/-- The group that the values of all members make up. -/
def ofValues? : List Json → Option KeywordGroup
  | [condition, options] => do
    let items ← options.items?
    return ⟨← condition.tag?.bind Conjunction.ofName?, ← items.mapM KeywordOption.ofJson?⟩
  | _ => none

/-- Groups are records. -/
theorem isRecord_wire : wire.IsRecord values ofValues? where
  nodup := by decide
  length_values _ := rfl
  ofValues?_values g := by
    have hoptions := Json.mapM_map_eq_some KeywordOption.isRecord_wire.read?_write g.options
    change List.mapM KeywordOption.ofJson? (g.options.map KeywordOption.toJson) = _ at hoptions
    simp [values, ofValues?, Json.tag?, Json.items?, hoptions]
  write_eq _ := rfl
  read_eq := by
    refine WireFormat.read_eq_of_members (fun _ ↦ rfl) fun found hfound ↦ ?_
    obtain ⟨condition, options, rfl⟩ := List.length_eq_two.1 hfound
    cases condition <;> cases options <;> rfl

/-- Groups are read alike when they have one condition and their options are read alike one by
one. -/
theorem read?_wire_congr {f g : Fields} {items others : List Json}
    (hcondition : f.get? "condition" = g.get? "condition")
    (hf : f.get? "options" = some (.array items)) (hg : g.get? "options" = some (.array others))
    (hitems : List.Forall₂ (fun item other ↦
      KeywordOption.wire.read? item = KeywordOption.wire.read? other) items others) :
    wire.read? f.toJson = wire.read? g.toJson := by
  have hread : items.mapM KeywordOption.ofJson? = others.mapM KeywordOption.ofJson? :=
    mapM_congr_of_forall₂ hitems
  have hvalues (condition : Json) :
      ofValues? [condition, .array items] = ofValues? [condition, .array others] := by
    simp only [ofValues?, Json.items?, Option.bind_eq_bind, Option.bind_some, hread]
  have hmembers : wire.members = ["condition", "options"] := rfl
  simp only [isRecord_wire.read?_toJson, hmembers, List.mapM_cons, List.mapM_nil, WireFormat.given,
    hcondition, hf, hg]
  cases (g.get? "condition").or (wire.whenAbsent "condition") with
  | none => rfl
  | some condition => exact hvalues condition

end KeywordGroup

/-! ### Requests and responses -/

namespace PageOptions

/-- The format of requests. -/
def wire : WireFormat PageOptions where
  write := toJson
  read? := ofJson?
  members := ["q", "limit", "page", "orderBy"]
  whenAbsent name := (toJson {}).fieldsOrEmpty.get? name

/-- The values of the members of a request. -/
def values (o : PageOptions) : List Json :=
  [.string o.q, .int64 o.limit, .int64 o.page, .strings o.orderBy]

/-- The request that the values of all members make up. -/
def ofValues? : List Json → Option PageOptions
  | [q, limit, page, orderBy] => do
    return ⟨← q.string?, ← limit.int64?, ← page.int64?, ← orderBy.strings?⟩
  | _ => none

private theorem whenAbsent_wire (name : String) : wire.whenAbsent name = Fields.lookup name
    [("orderBy", .strings []), ("page", .int64 0), ("limit", .int64 0), ("q", .string "")] := by
  change (toJson {}).fieldsOrEmpty.get? name = _
  rw [toJson, Json.fieldsOrEmpty, Json.fields?_toJson, Option.getD_some, Fields.get?_ofList]
  rfl

-- All members of a request may be absent.
private theorem filled_wire (q limit page orderBy : Option Json) :
    wire.filled [q, limit, page, orderBy] =
      some [q.getD (.string ""), limit.getD (.int64 0), page.getD (.int64 0),
        orderBy.getD (.strings [])] := by
  simp only [WireFormat.filled, whenAbsent_wire]
  simp [wire, Fields.lookup]

/-- Requests are records. -/
theorem isRecord_wire : wire.IsRecord values ofValues? where
  nodup := by decide
  length_values _ := rfl
  ofValues?_values o := by simp [values, ofValues?, Json.string?]
  write_eq _ := rfl
  read_eq := by
    refine WireFormat.read_eq_of_members (fun _ ↦ rfl) fun found hfound ↦ ?_
    have hq : Json.string? (.string "") = some "" := rfl
    match found, hfound with
    | [q, limit, page, orderBy], _ =>
      rw [filled_wire, Option.bind_some]
      simp only [Json.memberOr_eq hq, Json.memberOr_eq (Json.int64?_int64 0),
        Json.memberOr_eq (Json.strings?_strings [])]
      rfl

end PageOptions

namespace PageResponse

/-- The format of responses. -/
def wire : WireFormat PageResponse where
  write := toJson
  read? := ofJson?
  members := ["total", "limit", "count", "page", "q", "orderBy"]
  whenAbsent _ := none

/-- The values of the members of a response. -/
def values (r : PageResponse) : List Json :=
  [.int64 r.total, .int64 r.limit, .int64 r.count, .int64 r.page, .string r.q, .strings r.orderBy]

/-- The response that the values of all members make up. -/
def ofValues? : List Json → Option PageResponse
  | [total, limit, count, page, q, orderBy] => do
    return ⟨← total.int64?, ← limit.int64?, ← count.int64?, ← page.int64?, ← q.string?,
      ← orderBy.strings?⟩
  | _ => none

/-- Responses are records. -/
theorem isRecord_wire : wire.IsRecord values ofValues? where
  nodup := by decide
  length_values _ := rfl
  ofValues?_values r := by simp [values, ofValues?, Json.string?]
  write_eq _ := rfl
  read_eq := by
    refine WireFormat.read_eq_of_members (fun _ ↦ rfl) fun found hfound ↦ ?_
    match found, hfound with
    | [total, limit, count, page, q, orderBy], _ =>
      cases total <;> cases limit <;> cases count <;> cases page <;> cases q <;> cases orderBy <;>
        rfl

end PageResponse

/-- Options, groups, requests and responses are read back as they were written. What is read from an
object is told by its members alone, of which only a request may lack some, and these count as the
default request has them; arrays are read by the places of their items. The options of a group are
read each as on its own, and a group that has been written and read compiles to the same filter. -/
theorem wire_formats_read_back :
    KeywordOption.wire.ReadsBack ∧ KeywordGroup.wire.ReadsBack ∧ PageOptions.wire.ReadsBack ∧
      PageResponse.wire.ReadsBack ∧
    (∀ (f g : Fields) (items others : List Json), f.get? "condition" = g.get? "condition" →
      f.get? "options" = some (.array items) → g.get? "options" = some (.array others) →
      List.Forall₂ (fun item other ↦
        KeywordOption.wire.read? item = KeywordOption.wire.read? other) items others →
      KeywordGroup.wire.read? f.toJson = KeywordGroup.wire.read? g.toJson) ∧
    ∀ g : KeywordGroup,
      (KeywordGroup.ofJson? g.toJson).map KeywordGroup.compile = some g.compile := by
  refine ⟨KeywordOption.isRecord_wire.readsBack, KeywordGroup.isRecord_wire.readsBack,
    PageOptions.isRecord_wire.readsBack, PageResponse.isRecord_wire.readsBack,
    fun f g items others ↦ KeywordGroup.read?_wire_congr, fun g ↦ ?_⟩
  have hread : KeywordGroup.ofJson? g.toJson = some g := KeywordGroup.isRecord_wire.read?_write g
  rw [hread, Option.map_some]

/-- Other names in a group and an option as an array change nothing, nor does a limit of 0 in a
request. -/
theorem wire_formats_read_back_others :
    let option : KeywordOption := ⟨.wildcard, "a", .int 5⟩
    let written := Fields.ofList [("condition", .string "or"), ("options", .array [option.toJson])]
    let item : Json := .array [.object [("wildcard", .null)], .string "a", .int 5]
    let sent := Fields.ofList
      [("condition", .string "or"), ("options", .array [item]), ("page", .null)]
    let short := Fields.ofList [("q", .string "x")]
    let long := Fields.ofList [("limit", .int 0), ("q", .string "x"), ("total", .null)]
    sent.get? "condition" = written.get? "condition" ∧
      KeywordOption.wire.read? item = KeywordOption.wire.read? option.toJson ∧
      KeywordGroup.wire.read? sent.toJson = some ⟨.or, [option]⟩ ∧
      (∀ name ∈ PageOptions.wire.members,
        PageOptions.wire.given long name = PageOptions.wire.given short name) ∧
      PageOptions.wire.read? long.toJson = some ⟨"x", 0, 0, []⟩ := by
  intro option written item sent short long
  obtain ⟨-, hgroup, hrequest, -, hcongr, -⟩ := wire_formats_read_back
  have hcondition : sent.get? "condition" = written.get? "condition" := by decide +kernel
  have hitem : KeywordOption.wire.read? item = KeywordOption.wire.read? option.toJson := by
    decide +kernel
  have hgiven : ∀ name ∈ PageOptions.wire.members,
      PageOptions.wire.given long name = PageOptions.wire.given short name := by
    decide +kernel
  refine ⟨hcondition, hitem, ?_, hgiven, ?_⟩
  · rw [hcongr sent written [item] [option.toJson] hcondition (by decide +kernel)
      (by decide +kernel) (.cons hitem .nil)]
    exact hgroup.read_write ⟨.or, [option]⟩
  · rw [hrequest.alike long short hgiven]
    decide +kernel

end RecordStore
