import RecordStore.Proofs.Filter.Emptiness
import RecordStore.Proofs.Placeholder.OpenQuote
import RecordStore.Search.Keyword

/-!
# Keyword groups as filters

The options of a group that take part become one filter. It writes the comparison of its only option
as it stands, and of more options one comparison after another in parentheses, with the group's own
conjunction between them, whatever stands beside the filter. In a statement the comparisons are
numbered on from what is in front of them, and a column that is compared with a text is cast.
-/

namespace RecordStore

open Placeholder Statement

namespace KeywordOption

/-! ### What an option stands for -/

/-- An option takes part exactly when its column is a plain column reference and its value is
neither null nor the empty text. -/
theorem isApplicable_iff (o : KeywordOption) :
    o.isApplicable = true ↔
      Identifier.isColumnReference o.key = true ∧ o.value ≠ .null ∧ o.value ≠ .string "" := by
  have hvalue : isKeyword o.value = true ↔ o.value ≠ .null ∧ o.value ≠ .string "" := by
    cases o.value <;> simp [isKeyword]
  have hkey : Identifier.isColumnReference o.key = true → o.key.isEmpty = false := by
    intro hreference
    have hne := (Identifier.forall_of_isColumnReference hreference).1
    simpa using hne
  rw [isApplicable, Bool.and_eq_true, Bool.and_eq_true, hvalue, Bool.not_eq_true']
  constructor
  · rintro ⟨⟨-, hkeyword⟩, hreference⟩
    exact ⟨hreference, hkeyword⟩
  · rintro ⟨hreference, hkeyword⟩
    exact ⟨⟨hkey hreference, hkeyword⟩, hreference⟩

/-- The operator of an option. -/
def operator (o : KeywordOption) : String :=
  match o.kind with
  | .exact => "="
  | .wildcard => "LIKE"

/-- The argument that an option binds: its value, or for a wildcard a text with anything around the
text of the value. -/
def argument (o : KeywordOption) : Json :=
  match o.kind, o.value with
  | .exact, value => value
  | .wildcard, .string text => .string ("%" ++ text ++ "%")
  | .wildcard, value => .string ("%" ++ value.text ++ "%")

/-- The comparison that an option writes, with what stands right behind its column and with its
placeholder. -/
def comparison (o : KeywordOption) (cast placeholder : String) : String :=
  o.key ++ cast ++ " " ++ o.operator ++ " " ++ placeholder

/-- The comparison of an option with a number in place of its placeholder, the column cast when the
argument is a text. -/
def numbered (quote : Option Char) (o : KeywordOption) (k : Nat) : String :=
  o.comparison (if o.argument.isString then "::text" else "") (markText quote k)

/-- An option stands for the comparison of its column by its operator with its argument. -/
theorem toExpr_eq (o : KeywordOption) : o.toExpr = .compare o.key o.operator o.argument := by
  obtain ⟨kind, key, value⟩ := o
  cases kind with
  | exact => rfl
  | wildcard => cases value <;> rfl

/-- The operator of an option has neither quotes nor question marks. -/
theorem isInert_operator (o : KeywordOption) : IsInert o.operator.toList := by
  rw [operator]
  split <;> decide

/-- The comparison of an option writes something when the option takes part. -/
theorem isEmpty_toExpr {o : KeywordOption} (h : o.isApplicable = true) :
    o.toExpr.isEmpty = false := by
  rw [isApplicable, Bool.and_eq_true, Bool.and_eq_true, Bool.not_eq_true'] at h
  rw [toExpr_eq, Expr.isEmpty]
  exact h.1.1

/-- An option as SQL: its comparison and the argument for the one placeholder in it. -/
theorem render_toExpr (o : KeywordOption) (beside : Bool) :
    (o.toExpr.render beside).sql = o.comparison "" "?" ∧
      (o.toExpr.render beside).args = [o.argument] := by
  rw [toExpr_eq, Expr.render, comparison]
  simp [String.append_assoc]

/-! ### Options behind other text -/

-- The blank in front of the operator, with the cast in front of it.
private theorem spans_blank {quote : Option Char} (hquote : IsQuote quote) (marks : Nat)
    (isText : Bool) :
    Spans quote marks 0 ((if isText then "::text" else "") ++ " ")
      ⟨" ", [], if isText then [0] else []⟩ := by
  rcases hquote with rfl | rfl | rfl <;> cases isText <;> exact ⟨⟨rfl⟩, rfl, rfl, rfl⟩

private theorem spans_mark {quote : Option Char} (hquote : IsQuote quote) (marks : Nat)
    (args : List Json) : Spans quote marks 1 (markText quote (marks + 1)) (.withArgs "?" args) := by
  have htext : "?".toList = ['?'] := by decide
  refine ⟨.of_casts_eq_nil rfl, ?_, ?_, ?_⟩
  · rw [Statement.withArgs, htext]
    rcases hquote with rfl | rfl | rfl <;> rfl
  · rw [Statement.withArgs, htext]
    cases quote <;> rfl
  · rw [numberedIn, Statement.withArgs, htext, ← String.toList_inj]
    cases quote <;> simp [number, isPlaceholder, markText, String.toList_append]

-- What stands behind the column: the blank with its cast, the operator, a blank and the mark.
private theorem spans_comparisonEnd {quote : Option Char} (hquote : IsQuote quote) (marks : Nat)
    {op : String} (hop : IsInert op.toList) (args : List Json) (isText : Bool) :
    Spans quote marks 1
      ((if isText then "::text" else "") ++ " " ++ op ++ " " ++ markText quote (marks + 1))
      (Expr.comparisonEnd op args isText) := by
  have hblank : IsInert " ".toList := by decide
  have hbehind := ((spans_mark hquote (marks + numbersGiven quote 0) args).text_append hblank
    hquote).text_append hop hquote
  have hspans := (spans_blank hquote marks isText).append hbehind
  rw [numbersGiven_zero, Nat.add_zero] at hspans
  have hparts : Expr.comparisonEnd op args isText =
      ⟨" ", [], if isText then [0] else []⟩ ++ (op ++ (" " ++ Statement.withArgs "?" args)) := by
    cases isText <;> rfl
  rw [hparts]
  simpa only [String.append_assoc] using hspans

/-- An option that takes part spans its numbered comparison. -/
theorem spans_toExpr {o : KeywordOption} (h : o.isApplicable = true) {quote : Option Char}
    (hquote : IsQuote quote) (marks : Nat) (beside : Bool) :
    Spans quote marks 1 (o.numbered quote (marks + 1)) (o.toExpr.render beside) := by
  obtain ⟨-, hchars⟩ := Identifier.forall_of_isColumnReference (o.isApplicable_iff.1 h).1
  have hkey : IsInert o.key.toList := by
    intro c hc
    rcases hchars c hc with halphanum | rfl | rfl
    · refine ⟨?_, ?_, ?_⟩ <;> rintro rfl <;> exact absurd halphanum (by decide)
    · decide
    · decide
  have hspans := (spans_comparisonEnd hquote marks o.isInert_operator [o.argument]
    o.argument.isString).text_append hkey hquote
  rw [← String.append_assoc, ← String.append_assoc, ← String.append_assoc,
    ← String.append_assoc] at hspans
  rw [toExpr_eq, Expr.render_compare]
  exact hspans

end KeywordOption

namespace KeywordGroup

/-- The comparisons of a filter: a single one as it stands, and several in parentheses with the
conjunction between them. -/
def joined (c : Conjunction) : List String → String
  | [only] => only
  | comparisons => "(" ++ String.intercalate c.separator comparisons ++ ")"

/-- Options with the numbers that they take, the first of them given. -/
def numberedFrom (quote : Option Char) (k : Nat) (options : List KeywordOption) : List String :=
  (options.zipIdx k).map fun o ↦ o.1.numbered quote o.2

end KeywordGroup

open KeywordGroup

/-- A filter that writes the comparisons of some options under a conjunction, in their order and
whatever stands beside it: as SQL with placeholders, with the options' arguments, and anywhere in a
statement with the numbers that follow those in front. Behind a quote that is left open, nothing is
numbered. -/
structure Expr.WritesKeywords (c : Conjunction) (options : List KeywordOption) (e : Expr) :
    Prop where
  sql : ∀ beside, (e.render beside).sql = joined c (options.map fun o ↦ o.comparison "" "?")
  args : ∀ beside, (e.render beside).args = options.map KeywordOption.argument
  numbered : ∀ (beside : Bool) (head rest : Statement), head.CastsPlaced →
    (head ++ (e.render beside ++ rest)).toPostgres = head.toPostgres ++
      (joined c (numberedFrom head.openQuote (head.marks + 1) options) ++
        rest.numberedIn head.openQuote
          (head.marks + numbersGiven head.openQuote options.length))

namespace KeywordGroup

variable {options : List KeywordOption}

/-! ### Several options -/

-- The number of an option is read where no quote is open alone.
private theorem numbered_eq {quote : Option Char} {k l : Nat} (h : quote = none → k = l)
    (o : KeywordOption) : o.numbered quote k = o.numbered quote l := by
  cases quote with
  | none => rw [h rfl]
  | some mark => rfl

private theorem spans_join (c : Conjunction) (h : ∀ o ∈ options, o.isApplicable = true)
    {quote : Option Char} (hquote : IsQuote quote) {marks k : Nat}
    (hk : quote = none → k = marks + 1) (beside : Bool) :
    Spans quote marks options.length (String.intercalate c.separator (numberedFrom quote k options))
      (join c.separator (options.map fun o ↦ o.toExpr.render beside)) := by
  induction options generalizing marks k with
  | nil =>
    have hempty : IsInert "".toList := by decide
    exact .ofText hempty hquote marks
  | cons first rest ih =>
    rw [List.forall_mem_cons] at h
    have hfirst := first.spans_toExpr h.1 hquote marks beside
    rw [← numbered_eq hk] at hfirst
    cases rest with
    | nil => simpa [numberedFrom, join] using hfirst
    | cons second rest =>
      have hseparator : IsInert c.separator.toList := by cases c <;> decide
      have hnext : quote = none → k + 1 = marks + numbersGiven quote 1 + 1 := by
        rintro rfl
        rw [hk rfl]
        rfl
      have hspans := hfirst.append ((ih h.2 hnext).text_append hseparator hquote)
      rw [Nat.add_comm 1, ← String.append_assoc] at hspans
      rw [numberedFrom, List.zipIdx_cons, List.zipIdx_cons, List.map_cons, List.map_cons,
        String.intercalate_cons_cons]
      exact hspans

/-- The comparisons of options that take part all write something. -/
theorem nonEmpty_options (h : ∀ o ∈ options, o.isApplicable = true) :
    Expr.nonEmpty (options.map KeywordOption.toExpr) = options.map KeywordOption.toExpr := by
  rw [Expr.nonEmpty, List.filter_eq_self, List.forall_mem_map]
  intro o ho
  rw [KeywordOption.isEmpty_toExpr (h o ho)]
  rfl

private theorem renderMembers_options (h : ∀ o ∈ options, o.isApplicable = true) (beside : Bool) :
    Expr.renderMembers beside (options.map KeywordOption.toExpr) =
      options.map fun o ↦ o.toExpr.render beside := by
  rw [Expr.renderMembers_eq_map, nonEmpty_options h, List.map_map]
  rfl

-- Two options or more stand in parentheses, whatever is beside them.
private theorem exists_render_group (c : Conjunction) (h : ∀ o ∈ options, o.isApplicable = true)
    (hmany : 1 < options.length) (beside : Bool) :
    ∃ b, (Expr.group c (options.map KeywordOption.toExpr)).render beside =
      "(" ++ join c.separator (options.map fun o ↦ o.toExpr.render b) ++ ")" := by
  rw [Expr.render, renderMembers_options h]
  match options, hmany with
  | first :: second :: rest, _ => exact ⟨_, rfl⟩

private theorem joined_of_one_lt (c : Conjunction) {comparisons : List String}
    (h : 1 < comparisons.length) :
    joined c comparisons = "(" ++ String.intercalate c.separator comparisons ++ ")" := by
  match comparisons, h with
  | first :: second :: rest, _ => rfl

/-! ### Groups -/

variable {g : KeywordGroup} {e : Expr}

/-- The options of a group that take part, in their order. -/
def applicable (g : KeywordGroup) : List KeywordOption :=
  g.options.filter KeywordOption.isApplicable

/-- A group has no filter exactly when none of its options takes part. -/
theorem compile_eq_none_iff : g.compile = none ↔ g.applicable = [] := by
  rw [compile, ← applicable]
  cases hoptions : g.applicable with
  | nil => simp
  | cons first rest => cases rest <;> simp

/-- Every option that takes part does so. -/
theorem forall_applicable (g : KeywordGroup) : ∀ o ∈ g.applicable, o.isApplicable = true :=
  fun _ ho ↦ (List.mem_filter.1 ho).2

private theorem isEmpty_group (c : Conjunction) {first : KeywordOption}
    (h : first.isApplicable = true) (rest : List Expr) :
    (Expr.group c (first.toExpr :: rest)).isEmpty = false := by
  rw [Expr.isEmpty, Expr.allEmpty, KeywordOption.isEmpty_toExpr h, Bool.false_and]

/-- The filter of a group writes something. -/
theorem isEmpty_of_compile (h : g.compile = some e) : e.isEmpty = false := by
  have happlicable := g.forall_applicable
  rw [compile, ← applicable] at h
  match hoptions : g.applicable with
  | [] =>
    rw [hoptions] at h
    cases h
  | [only] =>
    rw [hoptions] at h happlicable
    cases h
    exact KeywordOption.isEmpty_toExpr (happlicable only (by simp))
  | first :: second :: rest =>
    rw [hoptions] at h happlicable
    cases h
    exact isEmpty_group g.conjunction (happlicable first (by simp)) _

private theorem writesKeywords_single (c : Conjunction) {only : KeywordOption}
    (h : only.isApplicable = true) : only.toExpr.WritesKeywords c [only] where
  sql := fun beside ↦ (only.render_toExpr beside).1
  args := fun beside ↦ (only.render_toExpr beside).2
  numbered := fun beside head rest hhead ↦
    (only.spans_toExpr h head.isQuote_openQuote head.marks beside).toPostgres hhead rest

private theorem writesKeywords_group (c : Conjunction) (h : ∀ o ∈ options, o.isApplicable = true)
    (hmany : 1 < options.length) :
    (Expr.group c (options.map KeywordOption.toExpr)).WritesKeywords c options where
  sql := by
    intro beside
    obtain ⟨b, hrender⟩ := exists_render_group c h hmany beside
    have hcomparisons : (options.map fun o ↦ o.toExpr.render b).map sql =
        options.map fun o ↦ o.comparison "" "?" := by
      rw [List.map_map]
      exact List.map_congr_left fun o _ ↦ (o.render_toExpr b).1
    rw [hrender, joined_of_one_lt c (by simpa using hmany), ← hcomparisons, ← sql_join]
    simp
  args := by
    intro beside
    obtain ⟨b, hrender⟩ := exists_render_group c h hmany beside
    have hargs : (options.map fun o ↦ o.toExpr.render b).flatMap args =
        options.map KeywordOption.argument := by
      simp only [List.flatMap_map, (KeywordOption.render_toExpr _ b).2, ← List.map_eq_flatMap]
    rw [hrender, ← hargs, ← args_join c.separator]
    simp
  numbered := by
    intro beside head rest hhead
    obtain ⟨b, hrender⟩ := exists_render_group c h hmany beside
    have hquote := head.isQuote_openQuote
    have hopening : IsInert "(".toList := by decide
    have hclosing : IsInert ")".toList := by decide
    have hjoin := spans_join c h hquote (k := head.marks + 1) (fun _ ↦ rfl) b
    rw [joined_of_one_lt c (by simpa [numberedFrom] using hmany), hrender]
    exact ((hjoin.text_append hopening hquote).append_text hclosing hquote).toPostgres hhead rest

/-- The filter of a group writes the comparisons of those options of the group that take part. -/
theorem writesKeywords_of_compile (h : g.compile = some e) :
    e.WritesKeywords g.conjunction g.applicable := by
  have happlicable := g.forall_applicable
  rw [compile, ← applicable] at h
  match hoptions : g.applicable with
  | [] =>
    rw [hoptions] at h
    cases h
  | [only] =>
    rw [hoptions] at h happlicable
    cases h
    exact writesKeywords_single g.conjunction (happlicable only (by simp))
  | first :: second :: rest =>
    rw [hoptions] at h happlicable
    cases h
    exact writesKeywords_group g.conjunction happlicable (by simp)

end KeywordGroup

end RecordStore
