import Mathlib.Data.List.Forall2
import RecordStore.Sql.Expr

/-!
# Alternatives and their operands

`AND` binds tighter than `OR`: in a list with keywords `OR` parts the alternatives and, within each,
`AND` parts the operands. Two lists with `OR` between them keep their alternatives; with `AND`
between them the last alternative of the first goes on with the first alternative of the second.
-/

namespace RecordStore.Reading

variable {β γ : Type}

/-- The alternatives of a list, each as its operands: `OR` parts alternatives, `AND` operands. -/
def operands (isConnective : Conjunction → β → Bool) : List β → List (List (List β))
  | [] => [[[]]]
  | b :: rest =>
    if isConnective .or b then [[]] :: operands isConnective rest
    else if isConnective .and b then (operands isConnective rest).modifyHead ([] :: ·)
    else (operands isConnective rest).modifyHead fun operand ↦ operand.modifyHead (b :: ·)

/-- Two lists of alternatives under `AND`: the last alternative of the first list goes on with the
first alternative of the second, as the operator that binds tighter. -/
def under : List (List γ) → List (List γ) → List (List γ)
  | [], second => second
  | [last], [] => [last]
  | [last], next :: second => (last ++ next) :: second
  | first :: next :: rest, second => first :: under (next :: rest) second

variable {isConnective : Conjunction → β → Bool}

/-- There is an alternative, and every alternative has an operand. -/
theorem operands_ne_nil (isConnective : Conjunction → β → Bool) (bs : List β) :
    operands isConnective bs ≠ [] ∧ ∀ clause ∈ operands isConnective bs, clause ≠ [] := by
  induction bs with
  | nil => simp [operands]
  | cons b rest ih =>
    obtain ⟨first, others, hrest⟩ := List.exists_cons_of_ne_nil ih.1
    rw [hrest] at ih
    simp only [operands, hrest]
    split
    · simpa using ih.2
    · split
      · simpa using (List.forall_mem_cons.1 ih.2).2
      · obtain ⟨operand, more, rfl⟩ := List.exists_cons_of_ne_nil (ih.2 first (by simp))
        simpa using ih.2

/-- The operands hold everything but the keywords, in order. -/
theorem flatten_operands (bs : List β) :
    (operands isConnective bs).flatten.flatten =
      bs.filter fun b ↦ !isConnective .or b && !isConnective .and b := by
  induction bs with
  | nil => rfl
  | cons b rest ih =>
    have hne := operands_ne_nil isConnective rest
    obtain ⟨first, others, hrest⟩ := List.exists_cons_of_ne_nil hne.1
    obtain ⟨operand, more, rfl⟩ := List.exists_cons_of_ne_nil (hne.2 first (by simp [hrest]))
    rw [hrest] at ih
    rw [operands, List.filter_cons, ← ih, hrest]
    split
    · next hor => simp [hor]
    · next hor =>
      split
      · next hand => simp [hand]
      · next hand => simp [hor, hand]

/-- What stands in an operand stands in the list. -/
theorem mem_of_mem_operands {bs operand : List β} {clause : List (List β)}
    (hclause : clause ∈ operands isConnective bs) (hoperand : operand ∈ clause) {b : β}
    (hb : b ∈ operand) : b ∈ bs := by
  have hflat : b ∈ (operands isConnective bs).flatten.flatten :=
    List.mem_flatten.2 ⟨operand, List.mem_flatten.2 ⟨clause, hclause, hoperand⟩, hb⟩
  rw [flatten_operands] at hflat
  exact (List.mem_filter.1 hflat).1

/-- A list without keywords is one operand. -/
theorem operands_of_forall_not {bs : List β} (h : ∀ b ∈ bs, ∀ c, isConnective c b = false) :
    operands isConnective bs = [[bs]] := by
  induction bs with
  | nil => rfl
  | cons b rest ih =>
    rw [List.forall_mem_cons] at h
    simp [operands, h.1, ih h.2]

-- What is done to the first alternative of the first list is done to the first of both.
private theorem under_modifyHead {first : List (List γ)} (second : List (List γ))
    {f : List γ → List γ} (hf : ∀ clause ∈ first, ∀ next, f clause ++ next = f (clause ++ next))
    (hne : first ≠ []) :
    under (first.modifyHead f) second = (under first second).modifyHead f := by
  obtain ⟨clause, rest, rfl⟩ := List.exists_cons_of_ne_nil hne
  cases rest with
  | nil =>
    cases second with
    | nil => rfl
    | cons next second => simp [under, hf]
  | cons next rest => rfl

/-- Lists with `AND` between them go on in the same alternative. -/
theorem operands_append_and (as : List β) {b : β} (hor : isConnective .or b = false)
    (hand : isConnective .and b = true) (bs : List β) :
    operands isConnective (as ++ b :: bs) =
      under (operands isConnective as) (operands isConnective bs) := by
  induction as with
  | nil =>
    obtain ⟨first, rest, hbs⟩ :=
      List.exists_cons_of_ne_nil (operands_ne_nil isConnective bs).1
    simp [operands, hor, hand, hbs, under]
  | cons a rest ih =>
    have hne := operands_ne_nil isConnective rest
    simp only [List.cons_append, operands, ih]
    split
    · obtain ⟨first, others, hrest⟩ := List.exists_cons_of_ne_nil hne.1
      rw [hrest]
      rfl
    · split
      · rw [under_modifyHead _ (fun clause _ next ↦ rfl) hne.1]
      · refine (under_modifyHead _ (fun clause hclause next ↦ ?_) hne.1).symm
        obtain ⟨operand, more, rfl⟩ := List.exists_cons_of_ne_nil (hne.2 clause hclause)
        rfl

/-- Lists with `OR` between them have the alternatives of both. -/
theorem operands_append_or (as : List β) {b : β} (hor : isConnective .or b = true)
    (bs : List β) :
    operands isConnective (as ++ b :: bs) =
      operands isConnective as ++ operands isConnective bs := by
  induction as with
  | nil => simp [operands, hor]
  | cons a rest ih =>
    obtain ⟨first, others, hrest⟩ :=
      List.exists_cons_of_ne_nil (operands_ne_nil isConnective rest).1
    simp only [List.cons_append, operands, ih, hrest]
    split
    · rfl
    · split <;> rfl

/-- Related alternatives are related under `AND`. -/
theorem forall₂_under {δ : Type} {R : γ → δ → Prop} {as bs : List (List γ)} {cs ds : List (List δ)}
    (hac : List.Forall₂ (List.Forall₂ R) as cs) (hbd : List.Forall₂ (List.Forall₂ R) bs ds) :
    List.Forall₂ (List.Forall₂ R) (under as bs) (under cs ds) := by
  induction hac with
  | nil => exact hbd
  | cons hhead htail ih =>
    cases htail with
    | nil =>
      cases hbd with
      | nil => exact .cons hhead .nil
      | cons hnext hrest => exact .cons (List.rel_append hhead hnext) hrest
    | cons hsecond hrest => exact .cons hhead ih

/-- A function on the operands is carried through `AND`. -/
theorem under_map_map {δ : Type} (f : γ → δ) (as bs : List (List γ)) :
    under (as.map (List.map f)) (bs.map (List.map f)) = (under as bs).map (List.map f) := by
  induction as with
  | nil => rfl
  | cons first rest ih =>
    cases rest with
    | nil => cases bs <;> simp [under]
    | cons next rest => simpa [under] using ih

/-- Each element of a list has a value exactly when the list of values is related to it so. -/
theorem mapM_eq_some_iff {f : β → Option γ} {bs : List β} {cs : List γ} :
    bs.mapM f = some cs ↔ List.Forall₂ (fun b c ↦ f b = some c) bs cs := by
  induction bs generalizing cs with
  | nil => simp [eq_comm]
  | cons b rest ih =>
    rw [List.mapM_cons, List.forall₂_cons_left_iff]
    simp only [Option.bind_eq_bind, Option.bind_eq_some_iff, Option.pure_def, Option.some.injEq, ih]
    constructor
    · rintro ⟨c, hc, more, hmore, rfl⟩
      exact ⟨c, more, hc, hmore, rfl⟩
    · rintro ⟨c, more, hc, hmore, rfl⟩
      exact ⟨c, hc, more, hmore, rfl⟩

/-- Whatever is on the right of a relation of lists is related to something on the left. -/
theorem exists_mem_of_forall₂ {R : β → γ → Prop} {bs : List β} {cs : List γ}
    (h : List.Forall₂ R bs cs) {c : γ} (hc : c ∈ cs) : ∃ b ∈ bs, R b c := by
  induction h with
  | nil => simp at hc
  | @cons b d rest more hbd _ ih =>
    rcases List.mem_cons.1 hc with rfl | hc
    · exact ⟨b, by simp, hbd⟩
    · obtain ⟨b', hb', hR⟩ := ih hc
      exact ⟨b', by simp [hb'], hR⟩

/-- What `AND` brings together holds the operands of both, in order. -/
theorem flatten_under (as bs : List (List γ)) :
    (under as bs).flatten = as.flatten ++ bs.flatten := by
  induction as with
  | nil => rfl
  | cons first rest ih =>
    cases rest with
    | nil => cases bs <;> simp [under]
    | cons next rest => simp [under, ih]

/-- `AND` leaves one alternative less than there are in both lists. -/
theorem length_under {as bs : List (List γ)} (has : as ≠ []) (hbs : bs ≠ []) :
    (under as bs).length + 1 = as.length + bs.length := by
  induction as with
  | nil => exact absurd rfl has
  | cons first rest ih =>
    cases rest with
    | nil =>
      obtain ⟨next, second, rfl⟩ := List.exists_cons_of_ne_nil hbs
      simp only [under, List.length_cons, List.length_nil]
      omega
    | cons next rest =>
      have hrest := ih (by simp)
      simp only [under, List.length_cons] at hrest ⊢
      omega

/-- The alternatives of two lists under a conjunction. -/
def combine : Conjunction → List (List γ) → List (List γ) → List (List γ)
  | .and, first, second => under first second
  | .or, first, second => first ++ second

/-- The alternatives of several lists under a conjunction. -/
def combineAll (c : Conjunction) : List (List (List γ)) → List (List γ)
  | [] => []
  | [only] => only
  | first :: next :: rest => combine c first (combineAll c (next :: rest))

/-- Lists under a conjunction hold the operands of all, in order. -/
theorem flatten_combineAll (c : Conjunction) (lists : List (List (List γ))) :
    (combineAll c lists).flatten = lists.flatMap List.flatten := by
  induction lists with
  | nil => rfl
  | cons first rest ih =>
    cases rest with
    | nil => simp [combineAll]
    | cons next rest =>
      rw [combineAll, List.flatMap_cons, ← ih]
      cases c with
      | and => exact flatten_under _ _
      | or => exact List.flatten_append

/-- No list has more alternatives than there are under `AND` of it and others. -/
theorem length_le_combineAll_and {lists : List (List (List γ))} (hne : ∀ bs ∈ lists, bs ≠ [])
    {bs : List (List γ)} (hbs : bs ∈ lists) : bs.length ≤ (combineAll .and lists).length := by
  induction lists generalizing bs with
  | nil => simp at hbs
  | cons first rest ih =>
    rw [List.forall_mem_cons] at hne
    cases rest with
    | nil =>
      obtain rfl : bs = first := by simpa using hbs
      exact Nat.le_refl _
    | cons next rest =>
      have hnext := ih hne.2 (List.mem_cons_self (a := next) (l := rest))
      have hnext_pos := List.length_pos_iff.2 (hne.2 next (by simp))
      have hfirst_pos := List.length_pos_iff.2 hne.1
      have hrest_pos := Nat.lt_of_lt_of_le hnext_pos hnext
      have hlength := length_under hne.1 (List.length_pos_iff.1 hrest_pos)
      rw [combineAll, combine]
      rcases List.mem_cons.1 hbs with rfl | hbs
      · omega
      · have hrest := ih hne.2 hbs
        omega

/-- Lists of one alternative each make one alternative under `AND`. -/
theorem combineAll_and_singletons {clauses : List (List γ)} (hne : clauses ≠ []) :
    combineAll .and (clauses.map fun clause ↦ [clause]) = [clauses.flatten] := by
  induction clauses with
  | nil => exact absurd rfl hne
  | cons first rest ih =>
    cases rest with
    | nil => simp [combineAll]
    | cons next rest =>
      change combine .and [first] (combineAll .and ((next :: rest).map fun clause ↦ [clause])) = _
      rw [ih (by simp)]
      rfl

/-- Lists of one alternative each keep their alternatives under `OR`. -/
theorem combineAll_or_singletons (clauses : List (List γ)) :
    combineAll .or (clauses.map fun clause ↦ [clause]) = clauses := by
  induction clauses with
  | nil => rfl
  | cons first rest ih =>
    cases rest with
    | nil => rfl
    | cons next rest =>
      change combine .or [first] (combineAll .or ((next :: rest).map fun clause ↦ [clause])) = _
      rw [ih]
      rfl

end RecordStore.Reading
