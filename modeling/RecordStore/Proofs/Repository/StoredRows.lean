import RecordStore.Proofs.Repository.Operations

/-!
# Rows as they were stored

An insertion splits its rows into those with an assigned primary key and those without, and each
part gets its own reply. Weaving the replies together again is the inverse of that split: it gives
every input the stored row that stands in the reply of its part where the input stands in the part.
-/

namespace RecordStore

/-! ### Weaving -/

section Weaving

variable {β γ : Type}

/-- Two lists woven into one by a test of the inputs: an input that passes takes the next item of
the first list, another one that of the second list. -/
inductive Woven (p : β → Bool) : List β → List γ → List γ → List γ → Prop
  | nil : Woven p [] [] [] []
  | first {x : β} {xs : List β} {item : γ} {ones others woven : List γ} (hx : p x = true)
      (hrest : Woven p xs ones others woven) :
      Woven p (x :: xs) (item :: ones) others (item :: woven)
  | second {x : β} {xs : List β} {item : γ} {ones others woven : List γ} (hx : p x = false)
      (hrest : Woven p xs ones others woven) :
      Woven p (x :: xs) ones (item :: others) (item :: woven)

variable {p : β → Bool} {xs : List β} {ones others woven : List γ}

namespace Woven

/-- Lists can be woven when each has one item for each input that takes from it. -/
theorem exists_of_length (hones : ones.length = (xs.filter p).length)
    (hothers : others.length = (xs.filter (!p ·)).length) :
    ∃ woven, Woven p xs ones others woven := by
  induction xs generalizing ones others with
  | nil =>
    obtain rfl := List.eq_nil_of_length_eq_zero hones
    obtain rfl := List.eq_nil_of_length_eq_zero hothers
    exact ⟨[], .nil⟩
  | cons x rest ih =>
    rw [List.filter_cons] at hones hothers
    cases hx : p x with
    | true =>
      simp only [hx, Bool.not_true, Bool.false_eq_true, ↓reduceIte] at hones hothers
      cases ones with
      | nil => cases hones
      | cons item ones =>
        obtain ⟨woven, hwoven⟩ := ih (Nat.succ.inj hones) hothers
        exact ⟨item :: woven, .first hx hwoven⟩
    | false =>
      simp only [hx, Bool.not_false, Bool.false_eq_true, ↓reduceIte] at hones hothers
      cases others with
      | nil => cases hothers
      | cons item others =>
        obtain ⟨woven, hwoven⟩ := ih hones (Nat.succ.inj hothers)
        exact ⟨item :: woven, .second hx hwoven⟩

theorem length_eq (h : Woven p xs ones others woven) : woven.length = xs.length := by
  induction h with
  | nil => rfl
  | first hx hrest ih => exact congrArg Nat.succ ih
  | second hx hrest ih => exact congrArg Nat.succ ih

/-- Each item of the two lists is woven once. -/
theorem perm (h : Woven p xs ones others woven) : woven.Perm (ones ++ others) := by
  induction h with
  | nil => exact .nil
  | first hx hrest ih => exact ih.cons _
  | second hx hrest ih => exact (ih.cons _).trans List.perm_middle.symm

/-- An input takes the item that stands in its list where the input stands among those that take
from that list. -/
theorem getElem?_eq (h : Woven p xs ones others woven) {i : Nat} {x : β} (hx : xs[i]? = some x) :
    woven[i]? = (if p x then ones else others)[(xs.take i).countP (p · == p x)]? := by
  induction h generalizing i with
  | nil => cases hx
  | @first head rest item ones others woven hhead hrest ih =>
    cases i with
    | zero =>
      cases hx
      simp [hhead]
    | succ i =>
      rw [List.getElem?_cons_succ, ih hx, List.take_succ_cons, List.countP_cons, hhead]
      cases p x <;> rfl
  | @second head rest item ones others woven hhead hrest ih =>
    cases i with
    | zero =>
      cases hx
      simp [hhead]
    | succ i =>
      rw [List.getElem?_cons_succ, ih hx, List.take_succ_cons, List.countP_cons, hhead]
      cases p x <;> rfl

end Woven

-- The inputs that pass a test, with their places.
private def group (p : β → Bool) (xs : List β) (n : Nat) : List (β × Nat) :=
  (xs.zipIdx n).filter fun x ↦ p x.1

-- The items of one list with the places of the inputs that take from it.
private def placed (p : β → Bool) (xs : List β) (n : Nat) (items : List γ) : List (Nat × γ) :=
  ((group p xs n).map (·.2)).zip items

private theorem map_fst_group (p : β → Bool) (xs : List β) (n : Nat) :
    (group p xs n).map (·.1) = xs.filter p := by
  have hfilter := List.filter_map (p := p) (f := Prod.fst) (l := xs.zipIdx n)
  rw [List.zipIdx_map_fst] at hfilter
  exact hfilter.symm

private theorem length_group (p : β → Bool) (xs : List β) (n : Nat) :
    (group p xs n).length = (xs.filter p).length := by
  rw [← map_fst_group, List.length_map]

private theorem map_snd_placed (p : β → Bool) (xs : List β) (n : Nat) (items : List γ) :
    (placed p xs n items).map (·.2) = items.take (xs.filter p).length := by
  have hzip : ∀ (places : List Nat) (items : List γ),
      (places.zip items).map (·.2) = items.take places.length := by
    intro places items
    induction places generalizing items with
    | nil => rfl
    | cons place rest ih =>
      cases items with
      | nil => rfl
      | cons item items => exact congrArg (item :: ·) (ih items)
  rw [placed, hzip, List.length_map, length_group]

private theorem placed_cons_of_pos {x : β} (hx : p x = true) (n : Nat) (item : γ)
    (items : List γ) :
    placed p (x :: xs) n (item :: items) = (n, item) :: placed p xs (n + 1) items := by
  simp only [placed, group, List.zipIdx_cons, List.filter_cons, hx, ↓reduceIte, List.map_cons,
    List.zip_cons_cons]

private theorem placed_cons_of_neg {x : β} (hx : p x = false) (n : Nat) (items : List γ) :
    placed p (x :: xs) n items = placed p xs (n + 1) items := by
  simp only [placed, group, List.zipIdx_cons, List.filter_cons, hx, Bool.false_eq_true, ↓reduceIte]

-- By induction on the inputs: each one puts its place and its item in front.
private theorem Woven.placed_perm (h : Woven p xs ones others woven) (n : Nat) :
    (placed p xs n ones ++ placed (!p ·) xs n others).Perm
      ((List.range' n xs.length).zip woven) := by
  induction h generalizing n with
  | nil => exact .nil
  | @first head rest item ones others woven hhead hrest ih =>
    have hother : (!p head) = false := by rw [hhead]; rfl
    rw [placed_cons_of_pos hhead, placed_cons_of_neg (p := (!p ·)) hother]
    exact (ih (n + 1)).cons (n, item)
  | @second head rest item ones others woven hhead hrest ih =>
    have hother : (!p head) = true := by rw [hhead]; rfl
    rw [placed_cons_of_neg hhead, placed_cons_of_pos (p := (!p ·)) hother]
    exact List.perm_middle.trans ((ih (n + 1)).cons (n, item))

-- Where places increase, an item is told by its place.
private theorem eq_of_place_eq {items : List (Nat × γ)}
    (h : items.Pairwise fun a b ↦ a.1 < b.1) {a b : Nat × γ} (ha : a ∈ items) (hb : b ∈ items)
    (hplace : a.1 = b.1) : a = b := by
  obtain ⟨i, hi, rfl⟩ := List.getElem_of_mem ha
  obtain ⟨j, hj, rfl⟩ := List.getElem_of_mem hb
  rw [List.pairwise_iff_getElem] at h
  rcases Nat.lt_trichotomy i j with hlt | rfl | hgt
  · exact absurd hplace (Nat.ne_of_lt (h i j hi hj hlt))
  · rfl
  · exact absurd hplace.symm (Nat.ne_of_lt (h j i hj hi hgt))

/-- Sorting the items by the places of their inputs weaves them. -/
theorem Woven.mergeSort_eq (h : Woven p xs ones others woven) :
    ((placed p xs 0 ones ++ placed (!p ·) xs 0 others).mergeSort fun a b ↦ a.1 ≤ b.1).map (·.2) =
      woven := by
  have hlength : (List.range' 0 xs.length).length = woven.length := by
    rw [List.length_range', h.length_eq]
  have hplaces : ((List.range' 0 xs.length).zip woven).Pairwise fun a b ↦ a.1 < b.1 := by
    apply List.pairwise_map.1
    rw [List.map_fst_zip (Nat.le_of_eq hlength)]
    exact List.pairwise_lt_range' 1
  have hsorted : (placed p xs 0 ones ++ placed (!p ·) xs 0 others).mergeSort
      (fun a b ↦ a.1 ≤ b.1) = (List.range' 0 xs.length).zip woven := by
    have hperm := (List.mergeSort_perm (placed p xs 0 ones ++ placed (!p ·) xs 0 others)
      fun a b ↦ a.1 ≤ b.1).trans (h.placed_perm 0)
    refine List.Perm.eq_of_pairwise ?_ (List.pairwise_mergeSort ?_ ?_ _) ?_ hperm
    · intro a b ha hb hab hba
      rw [decide_eq_true_iff] at hab hba
      exact eq_of_place_eq hplaces (hperm.mem_iff.1 ha) hb (Nat.le_antisymm hab hba)
    · intro a b c hab hbc
      rw [decide_eq_true_iff] at *
      exact Nat.le_trans hab hbc
    · intro a b
      rw [Bool.or_eq_true, decide_eq_true_iff, decide_eq_true_iff]
      exact Nat.le_total a.1 b.1
    · exact hplaces.imp fun hlt ↦ decide_eq_true (Nat.le_of_lt hlt)
  rw [hsorted, List.map_snd_zip (Nat.le_of_eq hlength.symm)]

end Weaving

/-! ### Insertions -/

namespace Repository

variable {α : Type}

/-- What the insertion of one group of rows gives back and which statements it executes: none
without rows, and else one, whose reply is read row by row. -/
inductive Inserted (r : Repository α) (q : Query) (session : Session) :
    List Fields → List α → List Statement → Prop
  | nothing : Inserted r q session [] [] []
  | answered {group : List Fields} {s : Statement} {found : List Row} {stored : List α}
      (hgroup : group ≠ []) (hs : q.insertStatement group = .ok s)
      (hfound : (session.answer 0).toRows = .ok found)
      (hstored : found.mapM r.model.ofRow = .ok stored) : Inserted r q session group stored [s]

/-- An insertion that the store answers in full: its rows as fields, and for those with an assigned
primary key and those without what is given back and what is executed. -/
structure Insertion (r : Repository α) (q : Query) (values : List α) (session : Session) where
  rows : List Fields
  keyed : List α
  fresh : List α
  keyedSent : List Statement
  freshSent : List Statement
  fields : values.mapM r.model.fields = .ok rows
  insertsKeyed : r.Inserted q session (rows.filter (isKeyed q.primaryKey)) keyed keyedSent
  insertsFresh : r.Inserted q (session.after keyedSent [])
    (rows.filter (!isKeyed q.primaryKey ·)) fresh freshSent

namespace Insertion

variable {r : Repository α} {q : Query} {values : List α} {session : Session}

/-- The session after an insertion. -/
def later (ins : Insertion r q values session) : Session :=
  session.after (ins.keyedSent ++ ins.freshSent) []

/-- Whether each statement gave back as many rows as it was given. -/
def Complete (ins : Insertion r q values session) : Prop :=
  ins.keyed.length = (ins.rows.filter (isKeyed q.primaryKey)).length ∧
    ins.fresh.length = (ins.rows.filter (!isKeyed q.primaryKey ·)).length

/-- Rows as they are given back. When the insertion is complete there is one for each input: the
stored row that stands in the reply to the input's statement where the input stands among the rows
of that statement. Else they are the rows of the two replies, each cut to the rows of its statement.
-/
structure GivesBack (ins : Insertion r q values session) (result : List α) : Prop where
  length : ins.Complete → result.length = values.length
  paired : ins.Complete → ∀ i row, ins.rows[i]? = some row →
    let keyed := isKeyed q.primaryKey row
    let j := (ins.rows.take i).countP (isKeyed q.primaryKey · == keyed)
    (ins.rows.filter (isKeyed q.primaryKey · == keyed))[j]? = some row ∧
      result[i]? = (if keyed then ins.keyed else ins.fresh)[j]?
  /-- Each stored row once. -/
  perm : ins.Complete → result.Perm (ins.keyed ++ ins.fresh)
  cut : ¬ins.Complete → result =
    ins.keyed.take (ins.rows.filter (isKeyed q.primaryKey)).length ++
      ins.fresh.take (ins.rows.filter (!isKeyed q.primaryKey ·)).length

end Insertion

variable (r : Repository α) (q : Query)

theorem runIn_insertGroup_nil (session : Session) :
    (r.insertGroup q []).runIn session = (.ok .none, session) := rfl

/-- A group that has rows is inserted by one statement, unless that is refused. -/
theorem runIn_insertGroup {rows : List (Fields × Nat)} (hne : rows ≠ [])
    (session : Session) :
    (r.insertGroup q rows).runIn session =
      match q.insertStatement (rows.map (·.1)) with
      | .error refusal => (r.context.require (.error refusal)).runIn session
      | .ok s =>
        match (session.answer 0).decodeAll r.model.ofRow with
        | .ok stored =>
          (.ok ⟨(rows.map (·.2)).zip stored, stored.length = rows.length⟩, session.after [s] [])
        | .error e =>
          (.error (.ofStore e), session.after [s] [r.context.event (.ofStore e)]) := by
  rw [insertGroup, List.isEmpty_eq_false_iff.2 hne]
  simp only [Bool.false_eq_true, ↓reduceIte]
  cases q.insertStatement (rows.map (·.1)) with
  | error refusal => rfl
  | ok s =>
    change (r.context.database (Store.fetchAll r.model.ofRow s) >>= _).runIn session = _
    rw [Action.runIn_bind, Context.database, Context.runIn_report, Store.asks_fetchAll s _ session]
    cases (session.answer 0).decodeAll r.model.ofRow with
    | ok stored => rfl
    | error e => simp [Session.afterLogging_eq]

-- A group whose statement is answered in full is given back with the places of its rows.
private theorem runIn_insertGroup_of_inserted {rows : List (Fields × Nat)} {session : Session}
    {stored : List α} {sent : List Statement}
    (h : r.Inserted q session (rows.map (·.1)) stored sent) :
    (r.insertGroup q rows).runIn session =
      (.ok ⟨(rows.map (·.2)).zip stored, stored.length = rows.length⟩, session.after sent []) := by
  generalize hgroup : rows.map (·.1) = group at h
  cases h with
  | nothing =>
    obtain rfl := List.map_eq_nil_iff.1 hgroup
    rw [runIn_insertGroup_nil, Session.after_nil]
    rfl
  | answered hne hs hfound hstored =>
    have hrows : rows ≠ [] := by
      rintro rfl
      exact hne hgroup.symm
    have hdecode : (session.answer 0).decodeAll r.model.ofRow = .ok stored :=
      (Reply.decodeAll_eq_ok_iff _ _).2 ⟨_, hfound, hstored⟩
    rw [runIn_insertGroup r q hrows, hgroup, hs]
    dsimp only
    rw [hdecode]

/-- A group is given back only when its statement is answered in full. -/
theorem exists_inserted {rows : List (Fields × Nat)} {session later : Session}
    {result : Stored α} (h : (r.insertGroup q rows).runIn session = (.ok result, later)) :
    ∃ stored sent, r.Inserted q session (rows.map (·.1)) stored sent ∧
      later = session.after sent [] := by
  cases rows with
  | nil =>
    cases h
    exact ⟨[], [], .nothing, session.after_nil.symm⟩
  | cons row rest =>
    rw [runIn_insertGroup r q (List.cons_ne_nil row rest)] at h
    cases hs : q.insertStatement ((row :: rest).map (·.1)) with
    | error refusal =>
      rw [hs] at h
      cases h
    | ok s =>
      rw [hs] at h
      dsimp only at h
      cases hdecode : (session.answer 0).decodeAll r.model.ofRow with
      | error e =>
        rw [hdecode] at h
        cases h
      | ok stored =>
        rw [hdecode] at h
        cases h
        obtain ⟨found, hfound, hstored⟩ := (Reply.decodeAll_eq_ok_iff _ _).1 hdecode
        exact ⟨stored, [s], .answered nofun hs hfound hstored, rfl⟩

/-- An insertion inserts two groups of rows one after the other; without values both are empty. -/
theorem insert_eq (values : List α) :
    r.insert q values = (do
      let rows ← r.context.require (values.mapM r.model.fields)
      let first ← r.insertGroup q (partitionByKey q.primaryKey rows).1
      let second ← r.insertGroup q (partitionByKey q.primaryKey rows).2
      return (first.append second).inOrder) := by
  cases values with
  | nil =>
    have hnone : (Stored.none.append .none : Stored α).inOrder = [] := by
      rw [Stored.inOrder]
      split <;> simp [Stored.append, Stored.none]
    change Pure.pure [] = Pure.pure (Stored.none.append .none : Stored α).inOrder
    rw [hnone]
  | cons x rest => rfl

private theorem partitionByKey_eq (primaryKey : String) (rows : List Fields) :
    partitionByKey primaryKey rows =
      (group (isKeyed primaryKey) rows 0, group (!isKeyed primaryKey ·) rows 0) := by
  rw [partitionByKey, List.partition_eq_filter_filter]
  rfl

/-- The rows of the first group are those with an assigned primary key. -/
theorem map_partitionByKey_fst (primaryKey : String) (rows : List Fields) :
    (partitionByKey primaryKey rows).1.map (·.1) = rows.filter (isKeyed primaryKey) := by
  rw [partitionByKey_eq, map_fst_group]

/-- The rows of the second group are those without an assigned primary key. -/
theorem map_partitionByKey_snd (primaryKey : String) (rows : List Fields) :
    (partitionByKey primaryKey rows).2.map (·.1) = rows.filter (!isKeyed primaryKey ·) := by
  rw [partitionByKey_eq, map_fst_group]

namespace Insertion

variable {r : Repository α} {q : Query} {values : List α} {session : Session}

/-- The rows of the two replies with the places of their inputs. -/
def stored (ins : Insertion r q values session) : Stored α :=
  Stored.append
    ⟨placed (isKeyed q.primaryKey) ins.rows 0 ins.keyed,
      ins.keyed.length = (ins.rows.filter (isKeyed q.primaryKey)).length⟩
    ⟨placed (!isKeyed q.primaryKey ·) ins.rows 0 ins.fresh,
      ins.fresh.length = (ins.rows.filter (!isKeyed q.primaryKey ·)).length⟩

/-- An insertion that is answered in full gives back the rows of the replies, in order. -/
theorem runIn_insert (ins : Insertion r q values session) :
    (r.insert q values).runIn session = (.ok ins.stored.inOrder, ins.later) := by
  have hkeyed := ins.insertsKeyed
  have hfresh := ins.insertsFresh
  rw [← map_fst_group _ _ 0] at hkeyed hfresh
  rw [insert_eq, Action.runIn_bind, ins.fields]
  simp only [Context.require, Action.runIn_pure, partitionByKey_eq]
  rw [Action.runIn_bind, runIn_insertGroup_of_inserted r q hkeyed]
  dsimp only
  rw [Action.runIn_bind, runIn_insertGroup_of_inserted r q hfresh]
  simp only [Action.runIn_pure, Session.after_after, List.append_nil, length_group]
  rfl

/-- Values are given back only when their insertion is answered in full. -/
theorem exists_of_runIn_insert {later : Session} {result : List α}
    (h : (r.insert q values).runIn session = (.ok result, later)) :
    ∃ ins : Insertion r q values session, later = ins.later ∧ result = ins.stored.inOrder := by
  have hrun := h
  rw [insert_eq] at hrun
  obtain ⟨rows, _, hrows, hgroups⟩ := Action.exists_of_runIn_bind hrun
  obtain ⟨hfields, rfl⟩ := Context.eq_of_runIn_require hrows
  obtain ⟨first, _, hfirst, hrest⟩ := Action.exists_of_runIn_bind hgroups
  obtain ⟨second, _, hsecond, -⟩ := Action.exists_of_runIn_bind hrest
  obtain ⟨keyed, keyedSent, hkeyed, rfl⟩ := exists_inserted r q hfirst
  obtain ⟨fresh, freshSent, hfresh, rfl⟩ := exists_inserted r q hsecond
  rw [map_partitionByKey_fst] at hkeyed
  rw [map_partitionByKey_snd] at hfresh
  let ins : Insertion r q values _ :=
    ⟨rows, keyed, fresh, keyedSent, freshSent, hfields, hkeyed, hfresh⟩
  rw [ins.runIn_insert] at h
  cases h
  exact ⟨ins, rfl, rfl⟩

-- In a complete insertion the stored rows are woven.
private theorem inOrder_of_woven (ins : Insertion r q values session) (hcomplete : ins.Complete)
    {woven : List α}
    (hwoven : Woven (isKeyed q.primaryKey) ins.rows ins.keyed ins.fresh woven) :
    ins.stored.inOrder = woven := by
  rw [Stored.inOrder, if_pos]
  · exact hwoven.mergeSort_eq
  · rw [stored, Stored.append, Bool.and_eq_true, decide_eq_true_iff, decide_eq_true_iff]
    exact hcomplete

-- An input stands in its group after the earlier inputs of the group.
private theorem getElem?_filter {β : Type} {p : β → Bool} {xs : List β} {i : Nat} {x : β}
    (hx : xs[i]? = some x) (hp : p x = true) :
    (xs.filter p)[(xs.take i).countP p]? = some x := by
  induction xs generalizing i with
  | nil => cases hx
  | cons first rest ih =>
    cases i with
    | zero =>
      cases hx
      simp [hp]
    | succ i =>
      rw [List.take_succ_cons, List.countP_cons, List.filter_cons]
      cases hfirst : p first with
      | true => exact ih hx
      | false => exact ih hx

/-- What an insertion gives back is paired with its inputs when each has a row. -/
theorem givesBack (ins : Insertion r q values session) : ins.GivesBack ins.stored.inOrder where
  length := by
    intro hcomplete
    obtain ⟨woven, hwoven⟩ := Woven.exists_of_length hcomplete.1 hcomplete.2
    have hfields := forall₂_of_mapM_eq_ok ins.fields
    rw [ins.inOrder_of_woven hcomplete hwoven, hwoven.length_eq, hfields.length_eq]
  paired := by
    intro hcomplete i row hrow
    obtain ⟨woven, hwoven⟩ := Woven.exists_of_length hcomplete.1 hcomplete.2
    rw [ins.inOrder_of_woven hcomplete hwoven]
    exact ⟨getElem?_filter hrow (beq_self_eq_true _), hwoven.getElem?_eq hrow⟩
  perm := by
    intro hcomplete
    obtain ⟨woven, hwoven⟩ := Woven.exists_of_length hcomplete.1 hcomplete.2
    rw [ins.inOrder_of_woven hcomplete hwoven]
    exact hwoven.perm
  cut := by
    intro hincomplete
    rw [Stored.inOrder, if_neg, stored, Stored.append, List.map_append, map_snd_placed,
      map_snd_placed]
    rw [stored, Stored.append, Bool.and_eq_true, decide_eq_true_iff, decide_eq_true_iff]
    exact hincomplete

end Insertion

/-- The rows that an insertion stores are paired with its inputs. It succeeds when the store answers
it in full, and only then. -/
structure StoresPaired (r : Repository α) (q : Query) (values : List α) (session : Session)
    (action : Action RepositoryError (List α)) : Prop where
  stores : ∀ ins : Insertion r q values session, ∃ result,
    action.runIn session = (.ok result, ins.later) ∧ ins.GivesBack result
  stored : ∀ result later, action.runIn session = (.ok result, later) →
    ∃ ins : Insertion r q values session, later = ins.later ∧ ins.GivesBack result

theorem insert_storesPaired (values : List α) (session : Session) :
    r.StoresPaired q values session (r.insert q values) where
  stores := fun ins ↦ ⟨_, ins.runIn_insert, ins.givesBack⟩
  stored := by
    intro result later h
    obtain ⟨ins, hlater, rfl⟩ := Insertion.exists_of_runIn_insert h
    exact ⟨ins, hlater, ins.givesBack⟩

/-- Creating and saving give back stored rows paired with their inputs, as long as each statement is
answered with as many rows as it was given; else they give back the rows of the two replies, each
cut to the rows of its statement. -/
theorem stored_rows_paired (r : Repository α) (values : List α) (session : Session) :
    r.StoresPaired r.query values session (r.create values) ∧
      r.StoresPaired (r.query.clause .onConflictUpdateAll) values session (r.save values) :=
  ⟨r.insert_storesPaired r.query values session, r.insert_storesPaired _ values session⟩

/-- Products with and without a key, mixed: each is given back as it was stored. -/
theorem stored_rows_paired_products :
    let product (id price : Int) : Fields :=
      .ofList [("id", .int id), ("price", .int price), ("deleted_at", .null)]
    let values := [product 0 1, product 7 2, product 0 3]
    let session : Session := ⟨[.rows [product 7 2], .rows [product 1 1, product 2 3]], [], []⟩
    ∃ later, (ofProducts.save values).runIn session =
      (.ok [product 1 1, product 7 2, product 2 3], later) := by
  intro product values session
  obtain ⟨s, hs⟩ : ∃ s, (ofProducts.query.clause .onConflictUpdateAll).insertStatement
      [product 7 2] = .ok s := ⟨_, rfl⟩
  obtain ⟨t, ht⟩ : ∃ t, (ofProducts.query.clause .onConflictUpdateAll).insertStatement
      [product 0 1, product 0 3] = .ok t := ⟨_, rfl⟩
  let ins : Insertion ofProducts (ofProducts.query.clause .onConflictUpdateAll) values session :=
    { rows := values
      keyed := [product 7 2]
      fresh := [product 1 1, product 2 3]
      keyedSent := [s]
      freshSent := [t]
      fields := rfl
      insertsKeyed := .answered nofun hs rfl rfl
      insertsFresh := .answered nofun ht rfl rfl }
  have hcomplete : ins.Complete := ⟨rfl, rfl⟩
  obtain ⟨result, hrun, hback⟩ :=
    (stored_rows_paired ofProducts values session).2.stores ins
  have hlength : result.length = 3 := hback.length hcomplete
  have hresult : result = [product 1 1, product 7 2, product 2 3] := by
    apply List.ext_getElem?
    intro i
    match i with
    | 0 => exact (hback.paired hcomplete 0 _ rfl).2
    | 1 => exact (hback.paired hcomplete 1 _ rfl).2
    | 2 => exact (hback.paired hcomplete 2 _ rfl).2
    | n + 3 => exact List.getElem?_eq_none (by omega)
  rw [hresult] at hrun
  exact ⟨_, hrun⟩

end Repository

end RecordStore
