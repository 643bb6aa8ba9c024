import Mathlib.Logic.Relation
import RecordStore.Proofs.Filter.Emptiness

/-!
# Pruned filters

Pruning takes out of a list of filters what writes nothing, at every depth, and puts the only member
of a group in the place of the group, until neither can be done. In whatever order this is done, it
ends in one form of the list. That form is written as the list is: the same text with parentheses
around the same hand-written SQL, the same arguments and the same places of casts.
-/

namespace RecordStore

namespace Expr

/-- One step of pruning, somewhere in a list of filters. -/
inductive PruneStep : List Expr → List Expr → Prop where
  /-- A filter that writes nothing is taken out. -/
  | drop {e : Expr} {rest : List Expr} (h : e.isEmpty = true) : PruneStep (e :: rest) rest
  /-- The only member of a group takes the place of the group. -/
  | unwrap {c : Conjunction} {only : Expr} {rest : List Expr} :
    PruneStep (.group c [only] :: rest) (only :: rest)
  /-- A step among the members of a group. -/
  | inside {c : Conjunction} {members members' rest : List Expr} (h : PruneStep members members') :
    PruneStep (.group c members :: rest) (.group c members' :: rest)
  /-- A step behind the first filter. -/
  | behind {e : Expr} {rest rest' : List Expr} (h : PruneStep rest rest') :
    PruneStep (e :: rest) (e :: rest')

/-- Filters that no step of pruning is left for. -/
def IsPruned (exprs : List Expr) : Prop := ∀ next, ¬PruneStep exprs next

/-- What steps of pruning, as many as there are, make of a list of filters. -/
def PrunesTo (exprs form : List Expr) : Prop :=
  Relation.ReflTransGen PruneStep exprs form ∧ IsPruned form

mutual

/-- A filter with its members pruned; a group that is left with one member is that member. -/
def prune : Expr → Expr
  | .raw sql args => .raw sql args
  | .compare column op arg => .compare column op arg
  | .group c members =>
    match pruneAll members with
    | [only] => only
    | parts => .group c parts

/-- The filters of a list that write something, each of them pruned. -/
def pruneAll : List Expr → List Expr
  | [] => []
  | e :: rest => if e.isEmpty then pruneAll rest else e.prune :: pruneAll rest

end

/-- Pruning a list prunes those of its filters that write something. -/
theorem pruneAll_eq_map (exprs : List Expr) : pruneAll exprs = (nonEmpty exprs).map prune := by
  induction exprs with
  | nil => simp [pruneAll, nonEmpty]
  | cons e rest ih => cases h : e.isEmpty <;> simp_all [pruneAll, nonEmpty]

/-- What writes nothing may be taken out before. -/
theorem pruneAll_nonEmpty (exprs : List Expr) : pruneAll (nonEmpty exprs) = pruneAll exprs := by
  rw [pruneAll_eq_map, pruneAll_eq_map, nonEmpty, nonEmpty, List.filter_filter]
  simp only [Bool.and_self]

/-- Two lists are pruned one after the other. -/
theorem pruneAll_append (a b : List Expr) : pruneAll (a ++ b) = pruneAll a ++ pruneAll b := by
  simp only [pruneAll_eq_map, nonEmpty, List.filter_append, List.map_append]

/-- Nothing is left of a list exactly when all of it writes nothing. -/
theorem pruneAll_eq_nil_iff (exprs : List Expr) : pruneAll exprs = [] ↔ allEmpty exprs = true := by
  rw [pruneAll_eq_map, List.map_eq_nil_iff, allEmpty_iff]

/-- A pruned group is its only member, or the group of what its members are pruned to. -/
theorem prune_group (c : Conjunction) (members : List Expr) :
    (∃ only, pruneAll members = [only] ∧ prune (.group c members) = only) ∨
      ((pruneAll members).length ≠ 1 ∧
        prune (.group c members) = .group c (pruneAll members)) := by
  rw [prune]
  split
  · next only honly => exact .inl ⟨only, honly, rfl⟩
  · next hmany =>
    refine .inr ⟨?_, rfl⟩
    intro hlength
    obtain ⟨only, honly⟩ := List.length_eq_one_iff.1 hlength
    exact hmany only honly

/-! ### What writes nothing -/

mutual

/-- Pruning a filter keeps whether it writes something. -/
theorem isEmpty_prune (e : Expr) : e.prune.isEmpty = e.isEmpty := by
  match e with
  | .raw sql args => rw [prune]
  | .compare column op arg => rw [prune]
  | .group c members =>
    have hmembers := isEmpty_of_mem_pruneAll members
    obtain ⟨only, honly, hprune⟩ | ⟨-, hprune⟩ := prune_group c members
    · have hsome : allEmpty members = false := by
        rw [← Bool.not_eq_true, ← pruneAll_eq_nil_iff, honly]
        exact List.cons_ne_nil only []
      rw [hprune, isEmpty, hsome]
      exact hmembers only (by rw [honly]; exact List.mem_singleton_self only)
    · have hkept : nonEmpty (pruneAll members) = pruneAll members := by
        apply List.filter_eq_self.2
        intro part hpart
        rw [hmembers part hpart]
        rfl
      rw [hprune, isEmpty, isEmpty, Bool.eq_iff_iff, allEmpty_iff, hkept, pruneAll_eq_nil_iff]

/-- What is left of a list writes something. -/
theorem isEmpty_of_mem_pruneAll (exprs : List Expr) :
    ∀ part ∈ pruneAll exprs, part.isEmpty = false := by
  match exprs with
  | [] =>
    rw [pruneAll]
    exact List.forall_mem_nil _
  | e :: rest =>
    rw [pruneAll]
    split
    · exact isEmpty_of_mem_pruneAll rest
    · next he =>
      rw [List.forall_mem_cons, isEmpty_prune e]
      exact ⟨Bool.eq_false_iff.2 he, isEmpty_of_mem_pruneAll rest⟩

end

/-- All that is left of a list takes part in what is written. -/
theorem nonEmpty_pruneAll (exprs : List Expr) : nonEmpty (pruneAll exprs) = pruneAll exprs := by
  apply List.filter_eq_self.2
  intro part hpart
  rw [isEmpty_of_mem_pruneAll exprs part hpart]
  rfl

/-- As many filters are left of a list as take part in what is written. -/
theorem length_pruneAll (exprs : List Expr) :
    (pruneAll exprs).length = (nonEmpty exprs).length := by
  rw [pruneAll_eq_map, List.length_map]

/-! ### What is written -/

mutual

/-- A pruned filter is written as the filter is, alone and beside others. -/
theorem render_prune (e : Expr) (beside : Bool) : e.prune.render beside = e.render beside := by
  match e with
  | .raw sql args => rw [prune]
  | .compare column op arg => rw [prune]
  | .group c members =>
    have hmembers := renderMembers_pruneAll members
    have hlength := length_pruneAll members
    obtain ⟨only, honly, hprune⟩ | ⟨-, hprune⟩ := prune_group c members
    · -- The member is beside others exactly when the group is.
      rw [honly] at hmembers hlength
      have hbeside : (beside || decide (1 < (nonEmpty members).length)) = beside := by
        rw [← hlength]
        simp
      have hsingle : Expr.renderMembers beside members = [only.render beside] := by
        rw [← hmembers, renderMembers_eq_map, ← honly, nonEmpty_pruneAll, honly]
        rfl
      rw [hprune, Expr.render, hbeside, hsingle]
    · rw [hprune, Expr.render, Expr.render, nonEmpty_pruneAll, hlength, hmembers]

/-- What is left of a list is written as the list is. -/
theorem renderMembers_pruneAll (exprs : List Expr) (beside : Bool) :
    renderMembers beside (pruneAll exprs) = renderMembers beside exprs := by
  match exprs with
  | [] => rw [pruneAll]
  | e :: rest =>
    rw [pruneAll, renderMembers]
    cases he : e.isEmpty with
    | true => exact renderMembers_pruneAll rest beside
    | false =>
      simp only [Bool.false_eq_true, ↓reduceIte, renderMembers, isEmpty_prune, he]
      rw [render_prune e beside, renderMembers_pruneAll rest beside]

end

/-- The conjunction of what is left of a list is the conjunction of the list. -/
theorem conditions_pruneAll (exprs : List Expr) :
    conditions (pruneAll exprs) = conditions exprs := by
  rw [conditions, conditions, nonEmpty_pruneAll, length_pruneAll, renderMembers_pruneAll]

/-- Filters that are pruned to one form have one conjunction. -/
theorem conditions_congr {exprs exprs' : List Expr} (h : pruneAll exprs = pruneAll exprs') :
    conditions exprs = conditions exprs' := by
  rw [← conditions_pruneAll, h, conditions_pruneAll]

/-! ### Steps of pruning -/

/-- A step leads to filters that are pruned to the same form. -/
theorem PruneStep.pruneAll_eq {exprs next : List Expr} (h : PruneStep exprs next) :
    pruneAll exprs = pruneAll next := by
  induction h with
  | drop he => rw [pruneAll, he, if_pos rfl]
  | @unwrap c only rest =>
    have hisEmpty : isEmpty (.group c [only]) = only.isEmpty := by simp [isEmpty, allEmpty]
    rw [pruneAll, pruneAll, hisEmpty]
    cases honly : only.isEmpty with
    | true => rfl
    | false => simp [prune, pruneAll, honly]
  | @inside c members members' rest _ ih =>
    have hisEmpty : isEmpty (.group c members) = isEmpty (.group c members') := by
      rw [isEmpty, isEmpty, Bool.eq_iff_iff, ← pruneAll_eq_nil_iff, ← pruneAll_eq_nil_iff, ih]
    rw [pruneAll, pruneAll, hisEmpty, prune, prune, ih]
  | behind _ ih => rw [pruneAll, pruneAll, ih]

/-- Filters are pruned when each writes something and the members of each group are pruned and more
than one. -/
theorem isPruned_cons {e : Expr} {rest : List Expr} :
    IsPruned (e :: rest) ↔
      e.isEmpty = false ∧
        (∀ c members, e = .group c members → members.length ≠ 1 ∧ IsPruned members) ∧
        IsPruned rest := by
  constructor
  · intro h
    refine ⟨?_, ?_, fun next hnext ↦ h _ (.behind hnext)⟩
    · rw [← Bool.not_eq_true]
      intro he
      exact h _ (.drop he)
    · rintro c members rfl
      refine ⟨?_, fun next hnext ↦ h _ (.inside hnext)⟩
      intro hlength
      obtain ⟨only, rfl⟩ := List.length_eq_one_iff.1 hlength
      exact h _ .unwrap
  · rintro ⟨he, hgroup, hrest⟩ next hnext
    cases hnext with
    | drop hempty =>
      rw [he] at hempty
      cases hempty
    | unwrap => exact (hgroup _ _ rfl).1 rfl
    | inside hinside => exact (hgroup _ _ rfl).2 _ hinside
    | behind hbehind => exact hrest _ hbehind

mutual

/-- The members of a pruned group are pruned and more than one. -/
theorem isPruned_of_prune_eq (e : Expr) :
    ∀ c parts, e.prune = .group c parts → e.isEmpty = false →
      parts.length ≠ 1 ∧ IsPruned parts := by
  intro c parts heq he
  match e with
  | .raw sql args =>
    rw [prune] at heq
    cases heq
  | .compare column op arg =>
    rw [prune] at heq
    cases heq
  | .group c' members =>
    have hmembers := isPruned_pruneAll members
    obtain ⟨only, honly, hprune⟩ | ⟨hlength, hprune⟩ := prune_group c' members
    · rw [honly, isPruned_cons] at hmembers
      exact hmembers.2.1 c parts (hprune.symm.trans heq)
    · rw [hprune] at heq
      cases heq
      exact ⟨hlength, hmembers⟩

/-- No step is left for what is left of a list. -/
theorem isPruned_pruneAll (exprs : List Expr) : IsPruned (pruneAll exprs) := by
  match exprs with
  | [] =>
    rw [pruneAll]
    intro next hnext
    cases hnext
  | e :: rest =>
    rw [pruneAll]
    split
    · exact isPruned_pruneAll rest
    · next he =>
      rw [Bool.not_eq_true] at he
      rw [isPruned_cons, isEmpty_prune]
      exact ⟨he, fun c parts heq ↦ isPruned_of_prune_eq e c parts heq he, isPruned_pruneAll rest⟩

end

private theorem steps_inside (c : Conjunction) {members members' : List Expr}
    (h : Relation.ReflTransGen PruneStep members members') (rest : List Expr) :
    Relation.ReflTransGen PruneStep (.group c members :: rest) (.group c members' :: rest) :=
  h.lift (fun parts ↦ .group c parts :: rest) fun _ _ hstep ↦ .inside hstep

private theorem steps_behind (e : Expr) {rest rest' : List Expr}
    (h : Relation.ReflTransGen PruneStep rest rest') :
    Relation.ReflTransGen PruneStep (e :: rest) (e :: rest') :=
  h.lift (fun others ↦ e :: others) fun _ _ hstep ↦ .behind hstep

mutual

/-- Steps lead from a filter, with others behind it, to the pruned filter. -/
theorem steps_prune (e : Expr) (rest : List Expr) :
    Relation.ReflTransGen PruneStep (e :: rest) (e.prune :: rest) := by
  match e with
  | .raw sql args =>
    rw [prune]
  | .compare column op arg =>
    rw [prune]
  | .group c members =>
    have hmembers := steps_inside c (steps_pruneAll members) rest
    obtain ⟨only, honly, hprune⟩ | ⟨-, hprune⟩ := prune_group c members
    · rw [honly] at hmembers
      rw [hprune]
      exact hmembers.tail .unwrap
    · rw [hprune]
      exact hmembers

/-- Steps lead from a list to what is left of it. -/
theorem steps_pruneAll (exprs : List Expr) :
    Relation.ReflTransGen PruneStep exprs (pruneAll exprs) := by
  match exprs with
  | [] => rw [pruneAll]
  | e :: rest =>
    rw [pruneAll]
    split
    · next he => exact (steps_pruneAll rest).head (.drop he)
    · exact (steps_prune e rest).trans (steps_behind e.prune (steps_pruneAll rest))

end

/-- Steps lead to filters that are pruned to the same form. -/
theorem pruneAll_eq_of_steps {exprs next : List Expr}
    (h : Relation.ReflTransGen PruneStep exprs next) : pruneAll exprs = pruneAll next := by
  induction h with
  | refl => rfl
  | tail _ hstep ih => exact ih.trans hstep.pruneAll_eq

/-- Pruned filters are left as they are. -/
theorem pruneAll_of_isPruned {exprs : List Expr} (h : IsPruned exprs) : pruneAll exprs = exprs := by
  obtain heq | ⟨next, hnext, -⟩ := (steps_pruneAll exprs).cases_head
  · exact heq.symm
  · exact absurd hnext (h next)

/-- Pruning ends in one form, in whatever order it is done. -/
theorem prunesTo_iff (exprs form : List Expr) : PrunesTo exprs form ↔ form = pruneAll exprs := by
  constructor
  · rintro ⟨hsteps, hpruned⟩
    rw [pruneAll_eq_of_steps hsteps, pruneAll_of_isPruned hpruned]
  · rintro rfl
    exact ⟨steps_pruneAll exprs, isPruned_pruneAll exprs⟩

end Expr

end RecordStore
