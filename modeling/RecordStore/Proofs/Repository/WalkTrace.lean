import RecordStore.Proofs.Model.Entry
import RecordStore.Proofs.Repository.BatchWalk

/-!
# Walks by their replies

Whatever the store answers, a walk is told by its replies. It goes on from one that gives a full
batch which the visitor takes and whose last row has a key in its JSON, and stops at the first one
that does not. Each read starts after the key of the reply before, and each reply with rows is
visited once, under its own number.
-/

namespace RecordStore

namespace Repository

variable {α : Type} (r : Repository α) (size : Int64) (visit : BatchVisitor α)

/-- The rows that a walk gets from a reply; a failure gives none. -/
def receivedRows (reply : Reply) : List α := (r.received reply).toOption.getD []

/-- The batches in replies: the rows of each reply that gives some, numbered from 1. -/
def batchesOf (replies : List Reply) : List (Batch α) :=
  (((replies.map r.receivedRows).filter (!·.isEmpty)).zipIdx 1).map fun page ↦ ⟨page.2, page.1⟩

/-- The key that the read after some replies starts after: the one in the JSON of the last row of
the last reply. -/
def cursorAfter (replies : List Reply) : Option Json :=
  replies.getLast?.bind fun reply ↦ (r.receivedRows reply).getLast?.bind fun last ↦
    r.model.entry? last r.query.primaryKey

/-- The number of rows in batches. -/
def rowsIn (batches : List (Batch α)) : Nat := (batches.map fun batch ↦ batch.rows.length).sum

/-- A reply that a walk goes on from: a full batch that the visitor takes, with a key in the JSON of
its last row. -/
structure GoesOn (visited : List (Batch α)) (number : Nat) (reply : Reply) (rows : List α) :
    Prop where
  received : r.received reply = .ok rows
  full : size.toInt ≤ rows.length
  keyed : ∃ last key, rows.getLast? = some last ∧
    r.model.entry? last r.query.primaryKey = some key
  visits : visit visited ⟨number, rows⟩ = .ok ()

/-- How a walk stops at a reply, with its outcome and what it logs: the rows cannot be had, there
are none, the visitor fails, or no batch can follow, since the batch is not full or there is no key
in the JSON of its last row. -/
inductive StopsAt (visited : List (Batch α)) (number : Nat) (reply : Reply) :
    Except RepositoryError Nat → List LogEvent → Prop
  | failed {e : StoreError} (hreceived : r.received reply = .error e) :
    StopsAt visited number reply (.error (.ofStore e)) [r.context.event (.ofStore e)]
  | empty (hreceived : r.received reply = .ok []) :
    StopsAt visited number reply (.ok (rowsIn visited)) []
  | refused {rows : List α} {e : RepositoryError} (hreceived : r.received reply = .ok rows)
    (hne : rows ≠ []) (hvisit : visit visited ⟨number, rows⟩ = .error e) :
    StopsAt visited number reply (.error e) []
  | last {rows : List α} (hreceived : r.received reply = .ok rows) (hne : rows ≠ [])
    (hvisit : visit visited ⟨number, rows⟩ = .ok ())
    (hlast : (rows.length : Int) < size.toInt ∨
      ∀ last, rows.getLast? = some last → r.model.entry? last r.query.primaryKey = none) :
    StopsAt visited number reply (.ok (rowsIn visited + rows.length)) []

/-- A walk goes on from each of the first `n` replies of a session. -/
def GoesOnFor (session : Session) (n : Nat) : Prop :=
  ∀ k < n, ∃ rows, r.GoesOn size visit (r.batchesOf (session.answers k)) (k + 1)
    (session.answer k) rows

/-- The reads of the batches behind the first replies of a session, the first one behind none. -/
def readsOf (session : Session) (n : Nat) : List Statement :=
  (List.range n).map fun k ↦ r.batchRead size (r.cursorAfter (session.answers k))

/-- A walk over the replies of a session that goes on from the first `n` of them and stops at the
next one. It has executed one read for each of these replies and visited one batch for each that
gives rows: the rows are those in the reply, and the number is that of the reply. -/
structure WalksOver (session : Session) (n : Nat) (logged : List LogEvent)
    (run : BatchWalk α × Session) : Prop where
  goesOn : r.GoesOnFor size visit session n
  stops : r.StopsAt size visit (r.batchesOf (session.answers n)) (n + 1) (session.answer n)
    run.1.outcome logged
  later : run.2 = session.after (r.readsOf size session (n + 1)) logged
  batches : run.1.batches = r.batchesOf (session.answers (n + 1))
  rows : ∀ batch ∈ run.1.batches, ∃ k ≤ n, batch.number = k + 1 ∧ ∃ found,
    (session.answer k).decodeAll r.model.ofRow = .ok found ∧ r.completed found = .ok batch.rows ∧
      (r.query.preloads = [] → batch.rows = found) ∧
      ((∀ p xs ys, r.model.load p xs = .ok ys → ys.length = xs.length) →
        batch.rows.length = found.length)
  counted : ∀ count, run.1.outcome = .ok count → count = rowsIn run.1.batches

variable {r size visit} {session : Session} {reply : Reply} {rows : List α}
  {visited : List (Batch α)} {number n : Nat} {outcome : Except RepositoryError Nat}
  {logged : List LogEvent}

/-- A walk goes on from a reply or stops at it. -/
theorem goesOn_or_stopsAt (r : Repository α) (size : Int64) (visit : BatchVisitor α)
    (visited : List (Batch α)) (number : Nat) (reply : Reply) :
    (∃ rows, r.GoesOn size visit visited number reply rows) ∨
      ∃ outcome logged, r.StopsAt size visit visited number reply outcome logged := by
  cases hreceived : r.received reply with
  | error e => exact .inr ⟨_, _, .failed hreceived⟩
  | ok rows =>
    by_cases hne : rows = []
    · rw [hne] at hreceived
      exact .inr ⟨_, _, .empty hreceived⟩
    · cases hvisit : visit visited ⟨number, rows⟩ with
      | error e => exact .inr ⟨_, _, .refused hreceived hne hvisit⟩
      | ok _ =>
        cases hkey : r.lastKey? rows with
        | none =>
          exact .inr ⟨_, _, .last hreceived hne hvisit (.inr (lastKey?_eq_none_iff.1 hkey))⟩
        | some key =>
          obtain ⟨last, hlast⟩ := lastKey?_eq_some_iff.1 hkey
          rcases Int.lt_or_le (rows.length : Int) size.toInt with hshort | hfull
          · exact .inr ⟨_, _, .last hreceived hne hvisit (.inl hshort)⟩
          · exact .inl ⟨rows, hreceived, hfull, ⟨last, key, hlast⟩, hvisit⟩

/-! ### Batches of replies -/

private theorem rowCount_eq (batches : List (Batch α)) : rowCount batches = rowsIn batches := by
  rw [rowCount, rowsIn, List.length_flatMap]

/-- The batch in a reply, if that gives rows. -/
def batchIn (r : Repository α) (number : Nat) (reply : Reply) : List (Batch α) :=
  if (r.receivedRows reply).isEmpty then [] else [⟨number, r.receivedRows reply⟩]

private theorem receivedRows_eq (h : r.received reply = .ok rows) :
    r.receivedRows reply = rows := by
  rw [receivedRows, h]
  rfl

private theorem batchIn_eq (h : r.received reply = .ok rows) (hne : rows ≠ []) (number : Nat) :
    r.batchIn number reply = [⟨number, rows⟩] := by
  rw [batchIn, receivedRows_eq h, if_neg (by simpa using hne)]

/-- One more reply adds the batch in it. -/
theorem batchesOf_append (r : Repository α) (replies : List Reply) (reply : Reply) :
    r.batchesOf (replies ++ [reply]) =
      r.batchesOf replies ++ r.batchIn ((r.batchesOf replies).length + 1) reply := by
  rw [batchIn, batchesOf, batchesOf, List.map_append, List.filter_append, List.zipIdx_append,
    List.map_append, List.length_map, List.length_zipIdx, Nat.add_comm 1]
  cases hempty : (r.receivedRows reply).isEmpty <;> simp [hempty]

private theorem answers_succ (session : Session) (n : Nat) :
    session.answers (n + 1) = session.answers n ++ [session.answer n] := by
  rw [Session.answers, Session.answers, List.range_succ, List.map_append, List.map_singleton]

private theorem GoesOn.rows_ne_nil (h : r.GoesOn size visit visited number reply rows) :
    rows ≠ [] := by
  rintro rfl
  obtain ⟨last, key, hlast, -⟩ := h.keyed
  cases hlast

/-- Replies that a walk goes on from are one batch each. -/
theorem GoesOnFor.length_batchesOf (h : r.GoesOnFor size visit session n) :
    (r.batchesOf (session.answers n)).length = n := by
  induction n with
  | zero => rfl
  | succ n ih =>
    obtain ⟨rows, hrows⟩ := h n (Nat.lt_succ_self n)
    have hlength := ih fun k hk ↦ h k (Nat.lt_succ_of_lt hk)
    rw [answers_succ, batchesOf_append, List.length_append, hlength,
      batchIn_eq hrows.received hrows.rows_ne_nil, List.length_singleton]

/-! ### One round -/

-- A round up to its reply: what it does then depends on what it gets from the reply alone.
private theorem run_fetchBatch (r : Repository α) (size : Int64) (after : Option Json)
    (session : Session) :
    r.fetchBatch size after session =
      r.context.ended session [r.batchRead size after]
        ((r.received (session.answer 0)).mapError RepositoryError.ofStore) :=
  r.runIn_fetchBatch size after session

/-- A walk with a round left that goes on from the next reply does so behind the read of it. -/
theorem GoesOn.run_walkFrom
    (h : r.GoesOn size visit visited (visited.length + 1) (session.answer 0) rows)
    (rounds : Nat) (after : Option Json) :
    (r.walkFrom size visit (rounds + 1) after visited).run session =
      (r.walkFrom size visit rounds (r.lastKey? rows)
        (visited ++ r.batchIn (visited.length + 1) (session.answer 0))).run
          (session.after [r.batchRead size after] []) := by
  have hne := h.rows_ne_nil
  obtain ⟨hreceived, hfull, ⟨last, key, hlast⟩, hvisits⟩ := h
  have hkey : r.lastKey? rows = some key := lastKey?_eq_some_iff.2 ⟨last, hlast⟩
  have hlong : ¬(rows.length : Int) < size.toInt := by omega
  rw [batchIn_eq hreceived hne, walkFrom]
  simp only [StateT.run, bind, StateT.bind, ExceptT.run, run_fetchBatch, hreceived,
    Except.mapError, Context.ended]
  cases rows with
  | nil => exact absurd rfl hne
  | cons row rest => simp only [hvisits, hkey, if_neg hlong]

/-- A walk with a round left that stops at the next reply executes nothing behind the read of it. -/
theorem StopsAt.run_walkFrom
    (h : r.StopsAt size visit visited (visited.length + 1) (session.answer 0) outcome logged)
    (rounds : Nat) (after : Option Json) :
    (r.walkFrom size visit (rounds + 1) after visited).run session =
      (⟨visited ++ r.batchIn (visited.length + 1) (session.answer 0), outcome⟩,
        session.after [r.batchRead size after] logged) := by
  rw [walkFrom]
  simp only [StateT.run, bind, StateT.bind, ExceptT.run, run_fetchBatch]
  cases h with
  | failed hreceived =>
    have hnone : r.batchIn (visited.length + 1) (session.answer 0) = [] := by
      simp [batchIn, receivedRows, hreceived, Except.toOption]
    rw [hreceived, hnone, List.append_nil]
    rfl
  | empty hreceived =>
    have hnone : r.batchIn (visited.length + 1) (session.answer 0) = [] := by
      simp [batchIn, receivedRows_eq hreceived]
    rw [hreceived, hnone, List.append_nil, ← rowCount_eq]
    rfl
  | @refused rows e hreceived hne hvisit =>
    rw [hreceived, batchIn_eq hreceived hne]
    cases rows with
    | nil => exact absurd rfl hne
    | cons row rest =>
      simp only [Except.mapError, Context.ended, hvisit]
      rfl
  | @last rows hreceived hne hvisit hlast =>
    rw [hreceived, batchIn_eq hreceived hne]
    have hcount : rowCount (visited ++ [⟨visited.length + 1, rows⟩]) =
        rowsIn visited + rows.length := by simp [rowCount_eq, rowsIn]
    rw [← hcount]
    cases rows with
    | nil => exact absurd rfl hne
    | cons row rest =>
      simp only [Except.mapError, Context.ended, hvisit]
      cases hkey : r.lastKey? (row :: rest) with
      | none => rfl
      | some key =>
        have hshort := hlast.resolve_right fun hnone ↦ by
          simp [lastKey?_eq_none_iff.2 hnone] at hkey
        simp only [if_pos hshort]
        rfl

/-! ### All rounds -/

/-- A walk behind the first `k` replies of a session, with some rounds left. -/
def walkBehind (r : Repository α) (size : Int64) (visit : BatchVisitor α) (session : Session)
    (rounds k : Nat) : BatchWalk α × Session :=
  (r.walkFrom size visit rounds (r.cursorAfter (session.answers k))
    (r.batchesOf (session.answers k))).run (session.after (r.readsOf size session k) [])

private theorem readsOf_succ (r : Repository α) (size : Int64) (session : Session) (n : Nat) :
    r.readsOf size session (n + 1) =
      r.readsOf size session n ++ [r.batchRead size (r.cursorAfter (session.answers n))] := by
  rw [readsOf, readsOf, List.range_succ, List.map_append, List.map_singleton]

private theorem answer_behind (r : Repository α) (size : Int64) (session : Session) (n : Nat) :
    (session.after (r.readsOf size session n) []).answer 0 = session.answer n := by
  rw [Session.answer_after, readsOf, List.length_map, List.length_range, Nat.add_zero]

/-- A round that goes on leads behind the next reply. -/
theorem GoesOnFor.walkBehind_succ (h : r.GoesOnFor size visit session n)
    (hnext : r.GoesOn size visit (r.batchesOf (session.answers n)) (n + 1) (session.answer n) rows)
    (rounds : Nat) :
    r.walkBehind size visit session (rounds + 1) n =
      r.walkBehind size visit session rounds (n + 1) := by
  have hround : r.GoesOn size visit (r.batchesOf (session.answers n))
      ((r.batchesOf (session.answers n)).length + 1)
      ((session.after (r.readsOf size session n) []).answer 0) rows := by
    rw [h.length_batchesOf, answer_behind]
    exact hnext
  have hcursor : r.cursorAfter (session.answers (n + 1)) = r.lastKey? rows := by
    obtain ⟨last, key, hlast, hkey⟩ := hnext.keyed
    rw [lastKey?_eq_some_iff.2 ⟨last, hlast, hkey⟩, answers_succ, cursorAfter,
      List.getLast?_concat, Option.bind_some, receivedRows_eq hnext.received, hlast,
      Option.bind_some, hkey]
  rw [walkBehind, hround.run_walkFrom, walkBehind, hcursor, answer_behind, readsOf_succ,
    Session.after_after, answers_succ, batchesOf_append]
  rfl

/-- A round that stops has executed the read behind the replies before. -/
theorem GoesOnFor.walkBehind_of_stopsAt (h : r.GoesOnFor size visit session n)
    (hstops : r.StopsAt size visit (r.batchesOf (session.answers n)) (n + 1) (session.answer n)
      outcome logged) (rounds : Nat) :
    r.walkBehind size visit session (rounds + 1) n =
      (⟨r.batchesOf (session.answers (n + 1)), outcome⟩,
        session.after (r.readsOf size session (n + 1)) logged) := by
  have hround : r.StopsAt size visit (r.batchesOf (session.answers n))
      ((r.batchesOf (session.answers n)).length + 1)
      ((session.after (r.readsOf size session n) []).answer 0) outcome logged := by
    rw [h.length_batchesOf, answer_behind]
    exact hstops
  rw [walkBehind, hround.run_walkFrom, answer_behind, readsOf_succ, Session.after_after,
    answers_succ, batchesOf_append]
  rfl

-- Behind its last reply a session holds none to go on from.
private theorem GoesOn.lt_length
    (h : r.GoesOn size visit visited number (session.answer n) rows) :
    n < session.replies.length := by
  by_contra hn
  have hexhausted : session.answer n = Store.exhausted := by
    rw [Session.answer, List.getD_eq_getElem?_getD, List.getElem?_eq_none (Nat.le_of_not_lt hn)]
    rfl
  have hreceived := h.received
  rw [hexhausted] at hreceived
  cases hreceived

/-- A walk stops at some reply when it has more rounds left than the session holds replies. -/
theorem GoesOnFor.exists_stopsAt (h : r.GoesOnFor size visit session n) (rounds : Nat)
    (hrounds : session.replies.length < rounds + n) :
    ∃ m outcome logged, r.GoesOnFor size visit session m ∧
      r.StopsAt size visit (r.batchesOf (session.answers m)) (m + 1) (session.answer m) outcome
        logged ∧
      r.walkBehind size visit session rounds n =
        (⟨r.batchesOf (session.answers (m + 1)), outcome⟩,
          session.after (r.readsOf size session (m + 1)) logged) := by
  induction rounds generalizing n with
  | zero =>
    obtain ⟨n, rfl⟩ : ∃ k, n = k + 1 := ⟨n - 1, by omega⟩
    obtain ⟨rows, hrows⟩ := h n (Nat.lt_succ_self n)
    have hlt := hrows.lt_length
    omega
  | succ rounds ih =>
    rcases r.goesOn_or_stopsAt size visit (r.batchesOf (session.answers n)) (n + 1)
      (session.answer n) with ⟨rows, hnext⟩ | ⟨outcome, logged, hstops⟩
    · have hfurther : r.GoesOnFor size visit session (n + 1) := by
        intro k hk
        rcases Nat.lt_succ_iff_lt_or_eq.1 hk with hk | rfl
        · exact h k hk
        · exact ⟨rows, hnext⟩
      rw [h.walkBehind_succ hnext]
      exact ih hfurther (by omega)
    · exact ⟨n, outcome, logged, h, hstops, h.walkBehind_of_stopsAt hstops rounds⟩

/-! ### What has been visited -/

private theorem of_mem_batchIn {batch : Batch α} (h : batch ∈ r.batchIn number reply) :
    batch.number = number ∧ r.received reply = .ok batch.rows := by
  rw [batchIn] at h
  split at h
  · exact absurd h List.not_mem_nil
  · next hne =>
    obtain rfl := List.mem_singleton.1 h
    refine ⟨rfl, ?_⟩
    cases hreceived : r.received reply with
    | error e => simp [receivedRows, hreceived, Except.toOption] at hne
    | ok rows => rw [receivedRows_eq hreceived]

/-- A batch has the number of a reply and the rows that come from that. -/
theorem GoesOnFor.exists_reply (h : r.GoesOnFor size visit session n) :
    ∀ batch ∈ r.batchesOf (session.answers (n + 1)),
      ∃ k ≤ n, batch.number = k + 1 ∧ r.received (session.answer k) = .ok batch.rows := by
  induction n with
  | zero =>
    intro batch hbatch
    rw [answers_succ, batchesOf_append] at hbatch
    exact ⟨0, le_rfl, of_mem_batchIn hbatch⟩
  | succ n ih =>
    intro batch hbatch
    rw [answers_succ, batchesOf_append, h.length_batchesOf] at hbatch
    rcases List.mem_append.1 hbatch with hbatch | hbatch
    · obtain ⟨k, hk, hreply⟩ := ih (fun k hk ↦ h k (Nat.lt_succ_of_lt hk)) batch hbatch
      exact ⟨k, Nat.le_succ_of_le hk, hreply⟩
    · exact ⟨n + 1, le_rfl, of_mem_batchIn hbatch⟩

/-- A walk that stops without an error tells how many rows it has visited. -/
theorem StopsAt.eq_rowsIn {count : Nat}
    (h : r.StopsAt size visit visited number reply (.ok count) logged) :
    count = rowsIn (visited ++ r.batchIn number reply) := by
  cases h with
  | empty hreceived => simp [batchIn, receivedRows_eq hreceived]
  | last hreceived hne hvisit hlast => simp [batchIn_eq hreceived hne, rowsIn]

/-- Whatever the store answers and the visitor decides, a walk in batches of the size that is asked
for, at least 1, goes on from the first replies of the session and stops at the next one. -/
theorem findInBatches_walksOver (r : Repository α) (size : Int64) (visit : BatchVisitor α)
    (session : Session) :
    ∃ s : Int64, s.toInt = max size.toInt 1 ∧ ∃ n logged,
      r.WalksOver s visit session n logged ((r.findInBatches size visit).run session) := by
  have hstart : r.GoesOnFor (batchSize size) visit session 0 := fun k hk ↦ absurd hk k.not_lt_zero
  have hrun : (r.findInBatches size visit).run session =
      r.walkBehind (batchSize size) visit session (session.replies.length + 1) 0 := by
    have hsession : session.after (r.readsOf (batchSize size) session 0) [] = session :=
      session.after_nil
    rw [walkBehind, hsession]
    rfl
  obtain ⟨n, outcome, logged, hgoes, hstops, hbehind⟩ :=
    hstart.exists_stopsAt (session.replies.length + 1) (Nat.lt_succ_self _)
  refine ⟨batchSize size, toInt_max size 1, n, logged, ?_⟩
  rw [hrun, hbehind]
  refine ⟨hgoes, hstops, rfl, rfl, ?_, ?_⟩
  · intro batch hbatch
    obtain ⟨k, hk, hnumber, hreceived⟩ := hgoes.exists_reply batch hbatch
    obtain ⟨found, hfound, hcompleted⟩ := exists_of_bind_eq_ok hreceived
    refine ⟨k, hk, hnumber, found, hfound, hcompleted, ?_, ?_⟩
    · intro hpreloads
      rw [r.completed_of_preloads_eq_nil hpreloads] at hcompleted
      exact (Except.ok.inj hcompleted).symm
    · intro hload
      exact r.length_completed hload hcompleted
  · rintro count rfl
    rw [hstops.eq_rowsIn, answers_succ, batchesOf_append, hgoes.length_batchesOf]

/-- Products in batches of two. Two replies are full, one of them with more rows than it was asked
for, so the second and the third read start after the keys 2 and 4 of their last rows; the third
reply is short, and the fourth one is left. -/
theorem findInBatches_walksOver_products :
    let product (id : Int) : Fields :=
      .ofList [("id", .int id), ("price", .int 1), ("deleted_at", .null)]
    let pages := [[product 5, product 2], [product 9, product 3, product 4], [product 1]]
    let session : Session := ⟨pages.map .rows ++ [.rows []], [], []⟩
    let visit : BatchVisitor Fields := fun _ _ ↦ .ok ()
    let run := (ofProducts.findInBatches 2 visit).run session
    (∃ s : Int64, s.toInt = 2 ∧ ∃ logged, ofProducts.WalksOver s visit session 2 logged run) ∧
      run.1.batches = [⟨1, [product 5, product 2]⟩, ⟨2, [product 9, product 3, product 4]⟩,
        ⟨3, [product 1]⟩] ∧
      run.1.outcome = .ok 6 ∧
      run.2.executed.map (·.args) = [[], [.int8 2], [.int8 4]] ∧ run.2.replies.length = 1 := by
  intro product pages session visit run
  obtain ⟨s, hs, n, logged, hwalks⟩ := findInBatches_walksOver ofProducts 2 visit session
  have hexecuted : run.2.executed.length = 3 := by decide +kernel
  have hn : n = 2 := by
    have hlength : run.2.executed.length = n + 1 := by
      rw [hwalks.later]
      simp [Session.after, readsOf, session]
    omega
  subst hn
  exact ⟨⟨s, hs, logged, hwalks⟩, by decide +kernel, by decide +kernel, by decide +kernel,
    by decide +kernel⟩

end Repository

end RecordStore
