import RecordStore.Proofs.Page.Served
import RecordStore.Proofs.Repository.KeyedRows
import RecordStore.Proofs.Repository.Operations

/-!
# Walking all rows in batches

A walk over rows with keys visits each of them once, in the order of the keys, when the store gives
what it is asked for. What it is asked for depends on what it answered before, so it answers
statement by statement. A walk ends with the first page that is not full, and never for want of
rounds.
-/

namespace RecordStore

namespace Session

/-- A run whose statements a store answers, each as that store does. -/
def AnsweredBy (session : Session) (store : Executed → Reply) (later : Session) : Prop :=
  ∃ sent : List Executed, later.executed = session.executed ++ sent ∧
    session.replies.take sent.length = sent.map store

variable {session : Session} {store : Executed → Reply}

/-- A run is answered by a store when its next replies are those to its statements. -/
theorem answeredBy_after_iff (sent : List Statement) (logged : List LogEvent) :
    session.AnsweredBy store (session.after sent logged) ↔
      session.replies.take sent.length = sent.map fun s ↦ store (.ofStatement s) := by
  constructor
  · rintro ⟨executed, hexecuted, hreplies⟩
    have hsent : sent.map Executed.ofStatement = executed := List.append_cancel_left hexecuted
    rw [← hsent, List.length_map, List.map_map] at hreplies
    exact hreplies
  · intro hreplies
    refine ⟨sent.map Executed.ofStatement, rfl, ?_⟩
    rw [List.length_map, List.map_map]
    exact hreplies

/-- The first statement of a run is answered by the next reply, and the store answers the rest. -/
theorem AnsweredBy.exists_replies_eq {s : Statement} {sent : List Statement}
    {logged : List LogEvent}
    (h : session.AnsweredBy store (session.after (s :: sent) logged)) :
    ∃ replies, session.replies = store (.ofStatement s) :: replies ∧
      (session.after [s] []).AnsweredBy store (session.after (s :: sent) logged) := by
  rw [answeredBy_after_iff, List.length_cons, List.map_cons] at h
  cases hreplies : session.replies with
  | nil =>
    rw [hreplies] at h
    cases h
  | cons reply replies =>
    rw [hreplies, List.take_succ_cons, List.cons.injEq] at h
    have hafter : session.after (s :: sent) logged = (session.after [s] []).after sent logged := by
      simp
    refine ⟨replies, by rw [h.1], ?_⟩
    rw [hafter, answeredBy_after_iff, ← h.2, after, hreplies]
    rfl

end Session

namespace Repository

variable {α : Type} {r : Repository α} {size : Int64} {visit : BatchVisitor α}

/-! ### One round -/

/-- The read of the batch after a key. -/
def batchRead (r : Repository α) (size : Int64) (after : Option Json) : Statement :=
  (r.query.batch size after).selectStatement []

/-- How a walk goes on after a page: it ends without rows and with a page that is not full. -/
def afterPage (r : Repository α) (size : Int64) (visit : BatchVisitor α) (rounds : Nat)
    (visited : List (Batch α)) (rows : List α) (session : Session) : BatchWalk α × Session :=
  let visitedNow := visited ++ [⟨visited.length + 1, rows⟩]
  if rows.isEmpty then (⟨visited, .ok (rowCount visited)⟩, session)
  else
    match r.lastKey? rows with
    | some key =>
      if (rows.length : Int) < size.toInt then (⟨visitedNow, .ok (rowCount visitedNow)⟩, session)
      else (r.walkFrom size visit rounds (some key) visitedNow).run session
    | none => (⟨visitedNow, .ok (rowCount visitedNow)⟩, session)

/-- What a walk gets from a reply: its rows with their relations loaded. -/
def received (r : Repository α) (reply : Reply) : Except StoreError (List α) :=
  reply.decodeAll r.model.ofRow >>= r.completed

/-- Without relations a walk gets the rows as they are. -/
theorem received_of_preloads_eq_nil (hpreloads : r.query.preloads = []) (reply : Reply) :
    r.received reply = reply.decodeAll r.model.ofRow := by
  rw [received]
  cases reply.decodeAll r.model.ofRow with
  | error e => rfl
  | ok rows => exact r.completed_of_preloads_eq_nil hpreloads rows

/-- Rows are read by one statement, and cannot be had when one of them or a relation cannot be
had. -/
theorem runIn_fetchAll_loaded (r : Repository α) (s : Statement) (session : Session) :
    (r.context.database (Store.fetchAll r.model.ofRow s) >>= r.loadPreloads).runIn session =
      r.context.ended session [s]
        ((r.received (session.answer 0)).mapError RepositoryError.ofStore) := by
  have hread : (r.context.database (Store.fetchAll r.model.ofRow s)).runIn session =
      r.context.ended session [s]
        (((session.answer 0).decodeAll r.model.ofRow).mapError RepositoryError.ofStore) :=
    Context.runIn_database_eq (Store.asks_fetchAll s r.model.ofRow)
  rw [received]
  cases hdecode : (session.answer 0).decodeAll r.model.ofRow with
  | error e =>
    rw [hdecode] at hread
    exact Context.runIn_bind_error hread _
  | ok rows =>
    rw [hdecode] at hread
    rw [Context.runIn_bind_ok hread, r.runIn_loadPreloads, Context.ended_after, List.append_nil]
    rfl

/-- A batch is fetched by one read. -/
theorem runIn_fetchBatch (r : Repository α) (size : Int64) (after : Option Json)
    (session : Session) :
    (r.fetchBatch size after).runIn session =
      r.context.ended session [r.batchRead size after]
        ((r.received (session.answer 0)).mapError RepositoryError.ofStore) :=
  r.runIn_fetchAll_loaded (r.batchRead size after) session

/-- A round of a walk without relations and whose visitor never fails. -/
theorem run_walkFrom_succ (hpreloads : r.query.preloads = [])
    (hvisit : ∀ visited batch, visit visited batch = .ok ()) (rounds : Nat)
    (after : Option Json) (visited : List (Batch α)) (session : Session) :
    (r.walkFrom size visit (rounds + 1) after visited).run session =
      match (session.answer 0).decodeAll r.model.ofRow with
      | .ok rows =>
        r.afterPage size visit rounds visited rows (session.after [r.batchRead size after] [])
      | .error e =>
        (⟨visited, .error (.ofStore e)⟩,
          session.after [r.batchRead size after] [r.context.event (.ofStore e)]) := by
  have hfetch : r.fetchBatch size after session = _ := r.runIn_fetchBatch size after session
  rw [received_of_preloads_eq_nil hpreloads] at hfetch
  rw [walkFrom]
  simp only [StateT.run, bind, StateT.bind, ExceptT.run]
  rw [hfetch]
  cases (session.answer 0).decodeAll r.model.ofRow with
  | error e => rfl
  | ok rows =>
    simp only [Except.mapError, Context.ended]
    rw [afterPage]
    cases rows with
    | nil => rfl
    | cons row rest =>
      simp only [hvisit, List.isEmpty_cons, Bool.false_eq_true, ↓reduceIte]
      cases r.lastKey? (row :: rest) with
      | none => rfl
      | some key =>
        by_cases hshort : ((row :: rest).length : Int) < size.toInt
        · simp only [if_pos hshort]
          rfl
        · simp only [if_neg hshort]
          rfl

/-- A walk with a round left executes the read of its next batch first. -/
theorem exists_run_walkFrom_eq (size : Int64) (hpreloads : r.query.preloads = [])
    (hvisit : ∀ visited batch, visit visited batch = .ok ()) (rounds : Nat)
    (after : Option Json) (visited : List (Batch α)) (session : Session) :
    ∃ sent logged, ((r.walkFrom size visit (rounds + 1) after visited).run session).2 =
      session.after (r.batchRead size after :: sent) logged := by
  induction rounds generalizing after visited session with
  | zero =>
    rw [run_walkFrom_succ hpreloads hvisit]
    split
    · refine ⟨[], [], ?_⟩
      rw [afterPage]
      split
      · rfl
      · split
        · split <;> rfl
        · rfl
    · exact ⟨[], _, rfl⟩
  | succ rounds ih =>
    rw [run_walkFrom_succ hpreloads hvisit]
    split
    · rw [afterPage]
      split
      · exact ⟨[], [], rfl⟩
      · split
        · split
          · exact ⟨[], [], rfl⟩
          · next key _ _ =>
            obtain ⟨sent, logged, hlater⟩ := ih (some key) _
              (session.after [r.batchRead size after] [])
            exact ⟨r.batchRead size (some key) :: sent, logged, by rw [hlater]; simp⟩
        · exact ⟨[], [], rfl⟩
    · exact ⟨[], _, rfl⟩

end Repository

namespace KeyedRows

open Repository

variable {α κ : Type} {r : Repository α} (t : KeyedRows r κ) {size : Int64}
  {visit : BatchVisitor α} {rows before : List Row} {pages : List (List Row)}

/-! ### Pages in a walk -/

/-- The key that a read starts after: that of the last row fetched so far. -/
def cursor (fetched : List Row) : Option Json :=
  fetched.getLast?.map fun row ↦ t.json (t.key row)

/-- The keys that the reads of pages start after. -/
def cursors (fetched : List Row) : List (List Row) → List (Option Json)
  | [] => []
  | page :: rest => t.cursor fetched :: cursors (fetched ++ page) rest

/-- Pages as batches, numbered from a given number on; a page without rows is none. -/
def batches (number : Nat) (pages : List (List Row)) : List (Batch α) :=
  ((Pages.visited pages).zipIdx number).map fun page ↦ ⟨page.2, page.1.map t.value⟩

private theorem length_cursors (fetched : List Row) (pages : List (List Row)) :
    (t.cursors fetched pages).length = pages.length := by
  induction pages generalizing fetched with
  | nil => rfl
  | cons page rest ih => rw [cursors, List.length_cons, List.length_cons, ih]

private theorem decodeAll_rows (h : ∀ row ∈ rows, row ∈ t.rows) :
    (Reply.rows rows).decodeAll r.model.ofRow = .ok (rows.map t.value) := by
  rw [Reply.decodeAll_eq_ok_iff]
  refine ⟨rows, rfl, ?_⟩
  induction rows with
  | nil => rfl
  | cons row rest ih =>
    rw [List.forall_mem_cons] at h
    rw [List.mapM_cons, t.reads row h.1, ih h.2]
    rfl

private theorem lastKey?_rows (h : ∀ row ∈ rows, row ∈ t.rows) (hne : rows ≠ [])
    (before : List Row) : ∃ key, r.lastKey? (rows.map t.value) = some key ∧
      t.cursor (before ++ rows) = some key := by
  obtain ⟨earlier, last, rfl⟩ := (List.eq_nil_or_concat' rows).resolve_left hne
  have hlast : last ∈ t.rows := h last (by simp)
  refine ⟨t.json (t.key last), ?_, ?_⟩
  · rw [lastKey?, List.map_append, List.map_singleton, List.getLast?_concat, Option.bind_some,
      t.holds last hlast]
  · rw [cursor, ← List.append_assoc, List.getLast?_concat]
    rfl

private theorem rowCount_concat (visited : List (Batch α)) (number : Nat) (rows : List α) :
    rowCount (visited ++ [⟨number, rows⟩]) = rowCount visited + rows.length := by
  simp [rowCount]

private theorem batches_cons (number : Nat) {page : List Row} (hne : page ≠ [])
    (pages : List (List Row)) :
    t.batches number (page :: pages) =
      ⟨number, page.map t.value⟩ :: t.batches (number + 1) pages := by
  have hvisited : Pages.visited (page :: pages) = page :: Pages.visited pages := by
    cases page with
    | nil => exact absurd rfl hne
    | cons row rest => rfl
  rw [batches, hvisited, List.zipIdx_cons]
  rfl

section

variable (hpreloads : r.query.preloads = [])
  (hvisit : ∀ visited batch, visit visited batch = .ok ())
include hpreloads hvisit

-- A page that is not full ends the walk.
private theorem run_walkFrom_short (hrows : ∀ row ∈ rows, row ∈ t.rows)
    (hshort : (rows.length : Int) < size.toInt) (rounds : Nat) (after : Option Json)
    (visited : List (Batch α)) {session : Session} (hanswer : session.answer 0 = .rows rows) :
    (r.walkFrom size visit (rounds + 1) after visited).run session =
      (⟨visited ++ t.batches (visited.length + 1) [rows], .ok (rowCount visited + rows.length)⟩,
        session.after [r.batchRead size after] []) := by
  rw [run_walkFrom_succ hpreloads hvisit, hanswer, t.decodeAll_rows hrows]
  dsimp only
  cases rows with
  | nil => simp [afterPage, batches, Pages.visited]
  | cons row rest =>
    obtain ⟨key, hkey, -⟩ := t.lastKey?_rows hrows (by simp) []
    have hbatches : t.batches (visited.length + 1) [row :: rest] =
        [⟨visited.length + 1, (row :: rest).map t.value⟩] := rfl
    rw [afterPage, hkey, List.length_map, if_neg (by simp)]
    simp only [if_pos hshort, rowCount_concat, hbatches, List.length_map]

-- A full page is visited, and the walk goes on after its last row.
private theorem run_walkFrom_full {page : List Row} (hpage : ∀ row ∈ page, row ∈ t.rows)
    (hne : page ≠ []) (hfull : ¬(page.length : Int) < size.toInt) (before : List Row)
    (rounds : Nat) (visited : List (Batch α)) {session : Session}
    (hanswer : session.answer 0 = .rows page) :
    (r.walkFrom size visit (rounds + 1) (t.cursor before) visited).run session =
      (r.walkFrom size visit rounds (t.cursor (before ++ page))
        (visited ++ [⟨visited.length + 1, page.map t.value⟩])).run
          (session.after [r.batchRead size (t.cursor before)] []) := by
  obtain ⟨key, hkey, hcursor⟩ := t.lastKey?_rows hpage hne before
  rw [run_walkFrom_succ hpreloads hvisit, hanswer, t.decodeAll_rows hpage]
  dsimp only
  rw [afterPage, hkey, List.length_map, if_neg (by simpa using hne), hcursor]
  simp only [if_neg hfull]

variable [LinearOrder κ] {store : Executed → Reply} {s rounds : Nat}

omit hpreloads hvisit in
private theorem mem_rows_of_ascending {fetched after : List Row}
    (h : t.ascending = before ++ (fetched ++ after)) : ∀ row ∈ fetched, row ∈ t.rows := by
  intro row hrow
  have hmem : row ∈ t.ascending := by
    rw [h]
    simp [hrow]
  exact t.perm_ascending.mem_iff.1 hmem

omit hpreloads hvisit [LinearOrder κ] in
-- A full page has rows, and no walk stops at it.
private theorem ne_nil_of_full {page : List Row} (hsize : size.toInt = s) (hpos : 0 < s)
    (hfull : page.length = s) : page ≠ [] ∧ ¬(page.length : Int) < size.toInt := by
  refine ⟨?_, ?_⟩
  · rintro rfl
    exact absurd hfull hpos.ne
  · rw [hsize, hfull]
    omega

/-- Against the pages of the rows that are left, a walk visits those with rows and executes one read
for each page. -/
theorem run_walkFrom_pages (hsize : size.toInt = s) (hpos : 0 < s) (hpages : Pages s rows pages)
    (hrows : t.ascending = before ++ rows) (hrounds : pages.length ≤ rounds)
    (visited : List (Batch α)) {session : Session} {rest : List Reply}
    (hreplies : session.replies = pages.map .rows ++ rest) :
    (r.walkFrom size visit rounds (t.cursor before) visited).run session =
      (⟨visited ++ t.batches (visited.length + 1) pages, .ok (rowCount visited + rows.length)⟩,
        session.after ((t.cursors before pages).map (r.batchRead size)) []) := by
  induction hpages generalizing before rounds visited session with
  | @last rows hshort =>
    obtain ⟨rounds, rfl⟩ : ∃ n, rounds = n + 1 := ⟨rounds - 1, by simp at hrounds; omega⟩
    have hmem : ∀ row ∈ rows, row ∈ t.rows := by
      rw [← List.append_nil rows] at hrows
      exact t.mem_rows_of_ascending hrows
    have hanswer : session.answer 0 = .rows rows := Session.answer_zero hreplies
    have hless : (rows.length : Int) < size.toInt := by
      rw [hsize]
      omega
    exact t.run_walkFrom_short hpreloads hvisit hmem hless rounds _ visited hanswer
  | @full page rows pages hfull hpages ih =>
    obtain ⟨rounds, rfl⟩ : ∃ n, rounds = n + 1 := ⟨rounds - 1, by simp at hrounds; omega⟩
    obtain ⟨hne, hlong⟩ := ne_nil_of_full hsize hpos hfull
    have hanswer : session.answer 0 = .rows page := Session.answer_zero hreplies
    have hlater : (session.after [r.batchRead size (t.cursor before)] []).replies =
        pages.map .rows ++ rest := Session.replies_after_singleton hreplies _ _
    have hnext : t.ascending = before ++ page ++ rows := by rw [hrows, List.append_assoc]
    have hrest := ih hnext (Nat.le_of_succ_le_succ hrounds)
      (visited ++ [⟨visited.length + 1, page.map t.value⟩]) hlater
    rw [t.run_walkFrom_full hpreloads hvisit (t.mem_rows_of_ascending hrows) hne hlong before rounds
      visited hanswer, hrest, t.batches_cons _ hne, rowCount_concat, List.length_map,
      Nat.add_assoc, List.length_append, List.length_append, List.append_assoc,
      Session.after_after]
    rfl

/-! ### A store that serves the rows -/

omit hpreloads hvisit in
-- The read behind the rows fetched so far is answered with as many of the others as make up a page.
private theorem store_batchRead (hserved : t.ServedBy size store) (hsize : size.toInt = s)
    (hrows : t.ascending = before ++ rows) :
    store (.ofStatement (r.batchRead size (t.cursor before))) = .rows (rows.take s) := by
  have hnat : size.toInt.toNat = s := by rw [hsize]; rfl
  rw [← hnat]
  exact hserved.answer hrows

omit hpreloads hvisit in
-- The replies to the reads of pages are those pages.
private theorem map_answer_cursors (hserved : t.ServedBy size store) (hsize : size.toInt = s)
    (hpages : Pages s rows pages) (hrows : t.ascending = before ++ rows) :
    ((t.cursors before pages).map (r.batchRead size)).map (fun s ↦ store (.ofStatement s)) =
      pages.map .rows := by
  induction hpages generalizing before with
  | @last rows hshort =>
    have hanswer := t.store_batchRead hserved hsize hrows
    rw [List.take_of_length_le hshort.le] at hanswer
    exact congrArg (fun reply ↦ [reply]) hanswer
  | @full page rows pages hfull hpages ih =>
    have hanswer := t.store_batchRead hserved hsize hrows
    rw [List.take_left' hfull] at hanswer
    have hnext : t.ascending = before ++ page ++ rows := by rw [hrows, List.append_assoc]
    rw [List.map_cons, ← ih hnext]
    exact congrArg (· :: _) hanswer

/-- A store that serves the rows has answered with their pages, since what it is asked for next is
told by the page before. -/
theorem exists_replies_eq (hserved : t.ServedBy size store) (hsize : size.toInt = s) (hpos : 0 < s)
    (hpages : Pages s rows pages) (hrows : t.ascending = before ++ rows) {session : Session}
    (hrounds : session.replies.length < rounds) (visited : List (Batch α))
    (hanswered : session.AnsweredBy store
      ((r.walkFrom size visit rounds (t.cursor before) visited).run session).2) :
    ∃ rest, session.replies = pages.map .rows ++ rest := by
  induction hpages generalizing before rounds visited session with
  | @last rows hshort =>
    obtain ⟨rounds, rfl⟩ : ∃ n, rounds = n + 1 := ⟨rounds - 1, by omega⟩
    obtain ⟨sent, logged, hlater⟩ := exists_run_walkFrom_eq size hpreloads hvisit rounds
      (t.cursor before) visited session
    rw [hlater] at hanswered
    obtain ⟨rest, hreplies, -⟩ := hanswered.exists_replies_eq
    have hanswer := t.store_batchRead hserved hsize hrows
    rw [List.take_of_length_le hshort.le] at hanswer
    exact ⟨rest, hreplies.trans (congrArg (· :: rest) hanswer)⟩
  | @full page rows pages hfull hpages ih =>
    obtain ⟨rounds, rfl⟩ : ∃ n, rounds = n + 1 := ⟨rounds - 1, by omega⟩
    obtain ⟨hne, hlong⟩ := ne_nil_of_full hsize hpos hfull
    obtain ⟨sent, logged, hlater⟩ := exists_run_walkFrom_eq size hpreloads hvisit rounds
      (t.cursor before) visited session
    rw [hlater] at hanswered
    obtain ⟨replies, hreplies, hfurther⟩ := hanswered.exists_replies_eq
    have hanswer := t.store_batchRead hserved hsize hrows
    rw [List.take_left' hfull] at hanswer
    have hfirst : session.replies = .rows page :: replies :=
      hreplies.trans (congrArg (· :: replies) hanswer)
    have hnext : t.ascending = before ++ page ++ rows := by rw [hrows, List.append_assoc]
    have htail : (session.after [r.batchRead size (t.cursor before)] []).replies = replies :=
      Session.replies_after_singleton hfirst _ _
    rw [← hlater, t.run_walkFrom_full hpreloads hvisit (t.mem_rows_of_ascending hrows) hne hlong
      before rounds visited (Session.answer_zero hfirst)] at hfurther
    have hfewer : (session.after [r.batchRead size (t.cursor before)] []).replies.length <
        rounds := by
      rw [hfirst, List.length_cons] at hrounds
      rw [htail]
      omega
    obtain ⟨rest, hrest⟩ := ih hnext hfewer _ hfurther
    exact ⟨rest, by rw [hfirst, ← htail, hrest]; rfl⟩

end

end KeyedRows

/-! ### The walk of a repository -/

namespace Repository

/-- How many rows a batch has when it is full: as many as asked for, and one for less than one. -/
def batchRows (size : Int64) : Nat := if size.toInt < 1 then 1 else size.toInt.toNat

theorem toInt_batchSize (size : Int64) : (batchSize size).toInt = batchRows size := by
  rw [batchSize, batchRows, toInt_max, Int64.toInt_one]
  split <;> omega

theorem batchRows_pos (size : Int64) : 0 < batchRows size := by
  rw [batchRows]
  split <;> omega

end Repository

namespace KeyedRows

open Repository

variable {α κ : Type} [LinearOrder κ] {r : Repository α}

/-- A walk that has visited rows with keys: each of them once, in the ascending order of their keys,
in batches without a gap in their numbers, all full but the last and none without rows. It ends by
itself with the number of rows, having executed nothing but reads of batches, which do not depend on
the order, the limit and the offset of the query. -/
structure VisitedBy (t : KeyedRows r κ) (size : Int64) (visit : BatchVisitor α) (session : Session)
    (run : BatchWalk α × Session) : Prop where
  rows : run.1.batches.flatMap (·.rows) = t.ascending.map t.value
  numbers : run.1.batches.map (·.number) = List.range' 1 run.1.batches.length
  full : ∀ batch ∈ run.1.batches.dropLast, batch.rows.length = batchRows size
  nonempty : ∀ batch ∈ run.1.batches, batch.rows ≠ []
  outcome : run.1.outcome = .ok t.rows.length
  reads : ∃ keys : List (Option Json), keys.length = t.rows.length / batchRows size + 1 ∧
    run.2 = session.after (keys.map fun key ↦
      (({ r.query with ordering := [], limit := none, offset := none } : Query).batch
        (batchSize size) key).selectStatement []) []
  ends : ∀ rounds, session.replies.length < rounds →
    (r.walkFrom (batchSize size) visit rounds none []).run session = run

variable (t : KeyedRows r κ) {size : Int64} {visit : BatchVisitor α} {store : Executed → Reply}

omit [LinearOrder κ] in
private theorem map_rows_batches (number : Nat) (pages : List (List Row)) :
    (t.batches number pages).map (·.rows) = (Pages.visited pages).map (List.map t.value) := by
  rw [batches, List.map_map]
  have hfst := List.zipIdx_map_fst number (Pages.visited pages)
  exact (List.map_map (g := List.map t.value) (f := Prod.fst)).symm.trans
    (congrArg (List.map (List.map t.value)) hfst)

-- The walk that the pages of all rows come to has visited them.
private theorem visitedBy_pages (hpreloads : r.query.preloads = [])
    (hvisit : ∀ visited batch, visit visited batch = .ok ()) {pages : List (List Row)}
    (hpages : Pages (batchRows size) t.ascending pages) {session : Session} {rest : List Reply}
    (hreplies : session.replies = pages.map .rows ++ rest) :
    t.VisitedBy size visit session
      (⟨t.batches 1 pages, .ok t.rows.length⟩,
        session.after ((t.cursors [] pages).map (r.batchRead (batchSize size))) []) := by
  have hpos := batchRows_pos size
  have hmap := t.map_rows_batches 1 pages
  refine ⟨?_, ?_, ?_, ?_, rfl, ?_, ?_⟩
  · have hflatten : (t.batches 1 pages).flatMap (·.rows) =
        ((t.batches 1 pages).map (·.rows)).flatten := rfl
    rw [hflatten, hmap, ← List.map_flatten, Pages.flatten_visited, hpages.flatten_eq]
  · simp only [batches, List.map_map, List.length_map, List.length_zipIdx]
    exact List.zipIdx_map_snd 1 (Pages.visited pages)
  · intro batch hbatch
    have hmem : batch.rows ∈ (t.batches 1 pages).dropLast.map (·.rows) :=
      List.mem_map_of_mem hbatch
    rw [List.map_dropLast, hmap, ← List.map_dropLast] at hmem
    obtain ⟨page, hpage, hrows⟩ := List.mem_map.1 hmem
    rw [← hrows, List.length_map]
    exact hpages.length_of_mem_dropLast_visited hpos page hpage
  · intro batch hbatch
    have hmem : batch.rows ∈ (t.batches 1 pages).map (·.rows) := List.mem_map_of_mem hbatch
    rw [hmap] at hmem
    obtain ⟨page, hpage, hrows⟩ := List.mem_map.1 hmem
    have hne := (List.mem_filter.1 hpage).2
    rw [← hrows]
    simpa using hne
  · refine ⟨t.cursors [] pages, ?_, rfl⟩
    rw [length_cursors, hpages.length_eq hpos, t.length_ascending]
  · intro rounds hrounds
    have hlength : pages.length ≤ rounds := by
      rw [hreplies, List.length_append, List.length_map] at hrounds
      omega
    have hrun := t.run_walkFrom_pages hpreloads hvisit (toInt_batchSize size) hpos hpages
      (List.nil_append _).symm hlength [] hreplies
    have hcount : rowCount ([] : List (Batch α)) + t.ascending.length = t.rows.length := by
      rw [t.length_ascending]
      exact Nat.zero_add _
    rw [hcount] at hrun
    exact hrun

/-- A walk in batches visits every row that matches exactly once when the store answers its reads
with the next rows: whatever session the store answers, and there are sessions that it does. -/
theorem findInBatches_visits (hserved : t.ServedBy (batchSize size) store)
    (hpreloads : r.query.preloads = [])
    (hvisit : ∀ visited batch, visit visited batch = .ok ()) :
    (∀ session : Session,
      session.AnsweredBy store ((r.findInBatches size visit).run session).2 →
      t.VisitedBy size visit session ((r.findInBatches size visit).run session)) ∧
    ∃ replies : List Reply, replies.length = t.rows.length / batchRows size + 1 ∧
      ∀ rest executed events,
        let session : Session := ⟨replies ++ rest, executed, events⟩
        session.AnsweredBy store ((r.findInBatches size visit).run session).2 := by
  have hpos := batchRows_pos size
  obtain ⟨pages, hpages⟩ := Pages.exists_of_pos hpos t.ascending
  have hlength : pages.length = t.rows.length / batchRows size + 1 := by
    rw [hpages.length_eq hpos, t.length_ascending]
  have hstart : t.ascending = [] ++ t.ascending := (List.nil_append _).symm
  have hrun (session : Session) (rest : List Reply)
      (hreplies : session.replies = pages.map .rows ++ rest) :
      (r.findInBatches size visit).run session =
        (⟨t.batches 1 pages, .ok t.rows.length⟩,
          session.after ((t.cursors [] pages).map (r.batchRead (batchSize size))) []) :=
    (t.visitedBy_pages hpreloads hvisit hpages hreplies).ends _ (Nat.lt_succ_self _)
  refine ⟨?_, pages.map .rows, by rw [List.length_map, hlength], ?_⟩
  · intro session hanswered
    obtain ⟨rest, hreplies⟩ := t.exists_replies_eq hpreloads hvisit hserved (toInt_batchSize size)
      hpos hpages hstart (Nat.lt_succ_self _) [] hanswered
    rw [hrun session rest hreplies]
    exact t.visitedBy_pages hpreloads hvisit hpages hreplies
  · intro rest executed events session
    have hanswers := t.map_answer_cursors hserved (toInt_batchSize size) hpages hstart
    rw [hrun session rest rfl, Session.answeredBy_after_iff, hanswers, List.length_map,
      length_cursors]
    exact List.take_left' (List.length_map _)

/-- Products under a query with an order and a window. -/
def queriedProducts : Repository Fields :=
  ofProducts.refine fun q ↦ ((q.orderBy "price").withLimit 1).withOffset 3

/-- A product as a row of the store. -/
def productRow (id price : Int) : Row :=
  .ofList [("id", .int id), ("price", .int price), ("deleted_at", .null)]

/-- The key of a product. -/
def productKey (row : Row) : Int := ((row.get? "id").bind Json.int64?).elim 0 Int64.toInt

/-- Four products, not in the order of their keys, under a query with an order and a window. -/
def windowedProducts :
    KeyedRows queriedProducts Int where
  rows := [productRow 3 1, productRow 1 2, productRow 4 1, productRow 2 5]
  key := productKey
  value := id
  json := .int
  reads := by
    simp only [List.forall_mem_cons]
    exact ⟨rfl, rfl, rfl, rfl, List.forall_mem_nil _⟩
  holds := by
    simp only [List.forall_mem_cons]
    exact ⟨rfl, rfl, rfl, rfl, List.forall_mem_nil _⟩
  distinct := by decide +kernel

/-- The key that a read of the products starts after: its argument, if it has one. -/
def argumentKey? : List Argument → Option Int
  | [.int8 key] => some key.toInt
  | _ => none

/-- A store of the products that gives two of them at a time. -/
def productStore (statement : Executed) : Reply :=
  .rows (windowedProducts.page 2 (argumentKey? statement.args))

/-- Four products in batches of two: both batches are full, so a third read finds nothing. -/
theorem findInBatches_visits_products :
    windowedProducts.ServedBy (batchSize 2) productStore ∧
      ∃ session : Session, ∃ batches later,
        (queriedProducts.findInBatches 2 fun _ _ ↦ .ok ()).run session =
          (⟨batches, .ok 4⟩, later) ∧
        session.AnsweredBy productStore later ∧
        batches.flatMap (·.rows) =
          [productRow 1 2, productRow 2 5, productRow 3 1, productRow 4 1] ∧
        ∃ sent : List Statement, later = session.after sent [] ∧ sent.length = 3 := by
  have hserved : windowedProducts.ServedBy (batchSize 2) productStore := by
    have hkeys : ∀ after ∈ [none, some 3, some 1, some 4, some 2],
        argumentKey? (Executed.ofStatement ((queriedProducts.query.batch (batchSize 2)
          (after.map Json.int)).selectStatement [])).args = after := by decide +kernel
    intro after hafter
    have hmem : after ∈ [none, some 3, some 1, some 4, some 2] := by
      cases after with
      | none => exact List.mem_cons_self
      | some key =>
        have hkey : key ∈ [3, 1, 4, 2] := hafter key rfl
        simpa using hkey
    exact congrArg (fun key ↦ Reply.rows (windowedProducts.page 2 key)) (hkeys after hmem)
  refine ⟨hserved, ?_⟩
  have hvisit : ∀ visited batch, (fun _ _ ↦ .ok () : BatchVisitor Fields) visited batch = .ok () :=
    fun _ _ ↦ rfl
  obtain ⟨hvisits, replies, -, hanswered⟩ :=
    windowedProducts.findInBatches_visits hserved rfl hvisit
  have hvisited := hvisits _ (hanswered [] [] [])
  obtain ⟨keys, hlength, hlater⟩ := hvisited.reads
  refine ⟨_, _, _, Prod.ext (congrArg (BatchWalk.mk _) hvisited.outcome) rfl, hanswered [] [] [],
    hvisited.rows.trans (by decide +kernel), _, hlater, ?_⟩
  rw [List.length_map, hlength]
  decide

end KeyedRows

end RecordStore
