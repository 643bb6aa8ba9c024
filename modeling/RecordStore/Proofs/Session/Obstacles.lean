import RecordStore.Proofs.Session.Answers

/-!
# What makes an action fail

An action fails for one of two reasons: something that it is given is refused, or the store answers
one of its statements in a way that it cannot go on with. Which answers these are depends on what
the action takes from them.
-/

namespace RecordStore

/-! ### Answers -/

/-- What an action takes from the answer to a statement. -/
inductive Taken where
  /-- The number of rows, none of which is read. -/
  | count
  /-- The first row, which has to be there. -/
  | row
  /-- The first row, if there is one. -/
  | rowIfAny
  /-- All rows. -/
  | rows
deriving DecidableEq

/-- The rows of an answer that are read. -/
def Taken.read : Taken → List Row → List Row
  | .count, _ => []
  | .row, found => found.take 1
  | .rowIfAny, found => found.take 1
  | .rows, found => found

/-- A row that a reader fails on. -/
def RowReader.Fails {α : Type} (read : RowReader α) (row : Row) : Prop := ∃ e, read row = .error e

/-- Why an action cannot go on with an answer. -/
inductive Reply.Stops (unreadable : Row → Prop) (taken : Taken) (reply : Reply) : Prop
  /-- The store reports a failure. -/
  | error (herror : reply.isError = true)
  /-- There is no row, and one is needed. -/
  | missing (htaken : taken = .row) (hnone : reply.toRows = .ok [])
  /-- A row that is needed cannot be read. -/
  | unreadable {found : List Row} {row : Row} (hfound : reply.toRows = .ok found)
    (hrow : row ∈ taken.read found) (hread : unreadable row)

namespace Reply

variable {α : Type} {unreadable : Row → Prop} {taken : Taken} {read : RowReader α}

/-- Rows stop an action when one is needed and there is none, or when one of those that are read
cannot be. -/
theorem stops_iff_of_toRows {reply : Reply} {found : List Row} (h : reply.toRows = .ok found) :
    reply.Stops unreadable taken ↔
      (taken = .row ∧ found = []) ∨ ∃ row ∈ taken.read found, unreadable row := by
  constructor
  · rintro (herror | ⟨htaken, hnone⟩ | ⟨hfound, hrow, hread⟩)
    · cases reply with
      | error message => cases h
      | _ => cases herror
    · rw [h] at hnone
      cases hnone
      exact .inl ⟨htaken, rfl⟩
    · rw [h] at hfound
      cases hfound
      exact .inr ⟨_, hrow, hread⟩
  · rintro (⟨htaken, rfl⟩ | ⟨row, hrow, hread⟩)
    · exact .missing htaken h
    · exact .unreadable h hrow hread

-- Only an error comes without rows.
private theorem isError_of_toRows {reply : Reply} {e : StoreError} (h : reply.toRows = .error e) :
    reply.isError = true := by
  cases reply with
  | error message => rfl
  | _ => cases h

/-- All rows of an answer are had unless it stops. -/
theorem decodeAll_fails_iff (reply : Reply) :
    (∃ e, reply.decodeAll read = .error e) ↔ reply.Stops read.Fails .rows := by
  rw [decodeAll]
  cases h : reply.toRows with
  | error e => exact iff_of_true ⟨e, rfl⟩ (.error (isError_of_toRows h))
  | ok found =>
    have hnone : ¬(Taken.rows = .row ∧ found = []) := by simp
    rw [stops_iff_of_toRows h, or_iff_right hnone]
    exact mapM_fails_iff

/-- The first row of an answer is had unless it stops. -/
theorem decodeOne_fails_iff (reply : Reply) :
    (∃ e, reply.decodeOne read = .error e) ↔ reply.Stops read.Fails .row := by
  rw [decodeOne]
  cases h : reply.toRows with
  | error e => exact iff_of_true ⟨e, rfl⟩ (.error (isError_of_toRows h))
  | ok found =>
    rw [stops_iff_of_toRows h]
    cases found with
    | nil => exact iff_of_true ⟨_, rfl⟩ (.inl ⟨rfl, rfl⟩)
    | cons row rest => simp [Taken.read, RowReader.Fails]

/-- The first row of an answer, if there is one, is had unless it stops. -/
theorem decodeOptional_fails_iff (reply : Reply) :
    (∃ e, reply.decodeOptional read = .error e) ↔ reply.Stops read.Fails .rowIfAny := by
  rw [decodeOptional]
  cases h : reply.toRows with
  | error e => exact iff_of_true ⟨e, rfl⟩ (.error (isError_of_toRows h))
  | ok found =>
    rw [stops_iff_of_toRows h]
    cases found with
    | nil => simp [Taken.read]
    | cons row rest =>
      cases hread : read row <;> simp [Taken.read, RowReader.Fails, hread, Except.map]

/-- A row is had from the answer to an optional look-up when there is one and it can be read. -/
theorem decodeOptional_eq_some_iff {reply : Reply} {x : α} :
    reply.decodeOptional read = .ok (some x) ↔
      ∃ row rest, reply.toRows = .ok (row :: rest) ∧ read row = .ok x := by
  rw [decodeOptional]
  cases reply.toRows with
  | error e => simp
  | ok found =>
    cases found with
    | nil => simp
    | cons row rest => cases h : read row <;> simp [Except.map, h]

/-- No row is had from the answer to an optional look-up when there is none. -/
theorem decodeOptional_eq_none_iff {reply : Reply} :
    reply.decodeOptional read = .ok none ↔ reply.toRows = .ok [] := by
  rw [decodeOptional]
  cases reply.toRows with
  | error e => simp
  | ok found =>
    cases found with
    | nil => simp
    | cons row rest => cases h : read row <;> simp [Except.map, h]

/-- The rows of an answer are counted unless it is an error. -/
theorem toCount_fails_iff (reply : Reply) :
    (∃ e, reply.toCount = .error e) ↔ reply.Stops unreadable .count := by
  cases reply with
  | error message => exact iff_of_true ⟨_, rfl⟩ (.error rfl)
  | rows found => rw [stops_iff_of_toRows rfl]; simp [toCount, Taken.read]
  | affected count => rw [stops_iff_of_toRows rfl]; simp [toCount, Taken.read]

end Reply

/-! ### Actions -/

namespace Context

variable {α : Type}

/-- A run fails when its outcome does. -/
theorem ended_fails_iff {ctx : Context} {session : Session} {sent : List Statement}
    {outcome : Except RepositoryError α} :
    (∃ e, (ctx.ended session sent outcome).1 = .error e) ↔ ∃ e, outcome = .error e := by
  cases outcome <;> exact .rfl

/-- A run ends in the session after its statements. -/
theorem exists_ended_eq_after (ctx : Context) (session : Session) (sent : List Statement)
    (outcome : Except RepositoryError α) :
    ∃ logged, (ctx.ended session sent outcome).2 = session.after sent logged := by
  cases outcome <;> exact ⟨_, rfl⟩

end Context

/-- An action fails exactly when something that it is given is refused or one of the answers to its
statements stops it. -/
def Action.FailsBy {ε α : Type} (action : Action ε α) (refused : Prop) (stops : Reply → Prop) :
    Prop :=
  ∀ session : Session, ∃ sent logged,
    (action.runIn session).2 = session.after sent logged ∧
      ((∃ e, (action.runIn session).1 = .error e) ↔
        refused ∨ ∃ n < sent.length, stops (session.answer n))

namespace Action.FailsBy

variable {ε α β : Type} {refused further : Prop} {stops : Reply → Prop} {ctx : Context}

theorem pure (x : α) : (Pure.pure x : Action ε α).FailsBy False stops := by
  intro session
  exact ⟨[], [], session.after_nil.symm, by simp⟩

/-- What is stated about an action may be stated in other words. -/
theorem congr {action : Action ε α} {others : Prop} {ends : Reply → Prop}
    (h : action.FailsBy refused stops) (hrefused : refused ↔ others)
    (hstops : ∀ reply, stops reply ↔ ends reply) : action.FailsBy others ends := by
  intro session
  obtain ⟨sent, logged, hlater, hfails⟩ := h session
  simp only [hrefused, hstops] at hfails
  exact ⟨sent, logged, hlater, hfails⟩

/-- Actions one after another fail for the reasons of either, whatever the first one gives. -/
theorem bind {action : Action ε α} {next : α → Action ε β} (h : action.FailsBy refused stops)
    (hnext : ∀ x, (next x).FailsBy further stops) :
    (action >>= next).FailsBy (refused ∨ further) stops := by
  intro session
  obtain ⟨sent, logged, hlater, hfails⟩ := h session
  rw [runIn_bind]
  cases hrun : action.runIn session with
  | mk outcome later =>
    rw [hrun] at hlater hfails
    cases outcome with
    | error e =>
      refine ⟨sent, logged, hlater, iff_of_true ⟨e, rfl⟩ ?_⟩
      exact (hfails.1 ⟨e, rfl⟩).imp .inl id
    | ok x =>
      obtain ⟨others, events, hend, hnextFails⟩ := hnext x later
      obtain rfl : later = session.after sent logged := hlater
      -- The first action went on, so it was stopped by none of its answers.
      have hfirst : ¬(refused ∨ ∃ n < sent.length, stops (session.answer n)) := by
        rw [← hfails]
        rintro ⟨e, he⟩
        cases he
      obtain ⟨hrefused, hanswers⟩ := not_or.1 hfirst
      refine ⟨sent ++ others, logged ++ events, hend.trans (session.after_after ..), ?_⟩
      dsimp only
      rw [hnextFails, or_iff_right hrefused]
      refine or_congr_right ⟨?_, ?_⟩
      · rintro ⟨n, hn, hstops⟩
        rw [Session.answer_after] at hstops
        exact ⟨sent.length + n, by rw [List.length_append]; omega, hstops⟩
      · rintro ⟨n, hn, hstops⟩
        rcases Nat.lt_or_ge n sent.length with hearlier | hlater
        · exact absurd ⟨n, hearlier, hstops⟩ hanswers
        · obtain ⟨m, rfl⟩ := Nat.exists_eq_add_of_le hlater
          rw [List.length_append] at hn
          exact ⟨m, by omega, by rwa [Session.answer_after]⟩

/-- What is made of the value of an action is no reason to fail. -/
theorem map {action : Action ε α} (h : action.FailsBy refused stops) (f : α → β) :
    (action >>= fun x ↦ Pure.pure (f x)).FailsBy refused stops :=
  (h.bind fun x ↦ .pure (f x)).congr (or_iff_left id) fun _ ↦ .rfl

/-- What follows something that may be refused fails for the reasons that it has for the value that
is there. -/
theorem require_bind {outcome : Except Refusal α} {next : α → Action RepositoryError β}
    {refuses : α → Prop} (hnext : ∀ x, outcome = .ok x → (next x).FailsBy (refuses x) stops) :
    (ctx.require outcome >>= next).FailsBy
      ((∃ refusal, outcome = .error refusal) ∨ ∃ x, outcome = .ok x ∧ refuses x) stops := by
  cases outcome with
  | error refusal =>
    intro session
    refine ⟨[], [ctx.event (.refused refusal)], ?_, iff_of_true ⟨_, rfl⟩ (.inl (.inl ⟨_, rfl⟩))⟩
    rw [runIn_bind, Context.require, Context.runIn_fail, Session.afterLogging_eq]
    rfl
  | ok x => exact (hnext x rfl).congr (by simp) fun _ ↦ .rfl

/-- What may be refused fails by its refusal alone. -/
theorem require (outcome : Except Refusal α) :
    (ctx.require outcome).FailsBy (∃ refusal, outcome = .error refusal) stops := by
  rw [← bind_pure (ctx.require outcome)]
  exact (require_bind fun x _ ↦ .pure x).congr (by simp) fun _ ↦ .rfl

/-- An action that sends one statement and fails when its answer stops it. -/
theorem of_ended (ctx : Context) (s : Statement) {action : Action RepositoryError α}
    (h : ∀ session : Session, ∃ outcome, action.runIn session = ctx.ended session [s] outcome ∧
      ((∃ e, outcome = .error e) ↔ stops (session.answer 0))) :
    action.FailsBy False stops := by
  intro session
  obtain ⟨outcome, hrun, hfails⟩ := h session
  obtain ⟨logged, hlater⟩ := ctx.exists_ended_eq_after session [s] outcome
  refine ⟨[s], logged, by rw [hrun, hlater], ?_⟩
  rw [hrun, Context.ended_fails_iff, hfails, false_or]
  constructor
  · intro hstops
    exact ⟨0, Nat.one_pos, hstops⟩
  · rintro ⟨n, hn, hstops⟩
    obtain rfl : n = 0 := Nat.lt_one_iff.1 hn
    exact hstops

/-- A reported action of the store fails when it cannot read its answer. -/
theorem report {s : Statement} {decode : Reply → Except StoreError α}
    {action : Action StoreError α} (wrap : StoreError → RepositoryError)
    (h : action.Asks s decode) (hstops : ∀ reply, (∃ e, decode reply = .error e) ↔ stops reply) :
    (ctx.report wrap action).FailsBy False stops :=
  of_ended ctx s fun session ↦
    ⟨_, Context.runIn_report_eq wrap (h session), mapError_fails_iff.trans (hstops _)⟩

/-- What follows a statement whose answer was read fails for its own reasons, by the answers behind
the first one. -/
theorem behind {first : Action RepositoryError α} {next : α → Action RepositoryError β} {x : α}
    {s : Statement} {session : Session} (h : (next x).FailsBy refused stops)
    (hfirst : first.runIn session = ctx.ended session [s] (.ok x)) :
    ∃ sent logged, ((first >>= next).runIn session).2 = session.after (s :: sent) logged ∧
      ((∃ e, ((first >>= next).runIn session).1 = .error e) ↔
        refused ∨ ∃ n < sent.length, stops (session.answer (n + 1))) := by
  obtain ⟨sent, logged, hlater, hfails⟩ := h (session.after [s] [])
  rw [Context.runIn_bind_ok hfirst]
  refine ⟨sent, logged, hlater.trans (session.after_after ..), ?_⟩
  simp only [Session.answer_after, List.length_singleton, Nat.add_comm 1] at hfails
  exact hfails

end Action.FailsBy

end RecordStore
