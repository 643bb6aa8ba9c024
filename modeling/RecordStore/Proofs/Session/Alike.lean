import RecordStore.Proofs.Session.Answers

/-!
# Runs alike

Two actions run alike when, given the same replies, they end with one outcome and log the same,
having sent as many statements, each related to the one that the other action has sent in its place.
Actions one after another run alike when each of them does, since what is left of the replies is the
same for both.
-/

namespace RecordStore

variable {ε α β : Type} {P : Statement → Statement → Prop} {session other : Session}

/-- Two runs with one outcome and the same events, whose statements are related one by one. -/
def RanAlike (P : Statement → Statement → Prop) (session other : Session)
    (first second : Except ε α × Session) : Prop :=
  ∃ outcome sent further logged, List.Forall₂ P sent further ∧
    first = (outcome, session.after sent logged) ∧ second = (outcome, other.after further logged)

/-- Two actions that run alike in all sessions with the same replies. -/
def Action.Alike (P : Statement → Statement → Prop) (first second : Action ε α) : Prop :=
  ∀ session other : Session, session.replies = other.replies →
    RanAlike P session other (first.runIn session) (second.runIn other)

namespace RanAlike

/-- Doing nothing runs alike. -/
theorem nothing (x : α) : RanAlike (ε := ε) P session other (.ok x, session) (.ok x, other) :=
  ⟨.ok x, [], [], [], .nil, by rw [Session.after_nil], by rw [Session.after_nil]⟩

/-- Runs that end in the same way with related statements are alike. -/
theorem ended (ctx : Context) {s t : Statement} (h : P s t) (outcome : Except RepositoryError α) :
    RanAlike P session other (ctx.ended session [s] outcome) (ctx.ended other [t] outcome) := by
  cases outcome with
  | ok x => exact ⟨.ok x, [s], [t], [], .cons h .nil, rfl, rfl⟩
  | error e => exact ⟨.error e, [s], [t], [ctx.event e], .cons h .nil, rfl, rfl⟩

end RanAlike

namespace Action.Alike

theorem pure (x : α) : (Pure.pure x : Action ε α).Alike P (Pure.pure x) :=
  fun _ _ _ ↦ .nothing x

/-- What is refused is refused alike. -/
theorem require (ctx : Context) (outcome : Except Refusal α) :
    (ctx.require outcome).Alike P (ctx.require outcome) := by
  intro session other _
  cases outcome with
  | ok x => exact .nothing x
  | error refusal =>
    refine ⟨_, [], [], [ctx.event (.refused refusal)], .nil, Context.runIn_require_eq _,
      Context.runIn_require_eq _⟩

/-- What is refused ends both runs, whatever follows. -/
theorem refused (ctx : Context) (refusal : Refusal) (next further : α → Action RepositoryError β) :
    (ctx.require (.error refusal) >>= next).Alike P (ctx.require (.error refusal) >>= further) := by
  intro session other _
  rw [Context.runIn_bind_error (Context.runIn_require_eq _),
    Context.runIn_bind_error (Context.runIn_require_eq _)]
  exact ⟨_, [], [], _, .nil, rfl, rfl⟩

/-- Actions that read their answers alike run alike when their statements are related. -/
theorem database (ctx : Context) {s t : Statement} {decode : Reply → Except StoreError α}
    {first second : Action StoreError α} (hfirst : first.Asks s decode)
    (hsecond : second.Asks t decode) (h : P s t) :
    (ctx.database first).Alike P (ctx.database second) := by
  intro session other hreplies
  have hanswer : session.answer 0 = other.answer 0 := by
    rw [Session.answer, Session.answer, hreplies]
  rw [Context.runIn_database_eq hfirst, Context.runIn_database_eq hsecond, hanswer]
  exact .ended ctx h _

/-- Actions one after another run alike when each of them does. -/
theorem bind {first second : Action ε α} {next further : α → Action ε β}
    (h : first.Alike P second) (hnext : ∀ x, (next x).Alike P (further x)) :
    (first >>= next).Alike P (second >>= further) := by
  intro session other hreplies
  obtain ⟨outcome, sent, sent', logged, hsent, hfirst, hsecond⟩ := h session other hreplies
  rw [runIn_bind, runIn_bind, hfirst, hsecond]
  cases outcome with
  | error e => exact ⟨.error e, sent, sent', logged, hsent, rfl, rfl⟩
  | ok x =>
    have hleft : (session.after sent logged).replies = (other.after sent' logged).replies := by
      rw [Session.after, Session.after, hreplies, hsent.length_eq]
    obtain ⟨outcome, later, later', added, hlater, hfirst, hsecond⟩ := hnext x _ _ hleft
    refine ⟨outcome, sent ++ later, sent' ++ later', logged ++ added, List.rel_append hsent hlater,
      ?_, ?_⟩
    · rw [← Session.after_after]
      exact hfirst
    · rw [← Session.after_after]
      exact hsecond

end Action.Alike

end RecordStore
