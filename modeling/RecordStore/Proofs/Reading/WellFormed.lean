import Mathlib.Data.List.Chain
import RecordStore.Proofs.Reading.Term

/-!
# Well-formed conditions

A condition is well formed when its parentheses are balanced and no operand is missing: no pair of
parentheses is empty, and no keyword of a conjunction comes first, comes last or follows another.
-/

namespace RecordStore.Reading

/-- Whether a lexeme is the keyword of a conjunction. -/
def Lexeme.isConnective : Lexeme → Bool
  | .token t => t.isKeyword (keyword .and) || t.isKeyword (keyword .or)
  | _ => false

/-- Whether an operand is missing between two lexemes that stand next to each other. -/
def lacksOperand (before after : Lexeme) : Bool :=
  (before = .opening || before.isConnective) && (after = .closing || after.isConnective)

/-- Whether lexemes between two parentheses miss no operand. -/
def Complete (ls : List Lexeme) : Prop :=
  List.IsChain (fun before after ↦ lacksOperand before after = false)
    (.opening :: (ls ++ [.closing]))

/-- A text with balanced parentheses that misses no operand. -/
def WellFormed (cs : List Char) : Prop := ∃ ts, terms? cs = some ts ∧ Complete (termLexemes ts)

-- Towards an operand, a keyword is what the parentheses around a text are.
private theorem lacksOperand_connective_right (l : Lexeme) (c : Conjunction) :
    lacksOperand l (.token (connective c)) = lacksOperand l .closing := by
  cases c <;> simp [lacksOperand, Lexeme.isConnective, connective, Token.isKeyword, keyword]

private theorem lacksOperand_connective_left (c : Conjunction) (l : Lexeme) :
    lacksOperand (.token (connective c)) l = lacksOperand .opening l := by
  cases c <;> simp [lacksOperand, Lexeme.isConnective, connective, Token.isKeyword, keyword]

/-- Lexemes that miss no operand miss none under a conjunction. -/
theorem Complete.append {a b : List Lexeme} (ha : Complete a) (c : Conjunction)
    (hb : Complete b) : Complete (a ++ .token (connective c) :: b) := by
  have hleft : List.IsChain (fun before after ↦ lacksOperand before after = false)
      ((.opening :: a) ++ [.token (connective c)]) := by
    change List.IsChain _ ((.opening :: a) ++ [.closing]) at ha
    rw [List.isChain_append] at ha ⊢
    refine ⟨ha.1, .singleton _, ?_⟩
    intro x hx y hy
    obtain rfl : .token (connective c) = y := by simpa using hy
    rw [lacksOperand_connective_right]
    exact ha.2.2 x hx .closing rfl
  have hright : List.IsChain (fun before after ↦ lacksOperand before after = false)
      (.token (connective c) :: (b ++ [.closing])) := by
    rw [Complete, List.isChain_cons] at hb
    rw [List.isChain_cons]
    refine ⟨?_, hb.2⟩
    intro y hy
    rw [lacksOperand_connective_left]
    exact hb.1 y hy
  have hboth := List.isChain_split.2 ⟨hleft, hright⟩
  simpa [Complete] using hboth

/-- Lexemes that miss no operand miss none in parentheses. -/
theorem Complete.paren {a : List Lexeme} (ha : Complete a) :
    Complete (.opening :: (a ++ [.closing])) := by
  change List.IsChain _ (.opening :: ((.opening :: (a ++ [.closing])) ++ [.closing]))
  rw [List.isChain_cons, List.isChain_append]
  refine ⟨?_, ha, .singleton _, ?_⟩
  · intro y hy
    obtain rfl : .opening = y := by simpa using hy
    rfl
  · intro x hx y _
    obtain rfl : .closing = x := by
      simpa [List.getLast?_cons, List.getLast?_append] using hx
    rfl

/-- Lexemes without parentheses and keywords miss no operand unless they are none. -/
theorem complete_of_forall_not {ls : List Lexeme} (hne : ls ≠ [])
    (h : ∀ l ∈ ls, l ≠ .opening ∧ l ≠ .closing ∧ l.isConnective = false) : Complete ls := by
  have hchain : ∀ before after, before ∈ ls ∨ after ∈ ls →
      lacksOperand before after = false := by
    rintro before after (hbefore | hafter)
    · obtain ⟨hopening, -, hconnective⟩ := h before hbefore
      simp [lacksOperand, hopening, hconnective]
    · obtain ⟨-, hclosing, hconnective⟩ := h after hafter
      simp [lacksOperand, hclosing, hconnective]
  rw [Complete, List.isChain_cons, List.isChain_append]
  refine ⟨?_, ?_, .singleton _, ?_⟩
  · intro y hy
    obtain ⟨first, rest, rfl⟩ := List.exists_cons_of_ne_nil hne
    obtain rfl : first = y := by simpa using hy
    exact hchain _ _ (.inr (by simp))
  · apply List.Pairwise.isChain
    exact List.pairwise_of_forall_mem_list fun a ha b _ ↦ hchain a b (.inl ha)
  · intro x hx y _
    exact hchain x y (.inl (List.mem_of_mem_getLast? hx))

/-- Well-formed texts are well formed under a conjunction. -/
theorem WellFormed.append {a b : List Char} (ha : WellFormed a) (c : Conjunction)
    (hb : WellFormed b) : WellFormed (a ++ c.separator.toList ++ b) := by
  obtain ⟨ta, hta, hcomplete_a⟩ := ha
  obtain ⟨tb, htb, hcomplete_b⟩ := hb
  refine ⟨_, terms?_append_separator hta c htb, ?_⟩
  simpa [termLexemes_append, termLexemes, Term.lexemes] using hcomplete_a.append c hcomplete_b

/-- A well-formed text is well formed in parentheses. -/
theorem WellFormed.paren {a : List Char} (ha : WellFormed a) :
    WellFormed ('(' :: (a ++ [')'])) := by
  obtain ⟨ts, hts, hcomplete⟩ := ha
  refine ⟨_, terms?_paren hts, ?_⟩
  simpa [termLexemes, Term.lexemes] using hcomplete.paren

end RecordStore.Reading
