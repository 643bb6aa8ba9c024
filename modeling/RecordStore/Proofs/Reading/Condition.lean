import RecordStore.Proofs.Reading.Formula
import RecordStore.Proofs.Reading.Operands
import RecordStore.Proofs.Reading.Term

/-!
# Conditions in SQL

A condition is a list of alternatives, each a list of operands. An operand that is one pair of
parentheses is the condition inside it; every other operand is an atom, whatever stands in it. An
operand is never empty. `NOT` belongs to its
operand, and the two halves of `BETWEEN` are read as operands of the `AND` between them.
-/

namespace RecordStore.Reading

/-- An atom of a condition: the terms of its text. -/
abbrev Atom := List Term

/-- Whether a term is the keyword of a conjunction. -/
def Term.isConnective (c : Conjunction) : Term → Bool
  | .token t => t.isKeyword (keyword c)
  | .paren _ => false

/-- What a term is as an operand of its own, given what the text in its parentheses reads as. -/
abbrev Marked := Term × Option (Formula Atom)

/-- What the terms of an operand are. -/
def operand? : List Marked → Option (Formula Atom)
  | [] => none
  | [(.paren _, reading)] => reading
  | ts => some (.atom (ts.map Prod.fst))

/-- The alternatives of marked terms, each as the conditions that are its operands. -/
def alternatives? (ts : List Marked) : Option (List (List (Formula Atom))) :=
  (operands (fun c t ↦ t.1.isConnective c) ts).mapM fun clause ↦ clause.mapM operand?

/-- The condition with given alternatives. -/
def Formula.ofAlternatives {α : Type} (clauses : List (List (Formula α))) : Formula α :=
  .any (clauses.map .all)

mutual

/-- What the text in the parentheses of a term reads as. -/
def Term.reading : Term → Option (Formula Atom)
  | .token _ => none
  | .paren inside => (alternatives? (mark inside)).map .ofAlternatives

/-- Terms with what each of them reads as. -/
def mark : List Term → List Marked
  | [] => []
  | t :: rest => (t, t.reading) :: mark rest

end

/-- The alternatives of terms. -/
def clauses? (ts : List Term) : Option (List (List (Formula Atom))) := alternatives? (mark ts)

/-- The condition that a text reads as. -/
def read? (cs : List Char) : Option (Formula Atom) :=
  (terms? cs).bind fun ts ↦ (clauses? ts).map .ofAlternatives

/-! ### Conditions under a conjunction and in parentheses -/

private theorem mark_eq_map (ts : List Term) : mark ts = ts.map fun t ↦ (t, t.reading) := by
  induction ts with
  | nil => rfl
  | cons t rest ih => rw [mark, ih, List.map_cons]

/-- Terms have alternatives when each operand between their keywords is a condition. -/
theorem clauses?_eq_some_iff {ts : List Term} {clauses : List (List (Formula Atom))} :
    clauses? ts = some clauses ↔
      List.Forall₂ (List.Forall₂ fun operand φ ↦ operand? operand = some φ)
        (operands (fun c t ↦ t.1.isConnective c) (ts.map fun t ↦ (t, t.reading))) clauses := by
  rw [clauses?, alternatives?, mark_eq_map, mapM_eq_some_iff]
  simp only [mapM_eq_some_iff]

/-- Terms with a keyword between them have the combined alternatives. -/
theorem clauses?_append {as bs : List Term} {first second : List (List (Formula Atom))}
    (has : clauses? as = some first) (c : Conjunction) (hbs : clauses? bs = some second) :
    clauses? (as ++ .token (connective c) :: bs) = some (combine c first second) := by
  rw [clauses?_eq_some_iff] at has hbs ⊢
  rw [List.map_append, List.map_cons]
  cases c with
  | and =>
    rw [operands_append_and _ rfl rfl]
    exact forall₂_under has hbs
  | or =>
    rw [operands_append_or _ rfl]
    exact List.rel_append has hbs

/-- Terms in parentheses are one operand: the condition that they are. -/
theorem clauses?_paren {ts : List Term} {clauses : List (List (Formula Atom))}
    (h : clauses? ts = some clauses) :
    clauses? [.paren ts] = some [[.ofAlternatives clauses]] := by
  have hreading : (Term.paren ts).reading = some (.ofAlternatives clauses) := by
    rw [Term.reading]
    change (clauses? ts).map _ = _
    rw [h]
    rfl
  rw [clauses?_eq_some_iff]
  change List.Forall₂ _ [[[(Term.paren ts, (Term.paren ts).reading)]]] _
  rw [hreading]
  exact .cons (.cons rfl .nil) .nil

/-- Terms without a keyword are an atom, unless they are nothing or one pair of parentheses. -/
theorem clauses?_atom {ts : Atom} (hne : ts ≠ []) (hparen : ∀ inside, ts ≠ [.paren inside])
    (h : ∀ t ∈ ts, ∀ c, t.isConnective c = false) : clauses? ts = some [[.atom ts]] := by
  have hoperand : operand? (ts.map fun t ↦ (t, t.reading)) = some (.atom ts) := by
    match ts with
    | [] => exact absurd rfl hne
    | [.token t] => rfl
    | [.paren inside] => exact absurd rfl (hparen inside)
    | t :: u :: rest => simp [operand?, Function.comp_def]
  rw [clauses?_eq_some_iff, operands_of_forall_not]
  · exact .cons (.cons hoperand .nil) .nil
  · simpa using h

-- What is read from an operand is full when what is read inside its parentheses is.
private theorem full_operand {operand : List Marked} {φ : Formula Atom}
    (hinside : ∀ t ∈ operand, ∀ ψ, t.2 = some ψ → ψ.Full) (h : operand? operand = some φ) :
    φ.Full := by
  match operand with
  | [] => simp [operand?] at h
  | [(.token t, reading)] =>
    obtain rfl : .atom [.token t] = φ := by simpa [operand?] using h
    exact .atom _
  | [(.paren inside, reading)] =>
    exact hinside (.paren inside, reading) (by simp) φ (by simpa [operand?] using h)
  | t :: u :: rest =>
    obtain rfl : .atom ((t :: u :: rest).map Prod.fst) = φ := by simpa [operand?] using h
    exact .atom _

private theorem full_ofAlternatives_of_readings {ts : List Term}
    (hts : ∀ t ∈ ts, ∀ ψ, t.reading = some ψ → ψ.Full) {clauses : List (List (Formula Atom))}
    (h : clauses? ts = some clauses) : (Formula.ofAlternatives clauses).Full := by
  rw [clauses?_eq_some_iff] at h
  have hne := operands_ne_nil (fun c (t : Marked) ↦ t.1.isConnective c)
    (ts.map fun t ↦ (t, t.reading))
  refine .any ?_ ?_
  · intro hnil
    have hclauses : clauses = [] := by simpa using hnil
    rw [hclauses] at h
    exact hne.1 (List.forall₂_nil_right_iff.1 h)
  · intro ψ hψ
    obtain ⟨clause, hclause, rfl⟩ := List.mem_map.1 hψ
    obtain ⟨alternative, halternative, hclauses⟩ := exists_mem_of_forall₂ h hclause
    refine .all ?_ ?_
    · rintro rfl
      exact hne.2 alternative halternative (List.forall₂_nil_right_iff.1 hclauses)
    · intro φ hφ
      obtain ⟨operand, hoperand, hread⟩ := exists_mem_of_forall₂ hclauses hφ
      refine full_operand (fun t ht ↦ ?_) hread
      obtain ⟨u, hu, rfl⟩ := List.mem_map.1 (mem_of_mem_operands halternative hoperand ht)
      exact hts u hu

mutual

private theorem full_reading (t : Term) (φ : Formula Atom) (h : t.reading = some φ) : φ.Full := by
  match t with
  | .token t => simp [Term.reading] at h
  | .paren inside =>
    rw [Term.reading] at h
    obtain ⟨clauses, hclauses, rfl⟩ := Option.map_eq_some_iff.1 h
    exact full_ofAlternatives_of_readings (full_readings inside) hclauses

private theorem full_readings (ts : List Term) :
    ∀ t ∈ ts, ∀ φ, t.reading = some φ → φ.Full := by
  match ts with
  | [] => simp
  | t :: rest =>
    rw [List.forall_mem_cons]
    exact ⟨full_reading t, full_readings rest⟩

end

/-- Every condition that is read is full: no operand is left out. -/
theorem full_of_clauses? {ts : List Term} {clauses : List (List (Formula Atom))}
    (h : clauses? ts = some clauses) : (Formula.ofAlternatives clauses).Full :=
  full_ofAlternatives_of_readings (full_readings ts) h

/-! ### Conditions with labelled atoms -/

section

variable {α : Type}

/-- Whether a text reads as given alternatives, whose atoms are labels that stand for terms. Labels
tell apart atoms with the same text, such as those whose placeholders take different arguments. -/
def ReadsAs (text : α → Atom) (cs : List Char) (clauses : List (List (Formula α))) : Prop :=
  ∃ ts, terms? cs = some ts ∧ clauses? ts = some (clauses.map (List.map (Formula.map text)))

variable {text : α → Atom} {a b : List Char} {first second : List (List (Formula α))}

/-- A text that reads as alternatives reads as the condition with these alternatives. -/
theorem ReadsAs.read? (h : ReadsAs text a first) :
    Reading.read? a = some ((Formula.ofAlternatives first).map text) := by
  obtain ⟨ts, hts, hclauses⟩ := h
  rw [Reading.read?, hts]
  simp [hclauses, Formula.ofAlternatives, Function.comp_def]

-- Labels do not hide that the members are conjunctions.
private theorem exists_map_all {members : List (Formula α)} {clauses : List (List (Formula Atom))}
    (h : members.map (Formula.map text) = clauses.map .all) :
    ∃ labelled : List (List (Formula α)), members = labelled.map .all ∧
      clauses = labelled.map (List.map (Formula.map text)) := by
  induction members generalizing clauses with
  | nil =>
    refine ⟨[], rfl, ?_⟩
    simpa using h.symm
  | cons φ rest ih =>
    cases clauses with
    | nil => simp at h
    | cons clause clauses =>
      simp only [List.map_cons, List.cons.injEq] at h
      obtain ⟨ψs, rfl, rfl⟩ := Formula.map_eq_all_iff.1 h.1
      obtain ⟨labelled, rfl, rfl⟩ := ih h.2
      exact ⟨ψs :: labelled, rfl, rfl⟩

/-- A text that reads as a condition reads as the alternatives of that condition. -/
theorem exists_readsAs {φ : Formula α} (h : Reading.read? a = some (φ.map text)) :
    ∃ clauses, φ = .ofAlternatives clauses ∧ ReadsAs text a clauses := by
  obtain ⟨ts, hts, hread⟩ := Option.bind_eq_some_iff.1 h
  obtain ⟨clauses, hclauses, hφ⟩ := Option.map_eq_some_iff.1 hread
  obtain ⟨members, rfl, hmembers⟩ := Formula.map_eq_any_iff.1 hφ.symm
  obtain ⟨labelled, rfl, rfl⟩ := exists_map_all hmembers
  exact ⟨labelled, rfl, ts, hts, hclauses⟩

/-- A text of tokens without a keyword is an atom. -/
theorem readsAs_of_tokens {cs : List Char} {ts : List Token} {label : α}
    (h : lexemes? cs = some (ts.map .token)) (hlabel : text label = ts.map .token) (hne : ts ≠ [])
    (hkeyword : ∀ t ∈ ts, ∀ c, t.isKeyword (keyword c) = false) :
    ReadsAs text cs [[.atom label]] := by
  refine ⟨ts.map .token, ?_, ?_⟩
  · rw [terms?_eq_some_iff, termLexemes_map_token]
    exact h
  · rw [clauses?_atom]
    · simp [hlabel]
    · simpa using hne
    · intro inside heq
      have hmem : Term.paren inside ∈ ts.map .token := by simp [heq]
      simp at hmem
    · intro t ht c
      obtain ⟨u, hu, rfl⟩ := List.mem_map.1 ht
      exact hkeyword u hu c

/-- Two texts under a conjunction read as the combined alternatives. -/
theorem ReadsAs.append (ha : ReadsAs text a first) (c : Conjunction)
    (hb : ReadsAs text b second) :
    ReadsAs text (a ++ c.separator.toList ++ b) (combine c first second) := by
  obtain ⟨ta, hta, hfirst⟩ := ha
  obtain ⟨tb, htb, hsecond⟩ := hb
  refine ⟨_, terms?_append_separator hta c htb, ?_⟩
  rw [clauses?_append hfirst c hsecond]
  cases c with
  | and => rw [combine, combine, under_map_map]
  | or => rw [combine, combine, List.map_append]

/-- A text in parentheses reads as one operand. -/
theorem ReadsAs.paren (h : ReadsAs text a first) :
    ReadsAs text ('(' :: (a ++ [')'])) [[.ofAlternatives first]] := by
  obtain ⟨ts, hts, hclauses⟩ := h
  refine ⟨_, terms?_paren hts, ?_⟩
  rw [clauses?_paren hclauses]
  simp [Formula.ofAlternatives, Function.comp_def]

/-- The condition that a text reads as is full. -/
theorem ReadsAs.full (h : ReadsAs text a first) : (Formula.ofAlternatives first).Full := by
  obtain ⟨ts, -, hclauses⟩ := h
  have hfull := full_of_clauses? hclauses
  refine .of_map (f := text) ?_
  simpa [Formula.ofAlternatives, Function.comp_def] using hfull

end

end RecordStore.Reading
