import RecordStore.Page.OrderBy
import RecordStore.Proofs.Page.SortDirective

/-!
# The entries of a sort parameter

A sort parameter is read entry by entry, and an entry in one of three forms: a column alone, with a
word behind it, or with a word around it. What is read is written as a sort parameter again, and
that is read as what it is.
-/

namespace RecordStore

namespace OrderBy

open Identifier

/-- A word as it stands around a column: one or more letters of ASCII. -/
def IsWord (word : String) : Prop := word ≠ "" ∧ ∀ c ∈ word.toList, c.isAlpha = true

/-- A column and the direction that a word asks for: upwards for `asc` in any case, and else
downwards. -/
def directed (column word : String) : String :=
  if word.toList.map Char.toLower = "asc".toList then column ++ " asc" else column ++ " desc"

/-- What an entry is kept as. -/
def entryText? (entry : List Char) : Option String :=
  Option.map requestText <| entry? entry

/-- The forms of an entry that has no blanks around it, and what it is read as in each of them. -/
inductive IsEntry : String → String → Prop
  | alone {column : String} (hcolumn : isColumnReference column = true) :
    IsEntry column (column ++ " desc")
  | behind {column word : String} (hcolumn : isColumnReference column = true)
    (hword : ' ' ∉ word.toList) : IsEntry (column ++ " " ++ word) (directed column word)
  | around {column word : String} (hcolumn : isColumnReference column = true)
    (hword : IsWord word) : IsEntry (word ++ "(" ++ column ++ ")") (directed column word)

/-! ### The characters of columns and words -/

private theorem not_blank_column {column : String} (h : isColumnReference column = true) :
    column.toList ≠ [] ∧ ∀ c ∈ column.toList, isBlankChar c = false :=
  ⟨(forall_of_isColumnReference h).1, (SortDirective.isColumnReference_iff.1 h).1.not_blank⟩

private theorem IsWord.not_blank {word : String} (h : IsWord word) :
    word.toList ≠ [] ∧ ∀ c ∈ word.toList, isBlankChar c = false := by
  refine ⟨by simpa using h.1, ?_⟩
  intro c hc
  exact not_isBlankChar_of_isAlphanum (by simp [Char.isAlphanum, h.2 c hc])

private theorem IsWord.not_mem {word : String} (h : IsWord word) {c : Char}
    (hc : c.isAlpha = false) : c ∉ word.toList := by
  intro hmem
  rw [h.2 c hmem] at hc
  cases hc

/-! ### The forms of an entry -/

private theorem isBracketed_eq_true_iff {c : Char} :
    isBracketed c = true ↔ c ≠ '(' ∧ c ≠ ')' ∧ isBlankChar c = false := by
  simp [isBracketed, and_assoc]

/-- An entry has the form with brackets exactly when a word of letters stands before them, and
between them a text that is not empty and holds neither brackets nor blanks. -/
theorem bracketForm?_eq_some_iff {entry word column : List Char} :
    bracketForm? entry = some (word, column) ↔
      (word ≠ [] ∧ ∀ c ∈ word, c.isAlpha = true) ∧
        (column ≠ [] ∧ ∀ c ∈ column, isBracketed c = true) ∧
        entry = word ++ '(' :: (column ++ [')']) := by
  constructor
  · intro h
    unfold bracketForm? at h
    split at h
    · next rest hrest =>
      obtain ⟨⟨hclose, hword, hcolumn⟩, hparts⟩ := Option.ite_none_right_eq_some.1 h
      obtain ⟨rfl, rfl⟩ := Prod.ext_iff.1 (Option.some.inj hparts)
      refine ⟨⟨hword, List.all_eq_true.1 List.all_takeWhile⟩,
        ⟨hcolumn, List.all_eq_true.1 List.all_takeWhile⟩, ?_⟩
      calc entry
          = entry.takeWhile Char.isAlpha ++ entry.dropWhile Char.isAlpha :=
            List.takeWhile_append_dropWhile.symm
        _ = entry.takeWhile Char.isAlpha ++ '(' :: (rest.takeWhile isBracketed ++
              rest.dropWhile isBracketed) := by
            rw [hrest, List.takeWhile_append_dropWhile]
        _ = entry.takeWhile Char.isAlpha ++ '(' :: (rest.takeWhile isBracketed ++ [')']) := by
            rw [hclose]
    · cases h
  · rintro ⟨⟨hword, hletters⟩, ⟨hcolumn, hbracketed⟩, rfl⟩
    have hclose : isBracketed ')' = false := by decide
    have hopen : Char.isAlpha '(' = false := by decide
    simp [bracketForm?, List.takeWhile_append_of_pos hletters,
      List.dropWhile_append_of_pos hletters, List.takeWhile_append_of_pos hbracketed,
      List.dropWhile_append_of_pos hbracketed, hclose, hopen, hword, hcolumn]

-- The letters in front of an opening bracket would be those of the column.
private theorem bracketForm?_eq_none {column behind : List Char} (hcolumn : '(' ∉ column)
    (hbehind : ∀ c ∈ behind.head?, c = ' ') : bracketForm? (column ++ behind) = none := by
  rw [Option.eq_none_iff_forall_ne_some]
  rintro ⟨word, inside⟩ h
  obtain ⟨⟨-, hletters⟩, -, hentry⟩ := bracketForm?_eq_some_iff.1 h
  obtain ⟨letters, hword, hrest⟩ | ⟨letters, hparts, hrest⟩ := List.append_eq_append_iff.1 hentry
  · cases letters with
    | nil => simp [hrest] at hbehind
    | cons c letters =>
      rw [hrest] at hbehind
      obtain rfl : c = ' ' := hbehind c rfl
      exact absurd (hletters ' ' (by simp [hword])) (by decide)
  · cases letters with
    | nil =>
      rw [List.nil_append] at hrest
      rw [← hrest] at hbehind
      exact absurd (hbehind '(' rfl) (by decide)
    | cons c letters =>
      obtain ⟨rfl, -⟩ := List.cons.inj hrest
      exact hcolumn (by simp [hparts])

private theorem requestText_directed (column : String) (word : List Char) :
    requestText ⟨column, direction word⟩ = directed column (String.ofList word) := by
  rw [requestText, directed, direction, String.toList_ofList]
  change column ++ " " ++ SortDirection.lowerKeyword (if word.map Char.toLower = "asc".toList
    then .ascending else .descending) = _
  split <;> simp [SortDirection.lowerKeyword, ← String.toList_inj]

-- The directive of an entry has the column that is taken from it, and the direction of the word.
private theorem exists_wordAndColumn? {entry : List Char} {d : SortDirective}
    (h : entry? entry = some d) :
    ∃ word, wordAndColumn? entry = some (word, d.column.toList) ∧
      isColumnReference d.column = true ∧ d = ⟨d.column, direction word⟩ := by
  unfold entry? at h
  split at h
  · next word column hparts =>
    split at h
    · next hcolumn =>
      cases h
      exact ⟨word, by rwa [String.toList_ofList],
        by rwa [isColumnReference, String.toList_ofList], rfl⟩
    · cases h
  · cases h

private theorem entryText?_of_wordAndColumn? {entry word : List Char} {column : String}
    (h : wordAndColumn? entry = some (word, column.toList))
    (hcolumn : isColumnReference column = true) :
    entryText? entry = some (directed column (String.ofList word)) := by
  have hreference : isReference Char.isAlpha column.toList = true := hcolumn
  unfold entryText? entry?
  rw [h]
  dsimp only
  rw [if_pos hreference, Option.map_some, String.ofList_toList, requestText_directed]

private theorem directed_empty (column : String) : directed column "" = column ++ " desc" :=
  if_neg (by decide)

private theorem isEntry_of_wordAndColumn? {entry word : List Char} {column : String}
    (h : wordAndColumn? entry = some (word, column.toList))
    (hcolumn : isColumnReference column = true) :
    IsEntry (String.ofList entry) (directed column (String.ofList word)) := by
  unfold wordAndColumn? at h
  split at h
  · next hparts =>
    cases h
    obtain ⟨⟨hne, hletters⟩, -, rfl⟩ := bracketForm?_eq_some_iff.1 hparts
    have hword : IsWord (String.ofList word) := by simpa [IsWord] using ⟨hne, hletters⟩
    have hentry : String.ofList (word ++ '(' :: (column.toList ++ [')'])) =
        String.ofList word ++ "(" ++ column ++ ")" := by
      simp [← String.toList_inj]
    rw [hentry]
    exact .around hcolumn hword
  · split at h
    · next hsplit =>
      cases h
      obtain ⟨-, rfl⟩ := splitAll_eq_singleton_iff.1 hsplit
      rw [String.ofList_nil, directed_empty, String.ofList_toList]
      exact .alone hcolumn
    · next hsplit =>
      cases h
      obtain ⟨-, hword, rfl⟩ := splitAll_eq_pair_iff.1 hsplit
      have hentry : String.ofList (column.toList ++ ' ' :: word) =
          column ++ " " ++ String.ofList word := by
        simp [← String.toList_inj]
      rw [hentry]
      exact .behind hcolumn (by rwa [String.toList_ofList])
    · cases h

private theorem wordAndColumn?_alone {column : String} (h : isColumnReference column = true) :
    wordAndColumn? column.toList = some ([], column.toList) := by
  have hbracket : bracketForm? (column.toList ++ []) = none :=
    bracketForm?_eq_none (not_mem_of_isColumnReference h (by decide)) (by simp)
  rw [List.append_nil] at hbracket
  rw [wordAndColumn?, hbracket,
    splitAll_of_not_mem (not_mem_of_isColumnReference h (by decide))]

private theorem wordAndColumn?_behind {column word : String}
    (h : isColumnReference column = true) (hword : ' ' ∉ word.toList) :
    wordAndColumn? (column ++ " " ++ word).toList = some (word.toList, column.toList) := by
  have hentry : (column ++ " " ++ word).toList = column.toList ++ ' ' :: word.toList := by simp
  have hbracket : bracketForm? (column.toList ++ ' ' :: word.toList) = none :=
    bracketForm?_eq_none (not_mem_of_isColumnReference h (by decide)) (by simp)
  have hsplit := splitAll_eq_pair_iff.2
    ⟨not_mem_of_isColumnReference h (c := ' ') (by decide), hword, rfl⟩
  rw [hentry, wordAndColumn?, hbracket, hsplit]

private theorem wordAndColumn?_around {column word : String}
    (h : isColumnReference column = true) (hword : IsWord word) :
    wordAndColumn? (word ++ "(" ++ column ++ ")").toList = some (word.toList, column.toList) := by
  have hbracketed : ∀ c ∈ column.toList, isBracketed c = true := by
    intro c hc
    refine isBracketed_eq_true_iff.2 ⟨?_, ?_, (not_blank_column h).2 c hc⟩
    · rintro rfl
      exact not_mem_of_isColumnReference h (by decide) hc
    · rintro rfl
      exact not_mem_of_isColumnReference h (by decide) hc
  have hbracket : bracketForm? (word ++ "(" ++ column ++ ")").toList =
      some (word.toList, column.toList) :=
    bracketForm?_eq_some_iff.2 ⟨⟨hword.not_blank.1, hword.2⟩,
      ⟨(not_blank_column h).1, hbracketed⟩, by simp⟩
  rw [wordAndColumn?, hbracket]

/-- An entry without blanks around it is read exactly in its forms. -/
theorem entryText?_eq_some_iff {entry text : String} :
    entryText? entry.toList = some text ↔ IsEntry entry text := by
  constructor
  · intro h
    obtain ⟨d, hd, rfl⟩ := Option.map_eq_some_iff.1 h
    obtain ⟨word, hparts, hcolumn, hdirective⟩ := exists_wordAndColumn? hd
    have hread := isEntry_of_wordAndColumn? hparts hcolumn
    rw [hdirective, requestText_directed]
    rwa [String.ofList_toList] at hread
  · intro h
    cases h with
    | alone hcolumn =>
      rw [entryText?_of_wordAndColumn? (wordAndColumn?_alone hcolumn) hcolumn, String.ofList_nil,
        directed_empty]
    | behind hcolumn hword =>
      rw [entryText?_of_wordAndColumn? (wordAndColumn?_behind hcolumn hword) hcolumn,
        String.ofList_toList]
    | around hcolumn hword =>
      rw [entryText?_of_wordAndColumn? (wordAndColumn?_around hcolumn hword) hcolumn,
        String.ofList_toList]

/-! ### The entries of a parameter -/

/-- What stands in front of a comma and what stands behind it are read apart. -/
theorem parse_append (before after : String) :
    parse (before ++ "," ++ after) = parse before ++ parse after := by
  have htext : (before ++ "," ++ after).toList = before.toList ++ ',' :: after.toList := by simp
  simp only [parse, directives, htext, splitAll_append, List.filterMap_append, List.map_append]

-- A parameter without a comma is one entry.
private theorem parse_entry {entry : String} (h : ',' ∉ entry.toList) :
    parse entry = (entryText? (trim entry).toList).toList := by
  unfold entryText?
  rw [parse, directives, splitAll_of_not_mem h, toList_trim, List.filterMap_cons]
  cases entry? (trimChars entry.toList) <;> rfl

/-- One entry is kept exactly as what it is read as. -/
theorem parse_eq_singleton_iff {entry text : String} (h : ',' ∉ entry.toList) :
    parse entry = [text] ↔ IsEntry (trim entry) text := by
  rw [parse_entry h, ← entryText?_eq_some_iff, Option.toList_eq_singleton_iff]

/-- One entry is dropped exactly when it has none of the forms. -/
theorem parse_eq_nil_iff {entry : String} (h : ',' ∉ entry.toList) :
    parse entry = [] ↔ ∀ text, ¬IsEntry (trim entry) text := by
  rw [parse_entry h, Option.toList_eq_nil_iff, Option.eq_none_iff_forall_ne_some]
  simp only [ne_eq, entryText?_eq_some_iff]

/-- What is read sorts by plain column references. -/
theorem isColumnReference_of_mem_directives {parameter : String} {d : SortDirective}
    (h : d ∈ directives parameter) : isColumnReference d.column = true := by
  obtain ⟨entry, -, hentry⟩ := List.mem_filterMap.1 h
  obtain ⟨-, -, hcolumn, -⟩ := exists_wordAndColumn? hentry
  exact hcolumn

-- A directive as a request writes it is an entry with a word behind its column.
private theorem isEntry_requestText {d : SortDirective} (h : isColumnReference d.column = true) :
    IsEntry (requestText d) (requestText d) := by
  have hword : ' ' ∉ d.direction.lowerKeyword.toList := by
    cases d.direction <;> decide
  have hdirection : direction d.direction.lowerKeyword.toList = d.direction := by
    cases d.direction <;> decide
  have hdirected := requestText_directed d.column d.direction.lowerKeyword.toList
  rw [hdirection, String.ofList_toList] at hdirected
  have hentry := IsEntry.behind h hword
  rwa [← hdirected] at hentry

private theorem parse_requestText {d : SortDirective} (h : isColumnReference d.column = true) :
    parse (requestText d) = [requestText d] := by
  have hcomma : ',' ∉ (requestText d).toList := by
    simp only [requestText, String.toList_append, List.mem_append, not_or]
    refine ⟨⟨not_mem_of_isColumnReference h (by decide), by decide⟩, ?_⟩
    cases d.direction <;> decide
  have hkeyword : d.direction.lowerKeyword.toList ≠ [] ∧
      ∀ c ∈ d.direction.lowerKeyword.toList, isBlankChar c = false := by
    cases d.direction <;> simp [SortDirection.lowerKeyword, isBlankChar, blankRanges]
  have htrim : trim (requestText d) = requestText d := by
    have hbetween := trimChars_between [' '] (not_blank_column h) hkeyword
    simpa [← String.toList_inj, requestText] using hbetween
  rw [parse_eq_singleton_iff hcomma, htrim]
  exact isEntry_requestText h

/-- Directives as a request writes them, with commas between them, are read as themselves. -/
theorem parse_intercalate {texts : List String} (h : ∀ text ∈ texts, parse text = [text]) :
    parse (String.intercalate "," texts) = texts := by
  induction texts with
  | nil => decide
  | cons text rest ih =>
    rw [List.forall_mem_cons] at h
    cases rest with
    | nil => rw [String.intercalate_singleton, h.1]
    | cons next rest => rw [String.intercalate_cons_cons, parse_append, h.1, ih h.2]; rfl

/-- What is read from a parameter is read from itself, with commas in it again. -/
theorem parse_intercalate_parse (parameter : String) :
    parse (String.intercalate "," (parse parameter)) = parse parameter := by
  apply parse_intercalate
  intro text htext
  obtain ⟨d, hd, rfl⟩ := List.mem_map.1 htext
  exact parse_requestText (isColumnReference_of_mem_directives hd)

-- An entry of one form between blanks.
private theorem parse_between_blanks {front entry back text : String}
    (hfront : isBlankText front = true) (hback : isBlankText back = true)
    (hcomma : ',' ∉ entry.toList) (htrim : trimChars entry.toList = entry.toList)
    (hentry : IsEntry entry text) : parse (front ++ entry ++ back) = [text] := by
  have hblank : ∀ blanks : String, isBlankText blanks = true → ',' ∉ blanks.toList := by
    intro blanks hblanks hmem
    exact absurd (List.all_eq_true.1 hblanks ',' hmem) (by decide)
  have hcomma_all : ',' ∉ (front ++ entry ++ back).toList := by
    simp [hblank front hfront, hcomma, hblank back hback]
  have htrim_all : trim (front ++ entry ++ back) = entry := by
    rw [← String.toList_inj, toList_trim, String.toList_append, String.toList_append,
      trimChars_append hfront hback, htrim]
  rwa [parse_eq_singleton_iff hcomma_all, htrim_all]

private theorem parse_around {column word front back : String}
    (hcolumn : isColumnReference column = true) (hword : IsWord word)
    (hfront : isBlankText front = true) (hback : isBlankText back = true) :
    parse (front ++ (word ++ "(" ++ column ++ ")") ++ back) = [directed column word] := by
  apply parse_between_blanks hfront hback _ _ (.around hcolumn hword)
  · simp [hword.not_mem (c := ',') (by decide),
      not_mem_of_isColumnReference hcolumn (c := ',') (by decide)]
  · have hclose : [')'] ≠ [] ∧ ∀ c ∈ [')'], isBlankChar c = false :=
      ⟨by simp, List.forall_mem_singleton.2 (by decide)⟩
    have hbetween := trimChars_between ('(' :: column.toList) hword.not_blank hclose
    simpa using hbetween

private theorem parse_behind {column word front back : String}
    (hcolumn : isColumnReference column = true) (hword : IsWord word)
    (hfront : isBlankText front = true) (hback : isBlankText back = true) :
    parse (front ++ (column ++ " " ++ word) ++ back) = [directed column word] := by
  apply parse_between_blanks hfront hback _ _ (.behind hcolumn (hword.not_mem (by decide)))
  · simp [hword.not_mem (c := ',') (by decide),
      not_mem_of_isColumnReference hcolumn (c := ',') (by decide)]
  · have hbetween := trimChars_between [' '] (not_blank_column hcolumn) hword.not_blank
    simpa using hbetween

/-- A sort parameter is read entry by entry, and what is read is read as itself. A word of letters
around a column and one behind it ask for the same direction, whatever blanks there are around the
entry. An entry is kept exactly as its form is read, and dropped exactly when it has none. -/
theorem parse_canonicalizes :
    (∀ before after : String, parse (before ++ "," ++ after) = parse before ++ parse after) ∧
    (∀ parameter : String,
      parse (String.intercalate "," (parse parameter)) = parse parameter) ∧
    (∀ column word front back : String, isColumnReference column = true → IsWord word →
      isBlankText front = true → isBlankText back = true →
      parse (front ++ (word ++ "(" ++ column ++ ")") ++ back) = [directed column word] ∧
        parse (front ++ (column ++ " " ++ word) ++ back) = [directed column word]) ∧
    ∀ entry : String, ',' ∉ entry.toList →
      (∀ text, parse entry = [text] ↔ IsEntry (trim entry) text) ∧
        (parse entry = [] ↔ ∀ text, ¬IsEntry (trim entry) text) := by
  refine ⟨parse_append, parse_intercalate_parse, ?_, ?_⟩
  · intro column word front back hcolumn hword hfront hback
    exact ⟨parse_around hcolumn hword hfront hback, parse_behind hcolumn hword hfront hback⟩
  · intro entry hentry
    exact ⟨fun text ↦ parse_eq_singleton_iff hentry, parse_eq_nil_iff hentry⟩

/-- A word around a column and one behind it, both between blanks, and two entries with one blank
and with two. -/
theorem parse_canonicalizes_titles :
    (isColumnReference "t.title" = true ∧ IsWord "aSC" ∧ isBlankText "\u3000" = true ∧
        isBlankText " \t" = true) ∧
      parse ("\u3000" ++ ("aSC" ++ "(" ++ "t.title" ++ ")") ++ " \t") = ["t.title asc"] ∧
      parse ("\u3000" ++ ("t.title" ++ " " ++ "aSC") ++ " \t") = ["t.title asc"] ∧
      ',' ∉ "title 1".toList ∧ parse "title 1" = ["title desc"] ∧
      ',' ∉ "title  asc".toList ∧ ∀ text, ¬IsEntry (trim "title  asc") text := by
  obtain ⟨-, -, hforms, hentries⟩ := parse_canonicalizes
  have hword : IsWord "aSC" := ⟨by decide, List.all_eq_true.1 (by decide)⟩
  have htitle : IsEntry ("title" ++ " " ++ "1") (directed "title" "1") :=
    .behind (by decide) (by decide)
  have h := hforms "t.title" "aSC" "\u3000" " \t" (by decide) hword (by decide) (by decide)
  refine ⟨⟨by decide, hword, by decide, by decide⟩, h.1, h.2, by decide, ?_, by decide, ?_⟩
  · exact ((hentries "title 1" (by decide)).1 "title desc").2 htitle
  · exact (hentries "title  asc" (by decide)).2.1 (by decide)

end OrderBy

end RecordStore
