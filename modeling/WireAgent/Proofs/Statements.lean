import WireAgent.Config.Reader
import WireAgent.Proofs.Lines

/-!
# What a configuration states

Of the lines of a text only those count that are not empty. They are its `statements`: they decide
what is read from it (`parse_eq`) and what is remarked about it (`remarks_eq`). Around a line break
the statements of a text are those of the text before it and then those of the text behind it,
whatever the break is and whatever other breaks stand next to it (`statements_append_break`).
-/

namespace WireAgent

/-! ## Breaks -/

namespace Text

/-- A break is one by itself, unless it is a carriage return with a line feed behind it. -/
theorem splitLines_single {c : Char} {rest : List Char} (h : isLineBreak c = true)
    (hsingle : ∀ more, c = '\r' → rest ≠ '\n' :: more) :
    splitLines (c :: rest) = [] :: splitLines rest := by
  rw [splitLines.eq_3 c rest hsingle, if_pos h]

/-- A break at the head of a text ends an empty line, alone or with a line feed behind it. -/
theorem splitLines_break {c : Char} (h : isLineBreak c = true) (rest : List Char) :
    splitLines (c :: rest) = [] :: splitLines rest ∨
      ∃ more, rest = '\n' :: more ∧ splitLines (c :: rest) = [] :: splitLines more := by
  by_cases hpair : ∃ more, c = '\r' ∧ rest = '\n' :: more
  · obtain ⟨more, rfl, rfl⟩ := hpair
    exact .inr ⟨more, rfl, rfl⟩
  · exact .inl (splitLines_single h fun more hc hrest => hpair ⟨more, hc, hrest⟩)

/-- A text without breaks has no lines but itself. -/
theorem splitLines_of_isLine {line : List Char} (h : IsLine line) :
    splitLines line = if line = [] then [] else [line] := by
  induction line with
  | nil => rfl
  | cons c line ih =>
    obtain ⟨hc, hline⟩ := isLine_cons.mp h
    rw [splitLines_cons hc, ih hline]
    cases line <;> rfl

end Text

namespace Config

/-! ## Statements -/

/-- What lines say, without the empty ones. -/
def stated (lines : List (List Char)) : List Line :=
  (lines.map Line.ofText).filter (· ≠ .empty)

/-- What the lines of a text say, without the empty ones. -/
def statements (text : List Char) : List Line := stated (Text.splitLines text)

theorem stated_append (lines lines' : List (List Char)) :
    stated (lines ++ lines') = stated lines ++ stated lines' := by
  rw [stated, List.map_append, List.filter_append]
  rfl

theorem stated_cons (line : List Char) (lines : List (List Char)) :
    stated (line :: lines) = stated [line] ++ stated lines :=
  stated_append [line] lines

/-- A line that is read as empty states nothing. -/
theorem stated_of_empty {line : List Char} (h : Line.ofText line = .empty) :
    stated [line] = [] := by
  simp [stated, h]

theorem stated_congr {line line' : List Char} (h : Line.ofText line' = Line.ofText line) :
    stated [line'] = stated [line] := by
  simp [stated, h]

/-- Empty lines are taken without effect. -/
theorem foldlM_filter (lines : List Line) (values : Values) :
    (lines.filter (· ≠ .empty)).foldlM Line.apply values = lines.foldlM Line.apply values := by
  induction lines generalizing values with
  | nil => rfl
  | cons line lines ih =>
    by_cases hline : line = .empty
    · subst hline
      exact ih values
    · rw [List.filter_cons_of_pos (by simpa using hline), List.foldlM_cons, List.foldlM_cons]
      exact bind_congr ih

/-- A configuration is read from the statements of a text. -/
theorem parse_eq (text : List Char) : parse text = (statements text).foldlM Line.apply [] :=
  (foldlM_filter _ _).symm

/-- Nothing is remarked about empty lines. -/
theorem remarks_filter (lines : List Line) :
    ((lines.filter (· ≠ .empty)).takeWhile fun line => !line.isFailed).filterMap Line.remark? =
      (lines.takeWhile fun line => !line.isFailed).filterMap Line.remark? := by
  induction lines with
  | nil => rfl
  | cons line lines ih =>
    by_cases hline : line = .empty
    · subst hline
      exact ih
    · rw [List.filter_cons_of_pos (by simpa using hline), List.takeWhile_cons, List.takeWhile_cons]
      split
      · rw [List.filterMap_cons, List.filterMap_cons, ih]
      · rfl

/-- What is remarked about a text is remarked about its statements. -/
theorem remarks_eq (text : List Char) :
    remarks text =
      ((statements text).takeWhile fun line => !line.isFailed).filterMap Line.remark? :=
  (remarks_filter _).symm

/-! ## Texts in parts -/

theorem statements_of_isLine {line : List Char} (h : Text.IsLine line) :
    statements line = stated [line] := by
  rw [statements, Text.splitLines_of_isLine h]
  split
  · next hnil =>
    subst hnil
    rfl
  · rfl

/-- A text states what its first line says, and then what the other lines state. -/
theorem statements_eq (text : List Char) :
    statements text =
      stated [(Text.splitLines text).head?.getD []] ++ stated (Text.splitLines text).tail := by
  rw [statements]
  cases Text.splitLines text with
  | nil => rfl
  | cons line lines => exact stated_cons line lines

/-- A break at the head of a text leaves the first line empty and the statements to the others. -/
theorem lines_break {c : Char} (h : Text.isLineBreak c = true) (rest : List Char) :
    (Text.splitLines (c :: rest)).head?.getD [] = [] ∧
      stated (Text.splitLines (c :: rest)).tail = statements rest := by
  rcases Text.splitLines_break h rest with hlines | ⟨more, rfl, hlines⟩
  · rw [hlines]
    exact ⟨rfl, rfl⟩
  · rw [hlines]
    exact ⟨rfl, rfl⟩

/-- A break at the head of a text states nothing. -/
theorem statements_break {c : Char} (h : Text.isLineBreak c = true) (rest : List Char) :
    statements (c :: rest) = statements rest := by
  obtain ⟨hhead, htail⟩ := lines_break h rest
  rw [statements_eq, hhead, htail]
  rfl

/-- A break ends what is before it. The first line goes on at the front while the text is gone
through, so it is kept apart from the others. -/
theorem lines_append_break {c : Char} (h : Text.isLineBreak c = true) (first second : List Char) :
    (Text.splitLines (first ++ c :: second)).head?.getD [] =
        (Text.splitLines first).head?.getD [] ∧
      stated (Text.splitLines (first ++ c :: second)).tail =
        stated (Text.splitLines first).tail ++ statements second := by
  induction first with
  | nil => exact lines_break h second
  | cons d first ih =>
    rcases Bool.eq_false_or_eq_true (Text.isLineBreak d) with hd | hd
    · obtain ⟨hhead, htail⟩ := lines_break hd first
      obtain ⟨hhead', htail'⟩ := lines_break hd (first ++ c :: second)
      rw [List.cons_append, hhead, hhead', htail, htail', statements_eq, ih.1, ih.2,
        statements_eq first, List.append_assoc]
      exact ⟨rfl, rfl⟩
    · rw [List.cons_append, Text.splitLines_cons hd, Text.splitLines_cons hd]
      exact ⟨congrArg (d :: ·) ih.1, ih.2⟩

/-- A break parts what a text states, whether or not it is one break with what stands next to it. -/
theorem statements_append_break {c : Char} (h : Text.isLineBreak c = true)
    (first second : List Char) :
    statements (first ++ c :: second) = statements first ++ statements second := by
  obtain ⟨hhead, htail⟩ := lines_append_break h first second
  rw [statements_eq, hhead, htail, statements_eq first, List.append_assoc]

end Config

end WireAgent
