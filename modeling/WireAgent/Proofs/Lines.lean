import Mathlib.Data.List.Basic
import WireAgent.Text.Line

/-!
# Lines of a text

No line of a text holds a line break (`isLine_of_mem_splitLines`), and a text written line by line,
with a line feed after each, has just these lines (`lines_ended`).
-/

namespace WireAgent.Text

/-- Is it a text without line breaks? -/
def IsLine (cs : List Char) : Prop := ∀ c ∈ cs, isLineBreak c = false

instance (cs : List Char) : Decidable (IsLine cs) :=
  List.decidableBAll (fun c => isLineBreak c = false) cs

theorem isLine_cons {c : Char} {cs : List Char} :
    IsLine (c :: cs) ↔ isLineBreak c = false ∧ IsLine cs :=
  List.forall_mem_cons

theorem isLine_append {cs ds : List Char} : IsLine (cs ++ ds) ↔ IsLine cs ∧ IsLine ds :=
  List.forall_mem_append

/-- A character that is no break goes to the first line of what follows. -/
theorem splitLines_cons {c : Char} (h : isLineBreak c = false) (rest : List Char) :
    splitLines (c :: rest) =
      (c :: (splitLines rest).head?.getD []) :: (splitLines rest).tail := by
  have hreturn : c ≠ '\r' := by
    rintro rfl
    exact absurd h (by decide)
  rw [splitLines.eq_3 c rest fun _ heq _ => hreturn heq, if_neg (by simp [h])]
  cases splitLines rest <;> rfl

/-- No line of a text holds a break. -/
theorem isLine_of_mem_splitLines {text line : List Char} (h : line ∈ splitLines text) :
    IsLine line := by
  induction text using splitLines.induct generalizing line with
  | case1 => cases h
  | case2 rest ih =>
    rcases List.mem_cons.mp h with rfl | h
    · exact fun _ hc => nomatch hc
    · exact ih h
  | case3 c rest hpair hbreak ih =>
    rw [splitLines.eq_3 c rest hpair, if_pos hbreak] at h
    rcases List.mem_cons.mp h with rfl | h
    · exact fun _ hc => nomatch hc
    · exact ih h
  | case4 c rest hpair hbreak hrest ih =>
    rw [splitLines_cons (Bool.eq_false_iff.mpr hbreak), hrest] at h
    obtain rfl : line = [c] := List.mem_singleton.mp h
    exact isLine_cons.mpr ⟨Bool.eq_false_iff.mpr hbreak, fun _ hc => nomatch hc⟩
  | case5 c rest hpair hbreak first more hrest ih =>
    rw [splitLines_cons (Bool.eq_false_iff.mpr hbreak), hrest] at h
    rw [hrest] at ih
    rcases List.mem_cons.mp h with rfl | h
    · exact isLine_cons.mpr ⟨Bool.eq_false_iff.mpr hbreak, ih List.mem_cons_self⟩
    · exact ih (List.mem_cons_of_mem _ h)

/-- A text without breaks is a line up to the break that follows it. -/
theorem splitLines_append_break {line : List Char} (h : IsLine line) (rest : List Char) :
    splitLines (line ++ '\n' :: rest) = line :: splitLines rest := by
  induction line with
  | nil => rfl
  | cons c line ih =>
    obtain ⟨hc, hline⟩ := isLine_cons.mp h
    rw [List.cons_append, splitLines_cons hc, ih hline]
    rfl

/-- Lines that each end with a line feed are the lines of their text. -/
theorem splitLines_ended {lines : List (List Char)} (h : ∀ line ∈ lines, IsLine line) :
    splitLines (lines.flatMap (· ++ ['\n'])) = lines := by
  induction lines with
  | nil => rfl
  | cons line lines ih =>
    obtain ⟨hline, hlines⟩ := List.forall_mem_cons.mp h
    rw [List.flatMap_cons, List.append_assoc, List.singleton_append,
      splitLines_append_break hline, ih hlines]

/-- Parts joined by line feeds, with a last one behind them, each end with one. -/
theorem toList_join_ended {parts : List String} (h : parts ≠ []) :
    (join "\n" parts ++ "\n").toList = (parts.map String.toList).flatMap (· ++ ['\n']) := by
  rw [join]
  induction parts with
  | nil => contradiction
  | cons part parts ih =>
    cases parts with
    | nil => simp
    | cons next parts =>
      have hrest := ih (List.cons_ne_nil _ _)
      rw [String.toList_append] at hrest ⊢
      rw [String.intercalate_cons_cons, String.toList_append, String.toList_append,
        List.append_assoc, hrest]
      rfl

/-- A string written line by line is split into these lines. -/
theorem splitLines_join_ended {parts : List String} (hparts : parts ≠ [])
    (h : ∀ part ∈ parts, IsLine part.toList) :
    splitLines (join "\n" parts ++ "\n").toList = parts.map String.toList := by
  rw [toList_join_ended hparts, splitLines_ended]
  simpa using h

/-- A string written line by line has these lines. -/
theorem lines_ended {parts : List String} (hparts : parts ≠ [])
    (h : ∀ part ∈ parts, IsLine part.toList) : lines (join "\n" parts ++ "\n") = parts := by
  rw [lines, splitLines_join_ended hparts h, List.map_map]
  simp

end WireAgent.Text
