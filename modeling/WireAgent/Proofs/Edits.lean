import Mathlib.Logic.Relation
import WireAgent.Proofs.Statements
import WireAgent.Proofs.Trimming

/-!
# White space and comments in configurations

A line can be given white space at its ends and on either side of its first equals sign, and a
comment behind it; and blank lines and comments can be put between the lines (`LineEdit`, `Edit`).
No line says anything else then (`LineEdit.ofText_eq`), and so nothing else is read from the text
and nothing else is remarked about it, however many edits are made (`edits_keep`).
-/

namespace WireAgent

/-! ## Trimming around a sign -/

namespace Text

theorem trim_trimStart (cs : List Char) : trim (trimStart cs) = trim cs := by
  have hblanks : IsBlanks (cs.takeWhile isBlank) := fun _ hc => List.mem_takeWhile_imp hc
  have hcs : cs.takeWhile isBlank ++ trimStart cs = cs := List.takeWhile_append_dropWhile
  rw [← trim_blanks_append hblanks (trimStart cs), hcs]

theorem trim_trimEnd (cs : List Char) : trim (trimEnd cs) = trim cs := by
  have hblanks : IsBlanks (cs.reverse.takeWhile isBlank).reverse :=
    fun _ hc => List.mem_takeWhile_imp (List.mem_reverse.mp hc)
  have hcs : trimEnd cs ++ (cs.reverse.takeWhile isBlank).reverse = cs := by
    rw [trimEnd, ← List.reverse_append, List.takeWhile_append_dropWhile, List.reverse_reverse]
  rw [← trim_append_blanks hblanks (trimEnd cs), hcs]

/-- A character that is no blank keeps the blanks next to it. -/
theorem trim_around {c : Char} (h : isBlank c = false) (left right : List Char) :
    trim (left ++ c :: right) = trimStart left ++ c :: trimEnd right := by
  have hstart : trimStart (left ++ c :: right) = trimStart left ++ c :: right := by
    rw [trimStart, List.dropWhile_append, List.dropWhile_cons_of_neg (by simp [h]), trimStart]
    split
    · next hnil => rw [List.isEmpty_iff.mp hnil, List.nil_append]
    · rfl
  have hend (front : List Char) : trimEnd (front ++ c :: right) = front ++ c :: trimEnd right := by
    rw [trimEnd, trimEnd, List.reverse_append, List.reverse_cons, List.append_assoc,
      List.singleton_append, List.dropWhile_append, List.dropWhile_cons_of_neg (by simp [h])]
    split
    · next hnil => simp [List.isEmpty_iff.mp hnil]
    · simp
  rw [trim, hstart, hend]

end Text

namespace Config

/-! ## Entries of lines -/

/-- A line is read up to its first number sign, without the blanks around that. -/
theorem splitEntry?_congr {line line' : List Char}
    (h : Text.trim (line'.takeWhile (· ≠ '#')) = Text.trim (line.takeWhile (· ≠ '#'))) :
    splitEntry? line' = splitEntry? line := by
  unfold splitEntry?
  rw [h]

theorem takeWhile_eq_self_iff {sign : Char} {cs : List Char} :
    cs.takeWhile (· ≠ sign) = cs ↔ sign ∉ cs := by
  rw [List.takeWhile_eq_self_iff]
  exact ⟨fun h hmem => of_decide_eq_true (h sign hmem) rfl,
    fun h c hc => decide_eq_true fun heq => h (heq ▸ hc)⟩

theorem takeWhile_of_not_mem {sign : Char} {cs : List Char} (h : sign ∉ cs) (rest : List Char) :
    (cs ++ rest).takeWhile (· ≠ sign) = cs ++ rest.takeWhile (· ≠ sign) := by
  rw [List.takeWhile_append, takeWhile_eq_self_iff.mpr h, if_pos rfl]

theorem takeWhile_of_mem {sign : Char} {cs : List Char} (h : sign ∈ cs) (rest : List Char) :
    (cs ++ rest).takeWhile (· ≠ sign) = cs.takeWhile (· ≠ sign) := by
  rw [List.takeWhile_append, if_neg]
  exact fun hlength =>
    takeWhile_eq_self_iff.mp ((List.takeWhile_prefix _).eq_of_length hlength) h

/-- What stands behind a number sign is not read. -/
theorem splitEntry?_of_mem {line : List Char} (h : '#' ∈ line) (rest : List Char) :
    splitEntry? (line ++ rest) = splitEntry? line :=
  splitEntry?_congr (by rw [takeWhile_of_mem h])

/-- A line is cut at its first equals sign, and the blanks there count for nothing. -/
theorem splitEntry?_sign {left : List Char} (hcomment : '#' ∉ left) (hsign : '=' ∉ left)
    (right : List Char) :
    splitEntry? (left ++ '=' :: right) =
      if (Text.trim left).isEmpty then none
      else some (Text.trim left, Text.trim (right.takeWhile (· ≠ '#'))) := by
  have hstart : ∀ c ∈ Text.trimStart left, decide (c ≠ '=') = true := fun c hc =>
    decide_eq_true fun heq => hsign (heq ▸ (List.dropWhile_sublist _).subset hc)
  unfold splitEntry?
  dsimp only
  rw [takeWhile_of_not_mem hcomment, List.takeWhile_cons_of_pos (by decide),
    Text.trim_around (by decide), List.takeWhile_append_of_pos hstart,
    List.dropWhile_append_of_pos hstart, List.takeWhile_cons_of_neg (by decide),
    List.dropWhile_cons_of_neg (by decide), List.append_nil, Text.trim_trimStart, List.drop_one,
    List.tail_cons, Text.trim_trimEnd]

/-! ## Edits of a line -/

/-- White space that goes into a line. -/
structure IsPad (pad : List Char) : Prop where
  isBlanks : Text.IsBlanks pad
  isLine : Text.IsLine pad

/-- More white space in a line, or a comment behind it. -/
inductive LineEdit : List Char → List Char → Prop
  | front {pad : List Char} (hpad : IsPad pad) (line : List Char) : LineEdit line (pad ++ line)
  | back {pad : List Char} (hpad : IsPad pad) (line : List Char) : LineEdit line (line ++ pad)
  /-- The white space stands before the first equals sign. -/
  | beforeSign {pad left : List Char} (hpad : IsPad pad) (hleft : '=' ∉ left)
      (right : List Char) : LineEdit (left ++ '=' :: right) (left ++ pad ++ '=' :: right)
  /-- The white space stands behind the first equals sign. -/
  | afterSign {pad left : List Char} (hpad : IsPad pad) (hleft : '=' ∉ left)
      (right : List Char) : LineEdit (left ++ '=' :: right) (left ++ '=' :: (pad ++ right))
  | comment {text : List Char} (htext : Text.IsLine text) (line : List Char) :
      LineEdit line (line ++ '#' :: text)

namespace IsPad

variable {pad : List Char} (h : IsPad pad)

include h

/-- No sign that has a meaning in a line is white space. -/
theorem not_mem {sign : Char} (hsign : Text.isBlank sign = false) : sign ∉ pad := by
  intro hmem
  rw [h.isBlanks sign hmem] at hsign
  cases hsign

/-- White space at the head of a line is lost. -/
theorem splitEntry?_append (line : List Char) : splitEntry? (pad ++ line) = splitEntry? line :=
  splitEntry?_congr (by
    rw [takeWhile_of_not_mem (h.not_mem (by decide)), Text.trim_blanks_append h.isBlanks])

/-- White space at the end of a line is lost, or belongs to its comment. -/
theorem splitEntry?_append_right (line : List Char) :
    splitEntry? (line ++ pad) = splitEntry? line := by
  by_cases hcomment : '#' ∈ line
  · exact splitEntry?_of_mem hcomment pad
  · refine splitEntry?_congr ?_
    rw [takeWhile_of_not_mem hcomment, takeWhile_eq_self_iff.mpr hcomment,
      takeWhile_eq_self_iff.mpr (h.not_mem (by decide)), Text.trim_append_blanks h.isBlanks]

/-- No line says anything by white space alone. -/
theorem ofText_eq : Line.ofText pad = .empty := by
  have hnil := h.splitEntry?_append []
  rw [List.append_nil] at hnil
  rw [Line.ofText, hnil]
  rfl

end IsPad

/-- A comment says nothing. -/
theorem ofText_comment (text : List Char) : Line.ofText ('#' :: text) = .empty := rfl

namespace LineEdit

variable {line line' : List Char} (h : LineEdit line line')

include h

theorem splitEntry?_eq : splitEntry? line' = splitEntry? line := by
  cases h with
  | front hpad => exact hpad.splitEntry?_append line
  | back hpad => exact hpad.splitEntry?_append_right line
  | @beforeSign pad left hpad hleft right =>
    by_cases hcomment : '#' ∈ left
    · rw [List.append_assoc, splitEntry?_of_mem hcomment, splitEntry?_of_mem hcomment]
    · have hpadded {sign : Char} (hsign : sign ∉ left) (hblank : Text.isBlank sign = false) :
          sign ∉ left ++ pad :=
        fun hmem => (List.mem_append.mp hmem).elim hsign (hpad.not_mem hblank)
      rw [splitEntry?_sign (hpadded hcomment (by decide)) (hpadded hleft (by decide)),
        splitEntry?_sign hcomment hleft, Text.trim_append_blanks hpad.isBlanks]
  | @afterSign pad left hpad hleft right =>
    by_cases hcomment : '#' ∈ left
    · rw [splitEntry?_of_mem hcomment, splitEntry?_of_mem hcomment]
    · rw [splitEntry?_sign hcomment hleft, splitEntry?_sign hcomment hleft,
        takeWhile_of_not_mem (hpad.not_mem (by decide)), Text.trim_blanks_append hpad.isBlanks]
  | @comment text htext =>
    by_cases hcomment : '#' ∈ line
    · exact splitEntry?_of_mem hcomment _
    · refine splitEntry?_congr ?_
      rw [takeWhile_of_not_mem hcomment, List.takeWhile_cons_of_neg (by decide), List.append_nil,
        takeWhile_eq_self_iff.mpr hcomment]

/-- An edited line says what it has said before. -/
theorem ofText_eq : Line.ofText line' = Line.ofText line := by
  rw [Line.ofText, h.splitEntry?_eq, Line.ofText]

/-- An edited line is still one line. -/
theorem isLine (hline : Text.IsLine line) : Text.IsLine line' := by
  cases h with
  | front hpad => exact Text.isLine_append.mpr ⟨hpad.isLine, hline⟩
  | back hpad => exact Text.isLine_append.mpr ⟨hline, hpad.isLine⟩
  | beforeSign hpad =>
    obtain ⟨hleft, hright⟩ := Text.isLine_append.mp hline
    exact Text.isLine_append.mpr ⟨Text.isLine_append.mpr ⟨hleft, hpad.isLine⟩, hright⟩
  | afterSign hpad =>
    obtain ⟨hleft, hright⟩ := Text.isLine_append.mp hline
    obtain ⟨hsign, hright⟩ := Text.isLine_cons.mp hright
    refine Text.isLine_append.mpr ⟨hleft, Text.isLine_cons.mpr ⟨hsign, ?_⟩⟩
    exact Text.isLine_append.mpr ⟨hpad.isLine, hright⟩
  | comment htext =>
    exact Text.isLine_append.mpr ⟨hline, Text.isLine_cons.mpr ⟨by decide, htext⟩⟩

end LineEdit

/-! ## Edits of a text -/

/-- An edit of one of the lines, or a further line that is blank or a comment. -/
inductive Edit : List (List Char) → List (List Char) → Prop
  | line {line line' : List Char} (hline : LineEdit line line') (before after : List (List Char)) :
      Edit (before ++ line :: after) (before ++ line' :: after)
  | blank {pad : List Char} (hpad : IsPad pad) (before after : List (List Char)) :
      Edit (before ++ after) (before ++ pad :: after)
  | comment {text : List Char} (htext : Text.IsLine text) (before after : List (List Char)) :
      Edit (before ++ after) (before ++ ('#' :: text) :: after)

/-- Lines with line feeds between them. -/
def joined (lines : List (List Char)) : List Char := ['\n'].intercalate lines

/-- Joined lines state what each of them says. -/
theorem statements_joined {lines : List (List Char)} (h : ∀ line ∈ lines, Text.IsLine line) :
    statements (joined lines) = stated lines := by
  rw [joined]
  induction lines with
  | nil => rfl
  | cons line lines ih =>
    obtain ⟨hline, hlines⟩ := List.forall_mem_cons.mp h
    cases lines with
    | nil =>
      rw [List.intercalate_singleton]
      exact statements_of_isLine hline
    | cons next lines =>
      rw [List.intercalate_cons_cons, List.append_assoc, List.singleton_append,
        statements_append_break (by decide), ih hlines, statements_of_isLine hline, ← stated_cons]

namespace Edit

variable {lines lines' : List (List Char)} (h : Edit lines lines')

include h

theorem stated_eq : stated lines' = stated lines := by
  cases h with
  | line hline before after =>
    rw [stated_append, stated_append, stated_cons, stated_cons _ after,
      stated_congr hline.ofText_eq]
  | blank hpad before after =>
    rw [stated_append, stated_append, stated_cons, stated_of_empty hpad.ofText_eq, List.nil_append]
  | comment htext before after =>
    rw [stated_append, stated_append, stated_cons, stated_of_empty (ofText_comment _),
      List.nil_append]

theorem isLine (hlines : ∀ line ∈ lines, Text.IsLine line) :
    ∀ line ∈ lines', Text.IsLine line := by
  cases h with
  | line hline before after =>
    simp only [List.forall_mem_append, List.forall_mem_cons] at hlines ⊢
    exact ⟨hlines.1, hline.isLine hlines.2.1, hlines.2.2⟩
  | blank hpad before after =>
    simp only [List.forall_mem_append, List.forall_mem_cons] at hlines ⊢
    exact ⟨hlines.1, hpad.isLine, hlines.2⟩
  | comment htext before after =>
    simp only [List.forall_mem_append, List.forall_mem_cons] at hlines ⊢
    exact ⟨hlines.1, Text.isLine_cons.mpr ⟨by decide, htext⟩, hlines.2⟩

end Edit

/-- However lines are edited, the same is read from their text, or reading it fails in the same way,
and the same is remarked about it. -/
theorem edits_keep {lines lines' : List (List Char)} (hlines : ∀ line ∈ lines, Text.IsLine line)
    (h : Relation.ReflTransGen Edit lines lines') :
    parse (joined lines') = parse (joined lines) ∧
      remarks (joined lines') = remarks (joined lines) := by
  have hkept : stated lines' = stated lines ∧ ∀ line ∈ lines', Text.IsLine line := by
    induction h with
    | refl => exact ⟨rfl, hlines⟩
    | tail _ hedit ih => exact ⟨hedit.stated_eq.trans ih.1, hedit.isLine ih.2⟩
  have hstatements : statements (joined lines') = statements (joined lines) := by
    rw [statements_joined hkept.2, statements_joined hlines, hkept.1]
  rw [parse_eq, parse_eq, remarks_eq, remarks_eq, hstatements]
  exact ⟨rfl, rfl⟩

/-- Two options, one of them with a further equals sign. -/
def bareLines : List (List Char) := ["Logs.Verbose=y".toList, "Lib.Dir=/a=b".toList]

/-- The same lines among a blank one and a comment, with white space and a comment of their own. -/
def dressedLines : List (List Char) :=
  ["\u3000".toList, "Logs.Verbose\t=y".toList, "#Lib.Dir=/c".toList,
    "Lib.Dir=/a=b#c=d\u2003".toList]

/-- The dressed lines give what the bare ones give. -/
theorem edits_keep_dressed :
    (∀ line ∈ bareLines, Text.IsLine line) ∧ Relation.ReflTransGen Edit bareLines dressedLines ∧
      parse (joined dressedLines) =
        .ok [("Logs.Verbose", .flag true), ("Lib.Dir", .text "/a=b")] := by
  have hlines : ∀ line ∈ bareLines, Text.IsLine line := by
    decide
  have hpad {c : Char} (hblank : Text.isBlank c = true) (hbreak : Text.isLineBreak c = false) :
      IsPad [c] :=
    ⟨by simpa [Text.IsBlanks] using hblank, by simpa [Text.IsLine] using hbreak⟩
  have hkey : '=' ∉ "Logs.Verbose".toList := by
    decide
  have htext : Text.IsLine "c=d".toList := by
    decide
  have hremark : Text.IsLine "Lib.Dir=/c".toList := by
    decide
  have hsign : LineEdit "Logs.Verbose=y".toList "Logs.Verbose\t=y".toList :=
    .beforeSign (hpad (c := '\t') (by decide) (by decide)) hkey ['y']
  have hcomment : LineEdit "Lib.Dir=/a=b".toList "Lib.Dir=/a=b#c=d".toList := .comment htext _
  have hback : LineEdit "Lib.Dir=/a=b#c=d".toList "Lib.Dir=/a=b#c=d\u2003".toList :=
    .back (hpad (c := '\u2003') (by decide) (by decide)) _
  have hedits : Relation.ReflTransGen Edit bareLines dressedLines :=
    .tail (.tail (.tail (.tail (.tail .refl (.line hsign [] _)) (.line hcomment [_] []))
      (.line hback [_] [])) (.comment hremark [_] [_]))
      (.blank (hpad (c := '\u3000') (by decide) (by decide)) [] _)
  refine ⟨hlines, hedits, (edits_keep hlines hedits).1.trans ?_⟩
  decide

end Config

end WireAgent
