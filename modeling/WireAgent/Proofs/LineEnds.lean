import WireAgent.Proofs.Breaks
import WireAgent.Proofs.Invocations
import WireAgent.Proofs.Statements

/-!
# Line ends of configurations

Unifying the line breaks of a text keeps its lines (`splitLines_unifyBreaks`), so a file is read as
its text stands. A line may end with a line feed, with a carriage return, or with both, each in its
own way: the same is read from a file whatever mixture of them it has (`line_ends_immaterial`).
-/

namespace WireAgent

/-! ## Unified breaks -/

namespace Text

/-- Texts with unified breaks have the lines that they had. -/
theorem splitLines_unifyBreaks (cs : List Char) : splitLines (unifyBreaks cs) = splitLines cs := by
  have hfeed (rest : List Char) : splitLines ('\n' :: rest) = [] :: splitLines rest :=
    splitLines_single (by decide) fun _ heq => absurd heq (by decide)
  induction cs using unifyBreaks.induct with
  | case1 => rfl
  | case2 rest ih =>
    show splitLines ('\n' :: unifyBreaks rest) = [] :: splitLines rest
    rw [hfeed, ih]
  | case3 rest hne ih =>
    rw [unifyBreaks.eq_3 rest hne, hfeed, ih,
      splitLines_single (by decide) fun more _ heq => hne more heq]
  | case4 c rest hne hc ih =>
    rw [unifyBreaks_cons hc]
    rcases Bool.eq_false_or_eq_true (isLineBreak c) with hbreak | hbreak
    · rw [splitLines_single hbreak fun _ heq => absurd heq hc,
        splitLines_single hbreak fun _ heq => absurd heq hc, ih]
    · rw [splitLines_cons hbreak, splitLines_cons hbreak, ih]

end Text

namespace Config

/-- A text and the text with unified breaks say the same, line by line. -/
theorem linesOf_unifyBreaks (text : List Char) :
    linesOf (Text.unifyBreaks text) = linesOf text := by
  rw [linesOf, Text.splitLines_unifyBreaks, linesOf]

theorem parse_unifyBreaks (text : List Char) : parse (Text.unifyBreaks text) = parse text := by
  rw [parse, linesOf_unifyBreaks, parse]

theorem readMerged_unifyBreaks (text : List Char) :
    readMerged (Text.unifyBreaks text) = readMerged text := by
  rw [readMerged, readMerged, readText, readText, parse_unifyBreaks, remarks, linesOf_unifyBreaks,
    remarks]

/-! ## Files -/

/-- The file at a path is a text in UTF-8. -/
def IsText (files : FileTree) (path : FilePath) (text : List Char) : Prop :=
  ∃ content, files.open? path = .ok content ∧
    (String.fromUTF8? content).map String.toList = some text

/-- A file is read as its text stands, and the same is written to the log. -/
theorem fromFile_of_isText {w : World} {path : FilePath} {text : List Char}
    (h : IsText w.files path text) : fromFile path w = readMerged text w := by
  obtain ⟨content, hopen, htext⟩ := h
  have hunified : fileText? content = some (Text.unifyBreaks text) := by
    rw [Option.map_eq_some_iff] at htext
    obtain ⟨s, hs, rfl⟩ := htext
    rw [fileText?, hs, Option.map_some]
  rw [fromFile, Action.bind_apply, Action.get_apply]
  dsimp only
  rw [Action.bind_apply, Action.lift_apply, hopen]
  simp only [Except.mapError, hunified, readMerged_unifyBreaks]

/-- What is read from a file is what its text gives, laid over the defaults. -/
theorem result_of_isText {w : World} {path : FilePath} {text : List Char}
    (h : IsText w.files path text) :
    (fromFile path w).1 = ((parse text).mapError .numeral).map Values.merged := by
  obtain ⟨v, hv, -⟩ := readMerged_apply text w
  rw [fromFile_of_isText h, hv]

/-! ## Mixed line ends -/

/-- The ways to end a line in a file. -/
inductive LineEnd where
  | feed
  | carriage
  | both
  deriving DecidableEq, Repr

/-- The characters of a line end. -/
def LineEnd.text : LineEnd → List Char
  | .feed => ['\n']
  | .carriage => ['\r']
  | .both => ['\r', '\n']

/-- Parts of a text, each with a line end behind it. -/
def ended (parts : List (List Char × LineEnd)) : List Char :=
  parts.flatMap fun part => part.1 ++ part.2.text

/-- A line end parts what a text states. -/
theorem statements_append_lineEnd (first : List Char) (e : LineEnd) (second : List Char) :
    statements (first ++ e.text ++ second) = statements first ++ statements second := by
  rw [List.append_assoc]
  cases e with
  | feed => exact statements_append_break (by decide) first second
  | carriage => exact statements_append_break (by decide) first second
  | both =>
    show statements (first ++ '\r' :: '\n' :: second) = _
    rw [statements_append_break (by decide), statements_break (by decide)]

/-- Of a text in parts, each part states what it states alone. -/
theorem statements_ended (parts : List (List Char × LineEnd)) (last : List Char) :
    statements (ended parts ++ last) =
      (parts.map Prod.fst).flatMap statements ++ statements last := by
  induction parts with
  | nil => rfl
  | cons part parts ih =>
    rw [ended, List.flatMap_cons, List.append_assoc, statements_append_lineEnd, ← ended, ih,
      List.map_cons, List.flatMap_cons, List.append_assoc]

/-- The same is read from parts of a text whatever ends them. -/
theorem parse_ended {parts parts' : List (List Char × LineEnd)}
    (h : parts'.map Prod.fst = parts.map Prod.fst) (last : List Char) :
    parse (ended parts' ++ last) = parse (ended parts ++ last) := by
  rw [parse_eq, parse_eq, statements_ended, statements_ended, h]

/-- Unified line breaks do not change what is read from a text. So what comes of a file, also in the
log, comes of its text as it stands: the configuration that the text gives, laid over the defaults;
and files whose line ends alone are different give the same configuration. -/
theorem line_ends_immaterial (text : List Char) :
    parse (Text.unifyBreaks text) = parse text ∧
      ∀ (w : World) (path : FilePath), IsText w.files path text →
        fromFile path w = readMerged text w ∧
        (fromFile path w).1 = ((parse text).mapError .numeral).map Values.merged ∧
        ∀ parts parts' last, text = ended parts ++ last →
          parts'.map Prod.fst = parts.map Prod.fst →
          ∀ w' path', IsText w'.files path' (ended parts' ++ last) →
            (fromFile path' w').1 = (fromFile path w).1 := by
  refine ⟨parse_unifyBreaks text, fun w path h => ⟨fromFile_of_isText h, result_of_isText h, ?_⟩⟩
  rintro parts parts' last rfl hparts w' path' h'
  rw [result_of_isText h', result_of_isText h, parse_ended hparts]

/-- Three options, with a carriage return on either side of a line feed. -/
def mixedParts : List (List Char × LineEnd) :=
  [("Logs.Verbose=y".toList, .carriage), ([], .both), ("Lib.Dir=/a".toList, .feed),
    ([], .carriage)]

/-- The same options, with line feeds alone. -/
def plainParts : List (List Char × LineEnd) := mixedParts.map fun part => (part.1, .feed)

/-- The mixed file gives what the plain one gives. -/
theorem line_ends_immaterial_mixed :
    let text (parts : List (List Char × LineEnd)) := ended parts ++ "Pid.File=/b".toList
    let w parts := Program.withFile (String.ofList (text parts)).toUTF8
    text mixedParts = "Logs.Verbose=y\r\r\nLib.Dir=/a\n\rPid.File=/b".toList ∧
      IsText (w plainParts).files ⟨false, ["w"]⟩ (text plainParts) ∧
      IsText (w mixedParts).files ⟨false, ["w"]⟩ (text mixedParts) ∧
      (fromFile ⟨false, ["w"]⟩ (w mixedParts)).1 = (fromFile ⟨false, ["w"]⟩ (w plainParts)).1 := by
  intro text w
  have hfile (parts : List (List Char × LineEnd)) :
      IsText (w parts).files ⟨false, ["w"]⟩ (text parts) := by
    refine ⟨(String.ofList (text parts)).toUTF8, ?_, ?_⟩
    · rw [FileTree.open?, Program.resolve_withFile]
      rfl
    · have hdecode : String.fromUTF8? (String.ofList (text parts)).toUTF8 =
          some (String.ofList (text parts)) :=
        dif_pos (String.ofList (text parts)).isValidUTF8
      rw [hdecode, Option.map_some, String.toList_ofList]
  exact ⟨by decide, hfile plainParts, hfile mixedParts,
    ((line_ends_immaterial (text plainParts)).2 (w plainParts) ⟨false, ["w"]⟩
      (hfile plainParts)).2.2 plainParts mixedParts _ rfl (by decide) (w mixedParts)
      ⟨false, ["w"]⟩ (hfile mixedParts)⟩

end Config

end WireAgent
