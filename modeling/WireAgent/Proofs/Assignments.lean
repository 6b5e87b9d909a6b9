import WireAgent.Proofs.Configurations

/-!
# The last line of a key

A line assigns a text to a key: of what stands before its first number sign, what stands before the
first equals sign is the key and what stands behind it is the text (`Assigns`). Of all lines of a
key the last one decides, whatever the lines before it say and whatever the lines of other keys say
(`last_line_decides`).
-/

namespace WireAgent.Config

/-! ## Lines and keys -/

/-- A text is cut before the first mark in it, or it has no mark and all of it is in front. -/
def IsCut (mark : Char) (text front rest : List Char) : Prop :=
  text = front ++ rest ∧ mark ∉ front ∧ ∀ c, rest.head? = some c → c = mark

/-- A line assigns a text to a key. -/
def Assigns (line : List Char) (key : String) (text : List Char) : Prop :=
  ∃ content comment left right, IsCut '#' line content comment ∧
    IsCut '=' (Text.trim content) left right ∧ key.toList = Text.trim left ∧
    text = Text.trim (right.drop 1)

/-- A line is one of a key. -/
def Names (line : List Char) (key : String) : Prop := ∃ text, Assigns line key text

/-- Of the lines of a key the last one assigns this text to it. -/
def IsLast (lines : List (List Char)) (key : String) (text : List Char) : Prop :=
  ∃ before line after, lines = before ++ line :: after ∧ Assigns line key text ∧
    ∀ later ∈ after, ¬Names later key

theorem isCut_iff {mark : Char} {text front rest : List Char} :
    IsCut mark text front rest ↔
      front = text.takeWhile (· ≠ mark) ∧ rest = text.dropWhile (· ≠ mark) := by
  constructor
  · rintro ⟨rfl, hfront, hrest⟩
    have hall : ∀ c ∈ front, decide (c ≠ mark) = true :=
      fun c hc => decide_eq_true fun heq => hfront (heq ▸ hc)
    rw [List.takeWhile_append_of_pos hall, List.dropWhile_append_of_pos hall]
    cases rest with
    | nil => simp
    | cons c rest =>
      obtain rfl := hrest c rfl
      simp
  · rintro ⟨rfl, rfl⟩
    refine ⟨List.takeWhile_append_dropWhile.symm, fun hmem => ?_, fun c hc => ?_⟩
    · simpa using List.mem_takeWhile_imp hmem
    · have hnot := List.head?_dropWhile_not (· ≠ mark) text
      rw [hc] at hnot
      simpa using hnot

theorem assigns_iff {line : List Char} {key : String} {text : List Char} :
    Assigns line key text ↔
      key.toList = Text.trim ((Text.trim (line.takeWhile (· ≠ '#'))).takeWhile (· ≠ '=')) ∧
        text = Text.trim (((Text.trim (line.takeWhile (· ≠ '#'))).dropWhile (· ≠ '=')).drop 1) := by
  simp only [Assigns, isCut_iff]
  constructor
  · rintro ⟨_, _, _, _, ⟨rfl, rfl⟩, ⟨rfl, rfl⟩, hkey, htext⟩
    exact ⟨hkey, htext⟩
  · rintro ⟨hkey, htext⟩
    exact ⟨_, _, _, _, ⟨rfl, rfl⟩, ⟨rfl, rfl⟩, hkey, htext⟩

instance (line : List Char) (key : String) (text : List Char) : Decidable (Assigns line key text) :=
  decidable_of_iff _ assigns_iff.symm

instance (line : List Char) (key : String) : Decidable (Names line key) :=
  decidable_of_iff
    (key.toList = Text.trim ((Text.trim (line.takeWhile (· ≠ '#'))).takeWhile (· ≠ '='))) (by
      simp [Names, assigns_iff])

theorem Assigns.unique {line : List Char} {key : String} {text text' : List Char}
    (h : Assigns line key text) (h' : Assigns line key text') : text = text' :=
  (assigns_iff.mp h).2.trans (assigns_iff.mp h').2.symm

theorem key_ne_of_mem_schema : ∀ entry ∈ schema, entry.key ≠ "" := by
  decide

/-- A line names an option with a text just if it assigns the text to its key. -/
theorem named?_eq_some_iff_assigns {line : List Char} {entry : Entry} (hentry : entry ∈ schema)
    {text : List Char} : named? line = some (entry, text) ↔ Assigns line entry.key text := by
  rw [named?_eq_some_iff, assigns_iff, splitEntry?]
  generalize Text.trim (line.takeWhile (· ≠ '#')) = content
  constructor
  · rintro ⟨-, key, hsplit, hkey⟩
    rw [Option.ite_none_left_eq_some] at hsplit
    obtain ⟨-, heq⟩ := hsplit
    cases heq
    rw [hkey, String.toList_ofList]
    exact ⟨rfl, rfl⟩
  · rintro ⟨hkey, rfl⟩
    have hfilled : ¬(Text.trim (content.takeWhile (· ≠ '='))).isEmpty = true := by
      rw [← hkey, List.isEmpty_iff, String.toList_eq_nil_iff]
      exact key_ne_of_mem_schema entry hentry
    refine ⟨hentry, entry.key.toList, ?_, String.ofList_toList.symm⟩
    rw [if_neg hfilled, ← hkey]

/-! ## The last line -/

variable {line : List Char} {lines : List (List Char)} {key : String} {text : List Char}

theorem isLast_cons : IsLast (line :: lines) key text ↔
    IsLast lines key text ∨ (∀ later ∈ lines, ¬Names later key) ∧ Assigns line key text := by
  constructor
  · rintro ⟨_ | ⟨first, before⟩, last, after, heq, hlast, hafter⟩
    · cases heq
      exact .inr ⟨hafter, hlast⟩
    · cases heq
      exact .inl ⟨before, last, after, rfl, hlast, hafter⟩
  · rintro (⟨before, last, after, rfl, hlast, hafter⟩ | ⟨hafter, hlast⟩)
    · exact ⟨line :: before, last, after, rfl, hlast, hafter⟩
    · exact ⟨[], line, lines, rfl, hlast, hafter⟩

/-- Where a key has a line, one of its lines is the last one. -/
theorem exists_isLast_iff : (∃ text, IsLast lines key text) ↔ ∃ line ∈ lines, Names line key := by
  induction lines with
  | nil => simp [IsLast]
  | cons line lines ih =>
    simp only [isLast_cons, exists_or, ih, exists_and_left, List.exists_mem_cons_iff]
    by_cases hlater : ∃ later ∈ lines, Names later key
    · exact ⟨fun _ => .inr hlater, fun _ => .inl hlater⟩
    · have hnone : ∀ later ∈ lines, ¬Names later key := by simpa using hlater
      exact ⟨fun h => .inl (h.resolve_left hlater).2,
        fun h => .inr ⟨hnone, h.resolve_right hlater⟩⟩

theorem IsLast.unique {text' : List Char} (h : IsLast lines key text)
    (h' : IsLast lines key text') : text = text' := by
  induction lines with
  | nil => simp [IsLast] at h
  | cons line lines ih =>
    have hlater {text : List Char} (h : IsLast lines key text)
        (hnone : ∀ later ∈ lines, ¬Names later key) : False := by
      obtain ⟨later, hmem, hnames⟩ := exists_isLast_iff.mp ⟨text, h⟩
      exact hnone later hmem hnames
    rcases isLast_cons.mp h with h | ⟨hnone, h⟩
    · rcases isLast_cons.mp h' with h' | ⟨hnone, -⟩
      · exact ih h h'
      · exact (hlater h hnone).elim
    · rcases isLast_cons.mp h' with h' | ⟨-, h'⟩
      · exact (hlater h' hnone).elim
      · exact h.unique h'

/-- Lines of other keys count for nothing. -/
theorem isLast_filter :
    IsLast (lines.filter fun line => Names line key) key text ↔ IsLast lines key text := by
  induction lines with
  | nil => rfl
  | cons line lines ih =>
    by_cases hline : Names line key
    · rw [List.filter_cons_of_pos (by simpa using hline), isLast_cons, isLast_cons, ih]
      simp
    · rw [List.filter_cons_of_neg (by simpa using hline), isLast_cons, ih]
      exact ⟨.inl, fun h => h.resolve_right fun h => hline ⟨text, h.2⟩⟩

section

variable {entry : Entry} (hentry : entry ∈ schema)
include hentry

theorem lastText?_cons_of_assigns (h : Assigns line entry.key text) (lines : List (List Char)) :
    entry.lastText? (line :: lines) = some ((entry.lastText? lines).getD text) := by
  have hnamed := (named?_eq_some_iff_assigns hentry).mpr h
  rw [Entry.lastText?, List.filterMap_cons_some hnamed, List.filter_cons_of_pos (by simp),
    List.getLast?_cons, Entry.lastText?]
  cases ((lines.filterMap named?).filter fun named => named.1 == entry).getLast? <;> rfl

theorem lastText?_cons_of_not_names (h : ¬Names line entry.key) (lines : List (List Char)) :
    entry.lastText? (line :: lines) = entry.lastText? lines := by
  rcases hnamed : named? line with _ | ⟨other, text⟩
  · rw [Entry.lastText?, List.filterMap_cons_none hnamed, Entry.lastText?]
  · have hother : other ≠ entry := by
      rintro rfl
      exact h ⟨text, (named?_eq_some_iff_assigns hentry).mp hnamed⟩
    rw [Entry.lastText?, List.filterMap_cons_some hnamed,
      List.filter_cons_of_neg (by simpa using hother), Entry.lastText?]

/-- The text that lines give an option is what the last line of its key assigns. -/
theorem lastText?_eq_some_iff :
    entry.lastText? lines = some text ↔ IsLast lines entry.key text := by
  induction lines generalizing text with
  | nil =>
    constructor
    · intro h
      cases h
    · rintro ⟨before, line, after, heq, -⟩
      simp at heq
  | cons line lines ih =>
    rw [isLast_cons, ← ih]
    by_cases hline : Names line entry.key
    · obtain ⟨own, hown⟩ := hline
      rw [lastText?_cons_of_assigns hentry hown]
      rcases hlast : entry.lastText? lines with _ | last
      · have hnone : ∀ later ∈ lines, ¬Names later entry.key := by
          intro later hmem hnames
          obtain ⟨text, htext⟩ := exists_isLast_iff.mpr ⟨later, hmem, hnames⟩
          rw [← ih, hlast] at htext
          cases htext
        constructor
        · rintro ⟨⟩
          exact .inr ⟨hnone, hown⟩
        · rintro (⟨⟨⟩⟩ | ⟨-, htext⟩)
          rw [hown.unique htext]
          rfl
      · obtain ⟨later, hmem, hnames⟩ := exists_isLast_iff.mp ⟨last, ih.mp hlast⟩
        exact ⟨.inl, fun h => h.resolve_right fun h => h.1 later hmem hnames⟩
    · rw [lastText?_cons_of_not_names hentry hline]
      exact ⟨.inl, fun h => h.resolve_right fun h => hline ⟨text, h.2⟩⟩

end

/-! ## Texts -/

/-- What is taken from a text is not too long a numeral. -/
theorem read_of_isLast {values : Values} (h : parse text = .ok values) {entry : Entry}
    (hentry : entry ∈ schema) {own : List Char}
    (hlast : IsLast (Text.splitLines text) entry.key own) :
    ∃ found, entry.form.read own = .ok found ∧ entry.valueOf own = found.getD entry.fallback := by
  rw [Entry.valueOf]
  rcases hread : entry.form.read own with e | found
  · obtain ⟨before, line, after, hlines, hline, -⟩ := hlast
    have hlong : IsLongText text := by
      refine ⟨line, by simp [hlines], entry, own, ?_, (Form.read_eq_error_iff.mp hread).1⟩
      exact (named?_eq_some_iff_assigns hentry).mpr hline
    have hresult := parse_result text
    rw [if_pos hlong] at hresult
    obtain ⟨n, hn⟩ := hresult
    rw [hn] at h
    cases h
  · exact ⟨found, rfl, by cases found <;> rfl⟩

/-- A key has a value just if it is that of an option and a line of it is in the text. The value is
what the text of its last line is read as, in the form of the option, or the default if that text
has not this form. The lines of other keys have no part in it. -/
theorem last_line_decides {values : Values} (h : parse text = .ok values) (key : String) :
    (key ∉ schema.map Entry.key ∨ (∀ line ∈ Text.splitLines text, ¬Names line key) →
      key ∉ values.keys) ∧
    (∀ entry ∈ schema, entry.key = key → (∃ line ∈ Text.splitLines text, Names line key) →
      ∃ own found, (∀ other, IsLast (Text.splitLines text) key other ↔ other = own) ∧
        entry.form.read own = .ok found ∧
        values.get? key = some (found.getD entry.fallback)) ∧
    ∀ text' values', parse text' = .ok values' →
      ((Text.splitLines text').filter fun line => Names line key) =
        ((Text.splitLines text).filter fun line => Names line key) →
      values'.get? key = values.get? key := by
  refine ⟨fun habsent => ?_, ?_, fun text' values' h' hsame => ?_⟩
  · rw [← Values.get?_eq_none_iff, get?_of_parse h]
    rcases hoption : option? key with _ | entry
    · rfl
    · obtain ⟨hentry, rfl⟩ := option?_eq_some_iff.mp hoption
      have hnone := habsent.resolve_left fun hkey => hkey (List.mem_map_of_mem hentry)
      rcases hlast : entry.lastText? (Text.splitLines text) with _ | own
      · simp [hlast]
      · obtain ⟨line, hmem, hnames⟩ :=
          exists_isLast_iff.mp ⟨own, (lastText?_eq_some_iff hentry).mp hlast⟩
        exact absurd hnames (hnone line hmem)
  · rintro entry hentry rfl hnamed
    obtain ⟨own, hlast⟩ := exists_isLast_iff.mpr hnamed
    obtain ⟨found, hread, hvalue⟩ := read_of_isLast h hentry hlast
    refine ⟨own, found, fun other => ⟨fun hother => hother.unique hlast, ?_⟩, hread, ?_⟩
    · rintro rfl
      exact hlast
    · rw [get?_of_parse h, option?_eq_some_iff.mpr ⟨hentry, rfl⟩, Option.bind_some,
        (lastText?_eq_some_iff hentry).mpr hlast, Option.map_some, hvalue]
  · rw [get?_of_parse h, get?_of_parse h']
    refine Option.bind_congr fun entry hoption => ?_
    obtain ⟨hentry, rfl⟩ := option?_eq_some_iff.mp hoption
    have hlast : entry.lastText? (Text.splitLines text') =
        entry.lastText? (Text.splitLines text) := by
      refine Option.ext fun own => ?_
      rw [lastText?_eq_some_iff hentry, lastText?_eq_some_iff hentry, ← isLast_filter, hsame,
        isLast_filter]
    rw [hlast]

/-- A configuration where a flag is set in one line and given no value in a later one, among
comments and the lines of another option and of an unknown key. -/
def resetConfiguration : List Char :=
  ("Logs.Verbose=y\n# Logs.Verbose=n\nLib.Dir = /a # Logs.Verbose=y\r\n" ++
    "\tLogs.Verbose\x0bLogs.Colour=y").toList

/-- The flag that is given no value has its default. -/
theorem last_line_decides_reset :
    ∃ values, parse resetConfiguration = .ok values ∧
      IsLast (Text.splitLines resetConfiguration) "Logs.Verbose" [] ∧
      values.get? "Logs.Verbose" = some (.flag false) := by
  have hparse : parse resetConfiguration =
      .ok [("Logs.Verbose", .flag false), ("Lib.Dir", .text "/a")] := by
    decide
  have hlines : Text.splitLines resetConfiguration =
      ["Logs.Verbose=y".toList, "# Logs.Verbose=n".toList,
        "Lib.Dir = /a # Logs.Verbose=y".toList] ++
        "\tLogs.Verbose".toList :: ["Logs.Colour=y".toList] := by
    decide
  have hlast : IsLast (Text.splitLines resetConfiguration) "Logs.Verbose" [] :=
    ⟨_, _, _, hlines, by decide, by decide⟩
  refine ⟨_, hparse, hlast, ?_⟩
  obtain ⟨own, found, hown, hread, hget⟩ := (last_line_decides hparse "Logs.Verbose").2.1
    ⟨"Logs.Verbose", .flag, .flag false⟩ (by decide) rfl (exists_isLast_iff.mp ⟨[], hlast⟩)
  obtain rfl := (hown []).mp hlast
  cases hread
  exact hget

end WireAgent.Config
