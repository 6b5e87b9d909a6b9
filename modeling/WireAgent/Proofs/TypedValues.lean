import WireAgent.Proofs.Configurations
import WireAgent.Proofs.Lines
import WireAgent.Proofs.Trimming

/-!
# The values of options

Whatever text is read, laid over the defaults it gives each option a value of its form
(`merged_typed`): the default has that form (`fits_fallback`), and so has every value that is read
from a line (`Form.fits_of_read`). What stands on a line in place of a value is trimmed, and without
comments and breaks (`isEntryText_of_split`).
-/

namespace WireAgent.Config

/-! ## Forms -/

/-- Is it a text without blanks at its ends, comments and line breaks? -/
structure IsEntryText (text : List Char) : Prop where
  trimmed : Text.trim text = text
  uncommented : '#' ∉ text
  line : Text.IsLine text

instance (text : List Char) : Decidable (IsEntryText text) :=
  decidable_of_iff (Text.trim text = text ∧ '#' ∉ text ∧ Text.IsLine text)
    ⟨fun h => ⟨h.1, h.2.1, h.2.2⟩, fun h => ⟨h.trimmed, h.uncommented, h.line⟩⟩

/-- Has a value a form? A flag is set or not, a number has at most 32 bits, a port is absent or has
at most 16 bits, and a text is neither empty nor two quotes. -/
def Form.Fits : Form → Value → Prop
  | .flag, .flag _ => True
  | .number, .number n => 0 ≤ n ∧ n < 2 ^ 32
  | .port, .absent => True
  | .port, .number n => 0 ≤ n ∧ n < 2 ^ 16
  | .text, .text s => s ≠ "" ∧ s ≠ "\"\"" ∧ IsEntryText s.toList
  | _, _ => False

instance (form : Form) (value : Value) : Decidable (form.Fits value) :=
  match form, value with
  | .flag, .flag _ | .port, .absent => .isTrue trivial
  | .number, .number _ | .port, .number _ => inferInstanceAs (Decidable (_ ∧ _))
  | .text, .text _ => inferInstanceAs (Decidable (_ ∧ _ ∧ _))
  | .flag, .absent | .flag, .number _ | .flag, .text _ | .number, .absent | .number, .flag _
  | .number, .text _ | .port, .flag _ | .port, .text _ | .text, .absent | .text, .flag _
  | .text, .number _ => .isFalse id

/-- Each default has the form of its option. -/
theorem fits_fallback : ∀ entry ∈ schema, entry.form.Fits entry.fallback := by
  decide +kernel

theorem unsigned_le {limit n : Nat} {text : List Char} (h : unsigned limit text = .ok (some n)) :
    n ≤ limit := by
  rw [unsigned_eq] at h
  split_ifs at h with hdigits hlong hle
  · cases h
    exact hle
  · cases h
  · cases h

/-- The text of an entry that has a form is read as a value of that form. -/
theorem Form.fits_of_read {form : Form} {text : List Char} {value : Value}
    (htext : IsEntryText text) (h : form.read text = .ok (some value)) : form.Fits value := by
  cases form with
  | flag =>
    simp only [read] at h
    split_ifs at h <;> cases h <;> trivial
  | number =>
    rcases hread : unsigned Number.greatest32 text with e | _ | n <;>
      simp only [read, hread, Except.map, Option.map] at h <;> cases h
    have hle : n ≤ 2 ^ 32 - 1 := unsigned_le hread
    exact ⟨by omega, by omega⟩
  | port =>
    simp only [read] at h
    split_ifs at h
    · cases h
      trivial
    · rcases hread : unsigned Number.greatest16 text with e | _ | n <;>
        simp only [hread, Except.map, Option.map] at h <;> cases h
      have hle : n ≤ 2 ^ 16 - 1 := unsigned_le hread
      exact ⟨by omega, by omega⟩
  | text =>
    simp only [read] at h
    split_ifs at h with hquotes hempty
    · cases h
      decide
    · cases h
    · cases h
      refine ⟨fun heq => hempty ?_, fun heq => hquotes ?_, ?_⟩
      · rw [String.ofList_eq_empty_iff.mp heq, List.isEmpty_nil]
      · rw [← String.toList_ofList (l := text), heq]
        rfl
      · rwa [String.toList_ofList]

/-! ## Entries -/

/-- The text behind the equals sign of a line is one of an entry. -/
theorem isEntryText_of_split {line key text : List Char} (hline : Text.IsLine line)
    (h : splitEntry? line = some (key, text)) : IsEntryText text := by
  unfold splitEntry? at h
  dsimp only at h
  split_ifs at h
  cases h
  have hmem {c : Char} (hc : c ∈ Text.trim (((Text.trim (line.takeWhile (· ≠ '#'))).dropWhile
      (· ≠ '=')).drop 1)) : c ∈ line.takeWhile (· ≠ '#') :=
    Text.mem_of_mem_trim ((List.dropWhile_sublist _).subset
      ((List.drop_sublist 1 _).subset (Text.mem_of_mem_trim hc)))
  refine ⟨Text.trim_trim _, fun hc => ?_, fun c hc => ?_⟩
  · simpa using List.mem_takeWhile_imp (hmem hc)
  · exact hline c ((List.takeWhile_sublist _).subset (hmem hc))

variable {lines : List (List Char)} {entry : Entry}

/-- An option gets its value from a line that names it, or has its default. -/
theorem Entry.valueIn_cases (entry : Entry) (lines : List (List Char)) :
    entry.valueIn lines = entry.fallback ∨
      ∃ line ∈ lines, ∃ text, named? line = some (entry, text) ∧
        entry.form.read text = .ok (some (entry.valueIn lines)) := by
  unfold valueIn
  rcases hlast : entry.lastText? lines with _ | text
  · exact .inl rfl
  · have hgiven : (entry, text) ∈ lines.filterMap named? := by
      obtain ⟨named, hnamed, rfl⟩ := Option.map_eq_some_iff.mp hlast
      obtain ⟨hmem, hentry⟩ := List.mem_filter.mp (List.mem_of_getLast? hnamed)
      rwa [← beq_iff_eq.mp hentry]
    obtain ⟨line, hline, hnamed⟩ := List.mem_filterMap.mp hgiven
    rw [Option.map_some, Option.getD_some, valueOf]
    rcases hread : entry.form.read text with e | _ | value
    · exact .inl rfl
    · exact .inl rfl
    · exact .inr ⟨line, hline, text, hnamed, hread⟩

/-- The value that lines give to an option has its form. -/
theorem Entry.fits_valueIn (hlines : ∀ line ∈ lines, Text.IsLine line) (hentry : entry ∈ schema) :
    entry.form.Fits (entry.valueIn lines) := by
  rcases entry.valueIn_cases lines with hfallback | ⟨line, hline, text, hnamed, hread⟩
  · rw [hfallback]
    exact fits_fallback entry hentry
  · obtain ⟨-, key, hsplit, -⟩ := named?_eq_some_iff.mp hnamed
    exact Form.fits_of_read (isEntryText_of_split (hlines line hline) hsplit) hread

/-- What is read from a text gives values to options only, to each at most once. Laid over the
defaults, it gives each option a value of its form. -/
theorem merged_typed {text : List Char} {values : Values} (h : parse text = .ok values) :
    values.merged.keys = schema.map Entry.key ∧
      (∀ entry ∈ schema, ∃ value, values.merged.get? entry.key = some value ∧
        entry.form.Fits value) ∧
      values.keys.Nodup ∧ ∀ key ∈ values.keys, key ∈ schema.map Entry.key := by
  refine ⟨?_, fun entry hentry => ?_, nodup_keys_of_parse h, keys_subset_of_parse h⟩
  · rw [merged_eq h, valuesIn, keys_map_schema]
  · refine ⟨entry.valueIn (Text.splitLines text), ?_, ?_⟩
    · rw [merged_eq h, valuesIn, get?_map_schema _ hentry]
    · exact Entry.fits_valueIn (fun _ => Text.isLine_of_mem_splitLines) hentry

/-- A text with a comment, a port, and an answer that is none. -/
theorem merged_typed_commented :
    let values : Values :=
      [("Lib.Dir", .text "/srv"), ("HttpProxy.Port", .number 80), ("Logs.Console", .flag true)]
    parse "Lib.Dir = /srv # data\nHttpProxy.Port = 80\nLogs.Console = maybe".toList = .ok values ∧
      values.merged.keys = schema.map Entry.key ∧
      ∀ entry ∈ schema, ∃ value, values.merged.get? entry.key = some value ∧
        entry.form.Fits value := by
  intro values
  have hparse : parse "Lib.Dir = /srv # data\nHttpProxy.Port = 80\nLogs.Console = maybe".toList =
      .ok values := by
    decide +kernel
  obtain ⟨hkeys, hfits, -⟩ := merged_typed hparse
  exact ⟨hparse, hkeys, hfits⟩

end WireAgent.Config
