import Mathlib.Data.List.Nodup
import Mathlib.Tactic.SplitIfs
import WireAgent.Config.Reader
import WireAgent.Proofs.Numerals

/-!
# What a configuration says

The values of a configuration are those of the last lines for their keys (`merged_eq`): of the lines
that name an option the last one decides, and if its value has not the form of the option, or no
line names it, the option has its default. A text is not read at all exactly if a line gives an
option for numbers a numeral of more digits than are converted (`parse_result`).
-/

namespace WireAgent.Config

/-! ## Values by key -/

namespace Values

/-- The keys, in order. -/
def keys (values : Values) : List String := values.map Prod.fst

/-- The value that is given last to a key. -/
def last? (entries : Values) (key : String) : Option Value :=
  (entries.filter fun entry => entry.1 == key).getLast?.map Prod.snd

theorem get?_cons (entry : String × Value) (values : Values) (key : String) :
    get? (entry :: values) key = if entry.1 = key then some entry.2 else get? values key := by
  unfold get?
  split_ifs with h
  · rw [List.find?_cons_of_pos (by simpa using h)]
    rfl
  · rw [List.find?_cons_of_neg (by simpa using h)]

theorem keys_cons (entry : String × Value) (values : Values) :
    keys (entry :: values) = entry.1 :: keys values :=
  rfl

theorem get?_eq_none_iff {values : Values} {key : String} :
    values.get? key = none ↔ key ∉ values.keys := by
  simp only [get?, Option.map_eq_none_iff, List.find?_eq_none, beq_iff_eq, keys, List.mem_map,
    not_exists, not_and]

/-- Where no key stands twice, each entry gives its key its value. -/
theorem get?_of_mem {values : Values} (h : values.keys.Nodup) {entry : String × Value}
    (hmem : entry ∈ values) : values.get? entry.1 = some entry.2 := by
  induction values with
  | nil => simp at hmem
  | cons first values ih =>
    rw [keys_cons, List.nodup_cons] at h
    rw [get?_cons]
    rcases List.mem_cons.mp hmem with rfl | hmem
    · rw [if_pos rfl]
    · have hne : first.1 ≠ entry.1 := fun heq => h.1 (heq ▸ List.mem_map_of_mem hmem)
      rw [if_neg hne, ih h.2 hmem]

/-- Two configurations with the same keys and the same values of these are equal. -/
theorem eq_of_get?_eq {values values' : Values} (hkeys : values.keys = values'.keys)
    (h : values.keys.Nodup) (hget : ∀ key ∈ values.keys, values.get? key = values'.get? key) :
    values = values' := by
  induction values generalizing values' with
  | nil =>
    rw [keys, keys, List.map_nil, eq_comm, List.map_eq_nil_iff] at hkeys
    exact hkeys.symm
  | cons entry values ih =>
    cases values' with
    | nil => simp [keys] at hkeys
    | cons entry' values' =>
      rw [keys_cons, keys_cons, List.cons.injEq] at hkeys
      rw [keys_cons, List.nodup_cons] at h
      have hhead := hget entry.1 List.mem_cons_self
      rw [get?_cons, get?_cons, if_pos rfl, if_pos hkeys.1.symm, Option.some.injEq] at hhead
      have htail : values = values' := by
        refine ih hkeys.2 h.2 fun key hkey => ?_
        have hne : entry.1 ≠ key := fun heq => h.1 (heq ▸ hkey)
        have := hget key (List.mem_cons_of_mem _ hkey)
        rwa [get?_cons, get?_cons, if_neg hne, if_neg (hkeys.1 ▸ hne)] at this
      rw [htail, Prod.ext hkeys.1 hhead]

theorem get?_set (values : Values) (key : String) (value : Value) (other : String) :
    (values.set key value).get? other = if key = other then some value else values.get? other := by
  induction values with
  | nil => rw [set, get?_cons]
  | cons entry values ih =>
    rw [set]
    split_ifs with hown hother hother
    · rw [get?_cons, if_pos hother]
    · rw [get?_cons, get?_cons, if_neg hother, if_neg (hown ▸ hother)]
    · rw [get?_cons, ih, if_pos hother, if_neg (hother ▸ hown)]
    · rw [get?_cons, get?_cons, ih, if_neg hother]

theorem keys_set (values : Values) (key : String) (value : Value) :
    (values.set key value).keys =
      if key ∈ values.keys then values.keys else values.keys ++ [key] := by
  induction values with
  | nil => rfl
  | cons entry values ih =>
    rw [set]
    by_cases hown : entry.1 = key
    · simp [hown, keys]
    · rw [if_neg hown, keys_cons, ih, keys_cons]
      by_cases hmem : key ∈ keys values
      · rw [if_pos hmem, if_pos (List.mem_cons_of_mem _ hmem)]
      · have hnot : key ∉ entry.1 :: keys values := by simp [hmem, Ne.symm hown]
        rw [if_neg hmem, if_neg hnot]
        rfl

theorem nodup_keys_set {values : Values} (h : values.keys.Nodup) (key : String) (value : Value) :
    (values.set key value).keys.Nodup := by
  rw [keys_set]
  split_ifs with hmem
  · exact h
  · rw [List.nodup_append_comm]
    exact List.nodup_cons.mpr ⟨hmem, h⟩

theorem overlay_cons (entry : String × Value) (upper lower : Values) :
    overlay (entry :: upper) lower = overlay upper (lower.set entry.1 entry.2) :=
  rfl

/-- Of the values that are laid over a configuration, the last one for a key decides. -/
theorem get?_overlay (upper lower : Values) (key : String) :
    (overlay upper lower).get? key = (last? upper key).or (lower.get? key) := by
  induction upper generalizing lower with
  | nil => rfl
  | cons entry upper ih =>
    rw [overlay_cons, ih, get?_set, last?, last?]
    by_cases hkey : entry.1 = key
    · rw [if_pos hkey, List.filter_cons_of_pos (by simpa using hkey), List.getLast?_cons]
      cases (upper.filter fun entry => entry.1 == key).getLast? <;> rfl
    · rw [if_neg hkey, List.filter_cons_of_neg (by simpa using hkey)]

/-- What is laid over a configuration adds no keys that it has already. -/
theorem keys_overlay {upper lower : Values} (h : ∀ key ∈ upper.keys, key ∈ lower.keys) :
    (overlay upper lower).keys = lower.keys := by
  induction upper generalizing lower with
  | nil => rfl
  | cons entry upper ih =>
    have hhead : entry.1 ∈ lower.keys := h _ List.mem_cons_self
    have hkeys : (lower.set entry.1 entry.2).keys = lower.keys := by
      rw [keys_set, if_pos hhead]
    rw [overlay_cons, ih, hkeys]
    intro key hkey
    rw [hkeys]
    exact h key (List.mem_cons_of_mem _ hkey)

theorem nodup_keys_overlay (upper : Values) {lower : Values} (h : lower.keys.Nodup) :
    (overlay upper lower).keys.Nodup := by
  induction upper generalizing lower with
  | nil => exact h
  | cons entry upper ih => exact ih (nodup_keys_set h _ _)

/-- Where no key stands twice, the last value for a key is the only one. -/
theorem last?_eq_get? {values : Values} (h : values.keys.Nodup) (key : String) :
    last? values key = values.get? key := by
  induction values with
  | nil => rfl
  | cons entry values ih =>
    rw [keys_cons, List.nodup_cons] at h
    rw [get?_cons]
    split_ifs with hkey
    · have hfilter : values.filter (fun entry => entry.1 == key) = [] := by
        rw [List.filter_eq_nil_iff]
        intro other hother heq
        rw [beq_iff_eq] at heq
        exact h.1 (List.mem_map.mpr ⟨other, hother, heq.trans hkey.symm⟩)
      rw [last?, List.filter_cons_of_pos (by simpa using hkey), hfilter]
      rfl
    · rw [last?, List.filter_cons_of_neg (by simpa using hkey), ← last?, ih h.2]

end Values

/-! ## Numerals -/

/-- Is it a numeral of more digits than are converted, in a form that denotes a number? -/
def Form.IsLong (form : Form) (text : List Char) : Prop :=
  (form = .number ∨ form = .port) ∧ Number.IsDigits (numeralBody text) ∧
    Number.maxDigits < (numeralBody text).length

instance (form : Form) (text : List Char) : Decidable (form.IsLong text) :=
  inferInstanceAs (Decidable (_ ∧ _ ∧ _))

/-- A row of digits is an unsigned number unless it is too long. -/
theorem unsigned_eq (limit : Nat) (text : List Char) :
    unsigned limit text =
      if Number.IsDigits (numeralBody text) ∧ numeralBody text ≠ [] then
        if Number.maxDigits < (numeralBody text).length then
          .error (.tooLong (numeralBody text).length)
        else if Number.asciiValue (numeralBody text) ≤ limit then
          .ok (some (Number.asciiValue (numeralBody text)))
        else .ok none
      else .ok none := by
  unfold unsigned
  generalize numeralBody text = body
  by_cases hdigits : Number.IsDigits body
  · by_cases hbody : body = []
    · rw [hbody]
      rfl
    · obtain ⟨worth, worths, hworths, -, hconvert⟩ := Number.exists_asciiWorths? hbody hdigits
      simp only [hworths, hconvert, if_pos (And.intro hdigits hbody)]
      by_cases hlong : Number.maxDigits < body.length
      · simp only [if_pos hlong]
        rfl
      · simp only [if_neg hlong]
        by_cases hle : Number.asciiValue body ≤ limit <;> simp [Except.map, hle]
  · rw [Number.asciiWorths?_eq_none hdigits, if_neg (fun h => hdigits h.1)]

theorem unsigned_eq_error_iff {limit : Nat} {text : List Char} {e : Number.NumeralError} :
    unsigned limit text = .error e ↔
      (Number.IsDigits (numeralBody text) ∧ Number.maxDigits < (numeralBody text).length) ∧
        .tooLong (numeralBody text).length = e := by
  rw [unsigned_eq]
  generalize numeralBody text = body
  by_cases hlong : Number.maxDigits < body.length
  · have hbody : body ≠ [] := by
      rintro rfl
      simp at hlong
    by_cases hdigits : Number.IsDigits body <;> simp [hdigits, hlong, hbody]
  · simp only [hlong, if_false, and_false, false_and, iff_false]
    split_ifs <;> simp

/-- A text in a form is not read exactly if it is too long a numeral. -/
theorem Form.read_eq_error_iff {form : Form} {text : List Char} {e : Number.NumeralError} :
    form.read text = .error e ↔ form.IsLong text ∧ .tooLong (numeralBody text).length = e := by
  have hmap {α β : Type} {r : Except Number.NumeralError α} {f : α → β} :
      r.map f = .error e ↔ r = .error e := by
    cases r <;> simp [Except.map]
  cases form with
  | flag =>
    simp only [read, IsLong]
    split_ifs <;> simp
  | text =>
    simp only [read, IsLong]
    split_ifs <;> simp
  | number => simp [read, IsLong, hmap, unsigned_eq_error_iff]
  | port =>
    simp only [read]
    split_ifs with habsent
    · have hshort : ¬IsLong .port text := by
        rcases habsent with hempty | rfl
        · rw [List.isEmpty_iff.mp hempty]
          decide
        · decide
      simp [hshort]
    · simp [IsLong, hmap, unsigned_eq_error_iff]

/-! ## Lines -/

/-- The value that a text gives to an option: the default if it has not the form of the option. -/
def Entry.valueOf (entry : Entry) (text : List Char) : Value :=
  match entry.form.read text with
  | .ok (some value) => value
  | _ => entry.fallback

/-- The option that a line names, with the text that it gives to it. -/
def named? (line : List Char) : Option (Entry × List Char) :=
  splitEntry? line >>= fun (key, text) =>
    (option? (String.ofList key)).map fun entry => (entry, text)

/-- The text that the last line that names an option gives to it. -/
def Entry.lastText? (entry : Entry) (lines : List (List Char)) : Option (List Char) :=
  ((lines.filterMap named?).filter fun named => named.1 == entry).getLast?.map Prod.snd

/-- The value that lines give to an option: the default if no line names it. -/
def Entry.valueIn (entry : Entry) (lines : List (List Char)) : Value :=
  ((entry.lastText? lines).map entry.valueOf).getD entry.fallback

/-- Does a line give an option too long a numeral? -/
def IsLongLine (line : List Char) : Prop :=
  ∃ entry text, named? line = some (entry, text) ∧ entry.form.IsLong text

/-- No two options have one key. -/
theorem nodup_schema : (schema.map Entry.key).Nodup := by
  decide

theorem option?_eq_some_iff {key : String} {entry : Entry} :
    option? key = some entry ↔ entry ∈ schema ∧ entry.key = key := by
  rw [option?]
  constructor
  · intro h
    exact ⟨List.mem_of_find?_eq_some h, by simpa using List.find?_some h⟩
  · rintro ⟨hmem, rfl⟩
    rcases hfind : schema.find? fun other => other.key == entry.key with _ | other
    · rw [List.find?_eq_none] at hfind
      exact absurd (beq_self_eq_true entry.key) (hfind entry hmem)
    · have hkey : other.key = entry.key := by simpa using List.find?_some hfind
      rw [hfind, List.inj_on_of_nodup_map nodup_schema (List.mem_of_find?_eq_some hfind) hmem hkey]

theorem named?_eq_some_iff {line : List Char} {entry : Entry} {text : List Char} :
    named? line = some (entry, text) ↔
      entry ∈ schema ∧
        ∃ key, splitEntry? line = some (key, text) ∧ entry.key = String.ofList key := by
  unfold named?
  rcases splitEntry? line with _ | ⟨key, text'⟩
  · simp
  · simp only [Option.bind_eq_bind, Option.bind_some, Option.map_eq_some_iff, option?_eq_some_iff]
    constructor
    · rintro ⟨_, ⟨hmem, hkey⟩, heq⟩
      cases heq
      exact ⟨hmem, key, rfl, hkey⟩
    · rintro ⟨hmem, _, heq, hkey⟩
      cases heq
      exact ⟨entry, ⟨hmem, hkey⟩, rfl⟩

namespace Line

/-- What a line that can be taken gives to an option. -/
def assignment? : Line → Option (String × Value)
  | .assigned key value => some (key, value)
  | .rejected key _ fallback => some (key, fallback)
  | _ => none

/-- A line that names no option gives nothing. -/
theorem ofText_of_named?_eq_none {line : List Char} (h : named? line = none) :
    (ofText line).isFailed = false ∧ (ofText line).assignment? = none := by
  unfold named? at h
  unfold ofText
  rcases hsplit : splitEntry? line with _ | ⟨key, text⟩
  · exact ⟨rfl, rfl⟩
  · rw [hsplit] at h
    simp only [Option.bind_eq_bind, Option.bind_some, Option.map_eq_none_iff] at h
    simp only [h]
    exact ⟨rfl, rfl⟩

/-- A line that names an option gives it a value, unless the text is too long a numeral. -/
theorem ofText_of_named? {line : List Char} {entry : Entry} {text : List Char}
    (h : named? line = some (entry, text)) :
    if entry.form.IsLong text then ∃ n, ofText line = .failed (.tooLong n)
    else (ofText line).isFailed = false ∧
      (ofText line).assignment? = some (entry.key, entry.valueOf text) := by
  obtain ⟨hmem, key, hsplit, hkey⟩ := named?_eq_some_iff.mp h
  have hoption : option? (String.ofList key) = some entry :=
    option?_eq_some_iff.mpr ⟨hmem, hkey⟩
  have hread {e : Number.NumeralError} : entry.form.read text = .error e ↔ _ :=
    Form.read_eq_error_iff
  unfold ofText Entry.valueOf
  simp only [hsplit, hoption]
  split_ifs with hlong
  · rw [hread.mpr ⟨hlong, rfl⟩]
    exact ⟨_, rfl⟩
  · rcases hresult : entry.form.read text with e | _ | value
    · exact absurd (hread.mp hresult).1 hlong
    · exact ⟨rfl, by rw [hkey]; rfl⟩
    · exact ⟨rfl, by rw [hkey]; rfl⟩

theorem isFailed_ofText {line : List Char} : (ofText line).isFailed = true ↔ IsLongLine line := by
  rcases hnamed : named? line with _ | ⟨entry, text⟩
  · simp [IsLongLine, hnamed, ofText_of_named?_eq_none hnamed]
  · have hline := ofText_of_named? hnamed
    by_cases hlong : entry.form.IsLong text
    · rw [if_pos hlong] at hline
      obtain ⟨n, hn⟩ := hline
      simp [IsLongLine, hnamed, hlong, hn, isFailed]
    · rw [if_neg hlong] at hline
      simp [IsLongLine, hnamed, hlong, hline]

/-- A line fails on nothing but too long a numeral. -/
theorem exists_tooLong {line : List Char} {e : Number.NumeralError} (h : ofText line = .failed e) :
    ∃ n, e = .tooLong n := by
  obtain ⟨entry, text, hnamed, hlong⟩ : IsLongLine line := by
    rw [← isFailed_ofText, h]
    rfl
  have hline := ofText_of_named? hnamed
  rw [if_pos hlong, h] at hline
  obtain ⟨n, hn⟩ := hline
  exact ⟨n, failed.inj hn⟩

end Line

/-! ## Texts -/

theorem Line.apply_eq {line : Line} (h : line.isFailed = false) (values : Values) :
    line.apply values = .ok (Values.overlay line.assignment?.toList values) := by
  cases line with
  | failed e => cases h
  | _ => rfl

theorem foldlM_apply {lines : List Line} (h : ∀ line ∈ lines, line.isFailed = false)
    (values : Values) :
    lines.foldlM Line.apply values =
      .ok (Values.overlay (lines.filterMap Line.assignment?) values) := by
  induction lines generalizing values with
  | nil => rfl
  | cons line lines ih =>
    obtain ⟨hline, hlines⟩ := List.forall_mem_cons.mp h
    rw [List.foldlM_cons, Line.apply_eq hline]
    show lines.foldlM Line.apply (Values.overlay line.assignment?.toList values) = _
    rw [ih hlines, List.filterMap_cons]
    cases line.assignment? <;> rfl

theorem foldlM_apply_failed {lines : List Line} (h : ∃ line ∈ lines, line.isFailed = true)
    (values : Values) : ∃ e, .failed e ∈ lines ∧ lines.foldlM Line.apply values = .error e := by
  induction lines generalizing values with
  | nil => simp at h
  | cons line lines ih =>
    rw [List.foldlM_cons]
    rcases Bool.eq_false_or_eq_true line.isFailed with hline | hline
    · cases line with
      | failed e => exact ⟨e, List.mem_cons_self, rfl⟩
      | _ => cases hline
    · have hlines : ∃ line ∈ lines, line.isFailed = true := by
        simpa [hline] using h
      obtain ⟨e, he, hfold⟩ := ih hlines (Values.overlay line.assignment?.toList values)
      rw [Line.apply_eq hline]
      exact ⟨e, List.mem_cons_of_mem _ he, hfold⟩

instance (line : List Char) : Decidable (IsLongLine line) :=
  decidable_of_iff _ Line.isFailed_ofText

/-- Does a text give an option too long a numeral? -/
def IsLongText (text : List Char) : Prop := ∃ line ∈ Text.splitLines text, IsLongLine line

instance (text : List Char) : Decidable (IsLongText text) :=
  inferInstanceAs (Decidable (∃ line ∈ _, _))

/-- A text is not read exactly if it gives an option too long a numeral. -/
theorem parse_result (text : List Char) :
    if IsLongText text then ∃ n, parse text = .error (.tooLong n)
    else parse text = .ok (Values.overlay ((linesOf text).filterMap Line.assignment?) []) := by
  split_ifs with hlong
  · have hfailed : ∃ line ∈ linesOf text, line.isFailed = true := by
      obtain ⟨line, hmem, hline⟩ := hlong
      exact ⟨_, List.mem_map_of_mem hmem, Line.isFailed_ofText.mpr hline⟩
    obtain ⟨e, hmem, hparse⟩ := foldlM_apply_failed hfailed []
    obtain ⟨line, -, hline⟩ := List.mem_map.mp hmem
    obtain ⟨n, rfl⟩ := Line.exists_tooLong hline
    exact ⟨n, hparse⟩
  · refine foldlM_apply (fun line hmem => ?_) []
    obtain ⟨source, hsource, rfl⟩ := List.mem_map.mp hmem
    rw [Bool.eq_false_iff, ne_eq, Line.isFailed_ofText]
    exact fun hline => hlong ⟨source, hsource, hline⟩

/-- What lines give to an option, in order. -/
theorem filter_assignments {lines : List (List Char)} (h : ∀ line ∈ lines, ¬IsLongLine line)
    {entry : Entry} (hentry : entry ∈ schema) :
    ((lines.map Line.ofText).filterMap Line.assignment?).filter
        (fun given => given.1 == entry.key) =
      ((lines.filterMap named?).filter fun named => named.1 == entry).map
        fun named => (entry.key, entry.valueOf named.2) := by
  induction lines with
  | nil => rfl
  | cons line lines ih =>
    obtain ⟨hline, hlines⟩ := List.forall_mem_cons.mp h
    rw [List.map_cons]
    rcases hnamed : named? line with _ | ⟨other, text⟩
    · rw [List.filterMap_cons_none (Line.ofText_of_named?_eq_none hnamed).2,
        List.filterMap_cons_none hnamed, ih hlines]
    · have hgiven := Line.ofText_of_named? hnamed
      rw [if_neg fun hlong => hline ⟨other, text, hnamed, hlong⟩] at hgiven
      rw [List.filterMap_cons_some hgiven.2, List.filterMap_cons_some hnamed]
      have hother : other ∈ schema := (named?_eq_some_iff.mp hnamed).1
      by_cases heq : other = entry
      · subst heq
        rw [List.filter_cons_of_pos (by simp), List.filter_cons_of_pos (by simp), ih hlines,
          List.map_cons]
      · have hkey : other.key ≠ entry.key := fun hkey =>
          heq (List.inj_on_of_nodup_map nodup_schema hother hentry hkey)
        rw [List.filter_cons_of_neg (by simpa using hkey),
          List.filter_cons_of_neg (by simpa using heq), ih hlines]

/-- Lines give values to options only. -/
theorem exists_of_mem_assignments {lines : List (List Char)} {given : String × Value}
    (h : given ∈ (lines.map Line.ofText).filterMap Line.assignment?) :
    ∃ entry ∈ schema, entry.key = given.1 := by
  simp only [List.mem_filterMap, List.mem_map] at h
  obtain ⟨_, ⟨line, -, rfl⟩, hgiven⟩ := h
  rcases hnamed : named? line with _ | ⟨entry, text⟩
  · rw [(Line.ofText_of_named?_eq_none hnamed).2] at hgiven
    cases hgiven
  · have hline := Line.ofText_of_named? hnamed
    split_ifs at hline with hlong
    · obtain ⟨n, hn⟩ := hline
      rw [hn] at hgiven
      cases hgiven
    · rw [hline.2, Option.some.injEq] at hgiven
      exact ⟨entry, (named?_eq_some_iff.mp hnamed).1, congrArg Prod.fst hgiven⟩

/-- The value of a key is what the last line for its option gives; other keys have none. -/
theorem get?_of_parse {text : List Char} {values : Values} (h : parse text = .ok values)
    (key : String) :
    values.get? key = (option? key).bind fun entry =>
      (entry.lastText? (Text.splitLines text)).map entry.valueOf := by
  have hresult := parse_result text
  split_ifs at hresult with hlong
  · obtain ⟨n, hn⟩ := hresult
    rw [hn] at h
    cases h
  rw [hresult, Except.ok.injEq] at h
  rw [← h, Values.get?_overlay, Values.last?]
  rcases hoption : option? key with _ | entry
  · have hnone : ((linesOf text).filterMap Line.assignment?).filter
        (fun given => given.1 == key) = [] := by
      rw [List.filter_eq_nil_iff]
      intro given hgiven hkey
      obtain ⟨entry, hentry, heq⟩ := exists_of_mem_assignments hgiven
      rw [option?_eq_some_iff.mpr ⟨hentry, heq.trans (beq_iff_eq.mp hkey)⟩] at hoption
      cases hoption
    rw [hnone]
    rfl
  · obtain ⟨hentry, rfl⟩ := option?_eq_some_iff.mp hoption
    have hlines : ∀ line ∈ Text.splitLines text, ¬IsLongLine line :=
      fun line hmem hline => hlong ⟨line, hmem, hline⟩
    rw [linesOf, filter_assignments hlines hentry, List.getLast?_map, Option.bind_some,
      Entry.lastText?, Option.map_map, Option.map_map]
    exact Option.or_none

theorem nodup_keys_of_parse {text : List Char} {values : Values} (h : parse text = .ok values) :
    values.keys.Nodup := by
  have hresult := parse_result text
  split_ifs at hresult
  · obtain ⟨n, hn⟩ := hresult
    rw [hn] at h
    cases h
  · rw [hresult, Except.ok.injEq] at h
    rw [← h]
    exact Values.nodup_keys_overlay _ List.nodup_nil

/-- The keys that a text gives values to are those of options. -/
theorem keys_subset_of_parse {text : List Char} {values : Values} (h : parse text = .ok values) :
    ∀ key ∈ values.keys, key ∈ schema.map Entry.key := by
  intro key hkey
  have hget : values.get? key ≠ none := fun hnone => Values.get?_eq_none_iff.mp hnone hkey
  rcases hoption : option? key with _ | entry
  · rw [get?_of_parse h, hoption] at hget
    exact absurd rfl hget
  · obtain ⟨hentry, rfl⟩ := option?_eq_some_iff.mp hoption
    exact List.mem_map_of_mem hentry

/-! ## Configurations laid over the defaults -/

/-- The configuration that lines give. -/
def valuesIn (lines : List (List Char)) : Values :=
  schema.map fun entry => (entry.key, entry.valueIn lines)

theorem keys_map_schema (f : Entry → Value) :
    Values.keys (schema.map fun entry => (entry.key, f entry)) = schema.map Entry.key := by
  rw [Values.keys, List.map_map]
  rfl

theorem get?_map_schema (f : Entry → Value) {entry : Entry} (h : entry ∈ schema) :
    Values.get? (schema.map fun entry => (entry.key, f entry)) entry.key = some (f entry) := by
  have hnodup : (Values.keys (schema.map fun entry => (entry.key, f entry))).Nodup := by
    rw [keys_map_schema]
    exact nodup_schema
  exact Values.get?_of_mem hnodup (List.mem_map_of_mem h)

/-- Values for options, laid over values for all options. -/
theorem overlay_map_schema {upper : Values} {f g : Entry → Value}
    (hkeys : ∀ key ∈ upper.keys, key ∈ schema.map Entry.key)
    (h : ∀ entry ∈ schema, ((Values.last? upper entry.key).getD (f entry)) = g entry) :
    Values.overlay upper (schema.map fun entry => (entry.key, f entry)) =
      schema.map fun entry => (entry.key, g entry) := by
  have hoverlay : (Values.overlay upper (schema.map fun entry => (entry.key, f entry))).keys =
      schema.map Entry.key := by
    rw [Values.keys_overlay (by rwa [keys_map_schema]), keys_map_schema]
  refine Values.eq_of_get?_eq ?_ ?_ fun key hkey => ?_
  · rw [hoverlay, keys_map_schema]
  · rw [hoverlay]
    exact nodup_schema
  · rw [hoverlay, List.mem_map] at hkey
    obtain ⟨entry, hentry, rfl⟩ := hkey
    rw [Values.get?_overlay, get?_map_schema f hentry, get?_map_schema g hentry, ← h entry hentry]
    cases Values.last? upper entry.key <;> rfl

/-- Laid over the defaults, a configuration has for each option the value that the last line for it
gives. -/
theorem merged_eq {text : List Char} {values : Values} (h : parse text = .ok values) :
    values.merged = valuesIn (Text.splitLines text) := by
  refine overlay_map_schema (keys_subset_of_parse h) fun entry hentry => ?_
  rw [Values.last?_eq_get? (nodup_keys_of_parse h), get?_of_parse h,
    option?_eq_some_iff.mpr ⟨hentry, rfl⟩]
  rfl

/-- What lines give is not changed by laying it over the defaults. -/
theorem merged_valuesIn (lines : List (List Char)) : (valuesIn lines).merged = valuesIn lines := by
  have hkeys := keys_map_schema fun entry => entry.valueIn lines
  refine overlay_map_schema (fun key hkey => ?_) fun entry hentry => ?_
  · rwa [valuesIn, hkeys] at hkey
  · have hnodup : (valuesIn lines).keys.Nodup := by
      rw [valuesIn, hkeys]
      exact nodup_schema
    rw [Values.last?_eq_get? hnodup, valuesIn, get?_map_schema _ hentry, Option.getD_some]

/-! ## Listings -/

/-- The options in the order of their keys. -/
def sortedSchema : List Entry := schema.mergeSort fun a b => decide (a.key ≤ b.key)

/-- The lines of a listing, one for each option, in the order of the keys. -/
def listingLines (lines : List (List Char)) : List String :=
  sortedSchema.map fun entry => entry.key ++ " = " ++ (entry.valueIn lines).format

/-- The listing of the configuration that lines give. -/
def listed (lines : List (List Char)) : String := Text.join "\n" (listingLines lines) ++ "\n"

/-- The configuration that lines give is listed option by option. -/
theorem listing_valuesIn (lines : List (List Char)) : (valuesIn lines).listing = listed lines := by
  have hsorted : (valuesIn lines).sorted =
      sortedSchema.map fun entry => (entry.key, entry.valueIn lines) := by
    rw [Values.sorted, valuesIn, sortedSchema, List.map_mergeSort]
    exact fun _ _ _ _ => rfl
  rw [Values.listing, merged_valuesIn, hsorted, List.map_map, listed, listingLines]
  rfl

end WireAgent.Config
