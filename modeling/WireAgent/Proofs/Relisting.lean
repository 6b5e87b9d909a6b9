import WireAgent.Proofs.UnsignedNumbers

/-!
# Listings read back

The listing of a configuration has one line for each option, and the lines are in their own order
(`pairwise_listingLines`). It is itself a configuration (`listing_reads_back`): all values come back
but those of the flags, which are listed in words that no flag is read from.
-/

namespace WireAgent.Config

/-! ## Keys -/

/-- The dot, the digits and the letters. -/
def keyRanges : Text.Ranges := [(0x2E, 0x2E), (0x30, 0x39), (0x41, 0x5A), (0x61, 0x7A)]

section

variable {c : Char} (h : keyRanges.holds c = true)

include h

theorem isBlank_of_holds : Text.isBlank c = false := Text.Ranges.holds_of_apart (by decide) h

theorem isLineBreak_of_holds : Text.isLineBreak c = false :=
  Text.Ranges.holds_of_apart (by decide) h

/-- The blank comes before the characters of keys. -/
theorem blank_lt_of_holds : ' ' < c := by
  obtain ⟨range, hrange, hlow, -⟩ := Text.Ranges.holds_iff.mp h
  have hblank : ∀ range ∈ keyRanges, 0x20 < range.1 := by decide
  exact (hblank range hrange).trans_le hlow

/-- No sign that has a meaning in a line is in a key. -/
theorem ne_of_holds {sign : Char} (hsign : keyRanges.holds sign = false) : c ≠ sign := by
  rintro rfl
  rw [h] at hsign
  cases hsign

end

/-- Is it a text as the keys of options are? -/
structure IsKey (key : List Char) : Prop where
  ne_nil : key ≠ []
  holds : ∀ c ∈ key, keyRanges.holds c = true

theorem isKey_of_mem_schema : ∀ entry ∈ schema, IsKey entry.key.toList := by
  have hkey {key : String} {cs : List Char} (hcs : key = String.ofList cs) (hne : cs ≠ [])
      (hall : cs.all keyRanges.holds = true) : IsKey key.toList := by
    rw [hcs, String.toList_ofList]
    exact ⟨hne, List.all_eq_true.mp hall⟩
  simp only [schema, flagOptions, textOptions, numberOptions, portOptions, List.forall_mem_append,
    List.forall_mem_cons, List.not_mem_nil, false_imp_iff, implies_true, and_true]
  repeat' apply And.intro
  -- The unifier finds the characters of each literal faster than evaluation does.
  all_goals exact hkey rfl (List.cons_ne_nil _ _) (by decide)

theorem IsKey.isEntryText {key : List Char} (h : IsKey key) : IsEntryText key :=
  ⟨Text.trim_eq_self fun c hc => isBlank_of_holds (h.holds c hc),
    fun hc => ne_of_holds (h.holds '#' hc) (by decide) rfl,
    fun c hc => isLineBreak_of_holds (h.holds c hc)⟩

/-! ## Values -/

theorem isKey_decimal (n : Nat) : IsKey (Number.decimal n) := by
  refine ⟨Number.decimal_ne_nil n, fun c hc => ?_⟩
  have hdigit := Number.isAsciiDigit_of_mem_decimal hc
  simp only [Text.isAsciiDigit, Bool.and_eq_true, decide_eq_true_eq] at hdigit
  exact Text.Ranges.holds_iff.mpr ⟨(0x30, 0x39), by decide, hdigit.1, hdigit.2⟩

/-- A number is read from its numeral, if it is not too large. -/
theorem unsigned_decimal {limit n : Nat} (hn : n ≤ limit) (hlimit : limit < 10 ^ 10) :
    unsigned limit (Number.decimal n) = .ok (some n) := by
  have hlength : (Number.decimal n).length ≤ 10 := Number.length_decimal_le (by decide) (by omega)
  have hshort : (Number.decimal n).countP Text.isAsciiDigit ≤ Number.maxDigits :=
    List.countP_le_length.trans (hlength.trans (by decide))
  have hwritten : IsWritten (Number.decimal n) n := by
    have hdigits := Number.isDigits_decimal n
    refine ⟨_, .inl rfl, Number.decimal_ne_nil n, hdigits, ?_⟩
    rw [← Number.asciiValue_eq_ofDigitChars hdigits, Number.asciiValue_decimal]
  exact ((unsigned_of_short limit hshort).1 n).mpr ⟨hn, .inl hwritten⟩

/-- The text of a value that has a form can stand in an entry. -/
theorem Form.isEntryText_format {form : Form} {value : Value} (h : form.Fits value) :
    value.format.toList ≠ [] ∧ IsEntryText value.format.toList := by
  have hnumber {n : Int} (hn : 0 ≤ n) :
      (Number.ofInt n).toList ≠ [] ∧ IsEntryText (Number.ofInt n).toList := by
    obtain ⟨n, rfl⟩ := Int.eq_ofNat_of_zero_le hn
    rw [Number.toList_ofInt_natCast]
    exact ⟨Number.decimal_ne_nil n, (isKey_decimal n).isEntryText⟩
  match form, value, h with
  | .flag, .flag true, _ | .flag, .flag false, _ | .port, .absent, _ => decide
  | .number, .number _, h | .port, .number _, h => exact hnumber h.1
  | .text, .text s, h => exact ⟨fun hempty => h.1 (String.toList_eq_nil_iff.mp hempty), h.2.2⟩

/-- A value that has a form is read from its text, unless it is a flag. -/
theorem Form.read_format {form : Form} {value : Value} (h : form.Fits value) :
    form.read value.format.toList = .ok (if form = .flag then none else some value) := by
  match form, value, h with
  | .flag, .flag true, _ | .flag, .flag false, _ | .port, .absent, _ => rfl
  | .number, .number n, h =>
    obtain ⟨n, rfl⟩ := Int.eq_ofNat_of_zero_le h.1
    have hn : n ≤ Number.greatest32 := by
      have := h.2
      unfold Number.greatest32
      omega
    rw [Value.format, Number.toList_ofInt_natCast, read, unsigned_decimal hn (by decide)]
    rfl
  | .port, .number n, h =>
    obtain ⟨n, rfl⟩ := Int.eq_ofNat_of_zero_le h.1
    have hn : n ≤ Number.greatest16 := by
      have := h.2
      unfold Number.greatest16
      omega
    have hpresent :
        ¬((Number.decimal n).isEmpty = true ∨ Number.decimal n = absentText.toList) := by
      rintro (hempty | habsent)
      · exact Number.decimal_ne_nil n (List.isEmpty_iff.mp hempty)
      · have hdigits := Number.isDigits_decimal n
        rw [habsent] at hdigits
        exact absurd hdigits (by decide)
    rw [Value.format, Number.toList_ofInt_natCast, read, if_neg hpresent,
      unsigned_decimal hn (by decide)]
    rfl
  | .text, .text s, h =>
    have hquotes : s.toList ≠ ['"', '"'] := fun heq =>
      h.2.1 (String.toList_inj.mp (heq.trans String.toList_ofList.symm))
    have hempty : ¬s.toList.isEmpty = true := fun hempty =>
      h.1 (String.toList_eq_nil_iff.mp (List.isEmpty_iff.mp hempty))
    rw [Value.format, read, if_neg hquotes, if_neg hempty, String.ofList_toList]
    rfl

/-! ## Lines -/

/-- A line with a key and a text, as they are listed, gives the text to the key. -/
theorem splitEntry?_listed {key text : List Char} (hkey : IsKey key) (hne : text ≠ [])
    (htext : IsEntryText text) :
    splitEntry? (key ++ [' ', '=', ' '] ++ text) = some (key, text) := by
  have huncommented : ∀ c ∈ key ++ [' ', '=', ' '] ++ text, decide (c ≠ '#') = true := by
    intro c hc
    rw [decide_eq_true_eq]
    rintro rfl
    simp only [List.mem_append, List.mem_cons, List.not_mem_nil] at hc
    rcases hc with (hc | hc) | hc
    · exact hkey.isEntryText.uncommented hc
    · exact absurd hc (by decide)
    · exact htext.uncommented hc
  have hbefore : ∀ c ∈ key ++ [' '], decide (c ≠ '=') = true := by
    intro c hc
    rw [decide_eq_true_eq]
    rcases List.mem_append.mp hc with hc | hc
    · exact ne_of_holds (hkey.holds c hc) (by decide)
    · rw [List.mem_singleton.mp hc]
      decide
  have hcontent : Text.trim ((key ++ [' ', '=', ' '] ++ text).takeWhile (· ≠ '#')) =
      (key ++ [' ']) ++ '=' :: ([' '] ++ text) := by
    rw [List.takeWhile_eq_self_iff.mpr huncommented,
      Text.trim_enclosed hkey.isEntryText.trimmed hkey.ne_nil htext.trimmed hne]
    simp
  have hblank : Text.IsBlanks [' '] := by
    intro c hc
    rw [List.mem_singleton.mp hc]
    rfl
  unfold splitEntry?
  dsimp only
  rw [hcontent, List.takeWhile_append_of_pos hbefore, List.dropWhile_append_of_pos hbefore,
    List.takeWhile_cons_of_neg (by decide), List.dropWhile_cons_of_neg (by decide), List.append_nil,
    Text.trim_append_blanks hblank, hkey.isEntryText.trimmed, List.drop_one, List.tail_cons,
    if_neg fun hempty => hkey.ne_nil (List.isEmpty_iff.mp hempty), Text.trim_blanks_append hblank,
    htext.trimmed]

variable {lines : List (List Char)}

/-- The line of an option in a listing. -/
def Entry.lineIn (entry : Entry) (lines : List (List Char)) : String :=
  entry.key ++ " = " ++ (entry.valueIn lines).format

theorem Entry.toList_lineIn (entry : Entry) (lines : List (List Char)) :
    (entry.lineIn lines).toList =
      entry.key.toList ++ [' ', '=', ' '] ++ (entry.valueIn lines).format.toList := by
  rw [lineIn, String.toList_append, String.toList_append]
  rfl

/-- The line of an option in a listing is one line. -/
theorem Entry.isLine_lineIn (hlines : ∀ line ∈ lines, Text.IsLine line) {entry : Entry}
    (hentry : entry ∈ schema) : Text.IsLine (entry.lineIn lines).toList := by
  rw [toList_lineIn, Text.isLine_append, Text.isLine_append]
  exact ⟨⟨(isKey_of_mem_schema entry hentry).isEntryText.line, by decide⟩,
    (Form.isEntryText_format (entry.fits_valueIn hlines hentry)).2.line⟩

/-- The line of an option in a listing names it. -/
theorem Entry.named?_lineIn (hlines : ∀ line ∈ lines, Text.IsLine line) {entry : Entry}
    (hentry : entry ∈ schema) :
    named? (entry.lineIn lines).toList = some (entry, (entry.valueIn lines).format.toList) := by
  obtain ⟨hne, htext⟩ := Form.isEntryText_format (entry.fits_valueIn hlines hentry)
  refine named?_eq_some_iff.mpr ⟨hentry, entry.key.toList, ?_, String.ofList_toList.symm⟩
  rw [toList_lineIn, splitEntry?_listed (isKey_of_mem_schema entry hentry) hne htext]

/-- A listed value comes back from its text; a flag becomes its default. -/
theorem Entry.valueOf_format (hlines : ∀ line ∈ lines, Text.IsLine line) {entry : Entry}
    (hentry : entry ∈ schema) :
    entry.valueOf (entry.valueIn lines).format.toList =
      if entry.form = .flag then entry.fallback else entry.valueIn lines := by
  rw [valueOf, Form.read_format (entry.fits_valueIn hlines hentry)]
  split_ifs <;> rfl

theorem not_isLongLine_lineIn (hlines : ∀ line ∈ lines, Text.IsLine line) {entry : Entry}
    (hentry : entry ∈ schema) : ¬IsLongLine (entry.lineIn lines).toList := by
  rintro ⟨other, text, hnamed, hlong⟩
  rw [entry.named?_lineIn hlines hentry] at hnamed
  cases hnamed
  have hfailed := Form.read_eq_error_iff.mpr ⟨hlong, rfl⟩
  rw [Form.read_format (entry.fits_valueIn hlines hentry)] at hfailed
  cases hfailed

/-! ## Listings -/

theorem sortedSchema_perm : sortedSchema.Perm schema := List.mergeSort_perm _ _

theorem mem_sortedSchema {entry : Entry} : entry ∈ sortedSchema ↔ entry ∈ schema :=
  sortedSchema_perm.mem_iff

theorem nodup_sortedSchema : sortedSchema.Nodup :=
  sortedSchema_perm.nodup_iff.mpr nodup_schema.of_map

/-- The options are sorted by their keys, and no two keys are equal. -/
theorem pairwise_sortedSchema :
    sortedSchema.Pairwise fun a b => a.key.toList < b.key.toList := by
  have hle : sortedSchema.Pairwise fun a b => decide (a.key ≤ b.key) = true :=
    List.pairwise_mergeSort
      (fun a b c hab hbc => by
        rw [decide_eq_true_eq] at hab hbc ⊢
        exact String.le_trans hab hbc)
      (fun a b => by
        rw [Bool.or_eq_true, decide_eq_true_eq, decide_eq_true_eq]
        exact String.le_total a.key b.key) _
  have hne : sortedSchema.Pairwise fun a b => a.key ≠ b.key :=
    List.pairwise_map.mp ((sortedSchema_perm.map Entry.key).nodup_iff.mpr nodup_schema)
  refine (hle.and hne).imp fun {a b} ⟨hab, hdistinct⟩ => ?_
  by_contra hnot
  exact hdistinct (String.le_antisymm (of_decide_eq_true hab) (mt String.lt_iff.mp hnot))

/-- A key that is less than another one remains so with a blank and a text behind each. -/
theorem lt_append_blank {key key' : List Char} (hkey' : ∀ c ∈ key', ' ' < c) (h : key < key')
    (text text' : List Char) : key ++ ' ' :: text < key' ++ ' ' :: text' := by
  induction key generalizing key' with
  | nil =>
    cases key' with
    | nil => exact absurd h (List.not_lt_nil _)
    | cons d key' => exact List.cons_lt_cons_iff.mpr (.inl (hkey' d List.mem_cons_self))
  | cons c key ih =>
    cases key' with
    | nil => exact absurd h (List.not_lt_nil _)
    | cons d key' =>
      rcases List.cons_lt_cons_iff.mp h with hlt | ⟨rfl, hlt⟩
      · exact List.cons_lt_cons_iff.mpr (.inl hlt)
      · have htail := ih (fun c hc => hkey' c (List.mem_cons_of_mem _ hc)) hlt
        exact List.cons_lt_cons_iff.mpr (.inr ⟨rfl, htail⟩)

/-- The lines of a listing are in their own order. -/
theorem pairwise_listingLines (lines : List (List Char)) :
    (listingLines lines).Pairwise (· < ·) := by
  refine List.pairwise_map.mpr (pairwise_sortedSchema.imp_of_mem fun {a b} _ hb hlt => ?_)
  have hkey := isKey_of_mem_schema b (mem_sortedSchema.mp hb)
  have hblank : ∀ c ∈ b.key.toList, ' ' < c :=
    fun c hc => blank_lt_of_holds (hkey.holds c hc)
  have htoList (entry : Entry) : (entry.key ++ " = " ++ (entry.valueIn lines).format).toList =
      entry.key.toList ++ ' ' :: (['=', ' '] ++ (entry.valueIn lines).format.toList) := by
    rw [← Entry.lineIn, Entry.toList_lineIn, List.append_assoc]
    rfl
  rw [String.lt_iff, htoList, htoList]
  exact lt_append_blank hblank hlt _ _

theorem listingLines_ne_nil (lines : List (List Char)) : listingLines lines ≠ [] := by
  intro hnil
  have hempty : sortedSchema = [] := List.map_eq_nil_iff.mp hnil
  exact absurd (hempty ▸ sortedSchema_perm).nil_eq (by decide)

theorem isLine_of_mem_listingLines (hlines : ∀ line ∈ lines, Text.IsLine line) :
    ∀ line ∈ listingLines lines, Text.IsLine line.toList := by
  intro line hline
  obtain ⟨entry, hentry, rfl⟩ := List.mem_map.mp hline
  exact entry.isLine_lineIn hlines (mem_sortedSchema.mp hentry)

/-- Where each option has at most one line, its line gives it the text of its value. -/
theorem Entry.lastText?_lineIn (hlines : ∀ line ∈ lines, Text.IsLine line) {entries : List Entry}
    (hnodup : entries.Nodup) (hschema : ∀ entry ∈ entries, entry ∈ schema) {entry : Entry}
    (hentry : entry ∈ entries) :
    entry.lastText? (entries.map fun entry => (entry.lineIn lines).toList) =
      some (entry.valueIn lines).format.toList := by
  have hnamed : (entries.map fun entry => (entry.lineIn lines).toList).filterMap named? =
      entries.map fun entry => (entry, (entry.valueIn lines).format.toList) := by
    rw [List.filterMap_map]
    refine List.filterMap_eq_map_iff_forall_eq_some.mpr fun other hother => ?_
    rw [Function.comp_apply, other.named?_lineIn hlines (hschema other hother)]
  have honce : entries.filter (fun other => other == entry) = [entry] := by
    rw [List.filter_beq, hnodup.count, if_pos hentry, List.replicate_one]
  have hfilter : (entries.map fun entry =>
      (entry, (entry.valueIn lines).format.toList)).filter (fun named => named.1 == entry) =
      [(entry, (entry.valueIn lines).format.toList)] := by
    rw [List.filter_map]
    exact congrArg (List.map _) honce
  rw [lastText?, hnamed, hfilter]
  rfl

/-- A listing is split into the lines of the options. -/
theorem splitLines_listed (hlines : ∀ line ∈ lines, Text.IsLine line) :
    Text.splitLines (listed lines).toList =
      sortedSchema.map fun entry => (entry.lineIn lines).toList := by
  rw [listed, Text.splitLines_join_ended (listingLines_ne_nil lines)
    (isLine_of_mem_listingLines hlines), listingLines, List.map_map]
  rfl

/-- The listing of what was read from a text is a text that can be read. -/
theorem exists_parse_listed (hlines : ∀ line ∈ lines, Text.IsLine line) :
    ∃ again, parse (listed lines).toList = .ok again := by
  have hresult := parse_result (listed lines).toList
  rw [if_neg] at hresult
  · exact ⟨_, hresult⟩
  · rintro ⟨line, hline, hlong⟩
    rw [splitLines_listed hlines] at hline
    obtain ⟨entry, hentry, rfl⟩ := List.mem_map.mp hline
    exact not_isLongLine_lineIn hlines (mem_sortedSchema.mp hentry) hlong

/-- The listing of a configuration that was read has one line for each option, in the order of the
lines. It is read as a configuration in turn, which gives each option its value, but each flag its
default. -/
theorem listing_reads_back {text : List Char} {values : Values} (h : parse text = .ok values) :
    sortedSchema.Perm schema ∧
      ∃ value : Entry → Value,
        (∀ entry ∈ schema, values.merged.get? entry.key = some (value entry)) ∧
        Text.lines values.merged.listing =
          sortedSchema.map (fun entry => entry.key ++ " = " ++ (value entry).format) ∧
        (Text.lines values.merged.listing).Pairwise (· < ·) ∧
        ∃ again, parse values.merged.listing.toList = .ok again ∧
          ∀ entry ∈ schema, again.get? entry.key =
            some (if entry.form = .flag then entry.fallback else value entry) := by
  have hlines : ∀ line ∈ Text.splitLines text, Text.IsLine line :=
    fun _ => Text.isLine_of_mem_splitLines
  have hlisting : values.merged.listing = listed (Text.splitLines text) := by
    rw [merged_eq h, listing_valuesIn]
  have hended := Text.lines_ended (listingLines_ne_nil (Text.splitLines text))
    (isLine_of_mem_listingLines hlines)
  obtain ⟨again, hagain⟩ := exists_parse_listed hlines
  rw [hlisting, listed, hended, ← listed]
  refine ⟨sortedSchema_perm, fun entry => entry.valueIn (Text.splitLines text),
    fun entry hentry => ?_, rfl, pairwise_listingLines _, again, hagain,
    fun entry hentry => ?_⟩
  · rw [merged_eq h, valuesIn, get?_map_schema _ hentry]
  · have hlast := Entry.lastText?_lineIn hlines nodup_sortedSchema
      (fun _ => mem_sortedSchema.mp) (mem_sortedSchema.mpr hentry)
    rw [get?_of_parse hagain, option?_eq_some_iff.mpr ⟨hentry, rfl⟩, splitLines_listed hlines,
      Option.bind_some, hlast, Option.map_some, entry.valueOf_format hlines hentry]

/-- A text with an equals sign and an unusual blank in it, a number at its limit, and a flag. -/
theorem listing_reads_back_unusual :
    let values : Values :=
      [("Lib.Dir", .text "a=\u00A0b"), ("Logs.CollectPeriod", .number 4294967295),
        ("OS.AllowHTTP", .flag true)]
    parse "Lib.Dir = a=\u00A0b\nLogs.CollectPeriod = 4294967295\nOS.AllowHTTP = y".toList =
        .ok values ∧
      ∃ again, parse values.merged.listing.toList = .ok again ∧
        again.get? "Lib.Dir" = some (.text "a=\u00A0b") ∧
        again.get? "Logs.CollectPeriod" = some (.number 4294967295) ∧
        again.get? "OS.AllowHTTP" = some (.flag false) := by
  intro values
  have hparse : parse
      "Lib.Dir = a=\u00A0b\nLogs.CollectPeriod = 4294967295\nOS.AllowHTTP = y".toList =
      .ok values := by
    decide +kernel
  obtain ⟨-, value, hvalue, -, -, again, hagain, hget⟩ := listing_reads_back hparse
  have hdir := hvalue ⟨"Lib.Dir", .text, .text "/var/lib/waagent"⟩ (by decide)
  have hperiod := hvalue ⟨"Logs.CollectPeriod", .number, .number 3600⟩ (by decide)
  refine ⟨hparse, again, hagain, ?_, ?_, ?_⟩
  · rw [hget ⟨"Lib.Dir", .text, .text "/var/lib/waagent"⟩ (by decide), if_neg (by decide), ← hdir]
    decide +kernel
  · rw [hget ⟨"Logs.CollectPeriod", .number, .number 3600⟩ (by decide), if_neg (by decide),
      ← hperiod]
    decide +kernel
  · exact hget ⟨"OS.AllowHTTP", .flag, .flag false⟩ (by decide)

end WireAgent.Config
