import WireAgent.Proofs.TypedValues

/-!
# Numbers in configurations

A number is written in ASCII digits, with at most a plus sign in front of them (`IsWritten`). A text
is read as the number that it writes; but it is also read if a line feed stands behind the number
(`IsRead`). Just this line feed tells the two apart (`isWritten_iff`), and no text in an entry has
it (`IsEntryText.isRead_iff_isWritten`). The main statement, `read_numbers`, says what every text is
read as in the forms of numbers and ports.
-/

namespace WireAgent.Config

/-! ## Written numbers -/

/-- Does a text write a number, in digits with at most a plus sign in front of them? -/
def IsWritten (text : List Char) (n : Nat) : Prop :=
  ∃ digits, (text = digits ∨ text = '+' :: digits) ∧ digits ≠ [] ∧ Number.IsDigits digits ∧
    Nat.ofDigitChars 10 digits 0 = n

/-- Does a text write a number, with at most a line feed behind it? -/
def IsRead (text : List Char) (n : Nat) : Prop :=
  IsWritten text n ∨ ∃ line, text = line ++ ['\n'] ∧ IsWritten line n

variable {text : List Char} {n : Nat}

/-- No text that writes a number ends in a line feed. -/
theorem IsWritten.getLast?_ne (h : IsWritten text n) : text.getLast? ≠ some '\n' := by
  obtain ⟨digits, htext, hne, hdigits, -⟩ := h
  have hlast : text.getLast? = digits.getLast? := by
    rcases htext with rfl | rfl
    · rfl
    · exact List.getLast?_cons_of_ne_nil hne
  intro hfeed
  rw [hlast] at hfeed
  exact absurd (hdigits '\n' (List.mem_of_getLast? hfeed)) (by decide)

/-- A text writes a number just if it is read as this number and does not end in a line feed. -/
theorem isWritten_iff : IsWritten text n ↔ IsRead text n ∧ text.getLast? ≠ some '\n' := by
  constructor
  · exact fun h => ⟨.inl h, h.getLast?_ne⟩
  · rintro ⟨hwritten | ⟨line, rfl, -⟩, hlast⟩
    · exact hwritten
    · exact absurd List.getLast?_concat hlast

/-- What stands in an entry is read as a number just if it writes this number. -/
theorem IsEntryText.isRead_iff_isWritten (h : IsEntryText text) :
    IsRead text n ↔ IsWritten text n := by
  have hlast : text.getLast? ≠ some '\n' := fun hlast =>
    absurd (h.line '\n' (List.mem_of_getLast? hlast)) (by decide)
  rw [isWritten_iff, and_iff_left hlast]

/-! ## Signs and line feeds around digits -/

theorem numeralBody_eq (text : List Char) :
    let body := if text.head? = some '+' then text.tail else text
    numeralBody text = if body.getLast? = some '\n' then body.dropLast else body := by
  intro body
  unfold numeralBody
  split
  · next rest =>
    dsimp only
    split
    · next hlast => exact (if_pos hlast).symm
    · next hlast => exact (if_neg hlast).symm
  · next hplus =>
    have hbody : body = text := by
      refine if_neg fun hhead => ?_
      exact hplus text.tail (List.cons_head?_tail hhead).symm
    rw [hbody]
    dsimp only
    split
    · next hlast => exact (if_pos hlast).symm
    · next hlast => exact (if_neg hlast).symm

/-- Digits keep their sign and their line feed apart. -/
theorem numeralBody_around {digits sign feed : List Char} (hdigits : Number.IsDigits digits)
    (hsign : sign ∈ [[], ['+']]) (hfeed : feed ∈ [[], ['\n']]) :
    numeralBody (sign ++ digits ++ feed) = digits := by
  have hend : digits.getLast? ≠ some '\n' := by
    intro hlast
    exact absurd (hdigits '\n' (List.mem_of_getLast? hlast)) (by decide)
  have hplus : (digits ++ feed).head? ≠ some '+' := by
    intro hhead
    rcases List.mem_append.mp (List.mem_of_mem_head? hhead) with hmem | hmem
    · exact absurd (hdigits '+' hmem) (by decide)
    · rcases List.mem_pair.mp hfeed with rfl | rfl <;> exact absurd hmem (by decide)
  have hbody : (if (sign ++ digits ++ feed).head? = some '+' then (sign ++ digits ++ feed).tail
      else sign ++ digits ++ feed) = digits ++ feed := by
    rcases List.mem_pair.mp hsign with rfl | rfl
    · exact if_neg hplus
    · rfl
  rw [numeralBody_eq, hbody]
  rcases List.mem_pair.mp hfeed with rfl | rfl
  · rw [List.append_nil, if_neg hend]
  · rw [List.getLast?_concat, if_pos rfl, List.dropLast_concat]

/-- A text is what its digits are looked for in, with a sign and a line feed around it. -/
theorem exists_around (text : List Char) :
    ∃ sign ∈ [[], ['+']], ∃ feed ∈ [[], ['\n']], text = sign ++ numeralBody text ++ feed := by
  have hsign : ∃ sign ∈ [[], ['+']],
      text = sign ++ if text.head? = some '+' then text.tail else text := by
    split_ifs with hhead
    · exact ⟨['+'], by simp, (List.cons_head?_tail hhead).symm⟩
    · exact ⟨[], by simp, rfl⟩
  have hfeed (body : List Char) : ∃ feed ∈ [[], ['\n']],
      body = (if body.getLast? = some '\n' then body.dropLast else body) ++ feed := by
    split_ifs with hlast
    · exact ⟨['\n'], by simp, (List.dropLast_append_getLast? _ hlast).symm⟩
    · exact ⟨[], by simp, (List.append_nil body).symm⟩
  obtain ⟨sign, hmem, htext⟩ := hsign
  obtain ⟨feed, hfeedMem, hbody⟩ := hfeed (if text.head? = some '+' then text.tail else text)
  refine ⟨sign, hmem, feed, hfeedMem, ?_⟩
  rw [List.append_assoc, numeralBody_eq, ← hbody]
  exact htext

/-- A text that is read as a number is digits with a sign and a line feed around them. -/
theorem isRead_iff_around :
    IsRead text n ↔ ∃ sign ∈ [[], ['+']], ∃ feed ∈ [[], ['\n']], ∃ digits : List Char,
      text = sign ++ digits ++ feed ∧ digits ≠ [] ∧ Number.IsDigits digits ∧
        Nat.ofDigitChars 10 digits 0 = n := by
  constructor
  · rintro (⟨digits, rfl | rfl, hdigits⟩ | ⟨line, rfl, digits, rfl | rfl, hdigits⟩)
    · exact ⟨[], by simp, [], by simp, text, by simp, hdigits⟩
    · exact ⟨['+'], by simp, [], by simp, digits, by simp, hdigits⟩
    · exact ⟨[], by simp, ['\n'], by simp, line, rfl, hdigits⟩
    · exact ⟨['+'], by simp, ['\n'], by simp, digits, rfl, hdigits⟩
  · rintro ⟨sign, hsign, feed, hfeed, digits, htext, hdigits⟩
    have hwritten : IsWritten (sign ++ digits) n := by
      rcases List.mem_pair.mp hsign with rfl | rfl
      · exact ⟨digits, .inl rfl, hdigits⟩
      · exact ⟨digits, .inr rfl, hdigits⟩
    rcases List.mem_pair.mp hfeed with rfl | rfl
    · rw [List.append_nil] at htext
      exact .inl (htext ▸ hwritten)
    · exact .inr ⟨_, htext, hwritten⟩

/-- A text is read as a number just if that is what its digits denote. -/
theorem isRead_iff :
    IsRead text n ↔ numeralBody text ≠ [] ∧ Number.IsDigits (numeralBody text) ∧
      Number.asciiValue (numeralBody text) = n := by
  rw [isRead_iff_around]
  constructor
  · rintro ⟨sign, hsign, feed, hfeed, digits, rfl, hne, hdigits, hvalue⟩
    rw [numeralBody_around hdigits hsign hfeed, Number.asciiValue_eq_ofDigitChars hdigits]
    exact ⟨hne, hdigits, hvalue⟩
  · rintro ⟨hne, hdigits, hvalue⟩
    obtain ⟨sign, hsign, feed, hfeed, htext⟩ := exists_around text
    rw [Number.asciiValue_eq_ofDigitChars hdigits] at hvalue
    exact ⟨sign, hsign, feed, hfeed, _, htext, hne, hdigits, hvalue⟩

/-! ## Numbers that are read -/

section

variable (limit : Nat) (hshort : text.countP Text.isAsciiDigit ≤ Number.maxDigits)

include hshort

/-- The digits of a short text are few enough to be converted. -/
theorem length_numeralBody_le (hdigits : Number.IsDigits (numeralBody text)) :
    (numeralBody text).length ≤ Number.maxDigits := by
  obtain ⟨sign, -, feed, -, htext⟩ := exists_around text
  have hcount : (numeralBody text).countP Text.isAsciiDigit = (numeralBody text).length :=
    List.countP_eq_length.mpr hdigits
  have hsublist : (numeralBody text).Sublist text := by
    conv_rhs => rw [htext]
    exact (List.sublist_append_right _ _).trans (List.sublist_append_left _ _)
  rw [← hcount]
  exact (hsublist.countP_le).trans hshort

/-- A short text that is read as a number within the limit gives this number, and any other short
text gives none. -/
theorem unsigned_of_short :
    (∀ n, unsigned limit text = .ok (some n) ↔ n ≤ limit ∧ IsRead text n) ∧
      ∃ answer, unsigned limit text = .ok answer := by
  simp only [isRead_iff]
  by_cases hbody : Number.IsDigits (numeralBody text) ∧ numeralBody text ≠ []
  · have hlength := length_numeralBody_le hshort hbody.1
    rw [unsigned_eq, if_pos hbody, if_neg (by omega)]
    split_ifs with hle
    · refine ⟨fun n => ?_, _, rfl⟩
      rw [Except.ok.injEq, Option.some.injEq]
      constructor
      · rintro rfl
        exact ⟨hle, hbody.2, hbody.1, rfl⟩
      · exact fun h => h.2.2.2
    · refine ⟨fun n => ?_, _, rfl⟩
      constructor
      · intro h
        cases h
      · rintro ⟨hlimit, -, -, rfl⟩
        exact absurd hlimit hle
  · rw [unsigned_eq, if_neg hbody]
    refine ⟨fun n => ?_, _, rfl⟩
    constructor
    · intro h
      cases h
    · rintro ⟨-, hne, hdigits, -⟩
      exact absurd ⟨hdigits, hne⟩ hbody

/-- A short text has the value of the number that it is read as, if this is within the limit. -/
theorem map_unsigned_of_short :
    let values := (unsigned limit text).map (Option.map fun n : Nat => Value.number n)
    (∀ value, values = .ok (some value) ↔
        ∃ n : Nat, n ≤ limit ∧ value = .number n ∧ IsRead text n) ∧
      ∃ answer, values = .ok answer := by
  intro values
  obtain ⟨hread, answer, hanswer⟩ := unsigned_of_short limit hshort
  have hvalues : values = .ok (answer.map fun n : Nat => Value.number n) := by
    show Except.map _ (unsigned limit text) = _
    rw [hanswer]
    rfl
  refine ⟨fun value => ?_, _, hvalues⟩
  rw [hvalues, Except.ok.injEq, Option.map_eq_some_iff]
  constructor
  · rintro ⟨n, rfl, rfl⟩
    obtain ⟨hle, htext⟩ := (hread n).mp hanswer
    exact ⟨n, hle, rfl, htext⟩
  · rintro ⟨n, hle, rfl, htext⟩
    have hsome := (hread n).mpr ⟨hle, htext⟩
    rw [hanswer, Except.ok.injEq] at hsome
    exact ⟨n, hsome, rfl⟩

end

/-! ## Forms of numbers -/

theorem Form.read_number (text : List Char) : Form.number.read text =
    (unsigned Number.greatest32 text).map (Option.map fun n : Nat => Value.number n) := by
  unfold Form.read
  rcases unsigned Number.greatest32 text with _ | _ | _ <;> rfl

theorem Form.read_port (text : List Char) : Form.port.read text =
    if text = [] ∨ text = absentText.toList then .ok (some .absent)
    else (unsigned Number.greatest16 text).map (Option.map fun n : Nat => Value.number n) := by
  unfold Form.read
  simp only [List.isEmpty_iff]
  split_ifs
  · rfl
  · rcases unsigned Number.greatest16 text with _ | _ | _ <;> rfl

/-- A text that stands for no port is not read as a number. -/
theorem not_isRead_of_absent (h : text = [] ∨ text = absentText.toList) : ¬IsRead text n := by
  rw [isRead_iff]
  rcases h with rfl | rfl
  · exact fun h => absurd h.1 (by decide)
  · exact fun h => absurd h.2.1 (by decide)

/-- A text of at most 4300 digits is read as a number just if it writes one of at most 32 bits, and
as a port just if it writes one of at most 16 bits or stands for no port; it has no value in any
other case, and reading it never fails. The one exception is a line feed behind a number, which is
passed over. -/
theorem read_numbers (hshort : text.countP Text.isAsciiDigit ≤ Number.maxDigits) :
    (∀ value, Form.number.read text = .ok (some value) ↔
        ∃ n : Nat, n < 2 ^ 32 ∧ value = .number n ∧ IsRead text n) ∧
      (∀ value, Form.port.read text = .ok (some value) ↔
        (value = .absent ∧ (text = [] ∨ text = absentText.toList)) ∨
          ∃ n : Nat, n < 2 ^ 16 ∧ value = .number n ∧ IsRead text n) ∧
      (∀ form ∈ [Form.number, Form.port], ∃ answer, form.read text = .ok answer) ∧
      ∀ n, IsWritten text n ↔ IsRead text n ∧ text.getLast? ≠ some '\n' := by
  have hgreatest32 (n : Nat) : n < 2 ^ 32 ↔ n ≤ Number.greatest32 := Nat.lt_succ_iff
  have hgreatest16 (n : Nat) : n < 2 ^ 16 ↔ n ≤ Number.greatest16 := Nat.lt_succ_iff
  simp only [hgreatest32, hgreatest16]
  obtain ⟨hnumber, hnumberAnswer⟩ := map_unsigned_of_short Number.greatest32 hshort
  obtain ⟨hport, hportAnswer⟩ := map_unsigned_of_short Number.greatest16 hshort
  rw [← Form.read_number] at hnumber hnumberAnswer
  refine ⟨hnumber, ?_, ?_, fun _ => isWritten_iff⟩
  · intro value
    rw [Form.read_port]
    split_ifs with habsent
    · rw [Except.ok.injEq, Option.some.injEq]
      constructor
      · rintro rfl
        exact .inl ⟨rfl, habsent⟩
      · rintro (⟨rfl, -⟩ | ⟨n, -, -, hread⟩)
        · rfl
        · exact absurd hread (not_isRead_of_absent habsent)
    · rw [hport value, or_iff_right fun h => habsent h.2]
  · intro form hform
    rcases List.mem_pair.mp hform with rfl | rfl
    · exact hnumberAnswer
    · rw [Form.read_port]
      split_ifs
      · exact ⟨_, rfl⟩
      · exact hportAnswer

/-- A number with a sign and a leading zero. -/
theorem read_numbers_padded :
    let text := "+080".toList
    text.countP Text.isAsciiDigit ≤ Number.maxDigits ∧ IsWritten text 80 ∧
      Form.number.read text = .ok (some (.number 80)) ∧
      Form.port.read text = .ok (some (.number 80)) := by
  intro text
  have hshort : text.countP Text.isAsciiDigit ≤ Number.maxDigits := by decide
  have hwritten : IsWritten text 80 :=
    ⟨"080".toList, .inr rfl, by decide, by decide, by decide⟩
  obtain ⟨hnumber, hport, -, -⟩ := read_numbers hshort
  exact ⟨hshort, hwritten, (hnumber _).mpr ⟨80, by decide, rfl, .inl hwritten⟩,
    (hport _).mpr (.inr ⟨80, by decide, rfl, .inl hwritten⟩)⟩

/-- A line feed behind a number is read, though the text writes no number. -/
theorem read_numbers_feed :
    let text := "80\n".toList
    text.countP Text.isAsciiDigit ≤ Number.maxDigits ∧ (∀ n, ¬IsWritten text n) ∧
      Form.number.read text = .ok (some (.number 80)) ∧
      Form.port.read text = .ok (some (.number 80)) := by
  intro text
  exact ⟨by decide, fun n h => h.getLast?_ne (by decide), by decide, by decide⟩

end WireAgent.Config
