import Mathlib.Tactic.SplitIfs
import WireAgent.Json.Reader
import WireAgent.Json.Writer
import WireAgent.Proofs.Numerals

/-!
# JSON text

The text of a value is ASCII alone, and the value is read back from it (`parse?_render`): strings
character by character, integers digit by digit, and items and members in their order. Doubles are
left out (`Json.Exact`); what they are written as is a matter of numerals and not of this text.

A reading function is related to what remains of the text. A string ends at its quote. A number ends
before the first character that cannot be part of it, and after a value in a text stands nothing, a
comma or a closing bracket (`EndsValue`).
-/

namespace WireAgent

/-! ## ASCII -/

namespace Text

/-- Is a text ASCII alone? -/
def isAscii (cs : List Char) : Bool := cs.all fun c => c.toNat < 128

@[simp]
theorem isAscii_nil : isAscii [] = true := rfl

theorem isAscii_iff {cs : List Char} : isAscii cs = true ↔ ∀ c ∈ cs, c.toNat < 128 := by
  simp [isAscii]

end Text

namespace Json

/-! ## Strings -/

theorem hexDigit?_hexDigit {n : Nat} (h : n < 16) : Text.hexDigit? (Text.hexDigit n) = some n := by
  have hall : ∀ n < 16, Text.hexDigit? (Text.hexDigit n) = some n := by decide
  exact hall n h

/-- The four digits of a unit. -/
theorem unitEscape_eq (unit : Nat) :
    unitEscape unit = ['\\', 'u', Text.hexDigit (unit / 4096 % 16), Text.hexDigit (unit / 256 % 16),
      Text.hexDigit (unit / 16 % 16), Text.hexDigit (unit % 16)] := by
  simp [unitEscape, Text.hexDigits, Nat.div_div_eq_div_mul]

theorem unit?_hexDigits {unit : Nat} (h : unit < 0x10000) :
    unit? (Text.hexDigit (unit / 4096 % 16)) (Text.hexDigit (unit / 256 % 16))
      (Text.hexDigit (unit / 16 % 16)) (Text.hexDigit (unit % 16)) = some unit := by
  have hdigit (n : Nat) := hexDigit?_hexDigit (Nat.mod_lt n (by decide : 0 < 16))
  simp only [unit?, hdigit, Option.bind_eq_bind, Option.bind_some, Option.pure_def,
    Option.some.injEq]
  omega

/-- A unit that is no surrogate is read as its character. -/
theorem stringBody?_unit {unit : Nat} (h : unit < 0xD800 ∨ (0xE000 ≤ unit ∧ unit < 0x10000))
    (rest : List Char) :
    stringBody? (unitEscape unit ++ rest) =
      (stringBody? rest).map fun (body, left) => (Char.ofNat unit :: body, left) := by
  have hunit := unit?_hexDigits (show unit < 0x10000 by omega)
  have hhigh : (0xD800 ≤ unit && unit < 0xDC00) = false := by
    simp
    omega
  have hlow : (0xDC00 ≤ unit && unit < 0xE000) = false := by
    simp
    omega
  rw [unitEscape_eq]
  simp only [List.cons_append, List.nil_append]
  rw [stringBody?, hunit]
  simp only [hhigh, hlow]
  rfl

/-- A pair of surrogates is read as one character. -/
theorem stringBody?_pair {high low : Nat} (hhigh : high < 0x400) (hlow : low < 0x400)
    (rest : List Char) :
    stringBody? (unitEscape (0xD800 + high) ++ (unitEscape (0xDC00 + low) ++ rest)) =
      (stringBody? rest).map fun (body, left) =>
        (Char.ofNat (0x10000 + high * 0x400 + low) :: body, left) := by
  have hunit := unit?_hexDigits (show 0xD800 + high < 0x10000 by omega)
  have hunit' := unit?_hexDigits (show 0xDC00 + low < 0x10000 by omega)
  have hishigh : (0xD800 ≤ 0xD800 + high && 0xD800 + high < 0xDC00) = true := by
    simp
    omega
  have hislow : (0xDC00 ≤ 0xDC00 + low && 0xDC00 + low < 0xE000) = true := by
    simp
    omega
  rw [unitEscape_eq, unitEscape_eq]
  simp only [List.cons_append, List.nil_append]
  rw [stringBody?, hunit]
  simp only [hishigh, if_true, hunit', hislow, Nat.add_sub_cancel_left]

/-- A character stands for itself if it needs no escape. -/
theorem stringBody?_plain {c : Char} (hquote : c ≠ '"') (hslash : c ≠ '\\') (hc : ¬ c < ' ')
    (rest : List Char) :
    stringBody? (c :: rest) = (stringBody? rest).map fun (body, left) => (c :: body, left) := by
  rw [stringBody?]
  · simp [hc, hslash]
  all_goals simp [hquote, hslash]

/-- A letter after a backslash stands for its control. -/
theorem stringBody?_escaped {c d : Char} (h : escaped? d = some c) (rest : List Char) :
    stringBody? ('\\' :: d :: rest) =
      (stringBody? rest).map fun (body, left) => (c :: body, left) := by
  have hunit : d ≠ 'u' := by
    rintro rfl
    simp [escaped?] at h
  rw [stringBody?]
  · rw [h]
  · simp [hunit]

/-- No character is a surrogate. -/
theorem toNat_cases (c : Char) :
    c.toNat < 0xD800 ∨ (0xE000 ≤ c.toNat ∧ c.toNat < 0x110000) :=
  c.valid

/-- A character of a string is read back from what it is written as. -/
theorem stringBody?_encodeChar (c : Char) (rest : List Char) :
    stringBody? (encodeChar c ++ rest) =
      (stringBody? rest).map fun (body, left) => (c :: body, left) := by
  have hcode := toNat_cases c
  unfold encodeChar
  split_ifs with hquote hslash hlf hcr htab hback hfeed hplain hshort
  · subst hquote
    exact stringBody?_escaped rfl rest
  · subst hslash
    exact stringBody?_escaped rfl rest
  · subst hlf
    exact stringBody?_escaped rfl rest
  · subst hcr
    exact stringBody?_escaped rfl rest
  · subst htab
    exact stringBody?_escaped rfl rest
  · subst hback
    exact stringBody?_escaped rfl rest
  · subst hfeed
    exact stringBody?_escaped rfl rest
  · simp only [Bool.and_eq_true, decide_eq_true_eq] at hplain
    exact stringBody?_plain hquote hslash (Char.not_lt.mpr hplain.1) rest
  · have h := stringBody?_unit (show c.toNat < 0xD800 ∨ _ by omega) rest
    rwa [Char.ofNat_toNat] at h
  · have h := stringBody?_pair (show (c.toNat - 0x10000) / 0x400 < 0x400 by omega)
      (show (c.toNat - 0x10000) % 0x400 < 0x400 by omega) rest
    rw [show 0x10000 + (c.toNat - 0x10000) / 0x400 * 0x400 + (c.toNat - 0x10000) % 0x400 =
      c.toNat by omega, Char.ofNat_toNat] at h
    rw [List.append_assoc]
    exact h

/-- A string is read up to its closing quote. -/
theorem stringBody?_flatMap (cs rest : List Char) :
    stringBody? (cs.flatMap encodeChar ++ '"' :: rest) = some (cs, rest) := by
  induction cs with
  | nil => simp [stringBody?]
  | cons c cs ih =>
    rw [List.flatMap_cons, List.append_assoc, stringBody?_encodeChar, ih]
    rfl

/-! ## Integers -/

/-- What may stand after a value in a text. -/
def EndsValue (rest : List Char) : Prop :=
  ∀ c ∈ rest.head?, c = ',' ∨ c = ']' ∨ c = '\x7d'

namespace EndsValue

variable {rest : List Char} (h : EndsValue rest)

include h

theorem isAsciiDigit_eq_false : ∀ c ∈ rest.head?, Text.isAsciiDigit c = false := by
  intro c hc
  rcases h c hc with rfl | rfl | rfl <;> rfl

theorem fraction?_eq : fraction? rest = some ([], rest) := by
  cases rest with
  | nil => rfl
  | cons c rest => rcases h c rfl with rfl | rfl | rfl <;> rfl

theorem exponent?_eq : exponent? rest = some (none, rest) := by
  cases rest with
  | nil => rfl
  | cons c rest => rcases h c rfl with rfl | rfl | rfl <;> rfl

end EndsValue

/-- A numeral has no needless zero in front. -/
theorem decimal_fits (n : Nat) :
    ((Number.decimal n).isEmpty || ((Number.decimal n).head? == some '0' &&
      1 < (Number.decimal n).length)) = false := by
  rcases Nat.eq_zero_or_pos n with rfl | hn
  · rfl
  · simp [Number.decimal_ne_nil, Number.head?_decimal hn]

/-- An integer does not begin as another value does, nor with what may stand around values. -/
theorem ofInt_head (n : Int) : ∃ c rest, (Number.ofInt n).toList = c :: rest ∧
    c ∉ [' ', '\n', '\r', '\t', '"', ']', '[', '\x7b', 'n', 't', 'f'] := by
  cases n with
  | ofNat n =>
    obtain ⟨c, more, hdigits⟩ := List.exists_cons_of_ne_nil (Number.decimal_ne_nil n)
    refine ⟨c, more, by rw [Number.ofInt, String.toList_ofList, hdigits], fun hmem => ?_⟩
    have hnone : [' ', '\n', '\r', '\t', '"', ']', '[', '\x7b', 'n', 't', 'f'].all
      (fun d => !Text.isAsciiDigit d) = true := by decide
    have hdigit := Number.isAsciiDigit_of_mem_decimal (hdigits ▸ List.mem_cons_self)
    have hother := List.all_eq_true.mp hnone c hmem
    rw [hdigit] at hother
    contradiction
  | negSucc n => exact ⟨'-', _, by rw [Number.ofInt, String.toList_ofList], by simp⟩

/-- An integer is read from its digits, which the end of the value ends. -/
theorem number?_ofInt {rest : List Char} (h : EndsValue rest) (n : Int) :
    number? ((Number.ofInt n).toList ++ rest) = some (.integer n, rest) := by
  have hspan (m : Nat) := Number.spanDigits_decimal m h.isAsciiDigit_eq_false
  cases n with
  | ofNat n =>
    have hspan := hspan n
    have hfits := decimal_fits n
    have hvalue := Number.asciiValue_decimal n
    obtain ⟨c, more, hdigits⟩ := List.exists_cons_of_ne_nil (Number.decimal_ne_nil n)
    have hminus : c ≠ '-' := by
      rintro rfl
      have := Number.isAsciiDigit_of_mem_decimal (hdigits ▸ List.mem_cons_self)
      contradiction
    rw [Number.ofInt, String.toList_ofList]
    rw [hdigits] at hfits hvalue hspan ⊢
    rw [List.cons_append] at hspan ⊢
    rw [number?]
    · simp only [hspan, hfits, h.fraction?_eq, h.exponent?_eq, hvalue, Option.bind_eq_bind,
        Option.bind_some, List.append_nil]
      rfl
    · simp [hminus]
  | negSucc n =>
    simp only [Number.ofInt, String.toList_ofList, number?, List.cons_append, hspan, decimal_fits,
      h.fraction?_eq, h.exponent?_eq, Option.bind_eq_bind, Option.bind_some, List.append_nil,
      Number.asciiValue_decimal]
    rfl

/-! ## Values -/

/-- A value without doubles. -/
inductive Exact : Json → Prop
  | null : Exact .null
  | bool (b : Bool) : Exact (.bool b)
  | integer (n : Int) : Exact (.integer n)
  | string (s : String) : Exact (.string s)
  | array {items : List Json} : (∀ item ∈ items, Exact item) → Exact (.array items)
  | object {members : List (String × Json)} : (∀ member ∈ members, Exact member.2) →
      Exact (.object members)

@[simp]
theorem exact_integer (n : Int) : Exact (.integer n) := .integer n

@[simp]
theorem exact_string (s : String) : Exact (.string s) := .string s

@[simp]
theorem exact_array_iff {items : List Json} :
    Exact (.array items) ↔ ∀ item ∈ items, item.Exact :=
  ⟨fun h => by cases h; assumption, .array⟩

@[simp]
theorem exact_object_iff {members : List (String × Json)} :
    Exact (.object members) ↔ ∀ member ∈ members, member.2.Exact :=
  ⟨fun h => by cases h; assumption, .object⟩

/-- A value is read from its text with fuel for it, up to what may stand after it. -/
def ReadsBack (v : Json) : Prop :=
  ∀ (fuel : Nat) (rest : List Char), (encode v).length < fuel → EndsValue rest →
    value? fuel (encode v ++ rest) = some (v, rest)

/-- The text of a value begins with no white space and closes nothing. -/
theorem encode_head {v : Json} (h : v.Exact) :
    ∃ c rest, encode v = c :: rest ∧ isSpace c = false ∧ c ≠ ']' := by
  cases h with
  | null => exact ⟨_, _, rfl, by decide⟩
  | bool b => cases b <;> exact ⟨_, _, rfl, by decide⟩
  | integer n =>
    obtain ⟨c, rest, htext, hc⟩ := ofInt_head n
    simp only [List.mem_cons, not_or] at hc
    exact ⟨c, rest, htext, by simp [isSpace, hc], by simp [hc]⟩
  | string s => exact ⟨_, _, rfl, by decide⟩
  | @array items => cases items <;> exact ⟨_, _, rfl, by decide⟩
  | @object members =>
    cases members with
    | nil => exact ⟨_, _, rfl, by decide⟩
    | cons member members => exact ⟨_, _, rfl, by decide⟩

theorem skipSpace_encode {v : Json} (h : v.Exact) (rest : List Char) :
    skipSpace (encode v ++ rest) = encode v ++ rest := by
  obtain ⟨c, more, htext, hspace, -⟩ := encode_head h
  simp [htext, skipSpace, hspace]

theorem skipSpace_cons {c : Char} (h : isSpace c = false) (rest : List Char) :
    skipSpace (c :: rest) = c :: rest := by
  simp [skipSpace, h]

theorem skipSpace_encodeString (s : String) (rest : List Char) :
    skipSpace (encodeString s ++ rest) = encodeString s ++ rest :=
  skipSpace_cons rfl _

theorem readsBack_integer (n : Int) : ReadsBack (.integer n) := by
  intro fuel rest hfuel hrest
  have hnumber := number?_ofInt hrest n
  obtain ⟨c, more, htext, hc⟩ := ofInt_head n
  simp only [List.mem_cons, not_or] at hc
  obtain ⟨fuel, rfl⟩ := Nat.exists_eq_add_of_lt hfuel
  rw [encode]
  rw [htext, List.cons_append] at hnumber ⊢
  rw [value?, hnumber]
  all_goals simp [hc]

theorem readsBack_string (s : String) : ReadsBack (.string s) := by
  intro fuel rest hfuel hrest
  obtain ⟨fuel, rfl⟩ := Nat.exists_eq_add_of_lt hfuel
  have hbody := stringBody?_flatMap s.toList rest
  simp only [encode, encodeString, List.cons_append, List.append_assoc, List.nil_append]
  rw [value?, hbody]
  simp

/-! ## Items and members -/

theorem endsValue_encodeItems (items : List Json) (rest : List Char) :
    EndsValue (encodeItems items ++ ']' :: rest) := by
  cases items <;> simp [encodeItems, EndsValue]

/-- Items are read up to the closing bracket. -/
theorem items?_encode {item : Json} {items : List Json}
    (h : ∀ v ∈ item :: items, v.Exact ∧ v.ReadsBack) {fuel : Nat}
    (hfuel : (encode item).length + (encodeItems items).length + 1 < fuel) (rest : List Char) :
    items? fuel (encode item ++ (encodeItems items ++ ']' :: rest)) =
      some (item :: items, rest) := by
  induction items generalizing item fuel with
  | nil =>
    cases fuel with
    | zero => contradiction
    | succ fuel =>
      rw [List.forall_mem_singleton] at h
      have hitem := h.2 fuel _ (by omega) (endsValue_encodeItems [] rest)
      rw [items?, hitem]
      rfl
  | cons next items ih =>
    cases fuel with
    | zero => contradiction
    | succ fuel =>
      rw [List.forall_mem_cons] at h
      have hitem := h.1.2 fuel _ (by omega) (endsValue_encodeItems (next :: items) rest)
      have hnext := (h.2 next List.mem_cons_self).1
      simp only [encodeItems, List.length_cons, List.length_append] at hfuel
      rw [items?, hitem]
      simp only [encodeItems, List.cons_append, List.append_assoc]
      rw [skipSpace_cons (by decide)]
      simp only
      rw [skipSpace_encode hnext, ih h.2 (by omega)]
      rfl

/-- A member is read up to the comma after it. -/
theorem members?_next {value : Json} (h : value.Exact ∧ value.ReadsBack) {fuel : Nat}
    (hfuel : (encode value).length < fuel) (name : String) (rest : List Char) :
    members? (fuel + 1) (encodeString name ++ ':' :: (encode value ++ ',' :: rest)) =
      (members? fuel (skipSpace rest)).map fun read => ((name, value) :: read.1, read.2) := by
  have hvalue := h.2 fuel (',' :: rest) hfuel (by simp [EndsValue])
  have hcolon : isSpace ':' = false := rfl
  have hcomma : isSpace ',' = false := rfl
  simp only [encodeString, List.cons_append, List.append_assoc, List.nil_append]
  rw [members?, stringBody?_flatMap]
  simp only [skipSpace_cons hcolon, skipSpace_encode h.1, hvalue, skipSpace_cons hcomma,
    String.ofList_toList]

/-- The last member is read up to the closing brace. -/
theorem members?_last {value : Json} (h : value.Exact ∧ value.ReadsBack) {fuel : Nat}
    (hfuel : (encode value).length < fuel) (name : String) (rest : List Char) :
    members? (fuel + 1) (encodeString name ++ ':' :: (encode value ++ '\x7d' :: rest)) =
      some ([(name, value)], rest) := by
  have hvalue := h.2 fuel ('\x7d' :: rest) hfuel (by simp [EndsValue])
  have hcolon : isSpace ':' = false := rfl
  have hbrace : isSpace '\x7d' = false := rfl
  simp only [encodeString, List.cons_append, List.append_assoc, List.nil_append]
  rw [members?, stringBody?_flatMap]
  simp only [skipSpace_cons hcolon, skipSpace_encode h.1, hvalue, skipSpace_cons hbrace,
    String.ofList_toList]

/-- Members are read up to the closing brace. -/
theorem members?_encode {name : String} {value : Json} {members : List (String × Json)}
    (h : ∀ member ∈ (name, value) :: members, member.2.Exact ∧ member.2.ReadsBack) {fuel : Nat}
    (hfuel : (encode value).length + (encodeMembers members).length + 1 < fuel) (rest : List Char) :
    members? fuel (encodeString name ++ ':' :: (encode value ++
      (encodeMembers members ++ '\x7d' :: rest))) = some ((name, value) :: members, rest) := by
  have hvalue : value.Exact ∧ value.ReadsBack := h _ List.mem_cons_self
  induction members generalizing name value fuel with
  | nil =>
    cases fuel with
    | zero => contradiction
    | succ fuel => exact members?_last hvalue (by omega) name rest
  | cons next members ih =>
    cases fuel with
    | zero => contradiction
    | succ fuel =>
      rw [List.forall_mem_cons] at h
      simp only [encodeMembers, List.length_cons, List.length_append] at hfuel
      simp only [encodeMembers, List.cons_append, List.append_assoc]
      rw [members?_next hvalue (by omega) name, skipSpace_encodeString,
        ih h.2 (by omega) (h.2 next List.mem_cons_self)]
      rfl

/-! ## Values in values -/

theorem readsBack_array {items : List Json} (h : ∀ item ∈ items, item.Exact ∧ item.ReadsBack) :
    ReadsBack (.array items) := by
  intro fuel rest hfuel _
  obtain ⟨fuel, rfl⟩ := Nat.exists_eq_add_one_of_ne_zero (Nat.ne_zero_of_lt hfuel)
  cases items with
  | nil => rfl
  | cons item items =>
    have henough : (encode item).length + (encodeItems items).length + 1 < fuel := by
      simp only [encode, List.length_cons, List.length_append, List.length_nil] at hfuel
      omega
    have hexact := (h item List.mem_cons_self).1
    have hitems := items?_encode h henough rest
    obtain ⟨c, more, htext, hspace, hclose⟩ := encode_head hexact
    simp only [encode, List.cons_append, List.append_assoc, List.nil_append]
    rw [value?, skipSpace_encode hexact]
    rw [htext, List.cons_append] at hitems ⊢
    simp [hclose, hitems]

theorem readsBack_object {members : List (String × Json)}
    (h : ∀ member ∈ members, member.2.Exact ∧ member.2.ReadsBack) :
    ReadsBack (.object members) := by
  intro fuel rest hfuel _
  obtain ⟨fuel, rfl⟩ := Nat.exists_eq_add_one_of_ne_zero (Nat.ne_zero_of_lt hfuel)
  cases members with
  | nil => rfl
  | cons member members =>
    obtain ⟨name, value⟩ := member
    have henough : (encode value).length + (encodeMembers members).length + 1 < fuel := by
      simp only [encode, List.length_cons, List.length_append, List.length_nil] at hfuel
      omega
    have hmembers := members?_encode h henough rest
    simp only [encode, List.cons_append, List.append_assoc, List.nil_append]
    rw [value?, skipSpace_encodeString]
    rw [encodeString, List.cons_append, List.cons_append] at hmembers ⊢
    show Option.map _ (members? fuel _) = _
    rw [hmembers]
    rfl

/-- Every value without doubles is read back. -/
theorem Exact.readsBack {v : Json} (h : v.Exact) : v.ReadsBack := by
  induction h with
  | null =>
    intro fuel rest hfuel _
    obtain ⟨fuel, rfl⟩ := Nat.exists_eq_add_of_lt hfuel
    rfl
  | bool b =>
    intro fuel rest hfuel _
    obtain ⟨fuel, rfl⟩ := Nat.exists_eq_add_of_lt hfuel
    cases b <;> rfl
  | integer n => exact readsBack_integer n
  | string s => exact readsBack_string s
  | array hexact ih => exact readsBack_array fun item hitem => ⟨hexact item hitem, ih item hitem⟩
  | object hexact ih => exact readsBack_object fun member hm => ⟨hexact member hm, ih member hm⟩

@[simp]
theorem isAscii_decimal (n : Nat) : Text.isAscii (Number.decimal n) = true := by
  refine Text.isAscii_iff.mpr fun c hc => ?_
  have hdigit := Number.isAsciiDigit_of_mem_decimal hc
  simp only [Text.isAsciiDigit, Bool.and_eq_true, decide_eq_true_eq] at hdigit
  have hlast : c.toNat ≤ '9'.toNat := hdigit.2
  exact Nat.lt_of_le_of_lt hlast (by decide)

end Json

end WireAgent
