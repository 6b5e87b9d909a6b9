import Mathlib.Data.List.TakeDrop
import Mathlib.Data.List.TakeWhile
import Mathlib.Data.Nat.Digits.Defs
import WireAgent.Number.Reader

/-!
# Decimal numerals

A number is written as ASCII digits that denote it, without zeros in front. A reader that takes all
digits at the head of a text takes the whole numeral, if no further digit follows it. A reader that
takes a text for a numeral finds its worths exactly if it is a row of ASCII digits.
-/

namespace WireAgent.Number

theorem isAsciiDigit_of_mem_decimal {n : Nat} {c : Char} (h : c ∈ decimal n) :
    Text.isAsciiDigit c = true := by
  show c.isDigit = true
  exact Nat.isDigit_of_mem_toDigits (by decide) (by decide) h

theorem decimal_ne_nil (n : Nat) : decimal n ≠ [] := Nat.toDigits_ne_nil

theorem toList_ofInt_natCast (n : Nat) : (ofInt n).toList = decimal n := String.toList_ofList

/-- Only zero is written with a zero in front. -/
theorem head?_decimal {n : Nat} (h : 0 < n) : (decimal n).head? ≠ some '0' := by
  induction n using Nat.strongRecOn with
  | ind n ih =>
    rcases Nat.lt_or_ge n 10 with hn | hn
    · rw [decimal, Nat.toDigits_of_lt_base hn]
      simp
      omega
    · have hhead := ih (n / 10) (by omega) (by omega)
      rw [decimal, Nat.toDigits_of_base_le (by decide) hn, ← decimal, List.head?_append]
      rw [List.head?_eq_some_head (decimal_ne_nil _)] at hhead ⊢
      exact hhead

/-- The digits at the head of a text are the numeral, if no further digit follows it. -/
theorem spanDigits_decimal (n : Nat) {rest : List Char}
    (h : ∀ c ∈ rest.head?, Text.isAsciiDigit c = false) :
    spanDigits (decimal n ++ rest) = (decimal n, rest) := by
  have hdigits : ∀ c ∈ decimal n, Text.isAsciiDigit c = true :=
    fun c hc => isAsciiDigit_of_mem_decimal hc
  rw [spanDigits, List.span_eq_takeWhile_dropWhile, List.takeWhile_append_of_pos hdigits,
    List.dropWhile_append_of_pos hdigits]
  cases rest with
  | nil => simp
  | cons c rest => simp [h c (by simp)]

/-- The value of a row of ASCII digits goes from the first digit to the last. -/
theorem asciiValue_eq_ofDigitChars {cs : List Char} (h : ∀ c ∈ cs, Text.isAsciiDigit c = true) :
    asciiValue cs = Nat.ofDigitChars 10 cs 0 := by
  rw [asciiValue, valueOf]
  generalize 0 = init
  induction cs generalizing init with
  | nil => rfl
  | cons c cs ih =>
    rw [List.forall_mem_cons] at h
    have hdigit : Text.asciiDigit? c = some (c.toNat - '0'.toNat) := if_pos h.1
    rw [List.filterMap_cons_some hdigit, List.foldl_cons, ih h.2, Nat.ofDigitChars_cons]

/-- The digits of a number denote it. -/
theorem asciiValue_decimal (n : Nat) : asciiValue (decimal n) = n := by
  rw [asciiValue_eq_ofDigitChars fun c => isAsciiDigit_of_mem_decimal, decimal,
    Nat.ofDigitChars_ten_toDigits]

/-- No two numbers are written in the same way. -/
theorem ofInt_natCast_inj {m n : Nat} : ofInt m = ofInt n ↔ m = n := by
  refine ⟨fun h => ?_, fun h => by rw [h]⟩
  have hdigits : decimal m = decimal n := by
    rw [← toList_ofInt_natCast, h, toList_ofInt_natCast]
  rw [← asciiValue_decimal m, hdigits, asciiValue_decimal]

/-- A number with at most as many digits as a power of ten allows is written with no more. -/
theorem length_decimal_le {n e : Nat} (he : 0 < e) (h : n < 10 ^ e) : (decimal n).length ≤ e :=
  Nat.toDigits_length 10 n e he h

/-- A number of 32 bits can be written. -/
theorem write?_eq_some {n : Nat} (h : n ≤ greatest32) : write? n = some (ofInt n) := by
  have hlength : (decimal n).length ≤ 10 :=
    length_decimal_le (by decide) (Nat.lt_of_le_of_lt h (by decide))
  exact if_pos (hlength.trans (by decide))

/-! ## Rows of digits -/

/-- Is it a row of ASCII digits? -/
def IsDigits (cs : List Char) : Prop := ∀ c ∈ cs, Text.isAsciiDigit c = true

instance (cs : List Char) : Decidable (IsDigits cs) :=
  List.decidableBAll (fun c => Text.isAsciiDigit c = true) cs

theorem isDigits_decimal (n : Nat) : IsDigits (decimal n) :=
  fun _ => isAsciiDigit_of_mem_decimal

theorem asciiDigit?_eq (c : Char) :
    Text.asciiDigit? c = if Text.isAsciiDigit c then some (c.toNat - '0'.toNat) else none :=
  rfl

/-- A row of digits has worths, one for each digit, and no other text has. -/
theorem asciiWorths?_eq (cs : List Char) :
    asciiWorths? cs = if IsDigits cs then some (cs.filterMap Text.asciiDigit?) else none := by
  induction cs with
  | nil => rfl
  | cons c cs ih =>
    rw [asciiWorths?] at ih ⊢
    rw [List.mapM_cons, ih, asciiDigit?_eq]
    cases hc : Text.isAsciiDigit c with
    | false => simp [IsDigits, hc]
    | true =>
      have hiff : IsDigits (c :: cs) ↔ IsDigits cs := by simp [IsDigits, hc]
      by_cases h : IsDigits cs <;> simp [hiff, h, asciiDigit?_eq, hc]

theorem length_filterMap_asciiDigit? {cs : List Char} (h : IsDigits cs) :
    (cs.filterMap Text.asciiDigit?).length = cs.length := by
  induction cs with
  | nil => rfl
  | cons c cs ih =>
    obtain ⟨hc, hcs⟩ := List.forall_mem_cons.mp h
    rw [List.filterMap_cons_some (by rw [asciiDigit?_eq, if_pos hc]), List.length_cons, ih hcs,
      List.length_cons]

/-- The worths of a row of digits denote its value, unless it is too long. -/
theorem convert_filterMap {cs : List Char} (h : IsDigits cs) :
    convert (cs.filterMap Text.asciiDigit?) =
      if maxDigits < cs.length then .error (.tooLong cs.length) else .ok (asciiValue cs) := by
  rw [convert, length_filterMap_asciiDigit? h, asciiValue]

theorem asciiWorths?_eq_none {cs : List Char} (h : ¬IsDigits cs) : asciiWorths? cs = none := by
  rw [asciiWorths?_eq, if_neg h]

/-- A row of digits has worths, which are converted unless they are too many. -/
theorem exists_asciiWorths? {cs : List Char} (hne : cs ≠ []) (h : IsDigits cs) :
    ∃ worth worths, asciiWorths? cs = some (worth :: worths) ∧
      (worth :: worths).length = cs.length ∧
      convert (worth :: worths) =
        if maxDigits < cs.length then .error (.tooLong cs.length) else .ok (asciiValue cs) := by
  have hlength := length_filterMap_asciiDigit? h
  have hconvert := convert_filterMap h
  rw [asciiWorths?_eq, if_pos h]
  generalize cs.filterMap Text.asciiDigit? = worths at hlength hconvert ⊢
  cases worths with
  | nil => exact absurd (List.length_eq_zero_iff.mp hlength.symm) hne
  | cons worth worths => exact ⟨worth, worths, rfl, hlength, hconvert⟩

end WireAgent.Number
