import Mathlib.Tactic.SplitIfs
import WireAgent.Base64

/-!
# Base64 text

Base64 text is read back as the bytes it was written from, and the texts that are read are exactly
those that are written (`decode?_eq_some_iff`): each sequence of bytes has one text.

A group of up to three bytes is four digits, so both directions go by groups. What a group says is
arithmetic on the worths of its digits, below 64, and on its bytes, below 256.
-/

namespace WireAgent.Base64

/-! ## Digits -/

theorem worth?_digit {n : Nat} (h : n < 64) : worth? (digit n) = some n := by
  have hall : ∀ n < 64, worth? (digit n) = some n := by decide
  exact hall n h

/-- No digit is the sign that pads. -/
theorem digit_ne_pad {n : Nat} (h : n < 64) : digit n ≠ '=' := by
  have hall : ∀ n < 64, digit n ≠ '=' := by decide
  exact hall n h

/-- A digit is the one of its worth. -/
theorem digit_of_worth? {c : Char} {n : Nat} (h : worth? c = some n) : n < 64 ∧ digit n = c := by
  have hrange {lo hi : Char} (hc : (lo ≤ c && c ≤ hi) = true) :
      lo.toNat ≤ c.toNat ∧ c.toNat ≤ hi.toNat := by
    simp only [Bool.and_eq_true, decide_eq_true_eq] at hc
    exact hc
  have hchar {code : Nat} (hcode : code = c.toNat) : Char.ofNat code = c := by
    rw [hcode, Char.ofNat_toNat]
  unfold worth? at h
  split_ifs at h with hupper hlower hdigit hplus hslash
  · have hlo : 65 ≤ c.toNat ∧ c.toNat ≤ 90 := hrange hupper
    cases h
    refine ⟨by omega, ?_⟩
    rw [digit, if_pos (by omega)]
    exact hchar (by omega)
  · have hlo : 97 ≤ c.toNat ∧ c.toNat ≤ 122 := hrange hlower
    cases h
    refine ⟨by omega, ?_⟩
    rw [digit, if_neg (by omega), if_pos (by omega)]
    exact hchar (by omega)
  · have hlo : 48 ≤ c.toNat ∧ c.toNat ≤ 57 := hrange hdigit
    cases h
    refine ⟨by omega, ?_⟩
    rw [digit, if_neg (by omega), if_neg (by omega), if_pos (by omega)]
    exact hchar (by omega)
  · cases h
    exact ⟨by decide, hplus.symm⟩
  · cases h
    exact ⟨by decide, hslash.symm⟩

/-! ## Groups -/

theorem ofNat_eq {n : Nat} {a : UInt8} (h : n = a.toNat) : UInt8.ofNat n = a := by
  rw [h, UInt8.ofNat_toNat]

/-- Text is read back as its bytes. -/
theorem decode?_encode (bytes : List UInt8) : decode? (encode bytes) = some bytes := by
  fun_induction encode bytes with
  | case1 => rfl
  | case2 a =>
    have ha := a.toNat_lt
    have hp := worth?_digit (show a.toNat / 4 < 64 by omega)
    have hq := worth?_digit (show a.toNat % 4 * 16 < 64 by omega)
    have hleft : a.toNat % 4 * 16 % 16 = 0 := by omega
    have hfirst : UInt8.ofNat (a.toNat / 4 * 4 + a.toNat % 4 * 16 / 16) = a := ofNat_eq (by omega)
    simp only [decode?, hp, hq, hleft, hfirst, Option.bind_eq_bind, Option.bind_some, if_pos]
    rfl
  | case3 a b =>
    have ha := a.toNat_lt
    have hb := b.toNat_lt
    have hp := worth?_digit (show a.toNat / 4 < 64 by omega)
    have hq := worth?_digit (show a.toNat % 4 * 16 + b.toNat / 16 < 64 by omega)
    have hr := worth?_digit (show b.toNat % 16 * 4 < 64 by omega)
    have hpad := digit_ne_pad (show b.toNat % 16 * 4 < 64 by omega)
    have hleft : b.toNat % 16 * 4 % 4 = 0 := by omega
    have hfirst : UInt8.ofNat (a.toNat / 4 * 4 + (a.toNat % 4 * 16 + b.toNat / 16) / 16) = a :=
      ofNat_eq (by omega)
    have hsecond : UInt8.ofNat ((a.toNat % 4 * 16 + b.toNat / 16) % 16 * 16 +
        b.toNat % 16 * 4 / 4) = b := ofNat_eq (by omega)
    rw [decode?]
    · simp only [hp, hq, hr, hleft, hfirst, hsecond, Option.bind_eq_bind, Option.bind_some, if_pos]
      rfl
    · exact hpad
  | case4 a b c rest ih =>
    have ha := a.toNat_lt
    have hb := b.toNat_lt
    have hc := c.toNat_lt
    have hp := worth?_digit (show a.toNat / 4 < 64 by omega)
    have hq := worth?_digit (show a.toNat % 4 * 16 + b.toNat / 16 < 64 by omega)
    have hr := worth?_digit (show b.toNat % 16 * 4 + c.toNat / 64 < 64 by omega)
    have hs := worth?_digit (show c.toNat % 64 < 64 by omega)
    have hpad := digit_ne_pad (show c.toNat % 64 < 64 by omega)
    have hfirst : UInt8.ofNat (a.toNat / 4 * 4 + (a.toNat % 4 * 16 + b.toNat / 16) / 16) = a :=
      ofNat_eq (by omega)
    have hsecond : UInt8.ofNat ((a.toNat % 4 * 16 + b.toNat / 16) % 16 * 16 +
        (b.toNat % 16 * 4 + c.toNat / 64) / 4) = b := ofNat_eq (by omega)
    have hthird : UInt8.ofNat ((b.toNat % 16 * 4 + c.toNat / 64) % 4 * 64 + c.toNat % 64) = c :=
      ofNat_eq (by omega)
    rw [decode?]
    · simp only [hp, hq, hr, hs, hfirst, hsecond, hthird, ih, Option.bind_eq_bind, Option.bind_some]
      rfl
    · exact fun _ heq _ => hpad heq
    · exact fun heq _ => hpad heq

theorem toNat_ofNat_eq {n : Nat} (h : n < 256) : (UInt8.ofNat n).toNat = n :=
  UInt8.toNat_ofNat_of_lt' h

/-- Only what bytes are written as is read. -/
theorem encode_of_decode? {text : List Char} {bytes : List UInt8} (h : decode? text = some bytes) :
    encode bytes = text := by
  fun_induction decode? text generalizing bytes with
  | case1 =>
    cases h
    rfl
  | case2 a b =>
    simp only [Option.bind_eq_bind, Option.bind_eq_some_iff, Option.ite_none_right_eq_some,
      Option.pure_def, Option.some.injEq] at h
    obtain ⟨p, hp, q, hq, hleft, rfl⟩ := h
    obtain ⟨hp, rfl⟩ := digit_of_worth? hp
    obtain ⟨hq, rfl⟩ := digit_of_worth? hq
    rw [encode, toNat_ofNat_eq (by omega), show (p * 4 + q / 16) / 4 = p by omega,
      show (p * 4 + q / 16) % 4 * 16 = q by omega]
  | case3 a b c =>
    simp only [Option.bind_eq_bind, Option.bind_eq_some_iff, Option.ite_none_right_eq_some,
      Option.pure_def, Option.some.injEq] at h
    obtain ⟨p, hp, q, hq, r, hr, hleft, rfl⟩ := h
    obtain ⟨hp, rfl⟩ := digit_of_worth? hp
    obtain ⟨hq, rfl⟩ := digit_of_worth? hq
    obtain ⟨hr, rfl⟩ := digit_of_worth? hr
    rw [encode, toNat_ofNat_eq (by omega), toNat_ofNat_eq (by omega),
      show (p * 4 + q / 16) / 4 = p by omega,
      show (p * 4 + q / 16) % 4 * 16 + (q % 16 * 16 + r / 4) / 16 = q by omega,
      show (q % 16 * 16 + r / 4) % 16 * 4 = r by omega]
  | case4 a b c d rest _ _ ih =>
    simp only [Option.bind_eq_bind, Option.bind_eq_some_iff, Option.pure_def,
      Option.some.injEq] at h
    obtain ⟨p, hp, q, hq, r, hr, s, hs, more, hmore, rfl⟩ := h
    obtain ⟨hp, rfl⟩ := digit_of_worth? hp
    obtain ⟨hq, rfl⟩ := digit_of_worth? hq
    obtain ⟨hr, rfl⟩ := digit_of_worth? hr
    obtain ⟨hs, rfl⟩ := digit_of_worth? hs
    rw [encode, toNat_ofNat_eq (by omega), toNat_ofNat_eq (by omega), toNat_ofNat_eq (by omega),
      ih hmore, show (p * 4 + q / 16) / 4 = p by omega,
      show (p * 4 + q / 16) % 4 * 16 + (q % 16 * 16 + r / 4) / 16 = q by omega,
      show (q % 16 * 16 + r / 4) % 16 * 4 + (r % 4 * 64 + s) / 64 = r by omega,
      show (r % 4 * 64 + s) % 64 = s by omega]
  | case5 => contradiction

/-- Texts and bytes belong to each other one to one. -/
theorem decode?_eq_some_iff {text : List Char} {bytes : List UInt8} :
    decode? text = some bytes ↔ text = encode bytes :=
  ⟨fun h => (encode_of_decode? h).symm, fun h => h ▸ decode?_encode bytes⟩

end WireAgent.Base64
