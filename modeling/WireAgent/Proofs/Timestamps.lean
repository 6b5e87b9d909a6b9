import Mathlib.Data.List.Basic
import Mathlib.Data.String.Basic
import WireAgent.Calendar.Moment
import WireAgent.Proofs.Dates
import WireAgent.Proofs.Numerals

/-!
# The order of timestamps

An instant is a count of microseconds, and a reading of universal time is the only one of its
instant (`Utc.instant_ofInstant`). Its parts are written in a fixed width, the greater ones first,
so two timestamps stand in the order of the instants (`timestamps_in_order`): those to the
microsecond always, also where the fraction is left out, and those to the millisecond as far as they
tell the instants apart, if the years have four digits.
-/

namespace WireAgent.Calendar

/-! ## Texts in the order of numbers -/

/-- Two texts stand to one another as two numbers do. -/
structure InOrder (m n : Nat) (s t : List Char) : Prop where
  lt_iff : s < t ↔ m < n
  eq_iff : s = t ↔ m = n

/-- Two texts of one length stand to one another as two numbers do. -/
structure Aligned (m n : Nat) (s t : List Char) : Prop extends InOrder m n s t where
  length_eq : s.length = t.length

/-- Behind texts of one length, what follows decides between equal ones only. -/
theorem append_lt_append_iff {s t : List Char} (h : s.length = t.length) (r q : List Char) :
    s ++ r < t ++ q ↔ s < t ∨ s = t ∧ r < q := by
  induction s generalizing t with
  | nil =>
    obtain rfl := List.length_eq_zero_iff.mp h.symm
    simp
  | cons c s ih =>
    cases t with
    | nil => cases h
    | cons d t =>
      rw [List.cons_append, List.cons_append, List.cons_lt_cons_iff, List.cons_lt_cons_iff,
        ih (Nat.succ.inj h), List.cons.injEq]
      tauto

namespace InOrder

variable {m n : Nat} {s t : List Char}

/-- A text stands to itself as a number does. -/
theorem refl (n : Nat) (s : List Char) : InOrder n n s s :=
  ⟨⟨fun h => absurd h (List.lt_irrefl s), fun h => absurd h (Nat.lt_irrefl n)⟩,
    ⟨fun _ => rfl, fun _ => rfl⟩⟩

theorem cons (h : InOrder m n s t) (c : Char) : InOrder m n (c :: s) (c :: t) := by
  refine ⟨?_, ?_⟩
  · rw [List.cons_lt_cons_iff, ← h.lt_iff]
    exact ⟨fun hlt => (hlt.resolve_left (Char.lt_irrefl c)).2, fun hlt => .inr ⟨rfl, hlt⟩⟩
  · rw [List.cons_inj_right, h.eq_iff]

/-- Numbers may be replaced by others in the same order. -/
theorem of_strictMono {f : Nat → Nat} (hf : StrictMono f) (h : InOrder (f m) (f n) s t) :
    InOrder m n s t :=
  ⟨h.lt_iff.trans hf.lt_iff_lt, h.eq_iff.trans hf.injective.eq_iff⟩

end InOrder

namespace Aligned

variable {m n m' n' : Nat} {s t r q : List Char}

/-- A text of fixed length goes before one for the smaller part of a number. -/
theorem append (h : Aligned m n s t) {b : Nat} (hm : m' < b) (hn : n' < b)
    (h' : InOrder m' n' r q) : InOrder (b * m + m') (b * n + n') (s ++ r) (t ++ q) := by
  have hless {x y x' : Nat} (y' : Nat) (hx : x' < b) (hlt : x < y) : b * x + x' < b * y + y' :=
    calc b * x + x' < b * x + b := Nat.add_lt_add_left hx _
      _ = b * (x + 1) := (Nat.mul_succ b x).symm
      _ ≤ b * y := Nat.mul_le_mul_left b hlt
      _ ≤ b * y + y' := Nat.le_add_right _ _
  refine ⟨?_, ?_⟩
  · rw [append_lt_append_iff h.length_eq, h.lt_iff, h.eq_iff, h'.lt_iff]
    rcases Nat.lt_trichotomy m n with hlt | rfl | hlt
    · simp [hlt, hless n' hm hlt]
    · simp
    · have := hless m' hn hlt
      omega
  · constructor
    · intro heq
      obtain ⟨hs, hr⟩ := List.append_inj heq h.length_eq
      rw [h.eq_iff.mp hs, h'.eq_iff.mp hr]
    · intro heq
      rcases Nat.lt_trichotomy m n with hlt | rfl | hlt
      · exact absurd heq (hless n' hm hlt).ne
      · rw [h.eq_iff.mpr rfl, h'.eq_iff.mpr (Nat.add_left_cancel heq)]
      · exact absurd heq (hless m' hn hlt).ne'

theorem append_aligned (h : Aligned m n s t) {b : Nat} (hm : m' < b) (hn : n' < b)
    (h' : Aligned m' n' r q) : Aligned (b * m + m') (b * n + n') (s ++ r) (t ++ q) where
  toInOrder := h.append hm hn h'.toInOrder
  length_eq := by rw [List.length_append, List.length_append, h.length_eq, h'.length_eq]

theorem cons (h : Aligned m n s t) (c : Char) : Aligned m n (c :: s) (c :: t) where
  toInOrder := h.toInOrder.cons c
  length_eq := congrArg (· + 1) h.length_eq

/-- The same text may follow. -/
theorem append_right (h : Aligned m n s t) (r : List Char) : InOrder m n (s ++ r) (t ++ r) := by
  simpa using h.append Nat.one_pos Nat.one_pos (InOrder.refl 0 r)

end Aligned

/-! ## Numbers of a fixed width -/

theorem padded_one {n : Nat} (h : n < 10) : Number.padded 1 n = [Nat.digitChar n] := by
  rw [Number.padded, Number.decimal, Nat.toDigits_of_lt_base h]
  rfl

/-- The last digit of a number stands behind the number without it. -/
theorem padded_succ {width n : Nat} (hwidth : 0 < width) :
    Number.padded (width + 1) n = Number.padded width (n / 10) ++ [Nat.digitChar (n % 10)] := by
  rcases Nat.lt_or_ge n 10 with hn | hn
  · obtain ⟨rest, rfl⟩ := Nat.exists_eq_succ_of_ne_zero hwidth.ne'
    have hzero : Number.decimal 0 = ['0'] := rfl
    rw [Number.padded, Number.padded, Number.decimal, Nat.toDigits_of_lt_base hn,
      Nat.div_eq_of_lt hn, Nat.mod_eq_of_lt hn, hzero]
    simp [← List.replicate_succ']
  · rw [Number.padded, Number.padded, Number.decimal, Nat.toDigits_of_base_le (by decide) hn]
    simp [Number.decimal]

theorem digits_in_order : ∀ m < 10, ∀ n < 10,
    ([Nat.digitChar m] < [Nat.digitChar n] ↔ m < n) ∧
      ([Nat.digitChar m] = [Nat.digitChar n] ↔ m = n) := by
  decide

/-- Numbers that are written in the same width stand in their order. -/
theorem aligned_padded {width m n : Nat} (hwidth : 0 < width) (hm : m < 10 ^ width)
    (hn : n < 10 ^ width) : Aligned m n (Number.padded width m) (Number.padded width n) := by
  induction width, hwidth using Nat.le_induction generalizing m n with
  | base =>
    obtain ⟨hlt, heq⟩ := digits_in_order m (by omega) n (by omega)
    rw [padded_one (by omega), padded_one (by omega)]
    exact ⟨⟨hlt, heq⟩, rfl⟩
  | succ width hwidth ih =>
    have hlast : Aligned (m % 10) (n % 10) [Nat.digitChar (m % 10)] [Nat.digitChar (n % 10)] := by
      obtain ⟨hlt, heq⟩ := digits_in_order (m % 10) (by omega) (n % 10) (by omega)
      exact ⟨⟨hlt, heq⟩, rfl⟩
    rw [Nat.pow_succ] at hm hn
    have hfirst := ih (m := m / 10) (n := n / 10) (by omega) (by omega)
    have hwhole := hfirst.append_aligned (Nat.mod_lt m (by decide : 10 > 0))
      (Nat.mod_lt n (by decide)) hlast
    rwa [← padded_succ hwidth, ← padded_succ hwidth, Nat.div_add_mod, Nat.div_add_mod] at hwhole

/-- A number with all digits of a width is written without zeros in front. -/
theorem padded_eq_decimal (width : Nat) {n : Nat} (hn : 10 ^ width ≤ n) :
    Number.padded (width + 1) n = Number.decimal n := by
  have hlength : width + 1 ≤ (Number.decimal n).length := by
    by_contra hshort
    rcases Nat.eq_zero_or_pos width with rfl | hwidth
    · exact Number.decimal_ne_nil n (List.length_eq_zero_iff.mp (by omega))
    · have := (Nat.length_toDigits_le_iff (by decide : 1 < 10) hwidth).mp
        (by rw [Number.decimal] at hshort; omega : (Nat.toDigits 10 n).length ≤ width)
      omega
  rw [Number.padded, Nat.sub_eq_zero_of_le hlength]
  rfl

/-! ## Readings of universal time -/

/-- A part of two digits goes on after a separator. -/
theorem Aligned.part {m n m' n' : Nat} {s t : List Char} (h : Aligned m n s t) (c : Char)
    (hm : m' < 100) (hn : n' < 100) :
    Aligned (100 * m + m') (100 * n + n') (s ++ c :: Utc.two m') (t ++ c :: Utc.two n') :=
  h.append_aligned hm hn ((aligned_padded (by decide) hm hn).cons c)

/-- A digit in front of the others of a number may be read by itself. -/
theorem strictMono_digits {f : Nat → Nat} (hf : StrictMono f) {base : Nat} (hbase : 0 < base)
    (hle : base ≤ 100) : StrictMono fun n => 100 * f (n / base) + n % base := by
  intro m n hlt
  have hlast : m % base < base := Nat.mod_lt m hbase
  have hm : base * (m / base) + m % base = m := Nat.div_add_mod m base
  have hn : base * (n / base) + n % base = n := Nat.div_add_mod n base
  dsimp only
  rcases Nat.lt_or_eq_of_le (Nat.div_le_div_right hlt.le : m / base ≤ n / base) with hfirst | hfirst
  · have := hf hfirst
    omega
  · rw [hfirst] at hm ⊢
    omega

namespace Utc

/-- A reading down to the second as one number. -/
def rank (u : Utc) : Nat := 100 * (100 * (100 * u.date.rank + u.hour) + u.minute) + u.second

/-- The microseconds from the beginning of the calendar to a reading. -/
def instant (u : Utc) : Nat :=
  (u.date.dayNumber * daySeconds + u.hour * 3600 + u.minute * 60 + u.second) * 1000000
    + u.microsecond

/-- The parts of a reading behind the year have at most two digits. -/
structure IsShort (u : Utc) : Prop where
  month : u.date.month < 100
  day : u.date.day < 100
  hour : u.hour < 100
  minute : u.minute < 100
  second : u.second < 100

theorem isShort_ofSeconds (seconds microsecond : Nat) :
    (ofSeconds seconds microsecond).IsShort := by
  have hdate := Date.isOf_ofDayNumber (seconds / daySeconds)
  have hday := hdate.day_le
  have hmonth := hdate.month_le
  unfold ofSeconds daySeconds at *
  constructor <;> dsimp only <;> omega

/-- A reading is of the instant that it is made of. -/
theorem instant_ofInstant (instant : Nat) : (ofInstant instant).instant = instant := by
  have htime := Nat.div_add_mod (instant / 1000000) daySeconds
  simp only [Utc.instant, ofInstant, ofSeconds, Date.dayNumber_ofDayNumber]
  unfold daySeconds at *
  omega

/-- A day is divided into hours, minutes and seconds. -/
theorem rank_ofSeconds (seconds microsecond : Nat) :
    (ofSeconds seconds microsecond).rank =
      100 * (100 * (100 * (Date.ofDayNumber (seconds / 60 / 60 / 24)).rank + seconds / 60 / 60 % 24)
        + seconds / 60 % 60) + seconds % 60 := by
  have hday : seconds / 60 / 60 / 24 = seconds / daySeconds := by unfold daySeconds; omega
  have hhour : seconds / 60 / 60 % 24 = seconds % daySeconds / 3600 := by unfold daySeconds; omega
  have hminute : seconds / 60 % 60 = seconds % daySeconds / 60 % 60 := by unfold daySeconds; omega
  have hsecond : seconds % 60 = seconds % daySeconds % 60 := by unfold daySeconds; omega
  rw [hday, hhour, hminute, hsecond]
  rfl

/-- A later second has a greater reading. -/
theorem strictMono_rank (microsecond : Nat) :
    StrictMono fun seconds => (ofSeconds seconds microsecond).rank := by
  simp only [rank_ofSeconds]
  have hhours := strictMono_digits Date.strictMono_rank (by decide : 0 < 24) (by decide)
  have hminutes := strictMono_digits hhours (by decide : 0 < 60) (by decide)
  exact strictMono_digits hminutes (by decide : 0 < 60) (by decide)

/-- Readings down to the second are written in their order, if their years are. -/
theorem aligned_stem {u v : Utc} (hu : u.IsShort) (hv : v.IsShort) {year year' : List Char}
    (h : Aligned u.date.year v.date.year year year') :
    Aligned u.rank v.rank (u.stem year) (v.stem year') :=
  ((((h.part '-' hu.month hv.month).part '-' hu.day hv.day).part 'T' hu.hour hv.hour).part ':'
    hu.minute hv.minute).part ':' hu.second hv.second

/-- The fraction of a second and the offset of universal time. -/
def fraction (microsecond : Nat) : List Char :=
  (if microsecond = 0 then [] else '.' :: Number.padded 6 microsecond) ++ "+00:00".toList

theorem toList_rfc3339 (u : Utc) :
    u.rfc3339.toList = u.stem (Number.padded 4 u.date.year) ++ fraction u.microsecond := by
  rw [rfc3339, String.toList_ofList, List.append_assoc]
  rfl

theorem toList_timestamp (u : Utc) :
    u.timestamp.toList = u.stem (Number.decimal u.date.year) ++
      ('.' :: Number.padded 3 (u.microsecond / 1000) ++ ['Z']) := by
  rw [timestamp, String.toList_ofList, List.append_assoc]

/-- A fraction that is left out comes before all others, as the plus sign comes before the point. -/
theorem inOrder_fraction {m n : Nat} (hm : m < 1000000) (hn : n < 1000000) :
    InOrder m n (fraction m) (fraction n) := by
  unfold fraction
  rcases Nat.eq_zero_or_pos m with rfl | hmPos
  · rcases Nat.eq_zero_or_pos n with rfl | hnPos
    · exact .refl 0 _
    · rw [if_pos rfl, if_neg hnPos.ne']
      exact ⟨iff_of_true (List.cons_lt_cons_iff.mpr (.inl (by decide))) hnPos,
        iff_of_false (fun heq => absurd (List.cons.inj heq).1 (by decide)) hnPos.ne⟩
  · rcases Nat.eq_zero_or_pos n with rfl | hnPos
    · rw [if_pos rfl, if_neg hmPos.ne']
      refine ⟨iff_of_false (fun hlt => ?_) (Nat.not_lt_zero m),
        iff_of_false (fun heq => absurd (List.cons.inj heq).1 (by decide)) hmPos.ne'⟩
      rcases List.cons_lt_cons_iff.mp hlt with hlt | ⟨heq, -⟩
      · exact absurd hlt (by decide)
      · exact absurd heq (by decide)
    · rw [if_neg hmPos.ne', if_neg hnPos.ne']
      exact ((aligned_padded (by decide) hm hn).cons '.').append_right _

section

variable {m n : Nat}

/-- Readings of two instants down to the second are written in the order of the seconds, if their
years are in order. -/
theorem aligned_seconds {year year' : List Char}
    (h : Aligned (ofInstant m).date.year (ofInstant n).date.year year year') :
    Aligned (m / 1000000) (n / 1000000) ((ofInstant m).stem year) ((ofInstant n).stem year') := by
  have hstem := aligned_stem (isShort_ofSeconds _ _) (isShort_ofSeconds _ _) h
  -- The microsecond has no part in the rank.
  have hsecond : InOrder (ofSeconds (m / 1000000) 0).rank (ofSeconds (n / 1000000) 0).rank _ _ :=
    hstem.toInOrder
  exact ⟨hsecond.of_strictMono (strictMono_rank 0), hstem.length_eq⟩

variable (hm : m < dayCount * daySeconds * 1000000) (hn : n < dayCount * daySeconds * 1000000)

include hm in
/-- The years of the calendar have at most four digits. -/
theorem year_lt : (ofInstant m).date.year < 10 ^ 4 := by
  have hday : m / 1000000 / daySeconds < dayCount := by
    unfold daySeconds at *
    omega
  exact Nat.lt_succ_of_le ((Date.isOf_ofDayNumber _).year_le hday)

include hm hn

theorem aligned_year : Aligned (ofInstant m).date.year (ofInstant n).date.year
    (Number.padded 4 (ofInstant m).date.year) (Number.padded 4 (ofInstant n).date.year) :=
  aligned_padded (by decide) (year_lt hm) (year_lt hn)

/-- Timestamps to the microsecond are in the order of their instants. -/
theorem inOrder_rfc3339 :
    InOrder m n (ofInstant m).rfc3339.toList (ofInstant n).rfc3339.toList := by
  have hmicrosecond (n : Nat) : n % 1000000 < 1000000 := Nat.mod_lt n (by decide)
  have hwhole := (aligned_seconds (aligned_year hm hn)).append (hmicrosecond m) (hmicrosecond n)
    (inOrder_fraction (hmicrosecond m) (hmicrosecond n))
  rw [Nat.div_add_mod, Nat.div_add_mod] at hwhole
  rwa [toList_rfc3339, toList_rfc3339]

/-- Timestamps to the millisecond are in the order of their instants, cut off there, if their years
have four digits. -/
theorem inOrder_timestamp (hyear : 1000 ≤ (ofInstant m).date.year)
    (hyear' : 1000 ≤ (ofInstant n).date.year) :
    InOrder (m / 1000) (n / 1000) (ofInstant m).timestamp.toList
      (ofInstant n).timestamp.toList := by
  have hmillisecond (n : Nat) : n % 1000000 / 1000 < 1000 := by omega
  have hinstant (n : Nat) : 1000 * (n / 1000000) + n % 1000000 / 1000 = n / 1000 := by omega
  have hyears := aligned_year hm hn
  rw [padded_eq_decimal 3 hyear, padded_eq_decimal 3 hyear'] at hyears
  have hdigits := aligned_padded (by decide : 0 < 3) (hmillisecond m) (hmillisecond n)
  have hwhole := (aligned_seconds hyears).append (hmillisecond m) (hmillisecond n)
    ((hdigits.cons '.').append_right ['Z'])
  rw [hinstant, hinstant] at hwhole
  rwa [toList_timestamp, toList_timestamp]

end

end Utc

/-! ## Timestamps of readings -/

/-- Two readings with offsets have timestamps if universal time is in the calendar. Timestamps to
the microsecond are in the order of the instants, and equal for one instant only. Those to the
millisecond are so for the milliseconds, from the year 1000 on. -/
theorem timestamps_in_order {a b : Reading} (ha : a.IsDatable) (hb : b.IsDatable) :
    ∃ u v, a.toUtc = .ok u ∧ b.toUtc = .ok v ∧
      (u.instant : Int) = a.instant ∧ (v.instant : Int) = b.instant ∧
      a.rfc3339 = .ok u.rfc3339 ∧ b.rfc3339 = .ok v.rfc3339 ∧
      (u.rfc3339 < v.rfc3339 ↔ a.instant < b.instant) ∧
      (u.rfc3339 = v.rfc3339 ↔ a.instant = b.instant) ∧
      a.timestamp = .ok u.timestamp ∧ b.timestamp = .ok v.timestamp ∧
      (1000 ≤ u.date.year → 1000 ≤ v.date.year →
        (u.timestamp ≤ v.timestamp ↔ a.instant / 1000 ≤ b.instant / 1000) ∧
        (u.timestamp = v.timestamp ↔ a.instant / 1000 = b.instant / 1000)) := by
  obtain ⟨m, hm⟩ := Int.eq_ofNat_of_zero_le ha.first
  obtain ⟨n, hn⟩ := Int.eq_ofNat_of_zero_le hb.first
  have hmLast : m < dayCount * daySeconds * 1000000 := Int.ofNat_lt.mp (hm ▸ ha.last)
  have hnLast : n < dayCount * daySeconds * 1000000 := Int.ofNat_lt.mp (hn ▸ hb.last)
  have hu := ha.toUtc_eq
  have hv := hb.toUtc_eq
  rw [hm, Int.toNat_natCast] at hu
  rw [hn, Int.toNat_natCast] at hv
  have hmicrosecond := Utc.inOrder_rfc3339 hmLast hnLast
  refine ⟨_, _, hu, hv, ?_, ?_, ?_, ?_, ?_, ?_, ?_, ?_, fun hyear hyear' => ?_⟩
  · rw [Utc.instant_ofInstant, hm]
  · rw [Utc.instant_ofInstant, hn]
  · rw [Reading.rfc3339, hu]; rfl
  · rw [Reading.rfc3339, hv]; rfl
  · rw [String.lt_iff_toList_lt, hmicrosecond.lt_iff]; omega
  · rw [← String.toList_inj, hmicrosecond.eq_iff]; omega
  · rw [Reading.timestamp, hu]; rfl
  · rw [Reading.timestamp, hv]; rfl
  · have hmillisecond := Utc.inOrder_timestamp hmLast hnLast hyear hyear'
    have hless := (Utc.inOrder_timestamp hnLast hmLast hyear' hyear).lt_iff
    rw [← String.not_lt, String.lt_iff_toList_lt, ← String.toList_inj, hless, hmillisecond.eq_iff]
    omega

/-- The end of a leap day by a clock that is one microsecond ahead, and the beginning of the next
day, which has no fraction, by a clock in the west. -/
theorem timestamps_in_order_leap :
    let a : Reading := ⟨⟨2000, 2, 29⟩, 23, 59, 59, 999999, some 1⟩
    let b : Reading := ⟨⟨2000, 2, 29⟩, 18, 30, 0, 0, some (-19800000000)⟩
    a.IsDatable ∧ b.IsDatable ∧ ∃ u v, a.toUtc = .ok u ∧ b.toUtc = .ok v ∧
      (u.instant : Int) = a.instant ∧ (v.instant : Int) = b.instant ∧
      a.rfc3339 = .ok u.rfc3339 ∧ b.rfc3339 = .ok v.rfc3339 ∧
      (u.rfc3339 < v.rfc3339 ↔ a.instant < b.instant) ∧
      (u.rfc3339 = v.rfc3339 ↔ a.instant = b.instant) ∧
      a.timestamp = .ok u.timestamp ∧ b.timestamp = .ok v.timestamp ∧
      (1000 ≤ u.date.year → 1000 ≤ v.date.year →
        (u.timestamp ≤ v.timestamp ↔ a.instant / 1000 ≤ b.instant / 1000) ∧
        (u.timestamp = v.timestamp ↔ a.instant / 1000 = b.instant / 1000)) :=
  have ha : Reading.IsDatable ⟨⟨2000, 2, 29⟩, 23, 59, 59, 999999, some 1⟩ :=
    ⟨by decide, by decide, by decide⟩
  have hb : Reading.IsDatable ⟨⟨2000, 2, 29⟩, 18, 30, 0, 0, some (-19800000000)⟩ :=
    ⟨by decide, by decide, by decide⟩
  ⟨ha, hb, timestamps_in_order ha hb⟩

end WireAgent.Calendar
