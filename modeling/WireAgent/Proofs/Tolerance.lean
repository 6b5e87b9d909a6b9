import Mathlib.Data.List.Infix
import WireAgent.Proofs.Legality
import WireAgent.Proofs.Locality
import WireAgent.Xml.Expansion

/-!
# Documents that are tolerated

What refers to no entity of its own document comes to no more bytes than it takes up itself. So a
document is tolerated if it declares no entity (`isTolerated_of_not_isInfix`), above all if it
begins with its root (`isTolerated_of_isNameStart`). What is read from a text is given if the
document is tolerated (`parse?_eq`), for no text that can be read is taken for UTF-16.
-/

namespace WireAgent.Xml

/-! ## Bounds -/

/-- Rounding to single precision neither halves nor doubles a number. -/
theorem single_bounds (n : Nat) : n ≤ 2 * single n ∧ single n ≤ 2 * n := by
  rcases Nat.eq_zero_or_pos n with rfl | hpos
  · decide
  have hle : 2 ^ (n.log2 - 23) ≤ n :=
    (Nat.pow_le_pow_right Nat.two_pos (Nat.sub_le _ _)).trans (Nat.log2_self_le hpos.ne')
  have hunit : 0 < 2 ^ (n.log2 - 23) := Nat.two_pow_pos _
  have hrounded : single n = 2 ^ (n.log2 - 23) * (n / 2 ^ (n.log2 - 23)) ∨
      single n = 2 ^ (n.log2 - 23) * (n / 2 ^ (n.log2 - 23)) + 2 ^ (n.log2 - 23) := by
    rw [← Nat.mul_succ, Nat.mul_comm, Nat.mul_comm _ (Nat.succ _)]
    unfold single Number.roundHalfEven
    dsimp only
    split_ifs
    · exact .inl rfl
    · exact .inr rfl
    · exact .inl rfl
    · exact .inr rfl
  generalize 2 ^ (n.log2 - 23) = unit at hle hunit hrounded
  have hsplit := Nat.div_add_mod n unit
  have hrest := Nat.mod_lt n hunit
  have hwhole : unit ≤ unit * (n / unit) := Nat.le_mul_of_pos_right _ (Nat.div_pos hle hunit)
  omega

/-- What comes to no more bytes than it takes up is tolerated. -/
theorem isModest_of_le {direct expanded : Nat} (h : expanded ≤ direct) :
    isModest direct expanded = true := by
  have htotal := (single_bounds (direct + expanded)).2
  have hdirect := (single_bounds direct).1
  simp only [isModest, Bool.or_eq_true, decide_eq_true_eq]
  omega

theorem areModest_of_le {cs : List Charge}
    (hcharges : ∀ charge ∈ cs, charge.expanded ≤ charge.direct) {direct expanded : Nat}
    (h : expanded ≤ direct) : areModest direct expanded cs = true := by
  induction cs generalizing direct expanded with
  | nil => rfl
  | cons charge cs ih =>
    obtain ⟨hcharge, hcharges⟩ := List.forall_mem_cons.mp hcharges
    have hsum := Nat.add_le_add h hcharge
    rw [areModest, isModest_of_le hsum, ih hcharges hsum]
    rfl

/-! ## Charges -/

section

variable (encoding : Encoding)

theorem width_pos (c : Char) : 1 ≤ encoding.width c := by
  cases encoding with
  | utf8 => exact c.utf8Size_pos
  | utf16 =>
    show 1 ≤ if c.toNat < 0x10000 then 2 else 4
    split_ifs <;> omega

/-- Where no entity is declared, references come to no more bytes than their text. -/
theorem referredBytes_nil_le (cs : List Char) : referredBytes [] cs ≤ byteCount encoding cs := by
  induction cs with
  | nil => exact Nat.le_refl _
  | cons c cs ih =>
    have hwidth := width_pos encoding c
    have hcount : byteCount encoding (c :: cs) = encoding.width c + byteCount encoding cs := by
      simp [byteCount]
    rw [hcount]
    by_cases hc : c = '&'
    · subst hc
      rw [referredBytes]
      refine Nat.add_le_add ?_ ih
      split_ifs
      · exact hwidth
      · exact Nat.zero_le _
    · rw [referredBytes]
      · exact Nat.le_add_left_of_le ih
      · exact hc

theorem expanded_charge_nil_le (p : Piece) :
    (p.charge encoding []).expanded ≤ (p.charge encoding []).direct := by
  unfold Piece.charge
  dsimp only
  split_ifs
  · exact referredBytes_nil_le encoding p.text
  · exact Nat.zero_le _

theorem weights_eq_nil {d : Declarations} (h : d.entities = []) : d.weights = [] := by
  rw [Declarations.weights, h]
  rfl

/-- A tag is the first of the root, and from there on no entity is declared. -/
theorem charges_of_tag {d : Declarations} (hd : d.entities = []) (skipped : Bool) {p : Piece}
    (hkind : p.kind = .markup) (htag : after? ['<', '!'] p.text = none) (rest : List Piece) :
    charges encoding d skipped (p :: rest) = (p :: rest).map (Piece.charge encoding []) := by
  simp only [charges, hkind, htag, weights_eq_nil hd]

end

/-! ## Pieces -/

/-- The reader begins without entities. -/
theorem entities_opening (cs : List Char) :
    ((opening? cs).getD ({}, [])).1.entities = [] := by
  unfold opening?
  split
  · next c rest _ =>
    split_ifs
    · rfl
    · rcases until? ['?', '>'] (c :: rest) with _ | ⟨items, left⟩
      · rfl
      · cases halone : standsAlone? items <;> simp [halone]
  · rfl

/-- A document that begins with its root is tolerated. -/
theorem isTolerated_of_isNameStart (encoding : Encoding) {c : Char} (hc : isNameStart c = true)
    (text : List Char) : isTolerated encoding ('<' :: c :: text) = true := by
  have hmark {d : Char} (hd : isNameStart d = false) : c ≠ d := ne_of_isNameStart hc hd
  obtain ⟨part, hpart⟩ : ∃ part, (throughTag none (c :: text)).1 = c :: part := by
    rw [throughTag]
    split_ifs
    · exact ⟨[], rfl⟩
    · exact ⟨_, rfl⟩
    · exact ⟨_, rfl⟩
  have hcut : (cut ('<' :: c :: text)).1 = [⟨.markup, '<' :: c :: part⟩] := by
    rw [← hpart, cut]
    · exact fun _ h => hmark (by decide) (List.cons.inj h).1
    · exact fun _ h => hmark (by decide) (List.cons.inj h).1
    · exact fun _ h => hmark (by decide) (List.cons.inj h).1
  have htag : after? ['<', '!'] ('<' :: c :: part) = none := by
    simp [after?, (hmark (by decide) : c ≠ '!').symm]
  unfold isTolerated
  rw [List.length_cons, pieces]
  · dsimp only
    rw [hcut, List.singleton_append, charges_of_tag encoding (entities_opening _) false rfl htag]
    refine areModest_of_le (List.forall_mem_map.mpr fun p _ => ?_) (Nat.le_refl 0)
    exact expanded_charge_nil_le encoding p
  · exact List.cons_ne_nil _ _

/-- No text that can be read is taken for UTF-16. -/
theorem ofText_eq_utf8 {text : List Char} (h : '\x00' ∉ text) : Encoding.ofText text = .utf8 := by
  unfold Encoding.ofText
  split
  · simp at h
  · simp at h
  · rfl

/-- What can be read is given if it is tolerated. -/
theorem parse?_eq {text : List Char} {root : Node} (h : read? text = some root) :
    parse? text = if isTolerated .utf8 text then some root else none := by
  have hzero : '\x00' ∉ text := by
    intro hmem
    rw [read?_eq_none hmem (by decide)] at h
    cases h
  rw [parse?, ofText_eq_utf8 hzero]
  simp [Encoding.decode?, h]

/-- Every text in what is given holds legal characters. -/
theorem Node.isLegal_of_parse? {text : List Char} {root : Node} (h : parse? text = some root) :
    root.IsLegal := by
  obtain ⟨decoded, -, h⟩ := Option.bind_eq_some_iff.mp h
  rw [Option.ite_none_right_eq_some] at h
  exact isLegal_of_read? h.2

/-- An element without a prolog is tolerated. -/
theorem isTolerated_enclose (encoding : Encoding) {name : Name} (hname : name.IsPlain)
    (attributes : List (Name × List Char)) (content : List Char) :
    isTolerated encoding (enclose name attributes content) = true := by
  obtain ⟨c, more, hlocal, hc⟩ := exists_of_isName hname.isName
  have hhead : enclose name attributes content =
      '<' :: c :: (enclose name attributes content).drop 2 := by
    simp [enclose, hlocal]
  rw [hhead]
  exact isTolerated_of_isNameStart encoding hc _

end WireAgent.Xml
