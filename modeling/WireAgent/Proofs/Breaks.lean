import Mathlib.Data.List.Basic
import WireAgent.Text.Line

/-!
# Unified line breaks

Unifying the line breaks of a text leaves no carriage return in it, and changes nothing just if
there was none (`unifyBreaks_eq_self_iff`). Texts are unified piece by piece, unless a pair of
carriage return and line feed is cut apart.
-/

namespace WireAgent.Text

theorem unifyBreaks_return {rest : List Char} (h : rest.head? ≠ some '\n') :
    unifyBreaks ('\r' :: rest) = '\n' :: unifyBreaks rest := by
  refine unifyBreaks.eq_3 rest ?_
  rintro _ rfl
  exact h rfl

theorem unifyBreaks_cons {c : Char} (h : c ≠ '\r') (rest : List Char) :
    unifyBreaks (c :: rest) = c :: unifyBreaks rest :=
  unifyBreaks.eq_4 c rest (fun _ heq _ => h heq) h

/-- A pair, then a carriage return alone, and one at the end. -/
example : unifyBreaks "\r\n\ra\r".toList = "\n\na\n".toList := by
  cbv

/-- Characters that are no carriage returns are passed over. -/
theorem unifyBreaks_append {cs : List Char} (h : '\r' ∉ cs) (ds : List Char) :
    unifyBreaks (cs ++ ds) = cs ++ unifyBreaks ds := by
  induction cs with
  | nil => rfl
  | cons c cs ih =>
    obtain ⟨hc, hcs⟩ := not_or.mp (mt List.mem_cons.mpr h)
    rw [List.cons_append, unifyBreaks_cons (Ne.symm hc), ih hcs, List.cons_append]

/-- A break in front of a text that begins with no line feed ends with the text before it. -/
theorem unifyBreaks_append_of_head {ds : List Char} (h : ds.head? ≠ some '\n') (cs : List Char) :
    unifyBreaks (cs ++ ds) = unifyBreaks cs ++ unifyBreaks ds := by
  induction cs using unifyBreaks.induct with
  | case1 => rfl
  | case2 rest ih => exact congrArg ('\n' :: ·) ih
  | case3 rest hne ih =>
    have hrest : (rest ++ ds).head? ≠ some '\n' := by
      cases rest with
      | nil => exact h
      | cons d rest =>
        rintro heq
        exact hne rest (by rw [Option.some.inj heq])
    rw [List.cons_append, unifyBreaks_return hrest, ih, unifyBreaks.eq_3 rest hne,
      List.cons_append]
  | case4 c rest hne hc ih =>
    rw [List.cons_append, unifyBreaks_cons hc, ih, unifyBreaks_cons hc, List.cons_append]

/-- Unified breaks are line feeds, and nothing else is new. -/
theorem mem_unifyBreaks {cs : List Char} {c : Char} (h : c ∈ unifyBreaks cs) :
    c ≠ '\r' ∧ (c ∈ cs ∨ c = '\n') := by
  induction cs using unifyBreaks.induct with
  | case1 => contradiction
  | case2 rest ih =>
    rcases List.mem_cons.mp h with rfl | h
    · exact ⟨by decide, .inr rfl⟩
    · obtain ⟨hreturn, h⟩ := ih h
      exact ⟨hreturn, h.imp_left fun h => List.mem_cons_of_mem _ (List.mem_cons_of_mem _ h)⟩
  | case3 rest hne ih =>
    rw [unifyBreaks.eq_3 rest hne] at h
    rcases List.mem_cons.mp h with rfl | h
    · exact ⟨by decide, .inr rfl⟩
    · exact (ih h).imp_right (Or.imp_left (List.mem_cons_of_mem _))
  | case4 d rest hne hd ih =>
    rw [unifyBreaks_cons hd] at h
    rcases List.mem_cons.mp h with rfl | h
    · exact ⟨hd, .inl List.mem_cons_self⟩
    · exact (ih h).imp_right (Or.imp_left (List.mem_cons_of_mem _))

theorem return_not_mem_unifyBreaks (cs : List Char) : '\r' ∉ unifyBreaks cs :=
  fun h => (mem_unifyBreaks h).1 rfl

/-- A text has its breaks unified already just if no carriage return is in it. -/
theorem unifyBreaks_eq_self_iff {cs : List Char} : unifyBreaks cs = cs ↔ '\r' ∉ cs := by
  constructor
  · intro h
    rw [← h]
    exact return_not_mem_unifyBreaks cs
  · intro h
    have happend := unifyBreaks_append h []
    rwa [List.append_nil, unifyBreaks, List.append_nil] at happend

/-- Characters that are no breaks are kept. -/
theorem mem_unifyBreaks_of_mem {cs : List Char} {c : Char} (h : c ∈ cs) (hreturn : c ≠ '\r')
    (hfeed : c ≠ '\n') : c ∈ unifyBreaks cs := by
  induction cs using unifyBreaks.induct with
  | case1 => contradiction
  | case2 rest ih =>
    simp only [List.mem_cons, hreturn, hfeed, false_or] at h
    exact List.mem_cons_of_mem _ (ih h)
  | case3 rest hne ih =>
    rw [unifyBreaks.eq_3 rest hne]
    simp only [List.mem_cons, hreturn, false_or] at h
    exact List.mem_cons_of_mem _ (ih h)
  | case4 d rest hne hd ih =>
    rw [unifyBreaks_cons hd]
    rcases List.mem_cons.mp h with rfl | h
    · exact List.mem_cons_self
    · exact List.mem_cons_of_mem _ (ih h)

theorem unifyBreaks_eq_nil_iff {cs : List Char} : unifyBreaks cs = [] ↔ cs = [] := by
  cases cs using unifyBreaks.fun_cases with
  | case1 => simp [unifyBreaks]
  | case2 rest => simp [unifyBreaks]
  | case3 rest hne => simp [unifyBreaks.eq_3 rest hne]
  | case4 c rest hne hc => simp [unifyBreaks_cons hc]

end WireAgent.Text
