import Mathlib.Data.List.DropRight
import Mathlib.Data.List.TakeDrop
import Mathlib.Data.List.TakeWhile
import WireAgent.Text.Blank

/-!
# Trimming

Blanks at the ends of a text are lost when it is trimmed, whatever stands between them
(`trim_padded`), and nothing is added (`mem_of_mem_trim`). The texts that trimming leaves alone are
those without blanks at their ends (`trim_eq_self_iff`), the trimmed ones among them.
-/

namespace WireAgent.Text

/-- Does a text consist of blanks? -/
def IsBlanks (cs : List Char) : Prop := ∀ c ∈ cs, isBlank c = true

theorem trimStart_blanks_append {blanks : List Char} (h : IsBlanks blanks) (cs : List Char) :
    trimStart (blanks ++ cs) = trimStart cs :=
  List.dropWhile_append_of_pos h

theorem trimStart_eq_nil_iff {cs : List Char} : trimStart cs = [] ↔ IsBlanks cs :=
  List.dropWhile_eq_nil_iff

theorem trimEnd_append_blanks {blanks : List Char} (h : IsBlanks blanks) (cs : List Char) :
    trimEnd (cs ++ blanks) = trimEnd cs := by
  have hreverse : ∀ c ∈ blanks.reverse, isBlank c = true := fun c hc => h c (List.mem_reverse.mp hc)
  rw [trimEnd, List.reverse_append, List.dropWhile_append_of_pos hreverse, trimEnd]

theorem trim_append_blanks {blanks : List Char} (h : IsBlanks blanks) (cs : List Char) :
    trim (cs ++ blanks) = trim cs := by
  rw [trim, trim, trimStart, List.dropWhile_append]
  split
  · -- The text is lost at its start, and the blanks behind it with it.
    next hnil =>
    rw [List.isEmpty_iff] at hnil
    rw [trimStart, hnil, ← trimStart, trimStart_eq_nil_iff.mpr h]
  · exact trimEnd_append_blanks h _

theorem trim_blanks_append {blanks : List Char} (h : IsBlanks blanks) (cs : List Char) :
    trim (blanks ++ cs) = trim cs := by
  rw [trim, trimStart_blanks_append h, trim]

/-- Trimming takes blanks off both ends of a text. -/
theorem trim_padded {before after : List Char} (hbefore : IsBlanks before) (hafter : IsBlanks after)
    (cs : List Char) : trim (before ++ cs ++ after) = trim cs := by
  rw [trim_append_blanks hafter, trim_blanks_append hbefore]

theorem trimEnd_sublist (cs : List Char) : (trimEnd cs).Sublist cs :=
  (List.rdropWhile_prefix isBlank cs).sublist

theorem trim_sublist (cs : List Char) : (trim cs).Sublist cs :=
  (trimEnd_sublist _).trans (List.dropWhile_sublist _)

theorem mem_of_mem_trim {cs : List Char} {c : Char} (h : c ∈ trim cs) : c ∈ cs :=
  (trim_sublist cs).subset h

/-- What has no blank at its ends is not changed by trimming, and nothing else is. -/
theorem trim_eq_self_iff {cs : List Char} :
    trim cs = cs ↔
      (∀ c ∈ cs.head?, isBlank c = false) ∧ ∀ c ∈ cs.getLast?, isBlank c = false := by
  have hstart : trimStart cs = cs ↔ ∀ c ∈ cs.head?, isBlank c = false := by
    rw [trimStart, List.dropWhile_eq_self_iff]
    cases cs <;> simp
  have hend : trimEnd cs = cs ↔ ∀ c ∈ cs.getLast?, isBlank c = false := by
    rw [trimEnd, List.reverse_eq_iff, List.dropWhile_eq_self_iff, ← List.head?_reverse]
    cases cs.reverse <;> simp
  rw [← hstart, ← hend]
  constructor
  · intro h
    have hlength : cs.length ≤ (trimStart cs).length :=
      calc cs.length = (trim cs).length := by rw [h]
        _ ≤ (trimStart cs).length := (trimEnd_sublist _).length_le
    have hself : trimStart cs = cs := (List.dropWhile_sublist _).eq_of_length_le hlength
    exact ⟨hself, by rwa [trim, hself] at h⟩
  · rintro ⟨hfront, hback⟩
    rw [trim, hfront, hback]

/-- A text without blanks is trimmed. -/
theorem trim_eq_self {cs : List Char} (h : ∀ c ∈ cs, isBlank c = false) : trim cs = cs :=
  trim_eq_self_iff.mpr
    ⟨fun c hc => h c (List.mem_of_mem_head? hc), fun c hc => h c (List.mem_of_mem_getLast? hc)⟩

/-- A trimmed text has no blank at its ends. -/
theorem trim_trim (cs : List Char) : trim (trim cs) = trim cs := by
  refine trim_eq_self_iff.mpr ⟨fun c hc => ?_, fun c hc => ?_⟩
  · obtain ⟨rest, hrest⟩ : trim cs <+: trimStart cs := List.rdropWhile_prefix isBlank _
    have hhead : (trimStart cs).head? = some c := by
      rw [← hrest, List.head?_append, Option.mem_def.mp hc, Option.some_or]
    have hfront := List.head?_dropWhile_not isBlank cs
    rwa [← trimStart, hhead] at hfront
  · have hback := List.head?_dropWhile_not isBlank (trimStart cs).reverse
    rw [trim, trimEnd, List.getLast?_reverse] at hc
    rwa [Option.mem_def.mp hc] at hback

/-- A text between two trimmed ones has its blanks where trimming does not reach them. -/
theorem trim_enclosed {front back : List Char} (hfront : trim front = front) (hne : front ≠ [])
    (hback : trim back = back) (hne' : back ≠ []) (cs : List Char) :
    trim (front ++ cs ++ back) = front ++ cs ++ back := by
  refine trim_eq_self_iff.mpr ⟨fun c hc => (trim_eq_self_iff.mp hfront).1 c ?_,
    fun c hc => (trim_eq_self_iff.mp hback).2 c ?_⟩
  · rwa [List.append_assoc, List.head?_append_of_ne_nil _ hne] at hc
  · rwa [List.getLast?_append_of_ne_nil _ hne'] at hc

end WireAgent.Text
