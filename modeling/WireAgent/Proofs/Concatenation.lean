import WireAgent.Proofs.Assignments
import WireAgent.Proofs.Statements

/-!
# Configurations one after the other

What is read from two texts with a break between them is what is read from the second one laid over
what is read from the first (`parse_append_break`), or what fails in the first of them that fails.
So a text that follows another one changes the keys of its own lines only
(`concatenation_overlays`).
-/

namespace WireAgent.Config

namespace Values

/-! ## Overlays -/

theorem set_set (values : Values) (key : String) (old value : Value) :
    (values.set key old).set key value = values.set key value := by
  induction values with
  | nil => simp [set]
  | cons entry values ih =>
    by_cases hown : entry.1 = key
    · simp [set, hown]
    · simp [set, hown, ih]

/-- Two keys are set in any order, if the second one need not be added. -/
theorem set_comm {values : Values} {key other : String} (hne : other ≠ key)
    (hkey : key ∈ values.keys) (value value' : Value) :
    (values.set other value').set key value = (values.set key value).set other value' := by
  induction values with
  | nil => cases hkey
  | cons entry values ih =>
    by_cases hown : entry.1 = key
    · simp [set, hown, hne.symm]
    · have hrest : key ∈ keys values :=
        (List.mem_cons.mp hkey).resolve_left fun heq => hown heq.symm
      by_cases hother : entry.1 = other
      · simp [set, hother, hne]
      · simp [set, hown, hother, ih hrest]

/-- A key that is there already, and is not given a new value, may be set before or after. -/
theorem overlay_set_lower {upper lower : Values} {key : String} (hupper : key ∉ upper.keys)
    (hlower : key ∈ lower.keys) (value : Value) :
    overlay upper (lower.set key value) = (overlay upper lower).set key value := by
  induction upper generalizing lower with
  | nil => rfl
  | cons entry upper ih =>
    rw [keys_cons, List.mem_cons, not_or] at hupper
    have hkept : key ∈ (lower.set entry.1 entry.2).keys := by
      rw [keys_set]
      split_ifs
      · exact hlower
      · exact List.mem_append_left _ hlower
    rw [overlay_cons, overlay_cons, ← ih hupper.2 hkept, set_comm (Ne.symm hupper.1) hlower]

/-- To set a key of what is laid over a configuration is to set it in the whole. -/
theorem overlay_set {upper : Values} (h : upper.keys.Nodup) (lower : Values) (key : String)
    (value : Value) :
    overlay (upper.set key value) lower = (overlay upper lower).set key value := by
  induction upper generalizing lower with
  | nil => rfl
  | cons entry upper ih =>
    obtain ⟨hfresh, hrest⟩ := List.nodup_cons.mp h
    rw [set]
    split_ifs with hown
    · subst hown
      have hmem : entry.1 ∈ (lower.set entry.1 entry.2).keys := by
        rw [keys_set]
        split_ifs with hmem
        · exact hmem
        · exact List.mem_append_right _ (List.mem_singleton_self _)
      rw [overlay_cons, overlay_cons, ← overlay_set_lower hfresh hmem, set_set]
    · rw [overlay_cons, overlay_cons, ih hrest]

end Values

/-! ## Texts -/

/-- What lines give is given in the same way above any configuration. -/
theorem foldlM_apply_overlay (lines : List Line) {upper : Values} (h : upper.keys.Nodup)
    (lower : Values) :
    lines.foldlM Line.apply (upper.overlay lower) =
      (lines.foldlM Line.apply upper).map fun values => values.overlay lower := by
  induction lines generalizing upper with
  | nil => rfl
  | cons line lines ih =>
    have hset (key : String) (value : Value) :
        lines.foldlM Line.apply ((upper.overlay lower).set key value) =
          (lines.foldlM Line.apply (upper.set key value)).map fun values =>
            values.overlay lower := by
      rw [← Values.overlay_set h, ih (Values.nodup_keys_set h key value)]
    cases line with
    | empty => exact ih h
    | unknown key => exact ih h
    | assigned key value => exact hset key value
    | rejected key text fallback => exact hset key fallback
    | failed e => rfl

/-- A break parts two texts that are read one after the other. -/
theorem parse_append_break {c : Char} (h : Text.isLineBreak c = true) (first second : List Char) :
    parse (first ++ c :: second) =
      (parse first).bind fun lower => (parse second).map fun upper => upper.overlay lower := by
  have hempty : (Values.keys []).Nodup := List.nodup_nil
  rw [parse_eq, statements_append_break h, List.foldlM_append, ← parse_eq first, parse_eq second]
  exact bind_congr fun lower => foldlM_apply_overlay (statements second) hempty lower

/-- A key without a line in a text has no value in it. -/
theorem get?_eq_none_of_not_names {text : List Char} {values : Values} (h : parse text = .ok values)
    {key : String} (hkey : ∀ line ∈ Text.splitLines text, ¬Names line key) :
    values.get? key = none := by
  rw [get?_of_parse h, Option.bind_eq_none_iff]
  intro entry hoption
  obtain ⟨hentry, rfl⟩ := option?_eq_some_iff.mp hoption
  rw [Option.map_eq_none_iff, Option.eq_none_iff_forall_ne_some]
  intro own hown
  obtain ⟨line, hline, hnames⟩ := exists_isLast_iff.mp ⟨own, (lastText?_eq_some_iff hentry).mp hown⟩
  exact hkey line hline hnames

/-- Two texts that can be read can be read one after the other, with a line feed between them. What
the second one gives is then laid over what the first one gives, so that a key without a line in the
second text keeps its value, or has none. -/
theorem concatenation_overlays {first second : List Char} {lower upper : Values}
    (hfirst : parse first = .ok lower) (hsecond : parse second = .ok upper) :
    parse (first ++ '\n' :: second) = .ok (upper.overlay lower) ∧
      (∀ key, (upper.overlay lower).get? key = (upper.get? key).or (lower.get? key)) ∧
      ∀ key, (∀ line ∈ Text.splitLines second, ¬Names line key) →
        (upper.overlay lower).get? key = lower.get? key := by
  have hget (key : String) :
      (upper.overlay lower).get? key = (upper.get? key).or (lower.get? key) := by
    rw [Values.get?_overlay, Values.last?_eq_get? (nodup_keys_of_parse hsecond)]
  refine ⟨?_, hget, fun key hkey => ?_⟩
  · rw [parse_append_break (by decide), hfirst, hsecond]
    rfl
  · rw [hget, get?_eq_none_of_not_names hsecond hkey, Option.none_or]

/-- The break between the texts makes one with the carriage return that ends the first of them, and
the second begins with a break of its own. -/
theorem concatenation_overlays_return :
    parse "Logs.Verbose=y\nPid.File=/a\r".toList =
        .ok [("Logs.Verbose", .flag true), ("Pid.File", .text "/a")] ∧
      parse "\nLib.Dir=/b\x85Logs.Verbose=n".toList =
        .ok [("Lib.Dir", .text "/b"), ("Logs.Verbose", .flag false)] ∧
      parse ("Logs.Verbose=y\nPid.File=/a\r".toList ++
          '\n' :: "\nLib.Dir=/b\x85Logs.Verbose=n".toList) =
        .ok [("Logs.Verbose", .flag false), ("Pid.File", .text "/a"), ("Lib.Dir", .text "/b")] := by
  have hfirst : parse "Logs.Verbose=y\nPid.File=/a\r".toList =
      .ok [("Logs.Verbose", .flag true), ("Pid.File", .text "/a")] := by
    decide
  have hsecond : parse "\nLib.Dir=/b\x85Logs.Verbose=n".toList =
      .ok [("Lib.Dir", .text "/b"), ("Logs.Verbose", .flag false)] := by
    decide
  exact ⟨hfirst, hsecond, (concatenation_overlays hfirst hsecond).1⟩

end WireAgent.Config
