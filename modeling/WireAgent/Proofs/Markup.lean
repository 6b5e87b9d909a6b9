import Mathlib.Data.List.Chain
import Mathlib.Data.List.Nodup
import Mathlib.Data.List.TakeDrop
import Mathlib.Data.List.TakeWhile
import Mathlib.Tactic.SplitIfs
import WireAgent.Proofs.Breaks
import WireAgent.Xml.Reader
import WireAgent.Xml.Writer

/-!
# Documents that are written and read

The text that a tree is written as is a document, and reading it gives the tree back
(`read?_write`). The tree must be one that a document can hold (`Node.Regular`): names without
namespace, legal characters, and no two texts side by side. A carriage return in a text would be
read as a line feed, so there must be none; in an attribute value there may be, since there it is
written by its code point.

The reader takes a written text apart from the left: a name up to the first character that is none
of its own, a value up to the quote, and the content of an element in steps, each of which leaves
less text (`Leads`). What it has read is related to what remains, so that the pieces fit together.
-/

namespace WireAgent.Xml

/-! ## Characters -/

/-- The production `Char` of XML 1.0. -/
def IsChar (c : Char) : Prop :=
  c = '\t' ∨ c = '\n' ∨ c = '\r' ∨ (0x20 ≤ c.toNat ∧ c.toNat ≤ 0xD7FF) ∨
    (0xE000 ≤ c.toNat ∧ c.toNat ≤ 0xFFFD) ∨ (0x10000 ≤ c.toNat ∧ c.toNat ≤ 0x10FFFF)

/-- The reader takes exactly the characters of that production. -/
theorem isLegal_iff {c : Char} : isLegal c = true ↔ IsChar c := by
  have hlast : c.toNat < 0x110000 := by
    rcases c.valid with h | ⟨_, h⟩
    · exact Nat.lt_trans h (by decide)
    · exact h
  simp only [isLegal, illegalRanges, Text.Ranges.holds, IsChar, ← Char.toNat_inj, List.any_cons,
    List.any_nil]
  simp
  omega

instance (c : Char) : Decidable (IsChar c) := decidable_of_iff _ isLegal_iff

theorem isLegal_of_isNameChar {c : Char} (h : isNameChar c = true) : isLegal c = true := by
  rw [isNameChar, Bool.or_eq_true] at h
  rw [isLegal, Bool.not_eq_true']
  rcases h with h | h
  · exact Text.Ranges.holds_of_apart (by decide +kernel) h
  · exact Text.Ranges.holds_of_apart (by decide) h

/-! ## Names -/

theorem ne_of_isNameStart {c d : Char} (h : isNameStart c = true) (hd : isNameStart d = false) :
    c ≠ d := by
  rintro rfl
  rw [h] at hd
  contradiction

theorem isSpace_of_isNameStart {c : Char} (h : isNameStart c = true) : isSpace c = false := by
  have hne (d : Char) (hd : isNameStart d = false) : c ≠ d := ne_of_isNameStart h hd
  simp [isSpace, hne ' ' (by decide), hne '\t' (by decide),
    hne '\n' (by decide), hne '\r' (by decide)]

theorem skipSpace_cons {c : Char} (h : isSpace c = false) (cs : List Char) :
    skipSpace (c :: cs) = c :: cs := by
  simp [skipSpace, h]

/-- Is it a name without colon? -/
def isName : List Char → Bool
  | [] => false
  | c :: rest => isNameStart c && rest.all isNameChar

theorem exists_of_isName {name : List Char} (h : isName name = true) :
    ∃ c rest, name = c :: rest ∧ isNameStart c = true := by
  cases name with
  | nil => simp [isName] at h
  | cons c rest =>
    simp only [isName, Bool.and_eq_true] at h
    exact ⟨c, rest, rfl, h.1⟩

theorem isNameChar_of_isName {name : List Char} (h : isName name = true) :
    ∀ c ∈ name, isNameChar c = true := by
  cases name with
  | nil => simp [isName] at h
  | cons c rest =>
    simp only [isName, Bool.and_eq_true, List.all_eq_true] at h
    rintro d (_ | ⟨_, hd⟩)
    · simp [isNameChar, h.1]
    · exact h.2 d hd

/-- A name holds no character that belongs to no name. -/
theorem not_mem_of_isName {name : List Char} (h : isName name = true) {c : Char}
    (hc : isNameChar c = false) : c ∉ name :=
  fun hmem => by simp [isNameChar_of_isName h c hmem] at hc

/-- Cuts a row of characters with a property off a text that goes on with one that lacks it. -/
theorem span_append {p : Char → Bool} {row : List Char} (h : ∀ c ∈ row, p c = true) {c : Char}
    (hc : p c = false) (rest : List Char) : (row ++ c :: rest).span p = (row, c :: rest) := by
  rw [List.span_eq_takeWhile_dropWhile, List.takeWhile_append_of_pos h,
    List.dropWhile_append_of_pos h]
  simp [hc]

/-- A name ends before the first character that is in no name. -/
theorem name?_append {name : List Char} (h : isName name = true) {c : Char}
    (hc : isNameChar c = false) (rest : List Char) :
    name? (name ++ c :: rest) = some (name, c :: rest) := by
  cases name with
  | nil => simp [isName] at h
  | cons d more =>
    simp only [isName, Bool.and_eq_true, List.all_eq_true] at h
    rw [List.cons_append, name?, if_pos h.1, span_append h.2 hc]

theorem qualifiedName?_append {name : List Char} (h : isName name = true) {c : Char}
    (hc : isNameChar c = false) (hcolon : c ≠ ':') (rest : List Char) :
    qualifiedName? (name ++ c :: rest) = some (name, c :: rest) := by
  simp [qualifiedName?, name?_append h hc, hcolon]

theorem splitName_of_isName {name : List Char} (h : isName name = true) :
    splitName name = ([], name) := by
  have hcolon : ∀ c ∈ name, decide (c ≠ ':') = true := fun c hc => by
    have : ':' ∉ name := not_mem_of_isName h (by decide)
    exact decide_eq_true fun heq => this (heq ▸ hc)
  have hspan : name.span (· ≠ ':') = (name, []) := by
    rw [List.span_eq_takeWhile_dropWhile, List.takeWhile_eq_self_iff.mpr hcolon,
      List.dropWhile_eq_nil_iff.mpr hcolon]
  rw [splitName, hspan]

/-- A name without colon binds nothing unless it is the one for the default namespace. -/
theorem boundPrefix?_of_isName {name : List Char} (h : isName name = true)
    (hname : name ≠ "xmlns".toList) : boundPrefix? name = none := by
  rw [boundPrefix?, if_neg hname, splitName_of_isName h]
  rfl

/-! ## Values -/

theorem until?_append {mark : Char} {cs : List Char} (h : mark ∉ cs) (rest : List Char) :
    until? [mark] (cs ++ mark :: rest) = some (cs, rest) := by
  induction cs with
  | nil => simp [until?, after?]
  | cons c cs ih =>
    rw [List.mem_cons, not_or] at h
    simp [until?, after?, h.1, ih h.2]

/-- A reference to an entity ends at its semicolon. -/
theorem reference?_entity {name : List Char} (h : isName name = true) (rest : List Char) :
    reference? (name ++ ';' :: rest) = some (.entity name, rest) := by
  have hname := name?_append h (c := ';') (by decide) rest
  obtain ⟨c, more, rfl, hc⟩ := exists_of_isName h
  have hsharp : c ≠ '#' := ne_of_isNameStart hc (by decide)
  rw [List.cons_append] at hname ⊢
  rw [reference?]
  · simp [hname, after?]
  · intro _ heq
    exact hsharp (List.cons.inj heq).1
  · intro _ heq
    exact hsharp (List.cons.inj heq).1

/-- A reference to an entity that every document knows is read as its character. -/
theorem expandValue?_known {name : List Char} {c : Char} (h : isName name = true)
    (hc : knownEntity? name = some c) (d : Declarations) (fuel : Nat) (value rest : List Char) :
    expandValue? d (fuel + 1) [] value ('&' :: (name ++ ';' :: rest)) =
      expandValue? d fuel [] (c :: value) rest := by
  simp [expandValue?, reference?_entity h, hc]

/-- Each character of a value is read back as itself, whatever it is written as. -/
theorem expandValue?_char (d : Declarations) (fuel : Nat) (value : List Char) (c : Char)
    (rest : List Char) :
    expandValue? d (fuel + 1) [] value (encodeValueChar c ++ rest) =
      expandValue? d fuel [] (c :: value) rest := by
  have known (name : String) {k : Char} (h : isName name.toList = true)
      (hk : knownEntity? name.toList = some k) :=
    expandValue?_known h hk d fuel value rest
  unfold encodeValueChar encodeTextChar
  split_ifs with hquot hcr hlf htab hamp hlt hgt
  · subst hquot
    exact known "quot" (by decide) rfl
  · subst hcr
    rfl
  · subst hlf
    rfl
  · subst htab
    rfl
  · subst hamp
    exact known "amp" (by decide) rfl
  · subst hlt
    exact known "lt" (by decide) rfl
  · subst hgt
    exact known "gt" (by decide) rfl
  · -- Of the white space only the blank is written as it stands, and it is read as a blank.
    have hblank : (if isSpace c then ' ' else c) = c := by
      by_cases h : c = ' '
      · simp [h]
      · simp [isSpace, h, hcr, hlf, htab]
    rw [List.singleton_append, expandValue?, if_neg hlt, hblank]
    exact hamp

theorem encodeTextChar_ne_nil (c : Char) : encodeTextChar c ≠ [] := by
  unfold encodeTextChar
  split_ifs <;> simp

theorem encodeValueChar_ne_nil (c : Char) : encodeValueChar c ≠ [] := by
  unfold encodeValueChar
  split_ifs <;> simp [encodeTextChar_ne_nil]

/-- A value is read to its end with more fuel than its literal has characters. -/
theorem expandValue?_encodeValue (d : Declarations) {fuel : Nat} {value cs : List Char}
    (h : (encodeValue cs).length < fuel) :
    expandValue? d fuel [] value (encodeValue cs) = some (value.reverse ++ cs) := by
  induction cs generalizing fuel value with
  | nil =>
    obtain ⟨fuel, rfl⟩ := Nat.exists_eq_add_of_lt h
    simp [encodeValue, expandValue?]
  | cons c cs ih =>
    rw [encodeValue, List.flatMap_cons, ← encodeValue] at h ⊢
    rw [List.length_append] at h
    have hpos := List.length_pos_iff.mpr (encodeValueChar_ne_nil c)
    cases fuel with
    | zero => omega
    | succ fuel =>
      rw [expandValue?_char, ih (by omega)]
      simp

/-- A value is read back from what it is written as. -/
theorem attributeValue?_encodeValue (d : Declarations) (value : List Char) :
    attributeValue? d true (encodeValue value) = some value := by
  rw [attributeValue?, expandValue?_encodeValue d (d.length_lt_reach _)]
  simp

/-- What a value is written as holds no quote. -/
theorem quote_not_mem_encodeValue (value : List Char) : '"' ∉ encodeValue value := by
  simp only [encodeValue, List.mem_flatMap, not_exists, not_and]
  intro c _
  unfold encodeValueChar encodeTextChar
  split_ifs with hquot
  all_goals simp
  exact Ne.symm hquot

/-! ## Tags -/

/-- The attributes of an element as a tag shows them, with literals for values. -/
def literals (attributes : List (Name × List Char)) : List (List Char × List Char) :=
  attributes.map fun entry => (entry.1.localPart, encodeValue entry.2)

/-- The text of attributes in a tag. -/
def writeAttributes (attributes : List (Name × List Char)) : List Char :=
  attributes.flatMap fun entry => writeAttribute entry.1 entry.2

/-- An attribute is read up to its second quote. -/
theorem tagAttributes?_writeAttribute {name : Name} (h : isName name.localPart = true)
    (value : List Char) (fuel : Nat) (rest : List Char) :
    tagAttributes? (fuel + 1) (writeAttribute name value ++ rest) =
      (tagAttributes? fuel rest).map fun (more, isEmpty, rest) =>
        ((name.localPart, encodeValue value) :: more, isEmpty, rest) := by
  have hqualified := qualifiedName?_append h (c := '=') (by decide) (by decide)
    ('"' :: (encodeValue value ++ '"' :: rest))
  have hquoted : quoted? ('"' :: (encodeValue value ++ '"' :: rest)) =
      some (encodeValue value, rest) := until?_append (quote_not_mem_encodeValue value) rest
  obtain ⟨c, more, hname, hc⟩ := exists_of_isName h
  have hclose : c ≠ '>' := ne_of_isNameStart hc (by decide)
  have hslash : c ≠ '/' := ne_of_isNameStart hc (by decide)
  rw [hname, List.cons_append] at hqualified
  have hequals : isSpace '=' = false := rfl
  have hquote : isSpace '"' = false := rfl
  simp only [writeAttribute, hname, List.cons_append, List.append_assoc, List.nil_append]
  rw [tagAttributes?, if_neg (by decide), skipSpace_cons (isSpace_of_isNameStart hc)]
  · simp [hclose, hslash, hqualified, skipSpace_cons hequals, skipSpace_cons hquote, after?,
      hquoted]
    cases tagAttributes? fuel rest <;> rfl
  · decide
  · decide

/-- The end of a tag, of one that ends its element too or of one that does not. -/
def tagEnd : Bool → List Char
  | true => [' ', '/', '>']
  | false => ['>']

theorem tagAttributes?_tagEnd (isEmpty : Bool) (fuel : Nat) (rest : List Char) :
    tagAttributes? (fuel + 1) (tagEnd isEmpty ++ rest) = some ([], isEmpty, rest) := by
  cases isEmpty <;> rfl

theorem tagAttributes?_write {attributes : List (Name × List Char)}
    (h : ∀ entry ∈ attributes, isName entry.1.localPart = true) (isEmpty : Bool) {fuel : Nat}
    (enough : attributes.length < fuel) (rest : List Char) :
    tagAttributes? fuel (writeAttributes attributes ++ (tagEnd isEmpty ++ rest)) =
      some (literals attributes, isEmpty, rest) := by
  induction attributes generalizing fuel with
  | nil =>
    obtain ⟨fuel, rfl⟩ := Nat.exists_eq_add_of_lt enough
    exact tagAttributes?_tagEnd ..
  | cons entry attributes ih =>
    cases fuel with
    | zero => contradiction
    | succ fuel =>
      rw [writeAttributes, List.flatMap_cons, ← writeAttributes, List.append_assoc,
        tagAttributes?_writeAttribute (h entry List.mem_cons_self),
        ih (fun e he => h e (List.mem_cons_of_mem _ he)) (Nat.lt_of_succ_lt_succ enough)]
      rfl

/-- A tag goes on after its name with a blank or with its end. -/
theorem writeAttributes_head (attributes : List (Name × List Char)) (isEmpty : Bool)
    (rest : List Char) :
    ∃ c more, writeAttributes attributes ++ (tagEnd isEmpty ++ rest) = c :: more ∧
      (c = ' ' ∨ c = '>') := by
  cases attributes with
  | nil => cases isEmpty <;> exact ⟨_, _, rfl, by decide⟩
  | cons entry attributes => exact ⟨_, _, rfl, .inl rfl⟩

theorem length_le_writeAttributes (attributes : List (Name × List Char)) :
    attributes.length ≤ (writeAttributes attributes).length := by
  induction attributes with
  | nil => exact Nat.zero_le _
  | cons entry attributes ih =>
    have hpos : 0 < (writeAttribute entry.1 entry.2).length := Nat.succ_pos _
    rw [writeAttributes, List.flatMap_cons, ← writeAttributes, List.length_append, List.length_cons]
    omega

/-- A start tag is read up to its end. -/
theorem startTag?_write {name : List Char} (hname : isName name = true)
    {attributes : List (Name × List Char)}
    (h : ∀ entry ∈ attributes, isName entry.1.localPart = true) (isEmpty : Bool)
    (rest : List Char) :
    startTag? (name ++ (writeAttributes attributes ++ (tagEnd isEmpty ++ rest))) =
      some (⟨name, literals attributes, isEmpty⟩, rest) := by
  have henough : attributes.length <
      (writeAttributes attributes ++ (tagEnd isEmpty ++ rest)).length + 1 := by
    have := length_le_writeAttributes attributes
    rw [List.length_append]
    omega
  have hattributes := tagAttributes?_write h isEmpty henough rest
  obtain ⟨c, more, htext, hc⟩ := writeAttributes_head attributes isEmpty rest
  have hqualified : qualifiedName? (name ++ c :: more) = some (name, c :: more) := by
    rcases hc with rfl | rfl
    · exact qualifiedName?_append hname (by decide) (by decide) more
    · exact qualifiedName?_append hname (by decide) (by decide) more
  rw [htext] at hattributes ⊢
  rw [startTag?, hqualified]
  simp only [Option.bind_eq_bind, Option.bind_some, hattributes]
  rfl

/-! ## Elements -/

/-- A name in no namespace that may stand in a tag. -/
structure Name.IsPlain (name : Name) : Prop where
  space : name.space = []
  isName : isName name.localPart = true

/-- Attributes that an element can hold: none binds a namespace and no two have one name. -/
structure AreAttributes (attributes : List (Name × List Char)) : Prop where
  plain : ∀ entry ∈ attributes, entry.1.IsPlain
  unbinding : ∀ entry ∈ attributes, entry.1.localPart ≠ "xmlns".toList
  distinct : ((attributes.map Prod.fst).map Name.localPart).Nodup
  legal : ∀ entry ∈ attributes, ∀ c ∈ entry.2, isLegal c = true

theorem allDistinct_iff [BEq α] [LawfulBEq α] {items : List α} :
    allDistinct items = true ↔ items.Nodup := by
  induction items with
  | nil => simp [allDistinct]
  | cons item items ih => simp [allDistinct, ih]

theorem mapM_map_eq_some {f : β → Option γ} {g : α → β} {k : α → γ} {items : List α}
    (h : ∀ item ∈ items, f (g item) = some (k item)) :
    (items.map g).mapM f = some (items.map k) := by
  induction items with
  | nil => rfl
  | cons item items ih =>
    rw [List.map_cons, List.mapM_cons, h item List.mem_cons_self,
      ih fun i hi => h i (List.mem_cons_of_mem _ hi)]
    rfl

/-- The attributes of an element as a tag shows them, with their values read. -/
def shown (attributes : List (Name × List Char)) : List (List Char × List Char) :=
  attributes.map fun entry => (entry.1.localPart, entry.2)

/-- The values that a tag shows are read, and where no rule is declared there are no more. -/
theorem withDefaults?_literals {d : Declarations} (hrules : d.rules = []) (name : List Char)
    (attributes : List (Name × List Char)) (isEmpty : Bool) :
    withDefaults? d ⟨name, literals attributes, isEmpty⟩ = some (shown attributes) := by
  have hown : ((literals attributes).mapM fun entry =>
      (attributeValue? d true entry.2).bind fun value => some (entry.1, value)) =
      some (shown attributes) :=
    mapM_map_eq_some fun entry _ => by rw [attributeValue?_encodeValue]; rfl
  simp [withDefaults?, Declarations.rule?, hrules, hown]

/-- Attributes that bind nothing leave what is bound. -/
theorem Scope.enter?_eq_self {entries : List (List Char × List Char)}
    (h : ∀ entry ∈ entries, boundPrefix? entry.1 = none) (scope : Scope) :
    scope.enter? entries = some scope := by
  induction entries with
  | nil => rfl
  | cons entry entries ih =>
    rw [List.forall_mem_cons] at h
    rw [Scope.enter?, h.1]
    exact ih h.2

theorem areAttributes_nil : AreAttributes [] where
  plain _ h := absurd h List.not_mem_nil
  unbinding _ h := absurd h List.not_mem_nil
  distinct := .nil
  legal _ h := absurd h List.not_mem_nil

namespace AreAttributes

variable {attributes : List (Name × List Char)} (h : AreAttributes attributes)

include h

theorem boundPrefix?_eq_none : ∀ entry ∈ shown attributes, boundPrefix? entry.1 = none := by
  simp only [shown, List.forall_mem_map]
  exact fun entry he => boundPrefix?_of_isName (h.plain entry he).isName (h.unbinding entry he)

theorem allDistinct_literals : allDistinct ((literals attributes).map Prod.fst) = true := by
  have hdistinct := h.distinct
  rw [List.map_map] at hdistinct
  rw [allDistinct_iff, literals, List.map_map]
  exact hdistinct

theorem attributes?_shown (scope : Scope) :
    scope.attributes? (shown attributes) = some attributes := by
  rw [Scope.attributes?, List.filter_eq_self.mpr fun entry he => by
    rw [h.boundPrefix?_eq_none entry he]; rfl]
  refine (mapM_map_eq_some (k := id) fun entry he => ?_).trans (by rw [List.map_id])
  obtain ⟨⟨space, localPart⟩, value⟩ := entry
  obtain ⟨rfl, hname⟩ := h.plain _ he
  rw [Scope.attributeName?, splitName_of_isName hname]
  rfl

end AreAttributes

/-- An element right after its start tag. -/
def OpenElement.opened (scope : Scope) (name : Name) (attributes : List (Name × List Char)) :
    OpenElement :=
  ⟨name.localPart, scope, name, attributes, [], []⟩

/-- The tag of an element opens it, where no default namespace is bound. -/
theorem openElement?_write {d : Declarations} (hrules : d.rules = []) {scope : Scope}
    (hscope : scope.space? [] = none) {name : Name} (hname : name.IsPlain)
    {attributes : List (Name × List Char)} (h : AreAttributes attributes) (isEmpty : Bool) :
    openElement? d scope ⟨name.localPart, literals attributes, isEmpty⟩ =
      some (.opened scope name attributes) := by
  obtain ⟨space, localPart⟩ := name
  obtain ⟨rfl, hname⟩ := hname
  have helement : scope.elementName? localPart = some ⟨[], localPart⟩ := by
    rw [Scope.elementName?, splitName_of_isName hname, hscope]
    rfl
  have hdistinct : allDistinct (attributes.map Prod.fst) = true :=
    allDistinct_iff.mpr (h.distinct.of_map _)
  simp [openElement?, h.allDistinct_literals, withDefaults?_literals hrules,
    Scope.enter?_eq_self h.boundPrefix?_eq_none, helement, h.attributes?_shown, hdistinct,
    OpenElement.opened]

/-! ## Content -/

/-- Steps of the reader of content that lead from one state to another, each of which leaves less
text. -/
inductive Leads (d : Declarations) : ContentState → ContentState → Prop
  | refl (s : ContentState) : Leads d s s
  | step {s t u : ContentState} : s.step? d = some (.more t) → t.text.length < s.text.length →
      Leads d t u → Leads d s u

namespace Leads

variable {d : Declarations} {s t u : ContentState}

theorem trans (h : Leads d s t) (g : Leads d t u) : Leads d s u := by
  induction h with
  | refl => exact g
  | step hstep hless _ ih => exact .step hstep hless (ih g)

theorem single (hstep : s.step? d = some (.more t)) (hless : t.text.length < s.text.length) :
    Leads d s t :=
  .step hstep hless (.refl t)

/-- With fuel for its text, the reader goes as the steps lead, up to the end of the root. -/
theorem content?_eq (h : Leads d s t) {fuel : Nat} (enough : s.text.length < fuel) {root : Node}
    {rest : List Char} (hdone : t.step? d = some (.done root rest)) :
    content? d fuel s = some (root, rest) := by
  induction h generalizing fuel with
  | refl =>
    cases fuel with
    | zero => contradiction
    | succ fuel => rw [content?, hdone]
  | step hstep hless _ ih =>
    cases fuel with
    | zero => contradiction
    | succ fuel =>
      rw [content?, hstep]
      exact ih (by omega) hdone

end Leads

/-- Does a text not begin with what is left of the end of a marked section? Then no text in front of
it ends one. -/
def Inert : List Char → Prop
  | '>' :: _ => False
  | ']' :: '>' :: _ => False
  | _ => True

theorem Inert.of_open (rest : List Char) : Inert ('<' :: rest) := trivial

theorem Inert.encodeTextChar {rest : List Char} (h : Inert rest) (c : Char) :
    Inert (encodeTextChar c ++ rest) := by
  unfold Xml.encodeTextChar
  split_ifs with hamp hlt hgt
  any_goals trivial
  unfold Inert
  split <;> simp_all [Inert]

namespace ContentState

variable {d : Declarations} {e : OpenElement} (outer : List OpenElement) (rest : List Char)

/-- A reference to an entity that every document knows is read as its character. -/
theorem step?_known {name : List Char} {c : Char} (h : isName name = true)
    (hc : knownEntity? name = some c) :
    step? d ⟨e, outer, [], '&' :: (name ++ ';' :: rest)⟩ =
      some (.more ⟨e.addChar c, outer, [], rest⟩) := by
  simp [step?, refer?, reference?_entity h, hc, takeChar]

/-- Each character of a text is read as itself. -/
theorem step?_char {rest : List Char} (h : Inert rest) (c : Char) :
    step? d ⟨e, outer, [], encodeTextChar c ++ rest⟩ =
      some (.more ⟨e.addChar c, outer, [], rest⟩) := by
  unfold encodeTextChar
  split_ifs with hamp hlt hgt
  · subst hamp
    exact step?_known outer rest (show isName "amp".toList = true by decide) rfl
  · subst hlt
    exact step?_known outer rest (show isName "lt".toList = true by decide) rfl
  · subst hgt
    exact step?_known outer rest (show isName "gt".toList = true by decide) rfl
  · rw [List.singleton_append, step?]
    split <;> simp_all [Inert, takeChar]

/-- A start tag opens its element, or adds it if it ends at once. -/
theorem step?_tag {name : Name} (hname : name.IsPlain) {attributes : List (Name × List Char)}
    (h : AreAttributes attributes) (hrules : d.rules = []) (hscope : e.scope.space? [] = none)
    (isEmpty : Bool) :
    step? d ⟨e, outer, [], '<' :: (name.localPart ++ (writeAttributes attributes ++
      (tagEnd isEmpty ++ rest)))⟩ =
      if isEmpty then some (.more ⟨e.addChild (.element name attributes []), outer, [], rest⟩)
      else some (.more ⟨.opened e.scope name attributes, e :: outer, [], rest⟩) := by
  have htag := startTag?_write hname.isName (fun entry he => (h.plain entry he).isName) isEmpty rest
  have helement := openElement?_write hrules hscope hname h isEmpty
  obtain ⟨c, more, hlocal, hc⟩ := exists_of_isName hname.isName
  have hslash : c ≠ '/' := ne_of_isNameStart hc (by decide)
  have hquery : c ≠ '?' := ne_of_isNameStart hc (by decide)
  have hbang : c ≠ '!' := ne_of_isNameStart hc (by decide)
  rw [hlocal, List.cons_append] at htag ⊢
  rw [hlocal] at helement
  rw [step?]
  simp [hslash, hquery, hbang, htag, open?, helement]
  rfl

theorem after?_append (head rest : List Char) : after? head (head ++ rest) = some rest := by
  induction head with
  | nil => rfl
  | cons c head ih => simp [after?, ih]

/-- An end tag closes its element. -/
theorem step?_endTag :
    step? d ⟨e, outer, [], '<' :: '/' :: (e.tagName ++ '>' :: rest)⟩ =
      match outer with
      | [] => some (.done e.toNode rest)
      | parent :: outer => some (.more ⟨parent.addChild e.toNode, outer, [], rest⟩) := by
  have hskip : skipEndTag? e.tagName (e.tagName ++ '>' :: rest) = some rest := by
    simp [skipEndTag?, after?_append, skipSpace, isSpace, after?]
  rw [step?]
  simp only [hskip, Option.bind_eq_bind, Option.bind_some, close?, isAtFloor]
  rfl

end ContentState

/-- Characters are written so that content is read as these characters. -/
structure Spells (write : Char → List Char) : Prop where
  ne_nil : ∀ c, write c ≠ []
  inert : ∀ c {rest}, Inert rest → Inert (write c ++ rest)
  step : ∀ {d : Declarations} {e : OpenElement} (outer : List OpenElement) {rest : List Char},
    Inert rest → ∀ c, ContentState.step? d ⟨e, outer, [], write c ++ rest⟩ =
      some (.more ⟨e.addChar c, outer, [], rest⟩)

theorem Spells.inert_flatMap {write : Char → List Char} (h : Spells write) {rest : List Char}
    (hrest : Inert rest) (cs : List Char) : Inert (cs.flatMap write ++ rest) := by
  induction cs with
  | nil => exact hrest
  | cons c cs ih =>
    rw [List.flatMap_cons, List.append_assoc]
    exact h.inert c ih

theorem spells_encodeTextChar : Spells encodeTextChar where
  ne_nil := encodeTextChar_ne_nil
  inert c _ h := h.encodeTextChar c
  step outer _ h := ContentState.step?_char outer h

/-! ## Nodes -/

/-- A character of a document that stands in it as it is. -/
def isPlain (c : Char) : Bool := isLegal c && c ≠ '\r'

/-- Adds a node that has been read to its end. -/
def OpenElement.add (e : OpenElement) : Node → OpenElement
  | .text content => e.addText content
  | node => e.addChild node

namespace Node

/-- May the second node follow the first? Two texts would be read as one. -/
def Beside : Node → Node → Prop
  | .text _, .text _ => False
  | _, _ => True

/-- A tree that a document can hold, with texts of characters of a sort. -/
inductive Formed (p : Char → Bool) : Node → Prop
  | text {content : List Char} : content ≠ [] → (∀ c ∈ content, p c = true) →
      Formed p (.text content)
  | element {name : Name} {attributes : List (Name × List Char)} {children : List Node} :
      name.IsPlain → AreAttributes attributes → children.IsChain Beside →
      (∀ child ∈ children, Formed p child) → Formed p (.element name attributes children)

/-- A tree that a document can hold and that is read back as it was written. -/
abbrev Regular : Node → Prop := Formed isPlain

end Node

/-- Nodes that can be all children of an element: no text is empty, and none joins another. -/
structure AreChildren (nodes : List Node) : Prop where
  beside : nodes.IsChain Node.Beside
  filled : .text [] ∉ nodes

theorem Node.Formed.ne_text_nil {p : Char → Bool} {node : Node} (h : node.Formed p) :
    node ≠ .text [] := by
  rintro rfl
  cases h with
  | text hne => exact hne rfl

theorem areChildren_of_formed {p : Char → Bool} {nodes : List Node}
    (hbeside : nodes.IsChain Node.Beside) (h : ∀ node ∈ nodes, node.Formed p) :
    AreChildren nodes where
  beside := hbeside
  filled hmem := (h _ hmem).ne_text_nil rfl

namespace OpenElement

theorem add_eq (e : OpenElement) (node : Node) :
    ∃ children run, e.add node = { e with children := children, run := run } := by
  cases node <;> exact ⟨_, _, rfl⟩

/-- Adding nodes changes only the children. -/
theorem foldl_add_eq (e : OpenElement) (nodes : List Node) :
    ∃ children run, nodes.foldl add e = { e with children := children, run := run } := by
  induction nodes generalizing e with
  | nil => exact ⟨_, _, rfl⟩
  | cons node nodes ih =>
    obtain ⟨children, run, hadd⟩ := e.add_eq node
    obtain ⟨children', run', hfold⟩ := ih (e.add node)
    exact ⟨children', run', by rw [List.foldl_cons, hfold, hadd]⟩

theorem scope_foldl_add (e : OpenElement) (nodes : List Node) :
    (nodes.foldl add e).scope = e.scope := by
  obtain ⟨children, run, h⟩ := e.foldl_add_eq nodes
  rw [h]

theorem addText_addChar (e : OpenElement) (c : Char) (cs : List Char) :
    (e.addChar c).addText cs = e.addText (c :: cs) := by
  simp [addChar, addText]

/-- The nodes that were added are the children, if none of the texts among them joins another. -/
theorem allChildren_foldl_add {nodes : List Node} (h : AreChildren nodes) {e : OpenElement}
    (hrun : e.run = [] ∨ ∀ content, nodes.head? ≠ some (.text content)) :
    (nodes.foldl add e).allChildren = nodes.reverse ++ e.allChildren := by
  induction nodes generalizing e with
  | nil => rfl
  | cons node nodes ih =>
    obtain ⟨hnext, hbeside⟩ := List.isChain_cons.mp h.beside
    obtain ⟨hfirst, hfilled⟩ := not_or.mp (mt List.mem_cons.mpr h.filled)
    have htail : AreChildren nodes := ⟨hbeside, hfilled⟩
    rw [List.foldl_cons, List.reverse_cons, List.append_assoc, List.singleton_append]
    cases node with
    | element name attributes children => exact ih htail (.inl rfl)
    | text content =>
      have hne : content ≠ [] := fun hnil => hfirst (hnil ▸ rfl)
      have hempty : e.run = [] := hrun.resolve_right (by simp)
      rw [ih htail (.inr fun _ hhead => hnext _ hhead)]
      simp [add, addText, allChildren, hempty, hne]

/-- An opened element to which nodes have been added is the element with these children. -/
theorem exists_foldl_add_opened {nodes : List Node} (h : AreChildren nodes) (scope : Scope)
    (name : Name) (attributes : List (Name × List Char)) :
    ∃ e : OpenElement, nodes.foldl add (opened scope name attributes) = e ∧
      e.tagName = name.localPart ∧ e.toNode = .element name attributes nodes := by
  have hchildren := allChildren_foldl_add h (e := opened scope name attributes) (.inl rfl)
  obtain ⟨children, run, hfold⟩ := foldl_add_eq (opened scope name attributes) nodes
  refine ⟨_, hfold, rfl, ?_⟩
  rw [hfold] at hchildren
  rw [toNode, hchildren]
  simp [opened, allChildren]

end OpenElement

/-- The text of an element with some content between its tags. -/
def enclose (name : Name) (attributes : List (Name × List Char)) (content : List Char) :
    List Char :=
  '<' :: (name.localPart ++ (writeAttributes attributes ++ (tagEnd false ++ (content ++
    '<' :: '/' :: (name.localPart ++ ['>'])))))

theorem enclose_append (name : Name) (attributes : List (Name × List Char))
    (content rest : List Char) :
    enclose name attributes content ++ rest =
      '<' :: (name.localPart ++ (writeAttributes attributes ++ (tagEnd false ++ (content ++
        '<' :: '/' :: (name.localPart ++ '>' :: rest))))) := by
  simp [enclose]

namespace Node

theorem writeAll_eq_flatMap (nodes : List Node) : writeAll nodes = nodes.flatMap write := by
  induction nodes with
  | nil => rfl
  | cons node nodes ih => rw [writeAll, ih, List.flatMap_cons]

variable {p : Char → Bool}

theorem Formed.write_ne_nil {node : Node} (h : node.Formed p) : node.write ≠ [] := by
  cases h with
  | element => exact List.cons_ne_nil _ _
  | @text content hne =>
    cases content with
    | nil => contradiction
    | cons c cs =>
      rw [write, encodeText, List.flatMap_cons]
      exact List.append_ne_nil_of_left_ne_nil (encodeTextChar_ne_nil c) _

/-- The text of nodes is empty only where there are none. -/
theorem isEmpty_writeAll {nodes : List Node} (h : ∀ node ∈ nodes, node.Formed p) :
    (writeAll nodes).isEmpty = nodes.isEmpty := by
  cases nodes with
  | nil => rfl
  | cons node nodes =>
    simp [writeAll, (h node List.mem_cons_self).write_ne_nil]

/-- The text of an element is a start tag and, unless that ends the element, content and an end
tag. -/
theorem write_element {children : List Node} (h : ∀ child ∈ children, child.Formed p) (name : Name)
    (attributes : List (Name × List Char)) :
    (element name attributes children).write =
      if children.isEmpty then
        '<' :: (name.localPart ++ (writeAttributes attributes ++ tagEnd true))
      else enclose name attributes (writeAll children) := by
  rw [write, writeElement, isEmpty_writeAll h]
  cases children <;> simp [tagEnd, writeAttributes, enclose]

end Node

/-- Reading a text in content adds nodes. -/
structure Gives (d : Declarations) (text : List Char) (nodes : List Node) : Prop where
  inert : ∀ {rest}, Inert rest → Inert (text ++ rest)
  leads : ∀ {e : OpenElement} (outer : List OpenElement) {rest : List Char},
    e.scope.space? [] = none → Inert rest →
      Leads d ⟨e, outer, [], text ++ rest⟩ ⟨nodes.foldl .add e, outer, [], rest⟩

namespace Gives

variable {d : Declarations}

theorem nil : Gives d [] [] := ⟨id, fun _ _ _ _ => .refl _⟩

theorem append {text text' : List Char} {nodes nodes' : List Node} (h : Gives d text nodes)
    (h' : Gives d text' nodes') : Gives d (text ++ text') (nodes ++ nodes') where
  inert hrest := by
    rw [List.append_assoc]
    exact h.inert (h'.inert hrest)
  leads {e} outer rest hscope hrest := by
    rw [List.append_assoc, List.foldl_append]
    exact (h.leads outer hscope (h'.inert hrest)).trans
      (h'.leads outer (by rw [OpenElement.scope_foldl_add, hscope]) hrest)

/-- The texts of nodes in order add the nodes in order. -/
theorem writeAll {nodes : List Node} (h : ∀ node ∈ nodes, Gives d node.write [node]) :
    Gives d (writeAll nodes) nodes := by
  induction nodes with
  | nil => exact nil
  | cons node nodes ih =>
    rw [List.forall_mem_cons] at h
    exact h.1.append (ih h.2)

/-- A text adds itself, if each of its characters is written so that it is read as itself. -/
theorem flatMap {write : Char → List Char} (h : Spells write) (content : List Char) :
    Gives d (content.flatMap write) [.text content] where
  inert hrest := h.inert_flatMap hrest content
  leads {e} outer rest hscope hrest := by
    show Leads d _ ⟨e.addText content, outer, [], rest⟩
    induction content generalizing e with
    | nil => exact .refl _
    | cons c cs ih =>
      rw [List.flatMap_cons, List.append_assoc, ← OpenElement.addText_addChar]
      have hpos := List.length_pos_iff.mpr (h.ne_nil c)
      refine .step (h.step outer (h.inert_flatMap hrest cs) c) ?_ (ih hscope)
      simp only [List.length_append]
      omega

/-- Content that adds nodes leads to the end tag of an element with these nodes as children. -/
theorem exists_leads {content : List Char} {children : List Node}
    (hcontent : Gives d content children) (hchildren : AreChildren children) {scope : Scope}
    (hscope : scope.space? [] = none) (name : Name) (attributes : List (Name × List Char))
    (outer : List OpenElement) (rest : List Char) :
    ∃ e : OpenElement, e.toNode = .element name attributes children ∧
      Leads d ⟨.opened scope name attributes, outer, [],
          content ++ '<' :: '/' :: (name.localPart ++ '>' :: rest)⟩
        ⟨e, outer, [], '<' :: '/' :: (e.tagName ++ '>' :: rest)⟩ := by
  obtain ⟨e, hfold, htag, hnode⟩ :=
    OpenElement.exists_foldl_add_opened hchildren scope name attributes
  refine ⟨e, hnode, ?_⟩
  have hleads := hcontent.leads (e := .opened scope name attributes) outer hscope
    (Inert.of_open ('/' :: (name.localPart ++ '>' :: rest)))
  rw [hfold] at hleads
  rw [htag]
  exact hleads

variable {name : Name} (hname : name.IsPlain) {attributes : List (Name × List Char)}
  (hattributes : AreAttributes attributes) (hrules : d.rules = [])
include hname hattributes hrules

/-- Content between the tags of an element adds the element with what the content adds. -/
theorem enclose {content : List Char} {children : List Node} (hcontent : Gives d content children)
    (hchildren : AreChildren children) :
    Gives d (enclose name attributes content) [.element name attributes children] where
  inert _ := trivial
  leads {e} outer rest hscope hrest := by
    show Leads d _ ⟨e.addChild (.element name attributes children), outer, [], rest⟩
    obtain ⟨closing, hnode, hleads⟩ :=
      hcontent.exists_leads hchildren hscope name attributes (e :: outer) rest
    rw [enclose_append]
    refine .step (ContentState.step?_tag outer _ hname hattributes hrules hscope false) ?_
      (hleads.trans (.single ?_ ?_))
    · simp only [List.length_cons, List.length_append]
      omega
    · rw [← hnode]
      exact ContentState.step?_endTag (e :: outer) rest
    · simp only [List.length_cons, List.length_append]
      omega

/-- A tag that ends its element adds the element without children. -/
theorem emptyTag :
    Gives d ('<' :: (name.localPart ++ (writeAttributes attributes ++ tagEnd true)))
      [.element name attributes []] where
  inert _ := trivial
  leads {e} outer rest hscope hrest := by
    show Leads d _ ⟨e.addChild (.element name attributes []), outer, [], rest⟩
    rw [List.cons_append, List.append_assoc, List.append_assoc]
    refine .single (ContentState.step?_tag outer rest hname hattributes hrules hscope true) ?_
    simp only [List.length_cons, List.length_append]
    omega

/-- An element adds itself if its content adds its children. -/
theorem element {p : Char → Bool} {children : List Node} (hbeside : children.IsChain Node.Beside)
    (hformed : ∀ child ∈ children, child.Formed p)
    (hcontent : Gives d (Xml.writeAll children) children) :
    Gives d (Node.element name attributes children).write
      [.element name attributes children] := by
  rw [Node.write_element hformed]
  cases children with
  | nil => exact emptyTag hname hattributes hrules
  | cons child children =>
    exact enclose hname hattributes hrules hcontent (areChildren_of_formed hbeside hformed)

end Gives

/-- Reading what a node is written as adds the node. -/
theorem Node.Formed.gives {p : Char → Bool} {d : Declarations} (hrules : d.rules = []) {node : Node}
    (h : node.Formed p) : Gives d node.write [node] := by
  induction h with
  | @text content =>
    rw [Node.write]
    exact .flatMap spells_encodeTextChar content
  | element hname hattributes hbeside hformed ih =>
    exact .element hname hattributes hrules hbeside hformed (.writeAll ih)

/-! ## Documents -/

/-- The root element is read from its tags and its content, and nothing is left. -/
theorem root?_enclose {name : Name} (hname : name.IsPlain) {attributes : List (Name × List Char)}
    (hattributes : AreAttributes attributes) {d : Declarations} (hrules : d.rules = [])
    {content : List Char} {children : List Node} (hcontent : Gives d content children)
    (hchildren : AreChildren children) {text : List Char}
    (htext : enclose name attributes content = '<' :: text) :
    root? d text = some (.element name attributes children, []) := by
  have hscope : Scope.initial.space? [] = none := by decide
  have htag := startTag?_write hname.isName
    (fun entry he => (hattributes.plain entry he).isName) false
    (content ++ '<' :: '/' :: (name.localPart ++ ['>']))
  have hopen := openElement?_write hrules hscope hname hattributes false
  obtain ⟨closing, hnode, hleads⟩ := hcontent.exists_leads hchildren hscope name attributes [] []
  rw [enclose, List.cons_inj_right] at htext
  subst htext
  simp only [root?, htag, hopen, Option.bind_eq_bind, Option.bind_some]
  rw [if_neg (by decide), ← hnode]
  exact hleads.content?_eq (d.length_lt_reach _) (ContentState.step?_endTag [] [])

/-- The root element is read from its text, and nothing is left. -/
theorem root?_write {p : Char → Bool} {name : Name} {attributes : List (Name × List Char)}
    {children : List Node} (h : (Node.element name attributes children).Formed p)
    {d : Declarations} (hrules : d.rules = []) {text : List Char}
    (htext : (Node.element name attributes children).write = '<' :: text) :
    root? d text = some (.element name attributes children, []) := by
  obtain ⟨⟩ | ⟨hname, hattributes, hbeside, hformed⟩ := h
  rw [Node.write_element hformed] at htext
  cases children with
  | nil =>
    have htag := startTag?_write hname.isName
      (fun entry he => (hattributes.plain entry he).isName) true []
    have hopen := openElement?_write hrules (by decide : Scope.initial.space? [] = none) hname
      hattributes true
    rw [List.append_nil] at htag
    rw [List.isEmpty_nil, if_pos rfl, List.cons_inj_right] at htext
    subst htext
    simp only [root?, htag, hopen, Option.bind_eq_bind, Option.bind_some]
    rfl
  | cons child children =>
    exact root?_enclose hname hattributes hrules
      (.writeAll fun child hchild => (hformed child hchild).gives hrules)
      (areChildren_of_formed hbeside hformed) htext

/-- A document whose first tag is a start tag declares nothing. -/
theorem opening?_write {c : Char} (h : isNameStart c = true) (rest : List Char) :
    opening? ('<' :: c :: rest) = some ({}, '<' :: c :: rest) := by
  have hquery : '?' ≠ c := (ne_of_isNameStart h (by decide)).symm
  simp [opening?, after?, hquery]

theorem prolog?_write {c : Char} (h : isNameStart c = true) (fuel : Nat) (d : Declarations)
    (rest : List Char) : prolog? (fuel + 1) false d ('<' :: c :: rest) = some (d, c :: rest) := by
  have hquery : c ≠ '?' := ne_of_isNameStart h (by decide)
  have hbang : c ≠ '!' := ne_of_isNameStart h (by decide)
  rw [prolog?, skipSpace_cons (by decide)]
  simp [hquery, hbang]

theorem all_encodeTextChar {c : Char} (h : isPlain c = true) :
    (encodeTextChar c).all isPlain = true := by
  unfold encodeTextChar
  split_ifs
  any_goals decide
  simpa using h

theorem all_encodeValueChar {c : Char} (h : isLegal c = true) :
    (encodeValueChar c).all isPlain = true := by
  unfold encodeValueChar
  split_ifs with hquot hcr
  any_goals decide
  exact all_encodeTextChar (by simp [isPlain, h, hcr])

theorem all_encodeText {cs : List Char} (h : ∀ c ∈ cs, isPlain c = true) :
    (encodeText cs).all isPlain = true := by
  rw [encodeText, List.all_flatMap, List.all_eq_true]
  exact fun c hc => all_encodeTextChar (h c hc)

theorem all_encodeValue {cs : List Char} (h : ∀ c ∈ cs, isLegal c = true) :
    (encodeValue cs).all isPlain = true := by
  rw [encodeValue, List.all_flatMap, List.all_eq_true]
  exact fun c hc => all_encodeValueChar (h c hc)

theorem Name.IsPlain.all_localPart {name : Name} (h : name.IsPlain) :
    name.localPart.all isPlain = true := by
  rw [List.all_eq_true]
  intro c hc
  have hbreak : c ≠ '\r' := by
    rintro rfl
    exact not_mem_of_isName h.isName (by decide) hc
  simp [isPlain, isLegal_of_isNameChar (isNameChar_of_isName h.isName c hc), hbreak]

theorem AreAttributes.all_write {attributes : List (Name × List Char)}
    (h : AreAttributes attributes) : (writeAttributes attributes).all isPlain = true := by
  rw [writeAttributes, List.all_flatMap, List.all_eq_true]
  intro entry he
  have hname := (h.plain entry he).all_localPart
  have hvalue := all_encodeValue (h.legal entry he)
  simp only [writeAttribute, List.cons_append, List.all_cons, List.all_append, hname, hvalue]
  decide

theorem all_tagEnd (isEmpty : Bool) : (tagEnd isEmpty).all isPlain = true := by
  cases isEmpty <;> decide

/-- The tags of an element add nothing but plain characters to its content. -/
theorem all_enclose {name : Name} (hname : name.IsPlain) {attributes : List (Name × List Char)}
    (hattributes : AreAttributes attributes) {content : List Char}
    (h : content.all isPlain = true) : (enclose name attributes content).all isPlain = true := by
  simp only [enclose, List.all_cons, List.all_append, hname.all_localPart, hattributes.all_write,
    all_tagEnd, h]
  decide

/-- A tree of plain texts is written in plain characters. -/
theorem Node.Regular.all_write {node : Node} (h : node.Regular) :
    node.write.all isPlain = true := by
  induction h with
  | text _ hplain => exact all_encodeText hplain
  | @element name attributes children hname hattributes hbeside hregular ih =>
    have hchildren : (writeAll children).all isPlain = true := by
      rw [writeAll_eq_flatMap, List.all_flatMap, List.all_eq_true]
      exact ih
    rw [write_element hregular]
    split
    · simp only [List.all_cons, List.all_append, hname.all_localPart, hattributes.all_write,
        all_tagEnd]
      decide
    · exact all_enclose hname hattributes hchildren

/-- A document of plain characters that begins with its root is read as the root is. -/
theorem read?_of_root? {c : Char} (hc : isNameStart c = true) {text : List Char}
    (h : ('<' :: c :: text).all isPlain = true) {root : Node}
    (hroot : root? {} (c :: text) = some (root, [])) : read? ('<' :: c :: text) = some root := by
  rw [List.all_eq_true] at h
  have hlegal : ('<' :: c :: text).all isLegal = true := by
    rw [List.all_eq_true]
    exact fun d hd => (Bool.and_eq_true_iff.mp (h d hd)).1
  have hbreaks : '\r' ∉ '<' :: c :: text := fun hd => absurd (h _ hd) (by decide)
  have hmark : skipMark ('<' :: c :: text) = '<' :: c :: text := rfl
  rw [read?, hmark, Text.unifyBreaks_eq_self_iff.mpr hbreaks]
  simp [hlegal, opening?_write hc, prolog?_write hc, hroot, isEpilog, skipSpace]

/-- An element is read from its tags and its content. -/
theorem read?_enclose {name : Name} (hname : name.IsPlain) {attributes : List (Name × List Char)}
    (hattributes : AreAttributes attributes) {content : List Char} {children : List Node}
    (hcontent : Gives {} content children) (hchildren : AreChildren children)
    (hplain : content.all isPlain = true) :
    read? (enclose name attributes content) = some (.element name attributes children) := by
  obtain ⟨c, more, hlocal, hc⟩ := exists_of_isName hname.isName
  obtain ⟨text, htext⟩ : ∃ text, enclose name attributes content = '<' :: c :: text := by
    rw [enclose, hlocal]
    exact ⟨_, rfl⟩
  have hall := all_enclose hname hattributes hplain
  have hroot := root?_enclose hname hattributes rfl hcontent hchildren htext
  rw [htext] at hall ⊢
  exact read?_of_root? hc hall hroot

/-- An element is read back from its text. -/
theorem read?_write {name : Name} {attributes : List (Name × List Char)} {children : List Node}
    (h : (Node.element name attributes children).Regular) :
    read? (Node.element name attributes children).write =
      some (.element name attributes children) := by
  obtain ⟨c, more, hname, hc⟩ : ∃ c more, name.localPart = c :: more ∧ isNameStart c = true := by
    obtain ⟨⟩ | ⟨hname, -, -, -⟩ := h
    exact exists_of_isName hname.isName
  obtain ⟨text, htext⟩ :
      ∃ text, (Node.element name attributes children).write = '<' :: c :: text := by
    rw [Node.write, writeElement, hname]
    exact ⟨_, rfl⟩
  have hall := h.all_write
  have hroot := root?_write h (d := {}) rfl htext
  rw [htext] at hall ⊢
  exact read?_of_root? hc hall hroot

end WireAgent.Xml
