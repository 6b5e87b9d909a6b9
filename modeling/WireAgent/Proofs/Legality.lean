import Mathlib.Data.List.TakeDrop
import Mathlib.Data.List.TakeWhile
import Mathlib.Tactic.SplitIfs
import WireAgent.Proofs.Breaks
import WireAgent.Xml.Reader

/-!
# The characters that are read

A document holds legal characters only, and so does every text that is read from it
(`Node.isLegal_of_read?`): it is made of characters that stand in the document, of those that
references name, and of those that entities stand for. Each reader of a part keeps what is left
legal, and the entities that are declared are legal because their literals are.
-/

namespace WireAgent.Xml

/-- Does a text hold characters of documents only? -/
def AreLegal (cs : List Char) : Prop := ∀ c ∈ cs, isLegal c = true

instance (cs : List Char) : Decidable (AreLegal cs) :=
  List.decidableBAll (fun c => isLegal c = true) cs

/-! ## Cutting a text up -/

namespace AreLegal

variable {c : Char} {cs ds : List Char}

theorem nil : AreLegal [] := List.forall_mem_nil _

theorem cons_iff : AreLegal (c :: cs) ↔ isLegal c = true ∧ AreLegal cs := List.forall_mem_cons

theorem append_iff : AreLegal (cs ++ ds) ↔ AreLegal cs ∧ AreLegal ds := List.forall_mem_append

theorem reverse_iff : AreLegal cs.reverse ↔ AreLegal cs := by simp [AreLegal]

theorem tail (h : AreLegal (c :: cs)) : AreLegal cs := (cons_iff.mp h).2

theorem of_skipSpace (h : AreLegal cs) (heq : skipSpace cs = ds) : AreLegal ds :=
  fun _ hc => h _ ((List.dropWhile_sublist _).subset (heq ▸ hc))

theorem of_span (h : AreLegal cs) {p : Char → Bool} {row rest : List Char}
    (heq : cs.span p = (row, rest)) : AreLegal row ∧ AreLegal rest := by
  rw [List.span_eq_takeWhile_dropWhile, Prod.mk.injEq] at heq
  obtain ⟨rfl, rfl⟩ := heq
  rw [← append_iff, List.takeWhile_append_dropWhile]
  exact h

theorem of_after? (h : AreLegal cs) {mark rest : List Char} (heq : after? mark cs = some rest) :
    AreLegal rest := by
  induction mark generalizing cs with
  | nil =>
    cases heq
    exact h
  | cons a mark ih =>
    cases cs with
    | nil => cases heq
    | cons c cs =>
      rw [after?, Option.ite_none_right_eq_some] at heq
      exact ih h.tail heq.2

theorem of_until? (h : AreLegal cs) {mark before rest : List Char}
    (heq : until? mark cs = some (before, rest)) : AreLegal before ∧ AreLegal rest := by
  induction cs generalizing before with
  | nil =>
    obtain ⟨rest', hafter, heq⟩ := Option.map_eq_some_iff.mp heq
    cases heq
    exact ⟨nil, h.of_after? hafter⟩
  | cons c cs ih =>
    rw [until?] at heq
    split at heq
    · next hafter =>
      cases heq
      exact ⟨nil, h.of_after? hafter⟩
    · obtain ⟨⟨before', rest'⟩, huntil, heq⟩ := Option.map_eq_some_iff.mp heq
      cases heq
      obtain ⟨hbefore, hrest⟩ := ih h.tail huntil
      exact ⟨cons_iff.mpr ⟨(cons_iff.mp h).1, hbefore⟩, hrest⟩

theorem of_name? (h : AreLegal cs) {name rest : List Char} (heq : name? cs = some (name, rest)) :
    AreLegal name ∧ AreLegal rest := by
  cases cs with
  | nil => cases heq
  | cons c cs =>
    rw [name?, Option.ite_none_right_eq_some] at heq
    obtain ⟨-, heq⟩ := heq
    cases heq
    obtain ⟨hmore, hleft⟩ := h.tail.of_span rfl
    exact ⟨cons_iff.mpr ⟨(cons_iff.mp h).1, hmore⟩, hleft⟩

theorem of_qualifiedName? (h : AreLegal cs) {name rest : List Char}
    (heq : qualifiedName? cs = some (name, rest)) : AreLegal rest := by
  simp only [qualifiedName?, Option.bind_eq_bind, Option.bind_eq_some_iff] at heq
  obtain ⟨⟨first, left⟩, hfirst, heq⟩ := heq
  have hleft := (h.of_name? hfirst).2
  dsimp only at heq
  split at heq
  · obtain ⟨⟨second, last⟩, hsecond, heq⟩ := Option.bind_eq_some_iff.mp heq
    cases heq
    exact (hleft.tail.of_name? hsecond).2
  · cases heq
    exact hleft

theorem of_quoted? (h : AreLegal cs) {value rest : List Char}
    (heq : quoted? cs = some (value, rest)) : AreLegal rest := by
  unfold quoted? at heq
  split at heq
  · exact (h.tail.of_until? heq).2
  · exact (h.tail.of_until? heq).2
  · cases heq

theorem of_skipComment? (h : AreLegal cs) {rest : List Char} (heq : skipComment? cs = some rest) :
    AreLegal rest := by
  obtain ⟨⟨before, left⟩, huntil, hafter⟩ := Option.bind_eq_some_iff.mp heq
  exact (h.of_until? huntil).2.of_after? hafter

theorem of_skipInstruction? (h : AreLegal cs) {rest : List Char}
    (heq : skipInstruction? cs = some rest) : AreLegal rest := by
  obtain ⟨⟨target, left⟩, hname, heq⟩ := Option.bind_eq_some_iff.mp heq
  have hleft := (h.of_name? hname).2
  rw [Option.ite_none_left_eq_some] at heq
  obtain ⟨-, heq⟩ := heq
  split at heq
  · exact hleft.tail.of_after? heq
  · rw [Option.ite_none_right_eq_some] at heq
    obtain ⟨⟨before, last⟩, huntil, rfl⟩ := Option.map_eq_some_iff.mp heq.2
    exact (hleft.tail.of_until? huntil).2
  · cases heq

end AreLegal

/-! ## References -/

/-- What a reference may name: a legal character, or an entity by a name of legal characters. -/
def Reference.IsLegal : Reference → Prop
  | .character c => isLegal c = true
  | .entity name => AreLegal name

theorem isLegal_of_character? {code : Nat} {c : Char} (h : character? code = some c) :
    isLegal c = true := by
  rw [character?, Option.ite_none_right_eq_some] at h
  obtain ⟨⟨-, hlegal⟩, heq⟩ := h
  rwa [← Option.some.inj heq]

theorem isLegal_of_knownEntity? {name : List Char} {c : Char} (h : knownEntity? name = some c) :
    isLegal c = true := by
  unfold knownEntity? at h
  split_ifs at h
  all_goals
    cases h
    decide

theorem AreLegal.of_reference? {cs rest : List Char} {r : Reference} (h : AreLegal cs)
    (heq : reference? cs = some (r, rest)) : r.IsLegal ∧ AreLegal rest := by
  unfold reference? at heq
  split at heq
  · obtain ⟨⟨digits, left⟩, huntil, heq⟩ := Option.bind_eq_some_iff.mp heq
    obtain ⟨n, -, heq⟩ := Option.bind_eq_some_iff.mp heq
    obtain ⟨c, hc, heq⟩ := Option.bind_eq_some_iff.mp heq
    cases heq
    exact ⟨isLegal_of_character? hc, (h.tail.tail.of_until? huntil).2⟩
  · obtain ⟨⟨digits, left⟩, huntil, heq⟩ := Option.bind_eq_some_iff.mp heq
    obtain ⟨n, -, heq⟩ := Option.bind_eq_some_iff.mp heq
    obtain ⟨c, hc, heq⟩ := Option.bind_eq_some_iff.mp heq
    cases heq
    exact ⟨isLegal_of_character? hc, (h.tail.of_until? huntil).2⟩
  · obtain ⟨⟨name, left⟩, hname, heq⟩ := Option.bind_eq_some_iff.mp heq
    obtain ⟨last, hafter, heq⟩ := Option.bind_eq_some_iff.mp heq
    cases heq
    obtain ⟨hlegal, hleft⟩ := h.of_name? hname
    exact ⟨hlegal, hleft.of_after? hafter⟩


/-! ## Declarations -/

/-- Does a lexeme hold legal characters, if it is a literal? -/
def Lexeme.IsLegal : Lexeme → Prop
  | .literal text => AreLegal text
  | _ => True

theorem AreLegal.of_nameLexeme? {cs rest : List Char} {lexeme : Lexeme} (h : AreLegal cs)
    (heq : nameLexeme? cs = some (lexeme, rest)) : lexeme.IsLegal ∧ AreLegal rest := by
  have hleft : AreLegal (nameRow cs).2 := (h.of_span rfl).2
  rw [nameLexeme?] at heq
  dsimp only at heq
  split at heq
  · next c left hrow =>
    rw [hrow] at hleft
    split_ifs at heq
    · cases heq
      exact ⟨trivial, hleft.tail⟩
    · cases heq
      exact ⟨trivial, hrow ▸ hleft⟩
    · cases heq
      exact ⟨trivial, hrow ▸ hleft⟩
  · cases heq

theorem AreLegal.of_lexeme? {cs rest : List Char} {lexeme : Lexeme} (h : AreLegal cs)
    (heq : lexeme? cs = some (lexeme, rest)) : lexeme.IsLegal ∧ AreLegal rest := by
  unfold lexeme? at heq
  split at heq
  · cases heq
  · rw [Option.ite_none_right_eq_some] at heq
    cases heq.2
    exact ⟨trivial, h.tail⟩
  · cases heq
    exact ⟨trivial, h.tail⟩
  · cases heq
    exact ⟨trivial, h.tail⟩
  · cases heq
    exact ⟨trivial, h.tail⟩
  · split_ifs at heq
    · cases heq
      exact ⟨trivial, h.tail.tail⟩
    · cases heq
      exact ⟨trivial, h.tail⟩
  · obtain ⟨⟨name, left⟩, hname, heq⟩ := Option.bind_eq_some_iff.mp heq
    rw [Option.ite_none_right_eq_some] at heq
    cases heq.2
    exact ⟨trivial, (h.tail.of_name? hname).2⟩
  · split_ifs at heq
    · obtain ⟨⟨text, left⟩, huntil, heq⟩ := Option.bind_eq_some_iff.mp heq
      rw [Option.ite_none_right_eq_some] at heq
      cases heq.2
      exact h.tail.of_until? huntil
    · exact h.of_nameLexeme? heq

theorem AreLegal.of_lexemes? {fuel : Nat} {cs rest : List Char} {form : List Lexeme} {mark : Char}
    (h : AreLegal cs) (heq : lexemes? fuel cs = some (form, mark, rest)) :
    (∀ lexeme ∈ form, lexeme.IsLegal) ∧ AreLegal rest := by
  induction fuel generalizing cs form with
  | zero => cases heq
  | succ fuel ih =>
    rw [lexemes?] at heq
    split at heq
    · next hskip =>
      cases heq
      exact ⟨List.forall_mem_nil _, (h.of_skipSpace hskip).tail⟩
    · next hskip =>
      cases heq
      exact ⟨List.forall_mem_nil _, (h.of_skipSpace hskip).tail⟩
    · obtain ⟨⟨lexeme, left⟩, hlexeme, heq⟩ := Option.bind_eq_some_iff.mp heq
      obtain ⟨⟨more, mark', last⟩, hmore, heq⟩ := Option.bind_eq_some_iff.mp heq
      cases heq
      obtain ⟨hfirst, hleft⟩ := (h.of_skipSpace rfl).of_lexeme? hlexeme
      obtain ⟨hrest, hlast⟩ := ih hleft hmore
      exact ⟨List.forall_mem_cons.mpr ⟨hfirst, hrest⟩, hlast⟩

/-- A replacement holds what stands in the literal and what its references name. -/
theorem AreLegal.of_replacement? {fuel : Nat} {cs ds : List Char} (h : AreLegal cs)
    (heq : replacement? fuel cs = some ds) : AreLegal ds := by
  induction fuel generalizing cs ds with
  | zero => cases heq
  | succ fuel ih =>
    unfold replacement? at heq
    split at heq
    · contradiction
    · cases heq
      exact nil
    · next fuel' rest hfuel =>
      cases hfuel
      obtain ⟨⟨reference, left⟩, hreference, heq⟩ := Option.bind_eq_some_iff.mp heq
      obtain ⟨hlegal, hleft⟩ := h.tail.of_reference? hreference
      split at heq
      · next c last hpair =>
        obtain ⟨rfl, rfl⟩ := Prod.mk.inj hpair
        obtain ⟨more, hmore, heq⟩ := Option.bind_eq_some_iff.mp heq
        cases heq
        exact cons_iff.mpr ⟨hlegal, ih hleft hmore⟩
      · next name last hpair =>
        obtain ⟨rfl, rfl⟩ := Prod.mk.inj hpair
        obtain ⟨more, hmore, heq⟩ := Option.bind_eq_some_iff.mp heq
        cases heq
        rw [List.cons_append, cons_iff, append_iff, cons_iff]
        exact ⟨by decide, hlegal, by decide, ih hleft hmore⟩
    · next fuel' c rest hfuel =>
      cases hfuel
      rw [Option.ite_none_left_eq_some] at heq
      obtain ⟨more, hmore, heq⟩ := Option.bind_eq_some_iff.mp heq.2
      cases heq
      exact cons_iff.mpr ⟨(cons_iff.mp h).1, ih h.tail hmore⟩

theorem AreLegal.unifyBreaks {cs : List Char} (h : AreLegal cs) :
    AreLegal (Text.unifyBreaks cs) := by
  intro c hc
  obtain ⟨-, hc | rfl⟩ := Text.mem_unifyBreaks hc
  · exact h c hc
  · decide

/-- Do the entities that are declared stand for legal characters? -/
def Declarations.AreLegal (d : Declarations) : Prop :=
  ∀ entry ∈ d.entities, ∀ text, entry.2 = .internal text → Xml.AreLegal text

namespace Declarations

variable {d : Declarations}

theorem areLegal_of_entities_nil (h : d.entities = []) : d.AreLegal := by
  simp [Declarations.AreLegal, h]

theorem AreLegal.of_entity? (h : d.AreLegal) {name text : List Char}
    (heq : d.entity? name = some (.internal text)) : Xml.AreLegal text := by
  obtain ⟨entry, hentry, heq⟩ := Option.map_eq_some_iff.mp heq
  exact h entry (List.mem_of_find?_eq_some hentry) text heq

theorem AreLegal.addEntity (h : d.AreLegal) {name : List Char} {entity : Entity}
    (hentity : ∀ text, entity = .internal text → Xml.AreLegal text) :
    (d.addEntity name entity).AreLegal := by
  unfold Declarations.addEntity
  split
  · exact h
  · simp only [Declarations.AreLegal, List.forall_mem_append, List.forall_mem_singleton]
    exact ⟨h, hentity⟩

theorem entities_addRule (d : Declarations) (rule : AttributeRule) :
    (d.addRule rule).entities = d.entities := by
  unfold addRule
  split <;> rfl

theorem entities_foldl_addRule (rules : List AttributeRule) (d : Declarations) :
    (rules.foldl addRule d).entities = d.entities := by
  induction rules generalizing d with
  | nil => rfl
  | cons rule rules ih => exact (ih (d.addRule rule)).trans (d.entities_addRule rule)

end Declarations

theorem AreLegal.of_entityText? {literal text : List Char} (h : AreLegal literal)
    (heq : entityText? literal = some text) : AreLegal text :=
  h.of_replacement? heq

namespace Declarations.AreLegal

variable {d e : Declarations} (h : d.AreLegal) {skipped : Bool} {form : List Lexeme}
include h

theorem of_entityDeclaration? (hform : ∀ lexeme ∈ form, lexeme.IsLegal)
    (heq : entityDeclaration? d skipped form = some e) : e.AreLegal := by
  have hexternal (name : List Char) :
      (if d.listens skipped then d.addEntity name .external else d).AreLegal := by
    split
    · exact h.addEntity (by simp)
    · exact h
  unfold entityDeclaration? at heq
  split at heq
  · -- A parameter entity is checked and dropped.
    split at heq
    · split_ifs at heq
      · obtain ⟨text, -, rfl⟩ := Option.map_eq_some_iff.mp heq
        exact h
      · cases heq
        exact h
    · split at heq
      · cases heq
        exact h
      · cases heq
  · next name form =>
    split at heq
    · next literal =>
      split_ifs at heq
      · obtain ⟨text, htext, rfl⟩ := Option.map_eq_some_iff.mp heq
        have hliteral : Xml.AreLegal literal := hform (.literal literal) (by simp)
        refine h.addEntity fun other hother => ?_
        cases hother
        exact hliteral.of_entityText? htext
      · cases heq
        exact h
    · split at heq
      · cases heq
        exact hexternal name
      · rw [Option.ite_none_right_eq_some] at heq
        cases heq.2
        exact hexternal name
      · cases heq
  · cases heq

theorem of_attributeDeclaration? (heq : attributeDeclaration? d skipped form = some e) :
    e.AreLegal := by
  unfold attributeDeclaration? at heq
  split at heq
  · obtain ⟨rules, -, heq⟩ := Option.bind_eq_some_iff.mp heq
    split_ifs at heq
    · obtain ⟨expanded, -, heq⟩ := Option.bind_eq_some_iff.mp heq
      cases heq
      rw [Declarations.AreLegal, entities_foldl_addRule]
      exact h
    · cases heq
      exact h
  · cases heq

theorem of_declaration? {word : List Char} (hform : ∀ lexeme ∈ form, lexeme.IsLegal)
    (heq : declaration? d skipped word form = some e) : e.AreLegal := by
  unfold declaration? at heq
  split_ifs at heq
  · exact h.of_entityDeclaration? hform heq
  · exact h.of_attributeDeclaration? heq
  · cases heq
    exact h
  · cases heq
    exact h

omit h in
/-- The declarations in brackets keep what is declared legal. -/
theorem of_subset? {fuel : Nat} {cs rest : List Char} (h : d.AreLegal) (hcs : Xml.AreLegal cs)
    (heq : subset? fuel d skipped cs = some (e, rest)) : e.AreLegal ∧ Xml.AreLegal rest := by
  induction fuel generalizing d skipped cs with
  | zero => cases heq
  | succ fuel ih =>
    rw [subset?] at heq
    split at heq
    · next hskip =>
      cases heq
      exact ⟨h, (hcs.of_skipSpace hskip).tail⟩
    · next hskip =>
      obtain ⟨⟨name, left⟩, hname, heq⟩ := Option.bind_eq_some_iff.mp heq
      obtain ⟨last, hafter, heq⟩ := Option.bind_eq_some_iff.mp heq
      have hleft := ((hcs.of_skipSpace hskip).tail.of_name? hname).2
      have hhidden : { d with hidden := true }.AreLegal := h
      exact ih hhidden (hleft.of_after? hafter) heq
    · next hskip =>
      obtain ⟨left, hleft, heq⟩ := Option.bind_eq_some_iff.mp heq
      exact ih h ((hcs.of_skipSpace hskip).tail.tail.of_skipInstruction? hleft) heq
    · next hskip =>
      obtain ⟨left, hleft, heq⟩ := Option.bind_eq_some_iff.mp heq
      exact ih h ((hcs.of_skipSpace hskip).tail.tail.tail.tail.of_skipComment? hleft) heq
    · next inner _ hskip =>
      have hinner := ((hcs.of_skipSpace hskip).tail.tail.of_span
        (p := fun c => c.isAlpha || c = '_') rfl).2
      dsimp only at heq
      rw [Option.ite_none_left_eq_some] at heq
      obtain ⟨⟨form, mark, left⟩, hform, heq⟩ := Option.bind_eq_some_iff.mp heq.2
      obtain ⟨hlegal, hleft⟩ := AreLegal.of_lexemes? hinner hform
      split at heq
      · next hparts =>
        cases hparts
        obtain ⟨declared, hdeclared, heq⟩ := Option.bind_eq_some_iff.mp heq
        exact ih (h.of_declaration? hlegal hdeclared) hleft heq
      · cases heq
    · cases heq

theorem of_doctype? {cs rest : List Char} (hcs : Xml.AreLegal cs)
    (heq : doctype? d cs = some (e, rest)) : e.AreLegal ∧ Xml.AreLegal rest := by
  rw [doctype?, Option.ite_none_left_eq_some] at heq
  obtain ⟨⟨form, mark, left⟩, hform, heq⟩ := Option.bind_eq_some_iff.mp heq.2
  have hleft := (hcs.of_lexemes? hform).2
  -- What follows the name and the place is the end or declarations in brackets.
  have hending {declared : Declarations} (hdeclared : declared.AreLegal)
      (heq : (if mark = '>' then some (declared, left)
        else (subset? (left.length + 1) declared false left).bind fun inner =>
          (after? ['>'] (skipSpace inner.2)).bind fun rest => some (inner.1, rest)) =
        some (e, rest)) : e.AreLegal ∧ Xml.AreLegal rest := by
    split_ifs at heq
    · cases heq
      exact ⟨hdeclared, hleft⟩
    · obtain ⟨⟨final, last⟩, hfinal, heq⟩ := Option.bind_eq_some_iff.mp heq
      obtain ⟨behind, hafter, heq⟩ := Option.bind_eq_some_iff.mp heq
      cases heq
      obtain ⟨hsubset, hlast⟩ := hdeclared.of_subset? hleft hfinal
      exact ⟨hsubset, (hlast.of_skipSpace rfl).of_after? hafter⟩
  dsimp only at heq
  split at heq
  · next hparts =>
    cases hparts
    split at heq
    · exact hending h heq
    · split at heq
      · have hhidden : { d with hidden := true }.AreLegal := h
        exact hending hhidden heq
      · cases heq
  · cases heq

end Declarations.AreLegal

/-! ## Content -/

/-- Does every text of a tree hold legal characters? -/
inductive Node.IsLegal : Node → Prop
  | text {content : List Char} : AreLegal content → IsLegal (.text content)
  | element {name : Name} {attributes : List (Name × List Char)} {children : List Node} :
      (∀ child ∈ children, IsLegal child) → IsLegal (.element name attributes children)

/-- An element whose texts so far hold legal characters. -/
structure OpenElement.IsLegal (e : OpenElement) : Prop where
  children : ∀ child ∈ e.children, child.IsLegal
  run : AreLegal e.run

namespace OpenElement.IsLegal

variable {e : OpenElement} (h : e.IsLegal)
include h

theorem allChildren : ∀ child ∈ e.allChildren, child.IsLegal := by
  unfold OpenElement.allChildren
  split
  · exact h.children
  · exact List.forall_mem_cons.mpr ⟨.text (AreLegal.reverse_iff.mpr h.run), h.children⟩

theorem toNode : e.toNode.IsLegal :=
  .element fun child hchild => h.allChildren child (List.mem_reverse.mp hchild)

theorem addText {cs : List Char} (hcs : AreLegal cs) : (e.addText cs).IsLegal where
  children := h.children
  run := AreLegal.append_iff.mpr ⟨AreLegal.reverse_iff.mpr hcs, h.run⟩

theorem addChar {c : Char} (hc : isLegal c = true) : (e.addChar c).IsLegal where
  children := h.children
  run := AreLegal.cons_iff.mpr ⟨hc, h.run⟩

theorem addChild {node : Node} (hnode : node.IsLegal) : (e.addChild node).IsLegal where
  children := List.forall_mem_cons.mpr ⟨hnode, h.allChildren⟩
  run := .nil

end OpenElement.IsLegal

/-- A tag opens an element without content. -/
theorem isLegal_of_openElement? {d : Declarations} {outer : Scope} {tag : StartTag}
    {e : OpenElement} (h : openElement? d outer tag = some e) : e.IsLegal := by
  rw [openElement?, Option.ite_none_left_eq_some] at h
  obtain ⟨attributes, -, h⟩ := Option.bind_eq_some_iff.mp h.2
  obtain ⟨scope, -, h⟩ := Option.bind_eq_some_iff.mp h
  obtain ⟨name, -, h⟩ := Option.bind_eq_some_iff.mp h
  obtain ⟨named, -, h⟩ := Option.bind_eq_some_iff.mp h
  rw [Option.ite_none_right_eq_some] at h
  cases h.2
  exact ⟨List.forall_mem_nil _, .nil⟩

theorem AreLegal.of_tagAttributes? {fuel : Nat} {cs rest : List Char}
    {attributes : List (List Char × List Char)} {isEmpty : Bool} (h : AreLegal cs)
    (heq : tagAttributes? fuel cs = some (attributes, isEmpty, rest)) : AreLegal rest := by
  have hend {inner : List Char} (h : AreLegal ('/' :: inner))
      {attributes : List (List Char × List Char)} {isEmpty : Bool}
      (heq : ((after? ['>'] inner).map fun rest => ([], true, rest)) =
        some (attributes, isEmpty, rest)) : AreLegal rest := by
    obtain ⟨left, hafter, heq⟩ := Option.map_eq_some_iff.mp heq
    cases heq
    exact h.tail.of_after? hafter
  induction fuel generalizing cs attributes with
  | zero => cases heq
  | succ fuel ih =>
    unfold tagAttributes? at heq
    split at heq
    · contradiction
    · cases heq
      exact h.tail
    · exact hend h heq
    · next fuel' c inner _ _ hfuel =>
      cases hfuel
      rw [Option.ite_none_left_eq_some] at heq
      have hinner : AreLegal (skipSpace inner) := h.tail.of_skipSpace rfl
      obtain ⟨-, heq⟩ := heq
      split at heq
      · next hskip =>
        cases heq
        rw [hskip] at hinner
        exact hinner.tail
      · next hskip =>
        rw [hskip] at hinner
        exact hend hinner heq
      · obtain ⟨⟨name, left⟩, hname, heq⟩ := Option.bind_eq_some_iff.mp heq
        obtain ⟨behind, hafter, heq⟩ := Option.bind_eq_some_iff.mp heq
        obtain ⟨⟨literal, last⟩, hliteral, heq⟩ := Option.bind_eq_some_iff.mp heq
        obtain ⟨⟨more, isEmpty', final⟩, hmore, heq⟩ := Option.bind_eq_some_iff.mp heq
        cases heq
        have hleft := (hinner.of_qualifiedName? hname).of_skipSpace rfl
        exact ih (((hleft.of_after? hafter).of_skipSpace rfl).of_quoted? hliteral) hmore
    · cases heq

theorem AreLegal.of_startTag? {cs rest : List Char} {tag : StartTag} (h : AreLegal cs)
    (heq : startTag? cs = some (tag, rest)) : AreLegal rest := by
  obtain ⟨⟨name, left⟩, hname, heq⟩ := Option.bind_eq_some_iff.mp heq
  obtain ⟨⟨attributes, isEmpty, last⟩, hattributes, heq⟩ := Option.bind_eq_some_iff.mp heq
  cases heq
  exact (h.of_qualifiedName? hname).of_tagAttributes? hattributes

theorem AreLegal.of_skipEndTag? {name cs rest : List Char} (h : AreLegal cs)
    (heq : skipEndTag? name cs = some rest) : AreLegal rest := by
  obtain ⟨left, hafter, heq⟩ := Option.bind_eq_some_iff.mp heq
  exact ((h.of_after? hafter).of_skipSpace rfl).of_after? heq

/-- All that has been read, and all that is still to be read, is legal. -/
structure ContentState.IsLegal (s : ContentState) : Prop where
  element : s.element.IsLegal
  outer : ∀ e ∈ s.outer, e.IsLegal
  replaced : ∀ entry ∈ s.replaced, AreLegal entry.rest
  text : AreLegal s.text

/-- What a step leads to is legal. -/
def ContentStep.IsLegal : ContentStep → Prop
  | .more s => s.IsLegal
  | .done root _ => root.IsLegal

namespace ContentState.IsLegal

variable {d : Declarations} {s : ContentState} (h : s.IsLegal) {rest : List Char}
  {next : ContentStep}
include h

theorem goOn (hrest : AreLegal rest) : IsLegal { s with text := rest } :=
  ⟨h.element, h.outer, h.replaced, hrest⟩

theorem takeChar {c : Char} (hc : isLegal c = true) (hrest : AreLegal rest) :
    (s.takeChar c rest).IsLegal :=
  ⟨h.element.addChar hc, h.outer, h.replaced, hrest⟩

theorem of_close? (hrest : AreLegal rest) (heq : s.close? rest = some next) : next.IsLegal := by
  rw [ContentState.close?, Option.ite_none_left_eq_some] at heq
  obtain ⟨-, heq⟩ := heq
  split at heq
  · cases heq
    exact h.element.toNode
  · next parent outer houter =>
    cases heq
    obtain ⟨hparent, hothers⟩ := List.forall_mem_cons.mp (houter ▸ h.outer)
    exact ⟨hparent.addChild h.element.toNode, hothers, h.replaced, hrest⟩

theorem of_open? {tag : StartTag} (hrest : AreLegal rest)
    (heq : s.open? d tag rest = some next) : next.IsLegal := by
  obtain ⟨element, helement, heq⟩ := Option.bind_eq_some_iff.mp heq
  have hopened := isLegal_of_openElement? helement
  split_ifs at heq
  · cases heq
    exact ⟨h.element.addChild hopened.toNode, h.outer, h.replaced, hrest⟩
  · cases heq
    exact ⟨hopened, List.forall_mem_cons.mpr ⟨h.element, h.outer⟩, h.replaced, hrest⟩

theorem of_refer? (hd : d.AreLegal) (hrest : AreLegal rest)
    (heq : s.refer? d rest = some next) : next.IsLegal := by
  obtain ⟨⟨reference, left⟩, hreference, heq⟩ := Option.bind_eq_some_iff.mp heq
  obtain ⟨hlegal, hleft⟩ := hrest.of_reference? hreference
  cases reference with
  | character c =>
    cases heq
    exact h.takeChar hlegal hleft
  | entity name =>
    dsimp only at heq
    split at heq
    · next c hknown =>
      cases heq
      exact h.takeChar (isLegal_of_knownEntity? hknown) hleft
    · next replacement _ hentity =>
      rw [Option.ite_none_left_eq_some] at heq
      cases heq.2
      exact ⟨h.element, h.outer, List.forall_mem_cons.mpr ⟨hleft, h.replaced⟩,
        hd.of_entity? hentity⟩
    · cases heq

/-- A step keeps everything legal. -/
theorem of_step? (hd : d.AreLegal) (heq : s.step? d = some next) : next.IsLegal := by
  have htext := h.text
  unfold ContentState.step? at heq
  split at heq
  · split at heq
    · cases heq
    · next entry replaced hreplaced =>
      rw [Option.ite_none_right_eq_some] at heq
      cases heq.2
      obtain ⟨hrest, hothers⟩ := List.forall_mem_cons.mp (hreplaced ▸ h.replaced)
      exact ⟨h.element, h.outer, hothers, hrest⟩
  · next hs =>
    rw [hs] at htext
    obtain ⟨left, hskip, heq⟩ := Option.bind_eq_some_iff.mp heq
    exact h.of_close? (htext.tail.tail.of_skipEndTag? hskip) heq
  · next hs =>
    rw [hs] at htext
    obtain ⟨left, hskip, rfl⟩ := Option.map_eq_some_iff.mp heq
    exact h.goOn (htext.tail.tail.of_skipInstruction? hskip)
  · next hs =>
    rw [hs] at htext
    obtain ⟨left, hskip, rfl⟩ := Option.map_eq_some_iff.mp heq
    exact h.goOn (htext.tail.tail.tail.tail.of_skipComment? hskip)
  · -- A marked section gives its text as it stands.
    next hs =>
    rw [hs] at htext
    obtain ⟨left, hafter, heq⟩ := Option.bind_eq_some_iff.mp heq
    obtain ⟨⟨content, last⟩, huntil, heq⟩ := Option.bind_eq_some_iff.mp heq
    cases heq
    obtain ⟨hcontent, hlast⟩ := (htext.tail.tail.of_after? hafter).of_until? huntil
    exact ⟨h.element.addText hcontent, h.outer, h.replaced, hlast⟩
  · next hs =>
    rw [hs] at htext
    obtain ⟨⟨tag, left⟩, htag, heq⟩ := Option.bind_eq_some_iff.mp heq
    exact h.of_open? (htext.tail.of_startTag? htag) heq
  · next hs =>
    rw [hs] at htext
    exact h.of_refer? hd htext.tail heq
  · cases heq
  · next hs =>
    rw [hs] at htext
    cases heq
    exact h.takeChar (AreLegal.cons_iff.mp htext).1 htext.tail

omit h in
/-- The steps to the end of the root give a legal root. -/
theorem of_content? {fuel : Nat} (h : s.IsLegal) (hd : d.AreLegal) {root : Node}
    (heq : content? d fuel s = some (root, rest)) : root.IsLegal := by
  induction fuel generalizing s with
  | zero => cases heq
  | succ fuel ih =>
    rw [content?] at heq
    split at heq
    · cases heq
    · next hstep =>
      cases heq
      exact h.of_step? hd hstep
    · next hstep => exact ih (h.of_step? hd hstep) heq

end ContentState.IsLegal

/-! ## Documents -/

theorem Node.isLegal_of_root? {d : Declarations} (hd : d.AreLegal) {cs rest : List Char}
    (hcs : AreLegal cs) {root : Node} (h : root? d cs = some (root, rest)) : root.IsLegal := by
  obtain ⟨⟨tag, left⟩, htag, h⟩ := Option.bind_eq_some_iff.mp h
  obtain ⟨element, helement, h⟩ := Option.bind_eq_some_iff.mp h
  have hopened := isLegal_of_openElement? helement
  split_ifs at h
  · cases h
    exact hopened.toNode
  · exact ContentState.IsLegal.of_content?
      ⟨hopened, List.forall_mem_nil _, List.forall_mem_nil _, hcs.of_startTag? htag⟩ hd h

theorem AreLegal.of_opening? {d : Declarations} {cs rest : List Char} (h : AreLegal cs)
    (heq : opening? cs = some (d, rest)) : d.AreLegal ∧ AreLegal rest := by
  unfold opening? at heq
  split at heq
  · next hafter =>
    have hinner := h.of_after? hafter
    split_ifs at heq
    · cases heq
      exact ⟨Declarations.areLegal_of_entities_nil rfl, h⟩
    · obtain ⟨⟨items, left⟩, huntil, heq⟩ := Option.bind_eq_some_iff.mp heq
      obtain ⟨alone, -, heq⟩ := Option.bind_eq_some_iff.mp heq
      cases heq
      exact ⟨Declarations.areLegal_of_entities_nil rfl, (hinner.of_until? huntil).2⟩
  · cases heq
    exact ⟨Declarations.areLegal_of_entities_nil rfl, h⟩

theorem AreLegal.of_prolog? {fuel : Nat} {typed : Bool} {d e : Declarations} {cs rest : List Char}
    (h : AreLegal cs) (hd : d.AreLegal) (heq : prolog? fuel typed d cs = some (e, rest)) :
    e.AreLegal ∧ AreLegal rest := by
  induction fuel generalizing typed d cs with
  | zero => cases heq
  | succ fuel ih =>
    rw [prolog?] at heq
    split at heq
    · next hskip =>
      obtain ⟨left, hleft, heq⟩ := Option.bind_eq_some_iff.mp heq
      exact ih ((h.of_skipSpace hskip).tail.tail.of_skipInstruction? hleft) hd heq
    · next hskip =>
      obtain ⟨left, hleft, heq⟩ := Option.bind_eq_some_iff.mp heq
      exact ih ((h.of_skipSpace hskip).tail.tail.tail.tail.of_skipComment? hleft) hd heq
    · next hskip =>
      rw [Option.ite_none_left_eq_some] at heq
      obtain ⟨left, hafter, heq⟩ := Option.bind_eq_some_iff.mp heq.2
      obtain ⟨⟨declared, last⟩, hdoctype, heq⟩ := Option.bind_eq_some_iff.mp heq
      obtain ⟨hdeclared, hlast⟩ :=
        hd.of_doctype? ((h.of_skipSpace hskip).tail.tail.of_after? hafter) hdoctype
      exact ih hlast hdeclared heq
    · next hskip =>
      cases heq
      exact ⟨hd, (h.of_skipSpace hskip).tail⟩
    · cases heq

/-- Every text in a document holds legal characters. -/
theorem Node.isLegal_of_read? {text : List Char} {root : Node} (h : read? text = some root) :
    root.IsLegal := by
  rw [read?, Option.ite_none_left_eq_some, Bool.not_eq_true', Bool.not_eq_false,
    List.all_eq_true] at h
  obtain ⟨hlegal, h⟩ := h
  obtain ⟨⟨d, afterOpening⟩, hopening, h⟩ := Option.bind_eq_some_iff.mp h
  obtain ⟨⟨declared, afterProlog⟩, hprolog, h⟩ := Option.bind_eq_some_iff.mp h
  obtain ⟨⟨root', rest⟩, hroot, h⟩ := Option.bind_eq_some_iff.mp h
  rw [Option.ite_none_right_eq_some] at h
  cases h.2
  obtain ⟨hd, hopened⟩ := AreLegal.of_opening? hlegal hopening
  obtain ⟨hdeclared, hrest⟩ := hopened.of_prolog? hd hprolog
  exact Node.isLegal_of_root? hdeclared hrest hroot

/-- A text with an illegal character is no document. -/
theorem read?_eq_none {text : List Char} {c : Char} (hc : c ∈ text) (h : isLegal c = false) :
    read? text = none := by
  have hne {d : Char} (hd : isLegal d = true) : c ≠ d := by
    rintro rfl
    rw [h] at hd
    contradiction
  have hmark : c ∈ skipMark text := by
    unfold skipMark
    split
    · exact List.mem_of_ne_of_mem (hne (by decide)) hc
    · exact hc
  have hkept := Text.mem_unifyBreaks_of_mem hmark (hne (by decide))
    (hne (by decide))
  have hall : ¬(Text.unifyBreaks (skipMark text)).all isLegal = true := by
    rw [List.all_eq_true]
    exact fun hall => absurd (hall c hkept) (by simp [h])
  rw [read?]
  exact if_pos (by simpa using hall)

/-! ## Looking texts up -/

namespace Node.IsLegal

variable {node : Node} (h : node.IsLegal)
include h

theorem children : ∀ child ∈ node.children, child.IsLegal := by
  cases h with
  | text => exact List.forall_mem_nil _
  | element hchildren => exact hchildren

omit h in
theorem of_mem_matching {path : List String} {node found : Node} (h : node.IsLegal)
    (hfound : found ∈ node.matching path) : found.IsLegal := by
  induction path generalizing node with
  | nil => exact List.mem_singleton.mp hfound ▸ h
  | cons step path ih =>
    obtain ⟨child, hchild, hfound⟩ := List.mem_flatMap.mp hfound
    exact ih (h.children child (List.mem_filter.mp hchild).1) hfound

omit h in
theorem textBefore {nodes : List Node} (h : ∀ node ∈ nodes, node.IsLegal) :
    AreLegal (Node.textBefore nodes) := by
  induction nodes with
  | nil => exact .nil
  | cons node nodes ih =>
    rw [List.forall_mem_cons] at h
    cases h.1 with
    | text hcontent => exact AreLegal.append_iff.mpr ⟨hcontent, ih h.2⟩
    | element => exact .nil

theorem of_textAt? {path : List String} {text : List Char} (heq : node.textAt? path = some text) :
    AreLegal text := by
  obtain ⟨found, hfound, rfl⟩ := Option.map_eq_some_iff.mp heq
  exact textBefore (h.of_mem_matching (List.mem_of_head? hfound)).children

end Node.IsLegal

end WireAgent.Xml
