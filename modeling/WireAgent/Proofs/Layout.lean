import WireAgent.Proofs.Markup

/-!
# Documents that are laid out

A document need not be the shortest one of its tree: between its tags there may be white space, and
a carriage return in a text may be written by its code point, which keeps it. Content is a text, or
a text with an element behind it and more content; `IsContent` relates it to the nodes that it is
read as. A text without characters is no node.
-/

namespace WireAgent.Xml

/-- One character of text, a carriage return by its code point. -/
def referChar (c : Char) : List Char :=
  if c = '\r' then ['&', '#', '1', '3', ';'] else encodeTextChar c

/-- A text that may hold carriage returns. -/
def referText (cs : List Char) : List Char := cs.flatMap referChar

theorem referChar_ne_nil (c : Char) : referChar c ≠ [] := by
  unfold referChar
  split
  · exact List.cons_ne_nil _ _
  · exact encodeTextChar_ne_nil c

theorem referText_append (cs ds : List Char) :
    referText (cs ++ ds) = referText cs ++ referText ds :=
  List.flatMap_append

/-- Characters that are no markup and no carriage return are written as they stand. -/
theorem referText_eq_self {cs : List Char} (h : ∀ c ∈ cs, c ∉ ['\r', '&', '<', '>']) :
    referText cs = cs := by
  induction cs with
  | nil => rfl
  | cons c cs ih =>
    obtain ⟨hc, hcs⟩ := List.forall_mem_cons.mp h
    simp only [List.mem_cons, List.not_mem_nil, or_false, not_or] at hc
    rw [referText, List.flatMap_cons, ← referText, ih hcs]
    simp [referChar, encodeTextChar, hc]

theorem all_referText {cs : List Char} (h : ∀ c ∈ cs, isLegal c = true) :
    (referText cs).all isPlain = true := by
  rw [referText, List.all_flatMap, List.all_eq_true]
  intro c hc
  unfold referChar
  split_ifs with hbreak
  · decide
  · exact all_encodeTextChar (by simp [isPlain, h c hc, hbreak])

theorem Inert.referChar {rest : List Char} (h : Inert rest) (c : Char) :
    Inert (referChar c ++ rest) := by
  unfold Xml.referChar
  split
  · trivial
  · exact h.encodeTextChar c

/-- Each character of a text is read as itself, a carriage return too. -/
theorem ContentState.step?_referChar {d : Declarations} {e : OpenElement}
    (outer : List OpenElement) {rest : List Char} (h : Inert rest) (c : Char) :
    step? d ⟨e, outer, [], referChar c ++ rest⟩ = some (.more ⟨e.addChar c, outer, [], rest⟩) := by
  unfold referChar
  split_ifs with hbreak
  · subst hbreak
    rfl
  · exact step?_char outer h c

theorem spells_referChar : Spells referChar where
  ne_nil := referChar_ne_nil
  inert c _ h := h.referChar c
  step outer _ h := ContentState.step?_referChar outer h

namespace Node

/-- The nodes that a text is: none if it is empty. -/
def ofText (cs : List Char) : List Node := if cs = [] then [] else [.text cs]

theorem foldl_add_ofText (cs : List Char) (e : OpenElement) :
    (ofText cs).foldl .add e = e.addText cs := by
  unfold ofText
  split_ifs with h
  · simp [h, OpenElement.addText]
  · rfl

theorem areChildren_ofText (cs : List Char) : AreChildren (ofText cs) := by
  unfold ofText
  split_ifs with h
  · exact ⟨.nil, List.not_mem_nil⟩
  · exact ⟨.singleton _, by simpa using Ne.symm h⟩

/-- An element may follow a text, and anything may follow the element. -/
theorem areChildren_ofText_append (cs : List Char) (name : Name)
    (attributes : List (Name × List Char)) (children : List Node) {nodes : List Node}
    (h : AreChildren nodes) :
    AreChildren (ofText cs ++ .element name attributes children :: nodes) := by
  have hrest : (Node.element name attributes children :: nodes).IsChain Beside :=
    List.isChain_cons.mpr ⟨fun node _ => by cases node <;> trivial, h.beside⟩
  unfold ofText
  split_ifs with hnil
  · exact ⟨hrest, by simp [h.filled]⟩
  · exact ⟨List.isChain_cons_cons.mpr ⟨trivial, hrest⟩, by simp [h.filled, Ne.symm hnil]⟩

/-! ### Looking nodes up -/

theorem isNamed_plain (step name : String) (attributes : List (Name × List Char))
    (children : List Node) :
    isNamed (.plain step) (.element (.plain name) attributes children) = decide (name = step) := by
  simp [isNamed, Name.plain, String.toList_inj, Bool.beq_eq_decide_eq]

theorem filter_ofText (name : Name) (cs : List Char) : (ofText cs).filter (isNamed name) = [] := by
  unfold ofText
  split <;> simp [isNamed]

theorem textBefore_ofText (cs : List Char) : textBefore (ofText cs) = cs := by
  unfold ofText
  split_ifs with h
  · exact h.symm
  · simp [textBefore]

end Node

theorem Gives.ofText {d : Declarations} {text cs : List Char} (h : Gives d text [.text cs]) :
    Gives d text (Node.ofText cs) where
  inert := h.inert
  leads {e} outer rest hscope hrest := by
    rw [Node.foldl_add_ofText]
    exact h.leads outer hscope hrest

/-- Reading a text between two tags gives nodes. -/
structure IsContent (text : List Char) (nodes : List Node) : Prop where
  gives : Gives {} text nodes
  children : AreChildren nodes
  plain : text.all isPlain = true

namespace IsContent

/-- A text is content. -/
theorem text {cs : List Char} (h : ∀ c ∈ cs, isLegal c = true) :
    IsContent (referText cs) (Node.ofText cs) where
  gives := (Gives.flatMap spells_referChar cs).ofText
  children := Node.areChildren_ofText cs
  plain := all_referText h

/-- A text, an element with content of its own, and more content are content. -/
theorem append {cs inner rest : List Char} {children nodes : List Node}
    (h : ∀ c ∈ cs, isLegal c = true) {name : Name} (hname : name.IsPlain)
    (hinner : IsContent inner children) (hrest : IsContent rest nodes) :
    IsContent (referText cs ++ (enclose name [] inner ++ rest))
      (Node.ofText cs ++ .element name [] children :: nodes) where
  gives :=
    have helement := hinner.gives.enclose hname areAttributes_nil rfl hinner.children
    (text h).gives.append (helement.append hrest.gives)
  children := Node.areChildren_ofText_append cs name [] children hrest.children
  plain := by
    rw [List.all_append, List.all_append, all_referText h,
      all_enclose hname areAttributes_nil hinner.plain, hrest.plain]
    rfl

end IsContent

/-- An element with content is read as a document. -/
theorem IsContent.read? {content : List Char} {children : List Node}
    (h : IsContent content children) {name : Name} (hname : name.IsPlain) :
    read? (enclose name [] content) = some (.element name [] children) :=
  read?_enclose hname areAttributes_nil h.gives h.children h.plain

end WireAgent.Xml
