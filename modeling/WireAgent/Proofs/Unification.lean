import WireAgent.Proofs.Markup

/-!
# Texts with carriage returns

A document is read with its line breaks unified. The writer writes a carriage return in a text as it
stands, so a tree is read back with the breaks in its texts unified (`read?_write_unified`). In an
attribute a carriage return is written by its code point, and kept.
-/

namespace WireAgent.Xml

open Text (unifyBreaks)

/-! ## Trees -/

mutual

/-- The tree with the breaks in its texts unified. -/
def Node.unified : Node → Node
  | .text content => .text (unifyBreaks content)
  | .element name attributes children => .element name attributes (unifiedAll children)

/-- The trees with the breaks in their texts unified. -/
def unifiedAll : List Node → List Node
  | [] => []
  | node :: rest => node.unified :: unifiedAll rest

end

theorem unifiedAll_eq_map (nodes : List Node) : unifiedAll nodes = nodes.map Node.unified := by
  induction nodes with
  | nil => rfl
  | cons node nodes ih => rw [unifiedAll, ih, List.map_cons]

/-- Unifying breaks leaves plain characters. -/
theorem isPlain_of_mem_unifyBreaks {cs : List Char} (h : ∀ c ∈ cs, isLegal c = true) :
    ∀ c ∈ unifyBreaks cs, isPlain c = true := by
  intro c hc
  obtain ⟨hreturn, hc | rfl⟩ := Text.mem_unifyBreaks hc
  · simp [isPlain, h c hc, hreturn]
  · decide

theorem return_not_mem {cs : List Char} (h : cs.all isPlain = true) : '\r' ∉ cs :=
  fun hmem => absurd (List.all_eq_true.mp h _ hmem) (by decide)

/-- A tree whose texts are legal is regular with its breaks unified. -/
theorem Node.Formed.unified {node : Node} (h : node.Formed isLegal) : node.unified.Regular := by
  induction h with
  | @text content hne hlegal =>
    exact .text (mt Text.unifyBreaks_eq_nil_iff.mp hne) (isPlain_of_mem_unifyBreaks hlegal)
  | @element name attributes children hname hattributes hbeside hformed ih =>
    rw [Node.unified, unifiedAll_eq_map]
    refine .element hname hattributes ?_ (List.forall_mem_map.mpr ih)
    rw [List.isChain_map]
    refine hbeside.imp fun node next hnext => ?_
    cases node with
    | element => trivial
    | text => cases next with
      | element => trivial
      | text => exact hnext.elim

/-! ## Writing -/

/-- A text is written with its breaks as they stand. -/
theorem unifyBreaks_encodeText (cs : List Char) :
    unifyBreaks (encodeText cs) = encodeText (unifyBreaks cs) := by
  have hpass {c : Char} (hc : c ≠ '\r') (rest : List Char) :
      unifyBreaks (encodeTextChar c ++ rest) = encodeTextChar c ++ unifyBreaks rest := by
    refine Text.unifyBreaks_append ?_ rest
    unfold encodeTextChar
    split_ifs <;> simp [Ne.symm hc]
  induction cs using Text.unifyBreaks.induct with
  | case1 => rfl
  | case2 rest ih => exact congrArg ('\n' :: ·) ih
  | case3 rest hne ih =>
    have hhead : (encodeText rest).head? ≠ some '\n' := by
      cases rest with
      | nil => decide
      | cons c rest =>
        have hc : c ≠ '\n' := fun hc => hne rest (by rw [hc])
        rw [encodeText, List.flatMap_cons, encodeTextChar]
        split_ifs <;> simp [hc]
    rw [Text.unifyBreaks.eq_3 rest hne]
    exact (Text.unifyBreaks_return hhead).trans (congrArg ('\n' :: ·) ih)
  | case4 c rest hne hc ih =>
    rw [Text.unifyBreaks_cons hc, encodeText, List.flatMap_cons, hpass hc, ← encodeText, ih,
      encodeText, encodeText, List.flatMap_cons]

/-- A start tag holds no carriage return. -/
theorem return_not_mem_startTag {name : Name} (hname : name.IsPlain)
    {attributes : List (Name × List Char)} (hattributes : AreAttributes attributes)
    (isEmpty : Bool) :
    '\r' ∉ '<' :: (name.localPart ++ (writeAttributes attributes ++ tagEnd isEmpty)) := by
  refine return_not_mem ?_
  simp only [List.all_cons, List.all_append, hname.all_localPart, hattributes.all_write, all_tagEnd]
  decide

theorem return_not_mem_endTag {name : Name} (hname : name.IsPlain) :
    '\r' ∉ '<' :: '/' :: (name.localPart ++ ['>']) := by
  refine return_not_mem ?_
  simp only [List.all_cons, List.all_append, hname.all_localPart]
  decide

/-- Between two tags the breaks are those of the content. -/
theorem unifyBreaks_enclose {name : Name} (hname : name.IsPlain)
    {attributes : List (Name × List Char)} (hattributes : AreAttributes attributes)
    {content content' : List Char}
    (h : ∀ {rest : List Char}, rest.head? ≠ some '\n' →
      unifyBreaks (content ++ rest) = content' ++ unifyBreaks rest) (rest : List Char) :
    unifyBreaks (enclose name attributes content ++ rest) =
      enclose name attributes content' ++ unifyBreaks rest := by
  have hcut (content rest : List Char) : enclose name attributes content ++ rest =
      ('<' :: (name.localPart ++ (writeAttributes attributes ++ tagEnd false))) ++
        (content ++ (('<' :: '/' :: (name.localPart ++ ['>'])) ++ rest)) := by
    simp [enclose]
  rw [hcut, Text.unifyBreaks_append (return_not_mem_startTag hname hattributes false),
    h (by simp), Text.unifyBreaks_append (return_not_mem_endTag hname), hcut]

/-- May a text follow a node? A line feed after a text might be half of a break. -/
def Node.Clear (node : Node) (rest : List Char) : Prop :=
  ∀ content, node = .text content → rest.head? ≠ some '\n'

/-- Nodes that stand beside each other have their breaks unified one by one. -/
theorem unifyBreaks_writeAll {nodes : List Node} (hbeside : nodes.IsChain Node.Beside)
    (h : ∀ node ∈ nodes, ∀ {rest : List Char}, node.Clear rest →
      unifyBreaks (node.write ++ rest) = node.unified.write ++ unifyBreaks rest)
    {rest : List Char} (hrest : rest.head? ≠ some '\n') :
    unifyBreaks (writeAll nodes ++ rest) = writeAll (unifiedAll nodes) ++ unifyBreaks rest := by
  induction nodes with
  | nil => rfl
  | cons node nodes ih =>
    obtain ⟨hnode, hnodes⟩ := List.forall_mem_cons.mp h
    obtain ⟨hnext, hbeside⟩ := List.isChain_cons.mp hbeside
    -- What follows a text is the tag of an element or the rest.
    have hclear : node.Clear (writeAll nodes ++ rest) := by
      rintro content rfl
      cases nodes with
      | nil => exact hrest
      | cons next nodes => cases next with
        | text => exact (hnext _ rfl).elim
        | element => simp [writeAll, Node.write, writeElement]
    rw [writeAll, List.append_assoc, hnode hclear, ih hbeside hnodes, unifiedAll, writeAll,
      List.append_assoc]

/-- The text of a tree has its breaks unified as the tree has them. -/
theorem Node.Formed.unifyBreaks_write {node : Node} (h : node.Formed isLegal) {rest : List Char}
    (hrest : node.Clear rest) :
    unifyBreaks (node.write ++ rest) = node.unified.write ++ unifyBreaks rest := by
  induction h generalizing rest with
  | @text content =>
    rw [Node.write, Text.unifyBreaks_append_of_head (hrest content rfl), unifyBreaks_encodeText,
      Node.unified, Node.write]
  | @element name attributes children hname hattributes hbeside hformed ih =>
    have hunified : ∀ child ∈ unifiedAll children, child.Formed isPlain := by
      rw [unifiedAll_eq_map]
      exact List.forall_mem_map.mpr fun child hchild => (hformed child hchild).unified
    rw [Node.unified, write_element hformed, write_element hunified]
    cases children with
    | nil => exact Text.unifyBreaks_append (return_not_mem_startTag hname hattributes true) rest
    | cons child children =>
      exact unifyBreaks_enclose hname hattributes (unifyBreaks_writeAll hbeside ih) rest

/-- Reading sees unified breaks only. -/
theorem read?_unifyBreaks (rest : List Char) :
    read? (unifyBreaks ('<' :: rest)) = read? ('<' :: rest) := by
  have hmark (rest : List Char) : skipMark ('<' :: rest) = '<' :: rest := rfl
  have hself := Text.unifyBreaks_eq_self_iff.mpr (Text.return_not_mem_unifyBreaks rest)
  rw [Text.unifyBreaks_cons (by decide), read?, hmark, Text.unifyBreaks_cons (by decide), hself,
    read?, hmark, Text.unifyBreaks_cons (by decide)]

/-- An element is read back with the breaks in its texts unified. -/
theorem read?_write_unified {name : Name} {attributes : List (Name × List Char)}
    {children : List Node} (h : (Node.element name attributes children).Formed isLegal) :
    read? (Node.element name attributes children).write =
      some (Node.element name attributes children).unified := by
  have hclear : (Node.element name attributes children).Clear [] := by
    rintro _ ⟨⟩
  have hwrite := h.unifyBreaks_write hclear
  rw [List.append_nil, unifyBreaks, List.append_nil] at hwrite
  have hregular := h.unified
  rw [Node.unified] at hwrite hregular ⊢
  rw [← read?_write hregular, ← hwrite, Node.write, writeElement]
  exact (read?_unifyBreaks _).symm

end WireAgent.Xml
