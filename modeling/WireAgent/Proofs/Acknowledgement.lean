import WireAgent.Proofs.Events
import WireAgent.Proofs.Unification

/-!
# What is acknowledged

A health report names the goal state that it acknowledges, and so does every event. An event is read
back with the identifiers of the goal state as they were received. A health report is read back with
their breaks unified, so that it names another container than the events do just if there is a
carriage return in an identifier (`acknowledged_of_ofXml`).
-/

namespace WireAgent

/-! ## What a goal state holds -/

namespace GoalState

/-- A text that is required is legal and not empty. -/
theorem areLegal_of_required {root : Xml.Node} (hroot : root.IsLegal) {path : List String}
    {text : List Char} (h : required root path = .ok text) : Xml.AreLegal text ∧ text ≠ [] := by
  rcases required_cases root path with hmissing | ⟨cs, hpath, hne, hrequired⟩
  · rw [hmissing] at h
    cases h
  · rw [hrequired] at h
    cases h
    exact ⟨fun c hc => hroot.of_textAt? hpath c (Text.mem_of_mem_trim hc), hne⟩

/-- The identifiers of a goal state that is read are legal and not empty. -/
theorem areLegal_of_ofXml {text : String} {g : GoalState} (h : ofXml text = .ok g) :
    ∀ id ∈ [g.containerId, g.instanceId], Xml.AreLegal id.toList ∧ id.toList ≠ [] := by
  rw [ofXml] at h
  split at h
  · cases h
  · next root hparse =>
    have hroot := Xml.Node.isLegal_of_parse? hparse
    rcases hincarnation : required root incarnationPath with e | cs
    · simp [ofRoot, hincarnation, bind, Except.bind] at h
    rcases hn : readIncarnation cs with e | n
    · simp [ofRoot, hincarnation, hn, bind, Except.bind] at h
    rcases hcontainer : required root containerPath with e | containerId
    · simp [ofRoot, hincarnation, hn, hcontainer, bind, Except.bind] at h
    rcases hinstance : required root instancePath with e | instanceId
    · simp [ofRoot, hincarnation, hn, hcontainer, hinstance, bind, Except.bind] at h
    simp only [ofRoot, hincarnation, hn, hcontainer, hinstance, bind, Except.bind] at h
    cases h
    simp only [List.forall_mem_cons, String.toList_ofList]
    exact ⟨areLegal_of_required hroot hcontainer, areLegal_of_required hroot hinstance,
      List.forall_mem_nil _⟩

end GoalState

/-! ## Health reports -/

/-- Does a path lead to one element only, and does that hold a text and nothing else? -/
def Xml.Node.HoldsText (root : Node) (path : List String) (text : List Char) : Prop :=
  ∃ name, root.matching path = [.element name [] [.text text]]

theorem Xml.Node.HoldsText.iff {root : Node} {path : List String} {text other : List Char}
    (h : root.HoldsText path text) : root.HoldsText path other ↔ text = other := by
  obtain ⟨name, hmatching⟩ := h
  simp [HoldsText, hmatching]

namespace Report

namespace Health

/-- Where a health report names the incarnation. -/
def incarnationPath : List String := ["GoalStateIncarnation"]

/-- Where a health report names the container. -/
def containerPath : List String := ["Container", "ContainerId"]

/-- Where a health report names the role instance. -/
def instancePath : List String := ["Container", "RoleInstanceList", "Role", "InstanceId"]

theorem formed_plainElement {name : String} (hname : Xml.isName name.toList = true)
    {children : List Xml.Node} (hbeside : children.IsChain Xml.Node.Beside)
    (hchildren : ∀ child ∈ children, child.Formed Xml.isLegal) :
    (plainElement name children).Formed Xml.isLegal :=
  .element ⟨rfl, hname⟩ Xml.areAttributes_nil hbeside hchildren

theorem formed_textElement {name text : String} (hname : Xml.isName name.toList = true)
    (htext : Xml.AreLegal text.toList ∧ text.toList ≠ []) :
    (textElement name text).Formed Xml.isLegal :=
  formed_plainElement hname (.singleton _) (List.forall_mem_singleton.mpr (.text htext.2 htext.1))

/-- A health report with legal texts can be written. -/
theorem formed_toNode {h : Health}
    (htexts : ∀ text ∈ [h.containerId, h.instanceId, h.state],
      Xml.AreLegal text.toList ∧ text.toList ≠ []) : h.toNode.Formed Xml.isLegal := by
  simp only [List.forall_mem_cons] at htexts
  obtain ⟨hcontainer, hinstance, hstate, -⟩ := htexts
  have hincarnation : Xml.AreLegal (Number.ofInt h.incarnation).toList ∧
      (Number.ofInt h.incarnation).toList ≠ [] := by
    rw [Number.toList_ofInt_natCast]
    exact ⟨GoalState.isLegal_decimal h.incarnation, Number.decimal_ne_nil h.incarnation⟩
  have hrole : (plainElement "Role" [textElement "InstanceId" h.instanceId,
      plainElement "Health" [textElement "State" h.state]]).Formed Xml.isLegal := by
    refine formed_plainElement (by decide) (.cons_cons trivial (.singleton _)) ?_
    rw [List.forall_mem_cons, List.forall_mem_singleton]
    refine ⟨formed_textElement (by decide) hinstance, ?_⟩
    exact formed_plainElement (by decide) (.singleton _)
      (List.forall_mem_singleton.mpr (formed_textElement (by decide) hstate))
  refine formed_plainElement (by decide) (.cons_cons trivial (.singleton _)) ?_
  rw [List.forall_mem_cons, List.forall_mem_singleton]
  refine ⟨formed_textElement (by decide) hincarnation, ?_⟩
  refine formed_plainElement (by decide) (.cons_cons trivial (.singleton _)) ?_
  rw [List.forall_mem_cons, List.forall_mem_singleton]
  refine ⟨formed_textElement (by decide) hcontainer, ?_⟩
  exact formed_plainElement (by decide) (.singleton _)
    (List.forall_mem_singleton.mpr hrole)

/-- A health report is read back with the breaks in its texts unified. -/
theorem read?_toXml (h : Health)
    (htexts : ∀ text ∈ [h.containerId, h.instanceId, h.state],
      Xml.AreLegal text.toList ∧ text.toList ≠ []) :
    ∃ root, Xml.read? h.toXml.toList = some root ∧
      root.HoldsText incarnationPath (Number.decimal h.incarnation) ∧
      root.HoldsText containerPath (Text.unifyBreaks h.containerId.toList) ∧
      root.HoldsText instancePath (Text.unifyBreaks h.instanceId.toList) := by
  have hread : Xml.read? h.toXml.toList = some h.toNode.unified := by
    rw [toXml, String.toList_ofList]
    exact Xml.read?_write_unified (formed_toNode htexts)
  have hincarnation : Text.unifyBreaks (Number.ofInt h.incarnation).toList =
      Number.decimal h.incarnation := by
    rw [Number.toList_ofInt_natCast, Text.unifyBreaks_eq_self_iff]
    exact fun hmem => absurd (Number.isAsciiDigit_of_mem_decimal hmem) (by decide)
  refine ⟨_, hread, ?_⟩
  simp [Xml.Node.HoldsText, toNode, plainElement, textElement, Xml.Node.unified, Xml.unifiedAll,
    Xml.Node.matching, Xml.Node.children, incarnationPath, containerPath, instancePath,
    Xml.Node.isNamed_plain, hincarnation]

end Health

/-! ## What is acknowledged -/

/-- The identifiers of a goal state that is read are read back from the document of its health
report with their breaks unified, which leaves them as they are just if there is no carriage return
in them. From the document of an event, if it can be read, they are read back as they are. -/
theorem acknowledged_of_ofXml {text : String} {g : GoalState} (h : GoalState.ofXml text = .ok g) :
    (∃ root, Xml.read? (Health.ofGoalState g).toXml.toList = some root ∧
      root.HoldsText Health.incarnationPath (Number.decimal g.incarnation) ∧
      root.HoldsText Health.containerPath (Text.unifyBreaks g.containerId.toList) ∧
      root.HoldsText Health.instancePath (Text.unifyBreaks g.instanceId.toList) ∧
      (root.HoldsText Health.containerPath g.containerId.toList ↔ '\r' ∉ g.containerId.toList) ∧
      (root.HoldsText Health.instancePath g.instanceId.toList ↔ '\r' ∉ g.instanceId.toList)) ∧
    ∀ sender e, Event.IsBuilt g sender e →
      ((∃ root, Xml.read? e.toXml.toList = some root) ↔ sender.IsLegal) ∧
      ∀ root, Xml.read? e.toXml.toList = some root →
        Event.valuesOf "Container" root = [g.containerId.toList] ∧
          Event.valuesOf "RoleInstance" root = [g.instanceId.toList] := by
  have hids := GoalState.areLegal_of_ofXml h
  constructor
  · have htexts : ∀ text ∈ [g.containerId, g.instanceId, ready],
        Xml.AreLegal text.toList ∧ text.toList ≠ [] := by
      simp only [List.forall_mem_cons] at hids ⊢
      exact ⟨hids.1, hids.2.1, by decide, List.forall_mem_nil _⟩
    obtain ⟨root, hread, hincarnation, hcontainer, hinstance⟩ :=
      Health.read?_toXml (.ofGoalState g) htexts
    exact ⟨root, hread, hincarnation, hcontainer, hinstance,
      hcontainer.iff.trans Text.unifyBreaks_eq_self_iff,
      hinstance.iff.trans Text.unifyBreaks_eq_self_iff⟩
  · intro sender e he
    exact he.reads_back fun id hid => (hids id hid).1

/-- A document in which an entity, a marked section and references make up the identifiers. -/
def mixedDocument : List Char :=
  "<!DOCTYPE GoalState [<!ENTITY e \"x&#233;\">]>".toList ++
    "<GoalState><Incarnation>007</Incarnation>".toList ++
    "<Container><ContainerId>".toList ++ "\r\n&e;&lt;<![CDATA[&]]>\r\ny".toList ++
    "</ContainerId><RoleInstanceList>".toList ++ "<RoleInstance><InstanceId>&#105;".toList ++
    "</InstanceId></RoleInstance>".toList ++ "</RoleInstanceList></Container></GoalState>".toList

/-- Identifiers without carriage return are read back from the health report as they are. -/
theorem acknowledged_of_ofXml_mixed :
    GoalState.ofXml (String.ofList mixedDocument) = .ok ⟨7, "xé<&\ny", "i", ""⟩ ∧
      ∃ root, Xml.read? (Health.ofGoalState ⟨7, "xé<&\ny", "i", ""⟩).toXml.toList = some root ∧
        root.HoldsText Health.incarnationPath ['7'] ∧
        root.HoldsText Health.containerPath "xé<&\ny".toList ∧
        root.HoldsText Health.instancePath "i".toList := by
  have h : GoalState.ofXml (String.ofList mixedDocument) = .ok ⟨7, "xé<&\ny", "i", ""⟩ := by
    rw [GoalState.ofXml, String.toList_ofList]
    decide +kernel
  obtain ⟨root, hread, hincarnation, -, -, hcontainer, hinstance⟩ := (acknowledged_of_ofXml h).1
  exact ⟨h, root, hread, hincarnation, hcontainer.mpr (by decide), hinstance.mpr (by decide)⟩

/-- A document with the code point of a carriage return in an identifier. -/
def returnDocument : List Char :=
  "<GoalState><Incarnation>1</Incarnation>".toList ++
    "<Container><ContainerId>a&#13;b</ContainerId>".toList ++
    "<RoleInstanceList><RoleInstance>".toList ++ "<InstanceId>i</InstanceId>".toList ++
    "</RoleInstance></RoleInstanceList>".toList ++ "</Container></GoalState>".toList

/-- The health report acknowledges another container than the one that was received, which the
events name. -/
theorem acknowledges_another_container :
    GoalState.ofXml (String.ofList returnDocument) = .ok ⟨1, "a\rb", "i", ""⟩ ∧
      (∃ root, Xml.read? (Health.ofGoalState ⟨1, "a\rb", "i", ""⟩).toXml.toList = some root ∧
        root.HoldsText Health.containerPath "a\nb".toList ∧
        ¬root.HoldsText Health.containerPath "a\rb".toList) ∧
      ∃ e root, Event.IsBuilt ⟨1, "a\rb", "i", ""⟩ ⟨"1", "p"⟩ e ∧
        Xml.read? e.toXml.toList = some root ∧
        Event.valuesOf "Container" root = ["a\rb".toList] := by
  have hlegal : ∀ id ∈ ["a\rb", "i"], Xml.AreLegal id.toList := by decide
  refine ⟨?_, ?_, ?_⟩
  · rw [GoalState.ofXml, String.toList_ofList]
    decide +kernel
  · obtain ⟨root, hread, -, hcontainer, -⟩ := Health.read?_toXml
      (.ofGoalState ⟨1, "a\rb", "i", ""⟩) (by decide)
    refine ⟨root, hread, hcontainer, ?_⟩
    rw [hcontainer.iff]
    decide
  · obtain ⟨e, he⟩ : ∃ e, Event.startup .provision ⟨1, "a\rb", "i", ""⟩ ⟨"1", "p"⟩
        ⟨⟨2026, 1, 1⟩, 0, 0, 0, 0, some 0⟩ = .ok e := ⟨_, rfl⟩
    have hbuilt := Event.IsBuilt.startup he
    obtain ⟨hreadable, hvalues⟩ := hbuilt.reads_back hlegal
    obtain ⟨root, hread⟩ := hreadable.mpr ⟨by decide, by decide⟩
    exact ⟨e, root, hbuilt, hread, (hvalues root hread).1⟩

end Report

end WireAgent
