import WireAgent.Proofs.Documents
import WireAgent.Proofs.GoalStates
import WireAgent.Proofs.Legality

/-!
# Reading events

The document of an event can be read just if its texts are legal, and then it is read as it was
written (`read?_toXml`). An event that is built from a goal state names the container and the role
instance once each, and all its other texts are legal but for those of the sender
(`IsBuilt.legal_iff`).
-/

namespace WireAgent

/-! ## Texts that are formatted -/

namespace Xml.AreLegal

theorem decimal (n : Nat) : AreLegal (Number.decimal n) := GoalState.isLegal_decimal n

theorem replicate {c : Char} (h : isLegal c = true) (n : Nat) : AreLegal (List.replicate n c) :=
  fun _ hd => List.eq_of_mem_replicate hd ▸ h

theorem padded (width n : Nat) : AreLegal (Number.padded width n) :=
  append_iff.mpr ⟨replicate (by decide) _, decimal n⟩

theorem ofInt (n : Int) : AreLegal (Number.ofInt n).toList := by
  cases n with
  | ofNat n =>
    rw [Number.ofInt, String.toList_ofList]
    exact decimal n
  | negSucc n =>
    rw [Number.ofInt, String.toList_ofList]
    exact cons_iff.mpr ⟨by decide, decimal (n + 1)⟩

theorem timestamp (u : Calendar.Utc) : AreLegal u.timestamp.toList := by
  have hmarks : isLegal '-' = true ∧ isLegal ':' = true ∧ isLegal 'T' = true ∧
    isLegal '.' = true ∧ isLegal 'Z' = true := by decide
  simp [Calendar.Utc.timestamp, Calendar.Utc.stem, Calendar.Utc.two, append_iff, cons_iff, padded,
    decimal, nil, hmarks]

theorem withSign {cs : List Char} (h : AreLegal cs) (negative : Bool) :
    AreLegal (Number.Binary64.withSign negative cs).toList := by
  rw [Number.Binary64.withSign, String.toList_ofList]
  split
  · exact cons_iff.mpr ⟨by decide, h⟩
  · exact h

theorem positional {digits : List Char} (h : AreLegal digits) (point : Int) :
    AreLegal (Number.Binary64.positional digits point) := by
  have hmarks : isLegal '0' = true ∧ isLegal '.' = true := by decide
  have htake : AreLegal (digits.take point.toNat) := fun c hc => h c (List.mem_of_mem_take hc)
  have hdrop : AreLegal (digits.drop point.toNat) := fun c hc => h c (List.mem_of_mem_drop hc)
  unfold Number.Binary64.positional
  split_ifs
  all_goals simp only [append_iff, cons_iff, replicate, nil, h, htake, hdrop, hmarks, and_self]

theorem fixed (places : Nat) (x : Number.Binary64) : AreLegal (x.fixed places).toList := by
  cases x with
  | nan =>
    show AreLegal "nan".toList
    decide
  | infinite s => exact withSign (by decide) s
  | finite s m e => exact ((padded _ _).positional _).withSign s

end Xml.AreLegal

/-! ## Characters that are written -/

namespace Xml

theorem mem_encodeValue {value : List Char} {c : Char} (hc : c ∈ value) (h : isLegal c = false) :
    c ∈ encodeValue value := by
  refine List.mem_flatMap.mpr ⟨c, hc, ?_⟩
  unfold encodeValueChar encodeTextChar
  split_ifs
  all_goals first
    | exact List.mem_singleton_self c
    | subst c
      exact absurd h (by decide)

theorem Node.mem_write_of_value {name : Name} {attributes : List (Name × List Char)}
    {children : List Node} {entry : Name × List Char} (he : entry ∈ attributes) {c : Char}
    (hc : c ∈ encodeValue entry.2) : c ∈ (element name attributes children).write := by
  have hattribute : c ∈ attributes.flatMap fun entry => writeAttribute entry.1 entry.2 := by
    refine List.mem_flatMap.mpr ⟨entry, he, ?_⟩
    simp [writeAttribute, hc]
  rw [write, writeElement]
  exact List.mem_append_left _ (List.mem_append_right _ hattribute)

theorem Node.mem_write_of_child {name : Name} {attributes : List (Name × List Char)}
    {children : List Node} {child : Node} (hchild : child ∈ children) {c : Char}
    (hc : c ∈ child.write) : c ∈ (element name attributes children).write := by
  have hcontent : c ∈ writeAll children := by
    rw [writeAll_eq_flatMap]
    exact List.mem_flatMap.mpr ⟨child, hchild, hc⟩
  rw [write, writeElement, if_neg (by simpa using List.ne_nil_of_mem hcontent)]
  simp [hcontent]

end Xml

namespace Report.Event

/-! ## Documents of events -/

theorem legal_iff {e : Event} : e.Legal ↔ Xml.AreLegal e.version.toList ∧
    Xml.AreLegal e.provider.toList ∧
      ∀ entry ∈ e.parameters, Xml.AreLegal entry.1.toList ∧ Xml.AreLegal entry.2.toList := by
  simp only [Legal, texts, List.forall_mem_cons, List.forall_mem_flatMap, List.not_mem_nil,
    false_implies, implies_true, and_true, Xml.AreLegal, Xml.isLegal_iff]

theorem mem_write_element {name : String} {attributes : List (String × String)}
    {children : List Xml.Node} {entry : String × String} (he : entry ∈ attributes) {c : Char}
    (hc : c ∈ entry.2.toList) (h : Xml.isLegal c = false) :
    c ∈ (element name attributes children).write :=
  Xml.Node.mem_write_of_value (List.mem_map_of_mem he) (Xml.mem_encodeValue hc h)

/-- An illegal character of an event is written as it stands. -/
theorem mem_write_toNode {e : Event} {text : String} (htext : text ∈ e.texts) {c : Char}
    (hc : c ∈ text.toList) (h : Xml.isLegal c = false) : c ∈ e.toNode.write := by
  have hbelow {name : String} {attributes : List (String × String)} {child : Xml.Node}
      (hchild : c ∈ child.write) : c ∈ (element name attributes [child]).write :=
    Xml.Node.mem_write_of_child (List.mem_singleton_self child) hchild
  rw [texts, List.mem_cons, List.mem_cons, List.mem_flatMap] at htext
  rw [toNode]
  rcases htext with rfl | rfl | ⟨entry, he, htext⟩
  · exact mem_write_element List.mem_cons_self hc h
  · exact hbelow (mem_write_element List.mem_cons_self hc h)
  · have hparameter :
        c ∈ (element "Param" [("name", entry.1), ("value", entry.2)] []).write := by
      rcases List.mem_pair.mp htext with rfl | rfl
      · exact mem_write_element List.mem_cons_self hc h
      · exact mem_write_element (List.mem_cons_of_mem _ List.mem_cons_self) hc h
    exact hbelow (hbelow (hbelow
      (Xml.Node.mem_write_of_child (List.mem_map.mpr ⟨entry, he, rfl⟩) hparameter)))

/-- An event can be read just if a document can hold its texts, and is what was written. -/
theorem read?_toXml (e : Event) :
    Xml.read? e.toXml.toList = if e.Legal then some e.toNode else none := by
  rw [toXml, String.toList_ofList]
  split_ifs with h
  · exact Xml.read?_write (holds_toNode h).regular
  · simp only [Legal, not_forall, exists_prop, ← Xml.isLegal_iff, Bool.not_eq_true] at h
    obtain ⟨text, htext, c, hc, hillegal⟩ := h
    exact Xml.read?_eq_none (mem_write_toNode htext hc hillegal) hillegal

/-- The values that the parameters of a name have in the document of an event. -/
def valuesOf (name : String) (root : Xml.Node) : List (List Char) :=
  ((root.matching ["Provider", "Event", "EventData", "Param"]).filter fun parameter =>
    parameter.attribute? (.plain "name") == some name.toList).filterMap
      (Xml.Node.attribute? (.plain "value"))

theorem valuesOf_toNode (name : String) (e : Event) :
    valuesOf name e.toNode =
      (e.parameters.filter fun entry => entry.1 == name).map fun entry => entry.2.toList := by
  have hmatching : e.toNode.matching ["Provider", "Event", "EventData", "Param"] =
      e.parameters.map fun entry =>
        element "Param" [("name", entry.1), ("value", entry.2)] [] := by
    simp [toNode, element, Xml.Node.matching, Xml.Node.children, List.filter_map,
      Function.comp_def, Xml.Node.isNamed_plain]
  have hname (entry : String × String) :
      ((element "Param" [("name", entry.1), ("value", entry.2)] []).attribute? (.plain "name") ==
        some name.toList) = (entry.1 == name) := by
    rw [Bool.eq_iff_iff, beq_iff_eq, beq_iff_eq, ← String.toList_inj]
    exact Option.some_inj
  have hvalue (entry : String × String) :
      (element "Param" [("name", entry.1), ("value", entry.2)] []).attribute? (.plain "value") =
        some entry.2.toList := rfl
  simp only [valuesOf, hmatching, List.filter_map, List.filterMap_map, Function.comp_def, hname,
    hvalue, List.filterMap_eq_map']

/-! ## Events of a goal state -/

/-- Is an event built from a goal state, to announce a start or in the cycle? -/
inductive IsBuilt (g : GoalState) (sender : Sender) (e : Event) : Prop
  | startup {kind : EventKind} {now : Calendar.Moment} : startup kind g sender now = .ok e →
      IsBuilt g sender e
  | cycle {kind : EventKind} {stats : Option Host.Stats} {now : Calendar.Moment} :
      cycle kind g stats sender now = .ok e → IsBuilt g sender e

/-- Can a document hold the texts of a sender? -/
def Sender.IsLegal (sender : Sender) : Prop :=
  Xml.AreLegal sender.version.toList ∧ Xml.AreLegal sender.provider.toList

/-- A legal name of a parameter that is none of the two that identify a place. -/
def IsOtherName (name : String) : Prop :=
  name ≠ "Container" ∧ name ≠ "RoleInstance" ∧ Xml.AreLegal name.toList

instance (name : String) : Decidable (IsOtherName name) :=
  inferInstanceAs (Decidable (_ ∧ _ ∧ _))

/-- A parameter of such a name, whose value is legal if the texts of the sender are. -/
def IsOther (sender : Sender) (entry : String × String) : Prop :=
  IsOtherName entry.1 ∧ (sender.IsLegal → Xml.AreLegal entry.2.toList)

theorem isOther {sender : Sender} {name value : String} (hvalue : Xml.AreLegal value.toList)
    (hname : IsOtherName name := by decide) : IsOther sender (name, value) :=
  ⟨hname, fun _ => hvalue⟩

theorem areLegal_of_stamp {now : Calendar.Moment} {time : String} (h : stamp now = .ok time) :
    Xml.AreLegal time.toList := by
  rw [stamp, Calendar.Moment.timestamp_eq] at h
  rcases hutc : now.toUtc with e | u
  · rw [hutc] at h
    cases h
  · rw [hutc] at h
    cases h
    exact .timestamp u

theorem areLegal_of_percentage {figure : Host.Figure} {text : String}
    (h : percentage figure = .ok text) : Xml.AreLegal text.toList := by
  rw [percentage, Host.Figure.percentage?] at h
  rcases hdouble : figure.toBinary64? with _ | x
  · rw [hdouble] at h
    cases h
  · rw [hdouble] at h
    cases h
    rw [String.toList_append, Xml.AreLegal.append_iff]
    exact ⟨.fixed 1 x, by decide⟩

/-- The readings of the host are legal. -/
theorem isOther_of_readings {g : GoalState} (hid : Xml.AreLegal g.instanceId.toList)
    (sender : Sender) {stats : Option Host.Stats} {more : List (String × String)}
    (h : readings g stats = .ok more) : ∀ entry ∈ more, IsOther sender entry := by
  cases stats with
  | none => cases h
  | some stats =>
    rcases hcpu : percentage stats.cpu with e | cpu
    · simp [readings, hcpu, bind, Except.bind] at h
    rcases hmemory : percentage stats.memory with e | memory
    · simp [readings, hcpu, hmemory, bind, Except.bind] at h
    simp only [readings, hcpu, hmemory, bind, Except.bind] at h
    cases h
    simp only [List.forall_mem_cons]
    exact ⟨isOther (by decide), isOther (by decide), isOther hid,
      isOther (areLegal_of_percentage hcpu), isOther (areLegal_of_percentage hmemory),
      isOther (.ofInt stats.uptime), List.forall_mem_nil _⟩

/-- What an event of the cycle says besides the place and the time. -/
theorem isOther_of_cycleParameters {g : GoalState} (hid : Xml.AreLegal g.instanceId.toList)
    {sender : Sender} {stats : Option Host.Stats} {kind : EventKind}
    {more : List (String × String)} (h : cycleParameters g stats sender kind = .ok more) :
    ∀ entry ∈ more, IsOther sender entry := by
  cases kind with
  | heartBeat => exact isOther_of_readings hid sender h
  | agentStart =>
    cases h
    exact List.forall_mem_singleton.mpr (isOther (by decide))
  | provision =>
    cases h
    simp only [List.forall_mem_cons]
    exact ⟨isOther (by decide), isOther (by decide), List.forall_mem_nil _⟩
  | agentStatus =>
    cases h
    simp only [List.forall_mem_cons]
    refine ⟨isOther (by decide), isOther (by decide),
      ⟨show IsOtherName "FormattedMessage" by decide, fun hsender => ?_⟩, List.forall_mem_nil _⟩
    -- The formatted message quotes the version of the sender.
    simp only [String.toList_append, Xml.AreLegal.append_iff]
    exact ⟨⟨⟨by decide, by decide⟩, hsender.1⟩, by decide⟩

/-- An event names its sender, and once the container and the role instance. -/
theorem IsBuilt.exists_parameters {g : GoalState} (hid : Xml.AreLegal g.instanceId.toList)
    {sender : Sender} {e : Event} (h : IsBuilt g sender e) :
    e.version = eventVersion ∧ e.provider = sender.provider ∧
      ∃ before after, e.parameters = ("Version", sender.version) ::
          (before ++ ("Container", g.containerId) :: ("RoleInstance", g.instanceId) :: after) ∧
        ∀ entry ∈ before ++ after, IsOther sender entry := by
  have htimestamp {now : Calendar.Moment} {time : String} (htime : stamp now = .ok time) :
      IsOther sender ("Timestamp", time) := isOther (areLegal_of_stamp htime)
  cases h with
  | @startup kind now h =>
    rcases htime : stamp now with error | time
    · simp [Event.startup, htime, bind, Except.bind] at h
    simp only [Event.startup, htime, bind, Except.bind] at h
    cases kind with
    | heartBeat => cases h
    | agentStatus => cases h
    | agentStart =>
      cases h
      refine ⟨rfl, rfl, [("GAState", ready)], [("Timestamp", time)], rfl, ?_⟩
      simp only [List.cons_append, List.nil_append, List.forall_mem_cons]
      exact ⟨isOther (by decide), htimestamp htime, List.forall_mem_nil _⟩
    | provision =>
      cases h
      refine ⟨rfl, rfl, [("IsVMProvisionedForLogs", "true"), ("ProvisioningState", ready)],
        [("Timestamp", time)], rfl, ?_⟩
      simp only [List.cons_append, List.nil_append, List.forall_mem_cons]
      exact ⟨isOther (by decide), isOther (by decide), htimestamp htime, List.forall_mem_nil _⟩
  | @cycle kind stats now h =>
    rcases htime : stamp now with error | time
    · simp [Event.cycle, htime, bind, Except.bind] at h
    rcases hmore : cycleParameters g stats sender kind with error | more
    · simp [Event.cycle, htime, hmore, bind, Except.bind] at h
    simp only [Event.cycle, htime, hmore, bind, Except.bind] at h
    cases h
    refine ⟨rfl, rfl, [("Timestamp", time)], more, rfl, ?_⟩
    exact List.forall_mem_cons.mpr ⟨htimestamp htime, isOther_of_cycleParameters hid hmore⟩

section

variable {g : GoalState} (hids : ∀ id ∈ [g.containerId, g.instanceId], Xml.AreLegal id.toList)
  {sender : Sender} {e : Event} (h : IsBuilt g sender e)
include hids h

/-- A document can hold an event just if it can hold the texts of the sender. -/
theorem IsBuilt.legal_iff : e.Legal ↔ sender.IsLegal := by
  simp only [List.forall_mem_cons] at hids
  obtain ⟨hcontainer, hinstance, -⟩ := hids
  obtain ⟨hversion, hprovider, before, after, hparameters, hothers⟩ :=
    h.exists_parameters hinstance
  have hnames : Xml.AreLegal eventVersion.toList ∧ Xml.AreLegal "Version".toList ∧
      Xml.AreLegal "Container".toList ∧ Xml.AreLegal "RoleInstance".toList := by decide
  obtain ⟨hbefore, hafter⟩ := List.forall_mem_append.mp hothers
  rw [Event.legal_iff, hversion, hprovider, hparameters]
  simp only [List.forall_mem_cons, List.forall_mem_append, hnames, hcontainer, hinstance,
    true_and]
  constructor
  · exact fun hlegal => ⟨hlegal.2.1, hlegal.1⟩
  · intro hsender
    have hentry {entry : String × String} (hother : IsOther sender entry) :
        Xml.AreLegal entry.1.toList ∧ Xml.AreLegal entry.2.toList :=
      ⟨hother.1.2.2, hother.2 hsender⟩
    exact ⟨hsender.2, hsender.1, fun entry he => hentry (hbefore entry he),
      fun entry he => hentry (hafter entry he)⟩

theorem IsBuilt.filter_parameters :
    e.parameters.filter (fun entry => entry.1 == "Container") = [("Container", g.containerId)] ∧
      e.parameters.filter (fun entry => entry.1 == "RoleInstance") =
        [("RoleInstance", g.instanceId)] := by
  simp only [List.forall_mem_cons] at hids
  obtain ⟨-, -, before, after, hparameters, hothers⟩ := h.exists_parameters hids.2.1
  obtain ⟨hbefore, hafter⟩ := List.forall_mem_append.mp hothers
  have hnone {name : String} {entries : List (String × String)}
      (hentries : ∀ entry ∈ entries, entry.1 ≠ name) :
      entries.filter (fun entry => entry.1 == name) = [] := by
    rw [List.filter_eq_nil_iff]
    exact fun entry he => by simpa using hentries entry he
  rw [hparameters]
  simp [hnone fun entry he => (hbefore entry he).1.1, hnone fun entry he => (hafter entry he).1.1,
    hnone fun entry he => (hbefore entry he).1.2.1, hnone fun entry he => (hafter entry he).1.2.1]

/-- An event can be read just if the texts of its sender are legal, and is then read with the
identifiers of the goal state. -/
theorem IsBuilt.reads_back :
    ((∃ root, Xml.read? e.toXml.toList = some root) ↔ sender.IsLegal) ∧
      ∀ root, Xml.read? e.toXml.toList = some root →
        valuesOf "Container" root = [g.containerId.toList] ∧
          valuesOf "RoleInstance" root = [g.instanceId.toList] := by
  rw [read?_toXml, ← h.legal_iff hids]
  split_ifs with hlegal
  · refine ⟨⟨fun _ => hlegal, fun _ => ⟨_, rfl⟩⟩, ?_⟩
    rintro _ ⟨⟩
    obtain ⟨hcontainer, hinstance⟩ := h.filter_parameters hids
    rw [valuesOf_toNode, valuesOf_toNode, hcontainer, hinstance]
    exact ⟨rfl, rfl⟩
  · constructor
    · exact ⟨fun ⟨_, hread⟩ => absurd hread (by simp), fun hsender => absurd hsender hlegal⟩
    · rintro _ ⟨⟩

end

end Report.Event

end WireAgent
