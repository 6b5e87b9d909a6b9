import WireAgent.GoalState
import WireAgent.Proofs.Layout
import WireAgent.Proofs.Numerals
import WireAgent.Proofs.Tolerance
import WireAgent.Proofs.Trimming

/-!
# Goal states and their documents

A goal state is read back from its document, however the document is laid out
(`GoalState.ofXml_document`): with white space between any two tags and around any text, and with
whatever characters in the texts that a document may hold and trimming leaves.
-/

namespace WireAgent.GoalState

/-! ## Laying a document out -/

/-- White space between two tags, or between a tag and a text. -/
structure Gap where
  text : List Char
  isSpace : ∀ c ∈ text, c = ' ' ∨ c = '\t' ∨ c = '\n'

/-- An element without attributes. -/
def tagged (name : String) (content : List Char) : List Char :=
  '<' :: name.toList ++ '>' :: content ++ '<' :: '/' :: name.toList ++ ['>']

/-- An element with a text, which gaps may set off from its tags. -/
def field (name : String) (before : Gap) (text : List Char) (after : Gap) : List Char :=
  tagged name (before.text ++ Xml.referText text ++ after.text)

/-- The texts in a document of a goal state. -/
structure Texts where
  version : List Char
  incarnation : List Char
  containerId : List Char
  instanceId : List Char

/-- A document with these texts. Of its gaps, `gap k` is the one before which there are `k`. -/
def Texts.layOut (t : Texts) (gap : Nat → Gap) : List Char :=
  tagged "GoalState" (
    (gap 0).text ++ field "Version" (gap 1) t.version (gap 2) ++
    (gap 3).text ++ field "Incarnation" (gap 4) t.incarnation (gap 5) ++
    (gap 6).text ++ tagged "Container" (
      (gap 7).text ++ field "ContainerId" (gap 8) t.containerId (gap 9) ++
      (gap 10).text ++ tagged "RoleInstanceList" (
        (gap 11).text ++ tagged "RoleInstance" (
          (gap 12).text ++ field "InstanceId" (gap 13) t.instanceId (gap 14) ++
          (gap 15).text) ++
        (gap 16).text) ++
      (gap 17).text) ++
    (gap 18).text)

/-- The texts of a goal state. -/
def texts (g : GoalState) : Texts :=
  ⟨g.version.toList, Number.decimal g.incarnation, g.containerId.toList, g.instanceId.toList⟩

/-- The document of a goal state. -/
def document (g : GoalState) (gap : Nat → Gap) : String := String.ofList (g.texts.layOut gap)

/-- A goal state that a document can give: the incarnation is a number of 32 bits, the texts hold
characters of documents and no blanks at their ends, and the identifiers are not empty. -/
structure IsGiven (g : GoalState) : Prop where
  incarnation : g.incarnation < 2 ^ 32
  legal : ∀ text ∈ [g.version, g.containerId, g.instanceId], ∀ c ∈ text.toList, Xml.IsChar c
  trimmed : ∀ text ∈ [g.version, g.containerId, g.instanceId], Text.trim text.toList = text.toList
  filled : g.containerId ≠ "" ∧ g.instanceId ≠ ""

theorem tagged_eq (name : String) (content : List Char) :
    tagged name content = Xml.enclose (.plain name) [] content := by
  simp [tagged, Xml.enclose, Xml.Name.plain, Xml.writeAttributes, Xml.tagEnd]

namespace Gap

variable (gap : Gap)

theorem isLegal : ∀ c ∈ gap.text, Xml.isLegal c = true := by
  intro c hc
  rcases gap.isSpace c hc with rfl | rfl | rfl <;> decide

theorem isBlanks : Text.IsBlanks gap.text := by
  intro c hc
  rcases gap.isSpace c hc with rfl | rfl | rfl <;> decide

theorem referText : Xml.referText gap.text = gap.text := by
  refine Xml.referText_eq_self fun c hc => ?_
  rcases gap.isSpace c hc with rfl | rfl | rfl <;> decide

end Gap

/-- A text between two gaps is content. -/
theorem isContent_padded (before after : Gap) {text : List Char}
    (h : ∀ c ∈ text, Xml.isLegal c = true) :
    Xml.IsContent (before.text ++ Xml.referText text ++ after.text)
      (Xml.Node.ofText (before.text ++ text ++ after.text)) := by
  have hlegal : ∀ c ∈ before.text ++ text ++ after.text, Xml.isLegal c = true := by
    simp only [List.forall_mem_append]
    exact ⟨⟨before.isLegal, h⟩, after.isLegal⟩
  have hcontent := Xml.IsContent.text hlegal
  rw [Xml.referText_append, Xml.referText_append, before.referText, after.referText] at hcontent
  exact hcontent

/-- A name that the elements of a goal state may have. -/
theorem isPlain_plain {name : String} (h : Xml.isName name.toList = true) :
    (Xml.Name.plain name).IsPlain :=
  ⟨rfl, h⟩

/-- A gap, an element and more content are content. -/
theorem isContent_tagged (gap : Gap) (name : String) (hname : Xml.isName name.toList = true)
    {inner rest : List Char} {children nodes : List Xml.Node}
    (hinner : Xml.IsContent inner children) (hrest : Xml.IsContent rest nodes) :
    Xml.IsContent (gap.text ++ (tagged name inner ++ rest))
      (Xml.Node.ofText gap.text ++ .element (.plain name) [] children :: nodes) := by
  have hcontent := hinner.append gap.isLegal (isPlain_plain hname) hrest
  rw [gap.referText, ← tagged_eq] at hcontent
  exact hcontent

/-- A gap alone is content. -/
theorem isContent_gap (gap : Gap) : Xml.IsContent gap.text (Xml.Node.ofText gap.text) := by
  have hcontent := Xml.IsContent.text gap.isLegal
  rwa [gap.referText] at hcontent

/-! ## Reading a document -/

/-- A digit is a character of documents and no blank. -/
theorem isLegal_of_isAsciiDigit {c : Char} (h : Text.isAsciiDigit c = true) :
    Xml.isLegal c = true ∧ Text.isBlank c = false := by
  simp only [Text.isAsciiDigit, Bool.and_eq_true, decide_eq_true_eq] at h
  have hlow : 48 ≤ c.toNat := h.1
  have hhigh : c.toNat ≤ 57 := h.2
  constructor
  · exact Xml.isLegal_iff.mpr (.inr (.inr (.inr (.inl ⟨by omega, by omega⟩))))
  · simp [Text.isBlank, Text.blankRanges, Text.Ranges.holds]
    omega

theorem isLegal_decimal (n : Nat) : ∀ c ∈ Number.decimal n, Xml.isLegal c = true :=
  fun _ hc => (isLegal_of_isAsciiDigit (Number.isAsciiDigit_of_mem_decimal hc)).1

theorem trim_decimal (n : Nat) : Text.trim (Number.decimal n) = Number.decimal n :=
  Text.trim_eq_self fun _ hc =>
    (isLegal_of_isAsciiDigit (Number.isAsciiDigit_of_mem_decimal hc)).2

/-- The tree of a document has each text with the gaps around it. -/
theorem parse?_layOut {t : Texts}
    (h : ∀ text ∈ [t.version, t.incarnation, t.containerId, t.instanceId],
      ∀ c ∈ text, Xml.isLegal c = true) (gap : Nat → Gap) :
    ∃ root, Xml.parse? (t.layOut gap) = some root ∧
      root.textAt? versionPath = some ((gap 1).text ++ t.version ++ (gap 2).text) ∧
      root.textAt? incarnationPath = some ((gap 4).text ++ t.incarnation ++ (gap 5).text) ∧
      root.textAt? containerPath = some ((gap 8).text ++ t.containerId ++ (gap 9).text) ∧
      root.textAt? instancePath = some ((gap 13).text ++ t.instanceId ++ (gap 14).text) := by
  simp only [List.forall_mem_cons] at h
  obtain ⟨hversion, hincarnation, hcontainer, hinstance, -⟩ := h
  have hrole := isContent_tagged (gap 12) "InstanceId" (by decide)
    (isContent_padded (gap 13) (gap 14) hinstance) (isContent_gap (gap 15))
  have hlist := isContent_tagged (gap 11) "RoleInstance" (by decide) hrole
    (isContent_gap (gap 16))
  have hplace := isContent_tagged (gap 7) "ContainerId" (by decide)
    (isContent_padded (gap 8) (gap 9) hcontainer)
    (isContent_tagged (gap 10) "RoleInstanceList" (by decide) hlist
      (isContent_gap (gap 17)))
  have hroot := isContent_tagged (gap 0) "Version" (by decide)
    (isContent_padded (gap 1) (gap 2) hversion)
    (isContent_tagged (gap 3) "Incarnation" (by decide)
      (isContent_padded (gap 4) (gap 5) hincarnation)
      (isContent_tagged (gap 6) "Container" (by decide) hplace (isContent_gap (gap 18))))
  have hname : Xml.isName "GoalState".toList = true := by decide
  have hparse := Xml.parse?_eq (hroot.read? (isPlain_plain hname))
  rw [Xml.isTolerated_enclose .utf8 (isPlain_plain hname), if_pos rfl] at hparse
  rw [← tagged_eq] at hparse
  refine ⟨_, (congrArg Xml.parse? ?_).trans hparse, ?_⟩
  · simp only [Texts.layOut, field, List.append_assoc]
  · simp [Xml.Node.textAt?, versionPath, incarnationPath, containerPath, instancePath,
      Xml.Node.matching, Xml.Node.children, Xml.Node.filter_ofText, Xml.Node.isNamed_plain,
      Xml.Node.leadingText, Xml.Node.textBefore_ofText]

theorem required_of_textAt? {root : Xml.Node} {path : List String} {cs : List Char}
    (h : root.textAt? path = some cs) (hne : Text.trim cs ≠ []) :
    required root path = .ok (Text.trim cs) := by
  rw [required, h]
  exact if_neg (by simpa using hne)

/-- There is a text at a path that is not blank, or its want is the error. -/
theorem required_cases (root : Xml.Node) (path : List String) :
    required root path = .error (.missing path) ∨
      ∃ cs, root.textAt? path = some cs ∧ Text.trim cs ≠ [] ∧
        required root path = .ok (Text.trim cs) := by
  rcases hpath : root.textAt? path with _ | cs
  · exact .inl (by rw [required, hpath])
  · by_cases hne : Text.trim cs = []
    · refine .inl ?_
      rw [required, hpath]
      exact if_pos (by rw [hne]; rfl)
    · exact .inr ⟨cs, rfl, hne, required_of_textAt? hpath hne⟩

/-- The text at a path without the gaps around it, if it is not empty. -/
theorem required_padded {root : Xml.Node} {path : List String} {before after : Gap}
    {text : List Char} (hpath : root.textAt? path = some (before.text ++ text ++ after.text))
    (htrim : Text.trim text = text) (hne : text ≠ []) : required root path = .ok text := by
  have htrimmed : Text.trim (before.text ++ text ++ after.text) = text := by
    rw [Text.trim_padded before.isBlanks after.isBlanks, htrim]
  rw [required_of_textAt? hpath (by rwa [htrimmed]), htrimmed]

/-- A text is an incarnation if it is a row of digits that is neither too long nor too great. -/
theorem readIncarnation_eq {cs : List Char} (hne : cs ≠ []) :
    readIncarnation cs =
      if Number.IsDigits cs then
        if Number.maxDigits < cs.length then .error (.longIncarnation cs.length)
        else if Number.asciiValue cs ≤ Number.greatest32 then .ok (Number.asciiValue cs)
        else .error (.invalidIncarnation (String.ofList cs))
      else .error (.invalidIncarnation (String.ofList cs)) := by
  unfold readIncarnation
  by_cases hdigits : Number.IsDigits cs
  · obtain ⟨worth, worths, hworths, hlength, hconvert⟩ := Number.exists_asciiWorths? hne hdigits
    simp only [hworths, hconvert, hlength, if_pos hdigits]
    by_cases hlong : Number.maxDigits < cs.length
    · simp only [if_pos hlong]
    · simp only [if_neg hlong]
  · rw [Number.asciiWorths?_eq_none hdigits, if_neg hdigits]

/-- A number of 32 bits is read from its digits. -/
theorem readIncarnation_decimal {n : Nat} (h : n < 2 ^ 32) :
    readIncarnation (Number.decimal n) = .ok n := by
  have hlength : (Number.decimal n).length ≤ 10 := Number.length_decimal_le (by decide) (by omega)
  have hshort : ¬Number.maxDigits < (Number.decimal n).length := by
    rw [Number.maxDigits]
    omega
  have hle : n ≤ Number.greatest32 := by
    rw [Number.greatest32]
    omega
  rw [readIncarnation_eq (Number.decimal_ne_nil n), if_pos (Number.isDigits_decimal n),
    if_neg hshort, Number.asciiValue_decimal, if_pos hle]

/-- What comes of two steps is what comes of the second one after the first. -/
theorem bind_eq_ok_iff {α β : Type} {x : Except Error α} {f : α → Except Error β} {b : β} :
    x.bind f = .ok b ↔ ∃ a, x = .ok a ∧ f a = .ok b := by
  cases x <;> simp [Except.bind]

/-- The incarnation of a goal state in a document is a number of 32 bits. -/
theorem incarnation_le_of_ofRoot {root : Xml.Node} {g : GoalState} (h : ofRoot root = .ok g) :
    g.incarnation ≤ Number.greatest32 := by
  simp only [ofRoot, bind, bind_eq_ok_iff] at h
  obtain ⟨digits, hdigits, n, hnumber, containerId, -, instanceId, -, hg⟩ := h
  cases hg
  rcases required_cases root incarnationPath with hmissing | ⟨cs, -, hne, hfound⟩
  · cases hdigits.symm.trans hmissing
  · cases hdigits.symm.trans hfound
    rw [readIncarnation_eq hne] at hnumber
    split_ifs at hnumber with hrow hlong hle
    cases hnumber
    exact hle

theorem incarnation_le {text : String} {g : GoalState} (h : ofXml text = .ok g) :
    g.incarnation ≤ Number.greatest32 := by
  unfold ofXml at h
  split at h
  · cases h
  · exact incarnation_le_of_ofRoot h

/-- The texts of a goal state hold characters of documents. -/
theorem IsGiven.isLegal_texts {g : GoalState} (h : g.IsGiven) :
    ∀ text ∈ [g.texts.version, g.texts.incarnation, g.texts.containerId, g.texts.instanceId],
      ∀ c ∈ text, Xml.isLegal c = true := by
  have hlegal : ∀ text ∈ [g.version, g.containerId, g.instanceId],
      ∀ c ∈ text.toList, Xml.isLegal c = true :=
    fun text ht c hc => Xml.isLegal_iff.mpr (h.legal text ht c hc)
  simp only [List.forall_mem_cons] at hlegal ⊢
  obtain ⟨hversion, hcontainer, hinstance, -⟩ := hlegal
  exact ⟨hversion, isLegal_decimal g.incarnation, hcontainer, hinstance, List.forall_mem_nil _⟩

/-- A goal state is read back from its document. -/
theorem ofXml_document {g : GoalState} (h : g.IsGiven) (gap : Nat → Gap) :
    ofXml (g.document gap) = .ok g := by
  obtain ⟨root, hparse, hversion, hincarnation, hcontainer, hinstance⟩ :=
    parse?_layOut h.isLegal_texts gap
  obtain ⟨htrimVersion, htrimContainer, htrimInstance, -⟩ := by
    simpa only [List.forall_mem_cons] using h.trimmed
  have hincarnation := required_padded hincarnation (trim_decimal _) (Number.decimal_ne_nil _)
  have hcontainer := required_padded hcontainer htrimContainer
    (fun hnil => h.filled.1 (String.toList_eq_nil_iff.mp hnil))
  have hinstance := required_padded hinstance htrimInstance
    (fun hnil => h.filled.2 (String.toList_eq_nil_iff.mp hnil))
  have hversion : Text.trim ((root.textAt? versionPath).getD []) = g.version.toList := by
    rw [hversion, Option.getD_some, Text.trim_padded (gap 1).isBlanks (gap 2).isBlanks]
    exact htrimVersion
  rw [ofXml, document, String.toList_ofList, hparse]
  simp only [ofRoot, hincarnation, hcontainer, hinstance, hversion, bind, Except.bind, texts,
    readIncarnation_decimal h.incarnation, String.ofList_toList]
  rfl

/-- The characters of markup and line breaks are kept, and the blanks inside a text. -/
theorem ofXml_document_breaks :
    IsGiven ⟨4294967295, "a\r\n&b", "<i\tj>", ""⟩ ∧
      ofXml (document ⟨4294967295, "a\r\n&b", "<i\tj>", ""⟩ fun _ => ⟨['\n', '\t'], by simp⟩) =
        .ok ⟨4294967295, "a\r\n&b", "<i\tj>", ""⟩ := by
  have hlegal : ∀ text ∈ ["", "a\r\n&b", "<i\tj>"], ∀ c ∈ text.toList, Xml.IsChar c := by
    simp only [← Xml.isLegal_iff, ← List.all_eq_true]
    decide
  have hgiven : IsGiven ⟨4294967295, "a\r\n&b", "<i\tj>", ""⟩ :=
    ⟨by decide, hlegal, by decide, by decide⟩
  exact ⟨hgiven, ofXml_document hgiven _⟩

end WireAgent.GoalState
