import WireAgent.Number.Digits
import WireAgent.Text.Blank
import WireAgent.Text.Line
import WireAgent.Text.Quoted
import WireAgent.Xml.Expansion

/-!
# Goal states

A goal state is what the wire server wants of the machine: an incarnation, the container and the
role instance that it is for, and a version. `GoalState.ofXml` reads one from its document. The
identifiers and the incarnation are the trimmed texts of four elements; the incarnation is a row of
ASCII digits that denotes a number of 32 bits.
-/

namespace WireAgent

/-- What the wire server wants of the machine. -/
structure GoalState where
  incarnation : Nat
  containerId : String
  instanceId : String
  version : String := ""
  deriving DecidableEq, Repr

namespace GoalState

/-- Why there is no goal state. -/
inductive Error where
  /-- The document is not well formed. -/
  | malformed
  /-- There is no text at a path. -/
  | missing (path : List String)
  /-- The text of the incarnation denotes no number of 32 bits. -/
  | invalidIncarnation (text : String)
  /-- The incarnation has too many digits to be converted. -/
  | longIncarnation (digits : Nat)
  /-- The incarnation is negative. -/
  | negativeIncarnation (incarnation : Int)
  deriving DecidableEq, Repr

/-- The text of an error. -/
def Error.message : Error → String
  | .malformed => "Malformed goal state XML"
  | .missing path => "Goal state is missing " ++ Text.join "/" path
  | .invalidIncarnation text => "Invalid Incarnation: " ++ Text.quoted text
  | .longIncarnation digits => Number.tooLongMessage digits
  | .negativeIncarnation n => "Incarnation must be >= 0, got " ++ Number.ofInt n

/-- A goal state with an incarnation that may be negative. -/
def create (incarnation : Int) (containerId instanceId version : String) :
    Except Error GoalState :=
  match incarnation with
  | .ofNat n => .ok ⟨n, containerId, instanceId, version⟩
  | n => .error (.negativeIncarnation n)

/-- Where the version is found. -/
def versionPath : List String := ["Version"]

/-- Where the incarnation is found. -/
def incarnationPath : List String := ["Incarnation"]

/-- Where the container is found. -/
def containerPath : List String := ["Container", "ContainerId"]

/-- Where the role instance is found. -/
def instancePath : List String := ["Container", "RoleInstanceList", "RoleInstance", "InstanceId"]

/-- The trimmed text at a path, which must not be blank. -/
def required (root : Xml.Node) (path : List String) : Except Error (List Char) :=
  match root.textAt? path with
  | none => .error (.missing path)
  | some text =>
    if (Text.trim text).isEmpty then .error (.missing path) else .ok (Text.trim text)

/-- The incarnation that a text denotes. -/
def readIncarnation (text : List Char) : Except Error Nat :=
  match Number.asciiWorths? text with
  | none | some [] => .error (.invalidIncarnation (String.ofList text))
  | some worths =>
    match Number.convert worths with
    | .error _ => .error (.longIncarnation worths.length)
    | .ok n =>
      if n ≤ Number.greatest32 then .ok n else .error (.invalidIncarnation (String.ofList text))

/-- The goal state in a document. -/
def ofRoot (root : Xml.Node) : Except Error GoalState := do
  let incarnation ← readIncarnation (← required root incarnationPath)
  let containerId ← required root containerPath
  let instanceId ← required root instancePath
  let version := Text.trim ((root.textAt? versionPath).getD [])
  return ⟨incarnation, String.ofList containerId, String.ofList instanceId, String.ofList version⟩

/-- The goal state in the text of a document. -/
def ofXml (text : String) : Except Error GoalState :=
  match Xml.parse? text.toList with
  | none => .error .malformed
  | some root => ofRoot root

end GoalState

end WireAgent
