import WireAgent.Calendar.Moment
import WireAgent.Host.Readings
import WireAgent.Report.Health

/-!
# Telemetry events

An event has a kind and parameters, whose order is part of what is sent. Two events announce the
start of the agent, and after that a cycle of four kinds is sent over and over. `startup` and
`cycle` build the two sorts; the parameters of one kind differ between them.
-/

namespace WireAgent.Report

/-- The kinds of events. -/
inductive EventKind where
  | heartBeat
  | agentStatus
  | agentStart
  | provision
  deriving DecidableEq, Repr

namespace EventKind

/-- All kinds. -/
def all : List EventKind := [.heartBeat, .agentStatus, .agentStart, .provision]

/-- The name of a kind on the wire. -/
def name : EventKind → String
  | .heartBeat => "HeartBeat"
  | .agentStatus => "AgentStatus"
  | .agentStart => "WAStart"
  | .provision => "Provision"

/-- The number of a kind on the wire. -/
def id : EventKind → Nat
  | .heartBeat => 1
  | .agentStatus => 2
  | .agentStart => 3
  | .provision => 4

/-- The kind of a name. -/
def ofName? (name : String) : Option EventKind := all.find? fun kind => kind.name == name

/-- The kind of the event with a number, the first being 1. The kinds follow each other in a cycle
of four. -/
def ofCounter (counter : Int) : EventKind :=
  match counter % 4 with
  | 0 => .agentStatus
  | 1 => .heartBeat
  | 2 => .agentStart
  | _ => .provision

end EventKind

/-- The version of the documents that hold events. -/
def eventVersion : String := "1.0"

/-- An event. -/
structure Event where
  kind : EventKind
  parameters : List (String × String)
  provider : String
  version : String := eventVersion
  deriving DecidableEq, Repr

namespace Event

/-- Why an event cannot be built. -/
inductive Error where
  /-- The time of the event cannot be written. -/
  | time (error : Calendar.RangeError)
  /-- The kind announces no start. -/
  | notStartup (kind : EventKind)
  /-- The kind reports readings, and there are none. -/
  | statsMissing
  /-- A reading is too large to be written. -/
  | figureTooLarge
  deriving DecidableEq, Repr

/-- The text of an error. -/
def Error.message : Error → String
  | .time error => error.message
  | .notStartup kind => kind.name ++ " is not a startup event"
  | .statsMissing => "HeartBeat events require system stats"
  | .figureTooLarge => "int too large to convert to float"

/-- The value of the first parameter of a name. -/
def parameter? (e : Event) (name : String) : Option String :=
  (e.parameters.find? fun entry => entry.1 == name).map Prod.snd

/-- An element with attributes in no namespace. -/
def element (name : String) (attributes : List (String × String)) (children : List Xml.Node) :
    Xml.Node :=
  .element (.plain name) (attributes.map fun (name, value) => (.plain name, value.toList)) children

/-- The document of an event. -/
def toNode (e : Event) : Xml.Node :=
  element "TelemetryData" [("version", e.version)] [
    element "Provider" [("id", e.provider)] [
      element "Event" [("id", Number.ofInt e.kind.id)] [
        element "EventData" [("name", e.kind.name)] (e.parameters.map fun (name, value) =>
          element "Param" [("name", name), ("value", value)] [])]]]

/-- The text of an event. -/
def toXml (e : Event) : String := String.ofList e.toNode.write

/-- What an event says of its sender: the versions and the provider that it names. -/
structure Sender where
  version : String
  provider : String
  deriving DecidableEq, Repr

/-- The timestamp of an event. -/
def stamp (now : Calendar.Moment) : Except Error String :=
  now.timestamp.mapError .time

/-- The event that announces a start. -/
def startup (kind : EventKind) (g : GoalState) (sender : Sender) (now : Calendar.Moment) :
    Except Error Event := do
  let time ← stamp now
  let place := [("Container", g.containerId), ("RoleInstance", g.instanceId), ("Timestamp", time)]
  match kind with
  | .agentStart =>
    return ⟨kind, ("Version", sender.version) :: ("GAState", ready) :: place, sender.provider,
      eventVersion⟩
  | .provision =>
    return ⟨kind, ("Version", sender.version) :: ("IsVMProvisionedForLogs", "true")
      :: ("ProvisioningState", ready) :: place, sender.provider, eventVersion⟩
  | kind => throw (.notStartup kind)

/-- The message of an agent that runs. -/
def runningMessage : String := "Guest Agent is running"

/-- A reading as a percentage. -/
def percentage (figure : Host.Figure) : Except Error String :=
  match figure.percentage? with
  | some text => .ok text
  | none => .error .figureTooLarge

/-- The parameters that the readings of the host give. -/
def readings (g : GoalState) : Option Host.Stats → Except Error (List (String × String))
  | none => throw .statsMissing
  | some stats => do
    let cpu ← percentage stats.cpu
    let memory ← percentage stats.memory
    return [("IsVersionFromRSM", "true"), ("GAState", ready), ("Role", g.instanceId),
      ("CPU", cpu), ("Memory", memory), ("ProcessorTime", Number.ofInt stats.uptime)]

/-- The parameters of a kind in the cycle that follow those common to all. -/
def cycleParameters (g : GoalState) (stats : Option Host.Stats) (sender : Sender) :
    EventKind → Except Error (List (String × String))
  | .heartBeat => readings g stats
  | .agentStart => return [("GAState", ready)]
  | .provision => return [("IsVMProvisionedForLogs", "true"), ("ProvisioningState", ready)]
  | .agentStatus => return [("Status", ready), ("Message", runningMessage),
      ("FormattedMessage", runningMessage ++ " (Version: " ++ sender.version ++ ")")]

/-- An event of the cycle. -/
def cycle (kind : EventKind) (g : GoalState) (stats : Option Host.Stats) (sender : Sender)
    (now : Calendar.Moment) : Except Error Event := do
  let time ← stamp now
  let more ← cycleParameters g stats sender kind
  return ⟨kind, ("Version", sender.version) :: ("Timestamp", time) :: ("Container", g.containerId)
    :: ("RoleInstance", g.instanceId) :: more, sender.provider, eventVersion⟩

end Event

end WireAgent.Report
