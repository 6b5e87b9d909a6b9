import WireAgent.Base64
import WireAgent.Json.Writer
import WireAgent.Report.Event

/-!
# Status reports

A status report tells how agent and machine are. Its document is published in an envelope, as the
base64 text of its JSON text, together with the headers that the store of status documents wants.
-/

namespace WireAgent.Report

/-- How agent and machine are at a time. -/
structure Status where
  time : Calendar.Moment
  agentVersion : String
  incarnation : Nat
  containerId : String
  instanceId : String
  host : Host.Identity
  status : String := ready
  deriving DecidableEq, Repr

namespace Status

/-- Why a report cannot be written. -/
inductive Error where
  /-- The time of the report cannot be written. -/
  | time (error : Calendar.RangeError)
  /-- The incarnation has too many digits. -/
  | incarnationTooLarge
  deriving DecidableEq, Repr

/-- The text of an error. -/
def Error.message : Error → String
  | .time error => error.message
  | .incarnationTooLarge => Number.tooLargeMessage

/-- The version of status documents. -/
def schemaVersion : String := "1.1"

/-- The features that the agent claims to have, with their versions. -/
def features : List (String × String) :=
  [("MultipleExtensionsPerHandler", "1.0"), ("VersioningGovernance", "1.0"), ("FastTrack", "1.0")]

/-- The status report for a goal state. -/
def ofGoalState (g : GoalState) (host : Host.Identity) (agentVersion : String)
    (time : Calendar.Moment) : Status where
  time := time
  agentVersion := agentVersion
  incarnation := g.incarnation
  containerId := g.containerId
  instanceId := g.instanceId
  host := host

/-- The name of the host configuration that the report is for. -/
def configurationName (s : Status) : String :=
  s.instanceId ++ ".0." ++ s.instanceId ++ ".0._gpg.1.xml"

/-- A message with its language. -/
def formatted (message : String) : Json :=
  .object [("lang", .string "en-US"), ("message", .string message)]

/-- The document of a report whose time and incarnation are written as `time` and `number`. -/
def documentAt (s : Status) (time number : String) : Json :=
  .object [
    ("version", .string schemaVersion),
    ("timestampUTC", .string time),
    ("aggregateStatus", .object [
      ("guestAgentStatus", .object [
        ("version", .string s.agentVersion),
        ("status", .string s.status),
        ("formattedMessage", formatted Event.runningMessage),
        ("updateStatus", .object [
          ("expectedVersion", .string s.agentVersion),
          ("status", .string "Success"),
          ("code", .integer 0),
          ("formattedMessage", formatted "")])]),
      ("handlerAggregateStatus", .array []),
      ("vmArtifactsAggregateStatus", .object [
        ("goalStateAggregateStatus", .object [
          ("formattedMessage", formatted "GoalState executed successfully"),
          ("timestampUTC", .string time),
          ("inSvdSeqNo", .string number),
          ("status", .string "Success"),
          ("code", .integer 0)])])]),
    ("guestOSInfo", .object [
      ("computerName", .string s.host.hostname),
      ("osName", .string s.host.osName),
      ("osVersion", .string s.host.osVersion),
      ("version", .string s.agentVersion)]),
    ("supportedFeatures", .array (features.map fun (key, value) =>
      .object [("Key", .string key), ("Value", .string value)]))]

/-- The document of a report. -/
def document (s : Status) : Except Error Json := do
  let time ← s.time.rfc3339.mapError .time
  match Number.write? s.incarnation with
  | some number => return s.documentAt time number
  | none => throw .incarnationTooLarge

/-- A JSON text in base64. -/
def content (document : Json) : String :=
  String.ofList (Base64.encode document.render.toUTF8.toList)

/-- A header of the envelope. -/
def header (name value : String) : Json :=
  .object [("headerName", .string name), ("headerValue", .string value)]

/-- Where the document of a container is stored. -/
def blobUri (containerId : String) : String :=
  "https://md-hdd-placeholder.z27.blob.storage.azure.net/$system/gpg." ++ containerId ++ ".status"

/-- The envelope of a report, for a version of the store. -/
def payload (s : Status) (storeVersion : String) : Except Error Json := do
  let document ← s.document
  let date ← s.time.timestamp.mapError .time
  return .object [
    ("content", .string (content document)),
    ("headers", .array [
      header "Content-Length" "1024",
      header "x-ms-date" date,
      header "x-ms-range" "bytes=0-1023",
      header "x-ms-page-write" "update",
      header "x-ms-version" storeVersion]),
    ("requestUri", .string (blobUri s.containerId))]

end Status

end WireAgent.Report
