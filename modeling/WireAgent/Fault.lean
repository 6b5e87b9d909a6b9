import WireAgent.Failure.Graph
import WireAgent.FileTree
import WireAgent.Report.Status
import WireAgent.Stage

/-!
# Faults

Why an action of the agent ends early. The faults of the protocol are those of the exchanges with
the wire server and of what it answers; they end the agent in an orderly way.
-/

namespace WireAgent

/-- Why an action ends early. -/
inductive Fault where
  /-- The endpoint could not be reached. -/
  | connectivity (text : String)
  /-- The exchange failed although the endpoint may be in reach. -/
  | transport (text : String)
  /-- The goal state was refused. -/
  | goalStateRefused (status : Int) (body : String)
  /-- The answer holds no goal state. -/
  | goalState (error : GoalState.Error)
  /-- An event could not be built. -/
  | event (error : Report.Event.Error)
  /-- A status report could not be written. -/
  | statusReport (error : Report.Status.Error)
  /-- A step of the bootstrap was taken out of order. -/
  | outOfOrder (stage expected : Stage)
  /-- There is no user of this name. -/
  | unknownUser (name : String)
  /-- Something that the agent uses failed. -/
  | failed (failure : Failure)
  /-- A file could not be opened. -/
  | file (error : FileError) (path : String)
  /-- A file is not UTF-8. -/
  | undecodable
  /-- A number could not be converted. -/
  | numeral (error : Number.NumeralError)
  /-- The available share of memory is too large a number. -/
  | memoryShareTooLarge
  /-- The machine has been up forever. -/
  | uptimeInfinite
  deriving DecidableEq, Repr

namespace Fault

/-- Is it a fault of the protocol? -/
def isProtocol : Fault → Bool
  | .connectivity _ | .transport _ | .goalStateRefused .. => true
  | .goalState (.longIncarnation _) => false
  | .goalState _ => true
  | _ => false

/-- The text of a fault. -/
def message : Fault → String
  | .connectivity text => text
  | .transport text => text
  | .goalStateRefused status body =>
    "Goal state request failed with HTTP " ++ Number.ofInt status ++ ": " ++ body
  | .goalState error => error.message
  | .event error => error.message
  | .statusReport error => error.message
  | .outOfOrder stage expected =>
    "Bootstrap step out of order: in " ++ stage.name ++ ", expected " ++ expected.name
  | .unknownUser name => Text.quoted ("getpwnam(): name not found: " ++ Text.quoted name)
  | .failed failure => failure.root.text
  | .file error path => error.message path
  | .undecodable => ""
  | .numeral .malformed => ""
  | .numeral (.tooLong digits) => Number.tooLongMessage digits
  | .memoryShareTooLarge => "integer division result too large for a float"
  | .uptimeInfinite => "cannot convert float infinity to integer"

end Fault

end WireAgent
