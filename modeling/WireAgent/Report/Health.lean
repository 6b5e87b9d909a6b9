import WireAgent.GoalState
import WireAgent.Xml.Writer

/-!
# Health reports

A health report acknowledges a goal state: it names the incarnation, the container and the role
instance, and the state of the machine.
-/

namespace WireAgent.Report

/-- The state of a machine on which all is well. -/
def ready : String := "Ready"

/-- The acknowledgement of a goal state. -/
structure Health where
  incarnation : Nat
  containerId : String
  instanceId : String
  state : String := ready
  deriving DecidableEq, Repr

/-- The health report for a goal state. -/
def Health.ofGoalState (g : GoalState) : Health where
  incarnation := g.incarnation
  containerId := g.containerId
  instanceId := g.instanceId

/-- An element without attributes. -/
def plainElement (name : String) (children : List Xml.Node) : Xml.Node :=
  .element (.plain name) [] children

/-- An element that holds a text. -/
def textElement (name text : String) : Xml.Node := plainElement name [.text text.toList]

/-- The document of a health report. An incarnation that is acknowledged has been read, so it is of
32 bits and can be written. -/
def Health.toNode (h : Health) : Xml.Node :=
  plainElement "Health" [
    textElement "GoalStateIncarnation" (Number.ofInt h.incarnation),
    plainElement "Container" [
      textElement "ContainerId" h.containerId,
      plainElement "RoleInstanceList" [
        plainElement "Role" [
          textElement "InstanceId" h.instanceId,
          plainElement "Health" [textElement "State" h.state]]]]]

/-- The text of a health report. -/
def Health.toXml (h : Health) : String := String.ofList h.toNode.write

end WireAgent.Report
