import WireAgent.Heartbeat

/-!
# The agent

The agent passes through the stages of the bootstrap in order: it fetches the goal state, once and
for all, acknowledges it, announces its start with two events and a delay between them, and
publishes its status; then the heartbeat goes on until the agent is told to stop. Each step must be
taken at its stage. A step that ends early leaves the stage as it was.
-/

namespace WireAgent

/-- How far the agent has come, and what it has learnt and set up on the way. -/
structure Agent where
  stage : Stage := .start
  goalState : Option GoalState := none
  heartbeat : Option Heartbeat := none
  deriving DecidableEq, Repr

namespace Agent

/-- The stage must be the expected one. -/
def require (expected : Stage) : Activity Agent Unit := do
  let a ← Activity.current
  if a.stage ≠ expected then throw (.outOfOrder a.stage expected)

/-- Goes on to a stage. -/
def advance (next : Stage) : Activity Agent Unit := do
  let a ← Activity.current
  Action.log .debug .agent ("Bootstrap: " ++ a.stage.name ++ " -> " ++ next.name)
  Activity.become { a with stage := next }

/-- The goal state at a stage at which there is one. -/
def goalStateAt (expected : Stage) : Activity Agent GoalState := do
  require expected
  match (← Activity.current).goalState with
  | some g => return g
  | none => throw (.outOfOrder .start expected)

/-! ## The steps of the bootstrap -/

/-- Fetches the goal state. -/
def fetchGoalState (c : Client) : Activity Agent GoalState := do
  require .start
  Action.log .info .agent "Fetching goal state"
  let g ← c.fetchGoalState
  Activity.become { ← Activity.current with goalState := some g }
  advance .goalStateFetched
  Action.log .info .agent ("Goal state incarnation " ++ Number.ofInt g.incarnation
    ++ " (container " ++ g.containerId ++ ", instance " ++ g.instanceId ++ ")")
  return g

/-- Acknowledges the goal state. -/
def acknowledgeHealth (c : Client) : Activity Agent Unit := do
  let g ← goalStateAt .goalStateFetched
  let _ ← c.sendHealth (.ofGoalState g)
  advance .healthAcknowledged

/-- Builds an event that announces the start, and sends it. -/
def announce (c : Client) (g : GoalState) (kind : Report.EventKind) : Action Unit := do
  let now ← Action.now
  let event ← Action.lift .event
    (Report.Event.startup kind g (Heartbeat.senderOf c.settings) now)
  let _ ← c.sendEvent event

/-- Announces the start with two events and a delay between them. The answer is no if the agent was
told to stop during the delay. -/
def announceStart (c : Client) (g : GoalState) : Action Bool := do
  Action.log .info .agent "Sending initial agent startup events..."
  announce c g .agentStart
  if ← Action.wait c.settings.settleDelay then return false
  else
    announce c g .provision
    return true

/-- Announces the start. The answer is no if the agent was told to stop on the way. -/
def sendStartupEvents (c : Client) : Activity Agent Bool := do
  let g ← goalStateAt .healthAcknowledged
  if ← announceStart c g then
    advance .startupSent
    return true
  else return false

/-- Builds a report of the status, and publishes it. -/
def report (c : Client) (g : GoalState) : Action Answer := do
  let host ← Host.identity
  let now ← Action.now
  c.publishStatus (.ofGoalState g host c.settings.versionString now)

/-- Publishes the status. -/
def publishStatus (c : Client) : Activity Agent Unit := do
  let g ← goalStateAt .startupSent
  let _ ← report c g
  advance .statusPublished

/-- Takes all steps. The answer is no if the agent was told to stop on the way. -/
def bootstrap (c : Client) : Activity Agent Bool := do
  let _ ← fetchGoalState c
  acknowledgeHealth c
  if ← sendStartupEvents c then
    publishStatus c
    return true
  else return false

/-! ## Running -/

/-- Sets the heartbeat up and keeps it going. -/
def keepBeating (c : Client) : Activity Agent Unit := do
  let g ← goalStateAt .statusPublished
  Activity.become { ← Activity.current with heartbeat := some ⟨g, 1⟩ }
  advance .heartbeatLoop
  Activity.within (fun a => a.heartbeat.getD ⟨g, 1⟩) (fun h a => { a with heartbeat := some h })
    (Heartbeat.run c)

/-- Takes all steps and then keeps the heartbeat going, unless the agent is told to stop. -/
def work (c : Client) : Activity Agent Unit := do
  if ← bootstrap c then
    if !(← Action.isStopped) then keepBeating c

/-- Runs the agent until it is told to stop, and closes the session however that ends. -/
def run (c : Client) : Activity Agent Unit := do
  Action.log .info .agent ("Starting " ++ c.settings.versionString)
  (work c).thenAlways do
    Action.log .info .agent "Agent shutting down"
    c.close

/-- The signals that tell the agent to stop. -/
def stopSignals : List Int := [15, 2]

/-- Has the signals to stop handled. -/
def installSignals : Action Unit := stopSignals.forM Action.handle

end Agent

end WireAgent
