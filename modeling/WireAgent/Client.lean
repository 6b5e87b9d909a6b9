import WireAgent.Firewall

/-!
# Exchanges with the wire server

Every request is sent under one policy: if the endpoint cannot be reached, a remediation is tried
once and the same request is sent once more; whatever goes wrong then, and every other failure at
once, ends the exchange. That the endpoint refuses what it is sent is no failure: it is logged and
the answer is returned.
-/

namespace WireAgent

/-- The answer to a request. -/
structure Answer where
  status : Int
  body : String
  deriving DecidableEq, Repr

/-- Does the answer accept the request? -/
def Answer.isAccepted (a : Answer) : Bool := 200 ≤ a.status && a.status < 300

/-- The fault that a failure of an exchange is. The endpoint could not be reached if a connection
failed or took too long, but not for want of a proxy, of security or of an address for a name. A
failure outside the family of exchanges stays what it is. -/
def Fault.ofFailure (failure : Failure) : Fault :=
  let kind := failure.root.kind
  let text := failure.root.text
  if !kind.isRequest then .failed failure
  else if kind = .tls ∨ kind = .proxy then .transport text
  else if failure.isNameResolution then .transport ("Name resolution failed: " ++ text)
  else if kind.isTimeout || kind.isConnection then .connectivity text
  else .transport text

/-- What may be done to get the endpoint back into reach. -/
inductive Remediation where
  /-- Nothing. -/
  | nothing
  /-- Something outside the agent. -/
  | external
  /-- The agent adds its rule to the firewall. -/
  | firewall (f : Firewall)
  deriving DecidableEq, Repr

/-- Runs a remediation: is the endpoint allowed now? -/
def Remediation.run (owner : Int) : Remediation → Action Bool
  | .nothing => return false
  | .external => Action.remediate owner
  | .firewall f => f.ensure owner

/-- What exchanges are made with. -/
structure Client where
  settings : Settings
  remediation : Remediation
  deriving DecidableEq, Repr

namespace Client

/-! ## The policy -/

/-- A request under the timeout of the settings. -/
def timed (c : Client) (request : Request) : Request :=
  { request with timeout := c.settings.requestTimeout }

/-- Sends a request once, under the timeout of the settings. -/
def sendOnce (c : Client) (request : Request) : Action Answer := do
  match ← Action.outcome (Action.request (c.timed request)) with
  | .ok (status, body) => return ⟨status, body⟩
  | .error (.failed failure) => throw (Fault.ofFailure failure)
  | .error fault => throw fault

/-- Runs the remediation for the owner of the rule. -/
def runRemediation (c : Client) : Action Bool := do
  let owner ← Firewall.ownerOf c.settings.firewallOwner
  c.remediation.run owner

/-- Tries the remediation once. That it fails is logged and holds nothing up. -/
def remediate (c : Client) : Action Unit := do
  if c.remediation = .nothing then
    Action.log .warning .client "No remediation configured, retrying as is"
  else
    Action.log .info .client "Attempting to add firewall rule for wire server access..."
    match ← Action.outcome c.runRemediation with
    | .ok true => return
    | .ok false => Action.log .warning .client "Remediation did not add the firewall rule"
    | .error fault => Action.log .error .client ("Remediation failed: " ++ fault.message)

/-- Sends a request under the policy; with `remediates` off it is sent only once. -/
def send (c : Client) (request : Request) (remediates : Bool := true) : Action Answer := do
  match ← Action.outcome (c.sendOnce request) with
  | .ok answer => return answer
  | .error (.connectivity text) =>
    if remediates then
      Action.log .warning .client
        ("Timeout or connection error reaching wire server: " ++ text)
      c.remediate
      Action.log .info .client ("Retrying " ++ request.method ++ " " ++ request.url)
      c.sendOnce request
    else throw (.connectivity text)
  | .error fault => throw fault

/-! ## Requests -/

/-- The headers of what is sent to the machine endpoint. -/
def wireHeaders (c : Client) : List (String × String) :=
  [("x-ms-version", c.settings.wireVersion), ("x-ms-agent-name", c.settings.agentName),
   ("User-Agent", c.settings.versionString), ("Content-Type", "text/xml;charset=utf-8")]

/-- The headers of a status report. -/
def statusHeaders (c : Client) (report : Report.Status) : List (String × String) :=
  [("x-ms-version", c.settings.statusVersion), ("x-ms-agent-name", c.settings.agentName),
   ("User-Agent", c.settings.versionString), ("Content-Type", "application/json"),
   ("x-ms-containerid", report.containerId), ("x-ms-host-config-name", report.configurationName)]

/-- The request for the goal state. -/
def goalStateRequest (c : Client) : Request where
  method := "GET"
  url := c.settings.machineUrl ++ "?comp=goalstate"
  headers := [("x-ms-version", c.settings.wireVersion)]
  body := none
  json := none
  timeout := c.settings.requestTimeout

/-- A request that brings a text to a component of the machine endpoint. -/
def wireRequest (c : Client) (component text : String) : Request where
  method := "POST"
  url := c.settings.machineUrl ++ "?comp=" ++ component
  headers := c.wireHeaders
  body := some text
  json := none
  timeout := c.settings.requestTimeout

/-- The request that publishes a status report in its envelope. -/
def statusRequest (c : Client) (report : Report.Status) (payload : Json) : Request where
  method := "PUT"
  url := c.settings.statusUrl
  headers := c.statusHeaders report
  body := none
  json := some payload
  timeout := c.settings.requestTimeout

/-! ## Exchanges -/

/-- Logs how an exchange ended. -/
def logAnswer (done refused : String) (answer : Answer) : Action Unit := do
  Action.log .info .client (done ++ ": " ++ Number.ofInt answer.status)
  if !answer.isAccepted then Action.log .warning .client (refused ++ ": " ++ answer.body)

/-- A goal state as the log shows it. -/
def describe (g : GoalState) : String :=
  "GoalState(incarnation=" ++ Number.ofInt g.incarnation ++ ", container_id="
    ++ Text.quoted g.containerId ++ ", instance_id=" ++ Text.quoted g.instanceId ++ ", version="
    ++ Text.quoted g.version ++ ")"

/-- Reads the goal state in an answer that accepts the request. -/
def receiveGoalState (answer : Answer) : Action GoalState := do
  if !answer.isAccepted then throw (.goalStateRefused answer.status answer.body)
  let g ← Action.lift .goalState (GoalState.ofXml answer.body)
  Action.log .debug .client ("Received GoalState: " ++ describe g)
  return g

/-- Asks for the goal state. -/
def fetchGoalState (c : Client) : Action GoalState := do
  let answer ← c.send c.goalStateRequest
  receiveGoalState answer

/-- Sends a health report. -/
def sendHealth (c : Client) (report : Report.Health) : Action Answer := do
  let text := report.toXml
  Action.log .debug .client ("Generated health report XML: " ++ text)
  let answer ← c.send (c.wireRequest "health" text)
  logAnswer "Health report status" "Health report error" answer
  return answer

/-- Sends an event under a number. -/
def sendEvent (c : Client) (event : Report.Event) (number : Int := 0) : Action Answer := do
  let title := event.kind.name ++ " #" ++ Number.ofInt number
  Action.log .info .client ("Sending " ++ title)
  let answer ← c.send (c.wireRequest "telemetrydata" event.toXml)
  logAnswer (title ++ " status") "Telemetry error" answer
  return answer

/-- Publishes a status report. -/
def publishStatus (c : Client) (report : Report.Status) : Action Answer := do
  Action.log .info .client "Sending status report to status service..."
  let payload ← Action.lift .statusReport (report.payload c.settings.storeVersion)
  let answer ← c.send (c.statusRequest report payload) c.settings.remediatesStatus
  logAnswer "Status service response" "Status service error" answer
  return answer

/-- Closes the session. -/
def close (_ : Client) : Action Unit := Action.close

end Client

end WireAgent
