import WireAgent.Fault
import WireAgent.Json.Value
import WireAgent.Log

/-!
# The world of the agent

An action of the agent runs in a `World`: what the world will answer to requests, commands, waits
and readings, and a trace of all that the agent has done that can be seen from outside. Where the
answers prepared for requests, commands and remediations are used up, each is as good as can be. A
wait is cut short when the agent has been told to stop, and the world tells it so after a number of
waits. An `Activity` is an action of a part of the agent that has a state of its own.
-/

namespace WireAgent

/-- A request to a server. -/
structure Request where
  method : String
  url : String
  headers : List (String × String)
  body : Option String
  json : Option Json
  timeout : Number.Binary64

/-- What comes of a request: before it is answered or fails, the agent may be told to stop or get a
signal. -/
structure Exchange where
  status : Int := 200
  body : String := ""
  stops : Bool := false
  signal : Option Int := none
  failure : Option Failure := none

/-- What comes of a command: it ends with a code and two outputs that are texts, or the system
cannot run it. -/
inductive CommandOutcome where
  | ended (code : Int) (output errors : String)
  | unavailable (failure : Failure)

/-- What comes of a remediation. -/
inductive RemediationOutcome where
  | answered (allowed : Bool)
  | failed (failure : Failure)

/-- What can be read of the machine. -/
structure Machine where
  hostname : Except Failure String
  osId : String
  osVersion : String
  /-- The load of the last minute, if it can be read. -/
  load : Option Number.Binary64
  meminfo : Option FileEntry
  uptime : Option FileEntry

/-- What the agent does that can be seen from outside. -/
inductive Deed where
  | logged (record : LogRecord)
  | requested (request : Request)
  | ran (command : List String) (check : Bool)
  | remediated (owner : Int)
  | waited (seconds : Number.Binary64)
  | handled (signal : Int)
  | closed

/-- What the world holds in store for the agent, and what the agent has done. -/
structure World where
  exchanges : List Exchange
  /-- A command has no outcome if something else fails than the system: an output that is no text,
  or a word that cannot be passed on. -/
  commands : List (Except Failure CommandOutcome)
  remediations : List RemediationOutcome
  /-- How many waits end in peace before the agent is told to stop. -/
  peacefulWaits : Nat
  stopped : Bool := false
  now : Calendar.Moment
  /-- The readings of the clock after the present one. -/
  later : List Calendar.Moment
  users : List (String × Int)
  effectiveUser : Int
  machine : Machine
  files : FileTree
  /-- The signals that the agent handles. -/
  signals : List Int := []
  trace : List Deed := []

/-- What the agent does: it changes the world, and may end early. -/
abbrev Action := ExceptT Fault (StateM World)

namespace Action

/-- Adds to the trace. -/
def record (deed : Deed) : Action Unit :=
  modify fun w => { w with trace := w.trace ++ [deed] }

/-- Writes a record to the log. -/
def log (level : LogLevel) (source : LogSource) (message : String) : Action Unit :=
  record (.logged ⟨level, source, message⟩)

/-- Tells the agent to stop. -/
def stop : Action Unit := modify fun w => { w with stopped := true }

/-- Has the agent been told to stop? -/
def isStopped : Action Bool := return (← get).stopped

/-- Has a signal handled from now on. -/
def handle (signal : Int) : Action Unit := do
  record (.handled signal)
  modify fun w => { w with signals := signal :: w.signals }

/-- A signal arrives. If it is handled, the agent is told to stop. -/
def receive (signal : Int) : Action Unit := do
  if (← get).signals.contains signal then
    log .info .agent ("Received signal " ++ Number.ofInt signal ++ ", shutting down...")
    stop

/-- Sends a request: the status and the body of the answer. -/
def request (request : Request) : Action (Int × String) := do
  record (.requested request)
  let exchange ← modifyGet fun w =>
    (w.exchanges.head?.getD {}, { w with exchanges := w.exchanges.tail })
  if exchange.stops then stop
  if let some signal := exchange.signal then receive signal
  match exchange.failure with
  | some failure => throw (.failed failure)
  | none => return (exchange.status, exchange.body)

/-- Runs a command. -/
def run (command : List String) (check : Bool) : Action CommandOutcome := do
  record (.ran command check)
  let outcome ← modifyGet fun w =>
    (w.commands.head?.getD (.ok (.ended 0 "" "")), { w with commands := w.commands.tail })
  match outcome with
  | .ok outcome => return outcome
  | .error failure => throw (.failed failure)

/-- Asks for a remediation for the processes of a user. -/
def remediate (owner : Int) : Action Bool := do
  record (.remediated owner)
  let outcome ← modifyGet fun w =>
    (w.remediations.head?.getD (.answered true), { w with remediations := w.remediations.tail })
  match outcome with
  | .answered allowed => return allowed
  | .failed failure => throw (.failed failure)

/-- Waits, unless the agent has been told to stop. The answer tells whether it has been by then. -/
def wait (seconds : Number.Binary64) : Action Bool := do
  record (.waited seconds)
  modifyGet fun w =>
    if w.stopped then (true, w)
    else match w.peacefulWaits with
      | 0 => (true, { w with stopped := true })
      | waits + 1 => (false, { w with peacefulWaits := waits })

/-- Reads the clock. -/
def now : Action Calendar.Moment :=
  modifyGet fun w =>
    (w.now, match w.later with
      | [] => w
      | next :: later => { w with now := next, later := later })

/-- Closes the session with the server. -/
def close : Action Unit := record .closed

/-- A pure step that may fail. -/
def lift (fault : ε → Fault) : Except ε α → Action α
  | .ok a => return a
  | .error e => throw (fault e)

/-- Runs an action and gives its result instead of ending early. -/
def outcome (action : Action α) : Action (Except Fault α) :=
  fun w => match action w with
    | (result, w) => (.ok result, w)

end Action

/-- What a part of the agent with a state of its own does. The state is kept when it ends early. -/
abbrev Activity (σ : Type) := ExceptT Fault (StateT σ (StateM World))

namespace Activity

/-- Does something that leaves the state of its own alone. -/
def perform (action : Action α) : Activity σ α :=
  fun s w => match action w with
    | (result, w) => ((result, s), w)

instance : MonadLift Action (Activity σ) := ⟨perform⟩

/-- The state. -/
def current : Activity σ σ := fun s w => ((.ok s, s), w)

/-- Replaces the state. -/
def become (s : σ) : Activity σ Unit := fun _ w => ((.ok (), s), w)

/-- Lets a part do something: its state is `part s`, and `put` brings it back. -/
def within (part : σ → τ) (put : τ → σ → σ) (activity : Activity τ α) : Activity σ α :=
  fun s w => match activity (part s) w with
    | ((result, t), w) => ((result, put t s), w)

/-- Does something with a state that nothing else needs. -/
def alone (s : σ) (activity : Activity σ α) : Action α :=
  fun w => match activity s w with
    | ((result, _), w) => (result, w)

/-- Does something, and something else however that ended. -/
def thenAlways (activity : Activity σ α) (last : Action Unit) : Activity σ α :=
  fun s w => match activity s w with
    | ((result, s), w) => match last w with
      | (.ok (), w) => ((result, s), w)
      | (.error fault, w) => ((.error fault, s), w)

end Activity

end WireAgent
