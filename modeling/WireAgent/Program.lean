import WireAgent.Agent
import WireAgent.CommandLine
import WireAgent.Config.File

/-!
# The program

The program reads its arguments, its settings and its configuration, sets the log up, and does what
it was asked to do: list the configuration, add the rule to the firewall, or run the agent. The
records that are made before the log is set up are not shown.
-/

namespace WireAgent

/-- Where the log goes, and from which level on. -/
structure LogSetup where
  level : LogLevel
  toConsole : Bool
  file : Option FilePath
  deriving DecidableEq, Repr

/-- What the program has written, and where its log goes. -/
structure Console where
  output : String := ""
  errors : String := ""
  log : Option LogSetup := none
  deriving DecidableEq, Repr

/-- How the program ends: its code, and whether it ended while reading its arguments. -/
structure Exit where
  code : Nat
  early : Bool := false
  deriving DecidableEq, Repr

namespace Program

/-- The time that log lines bear. -/
def logTime : String := "2026-01-01 12:30:45,250"

/-- A record as a line. -/
def logLine (r : LogRecord) : String :=
  logTime ++ " - " ++ r.source.name ++ " - " ++ r.level.name ++ " - " ++ r.message ++ "\n"

/-- The lines of the records among some deeds, from a level on. -/
def logText (level : LogLevel) (deeds : List Deed) : String :=
  String.join (deeds.filterMap fun
    | .logged r => if level.rank ≤ r.level.rank then some (logLine r) else none
    | _ => none)

/-- Writes to the standard output. -/
def print (text : String) : Activity Console Unit := do
  let c ← Activity.current
  Activity.become { c with output := c.output ++ text }

/-- Writes to the standard error output. -/
def complain (text : String) : Activity Console Unit := do
  let c ← Activity.current
  Activity.become { c with errors := c.errors ++ text }

/-- Adds to a log file. -/
def appendLog (path : FilePath) (text : String) : Action (Except FileError Unit) :=
  modifyGet fun w =>
    match w.files.append path text.toUTF8 with
    | .ok files => (.ok (), { w with files := files })
    | .error e => (.error e, w)

/-- Shows the records among some deeds where the log goes. -/
def showRecords (deeds : List Deed) : Activity Console Unit := do
  match (← Activity.current).log with
  | none => return
  | some setup =>
    let text := logText setup.level deeds
    if setup.toConsole then print text
    if let some path := setup.file then
      let _ ← appendLog path text

/-- Does something, shows the records it makes, and gives its result instead of ending early. -/
def attempt (action : Action α) : Activity Console (Except Fault α) := do
  let before ← (get : Action World)
  let result ← Action.outcome action
  let after ← (get : Action World)
  showRecords (after.trace.drop before.trace.length)
  return result

/-- Does something and shows the records it makes. -/
def shown (action : Action α) : Activity Console α := do
  Action.lift id (← attempt action)

/-- Sets the log up. A log file that cannot be opened is complained about and left out. -/
def setUpLog (level : LogLevel) (file : Option String) (toConsole : Bool) :
    Activity Console Unit := do
  let path ← match file with
    | none | some "" => pure none
    | some name => do
      let w ← (get : Action World)
      let absolute := w.files.absolute (.ofString name)
      match ← appendLog (w.files.relative absolute) "" with
      | .ok () => pure (some (w.files.relative absolute))
      | .error .nullCharacter => throw (.file .nullCharacter name)
      | .error e => do
        complain ("Cannot open log file " ++ name ++ ": " ++ e.message absolute.toString ++ "\n")
        pure none
  Activity.become { ← Activity.current with log := some ⟨level, toConsole, path⟩ }

/-- Runs the agent until it is told to stop. A fault of the protocol is logged. -/
def runAgent (settings : Settings) : Activity Console Exit := do
  shown Agent.installSignals
  let client : Client := ⟨settings, .firewall (.ofSettings settings)⟩
  match ← attempt (Activity.alone {} (Agent.run client)) with
  | .ok () => return ⟨0, false⟩
  | .error fault => do
    if fault.isProtocol then
      shown (Action.log .error .agent ("Fatal error: " ++ fault.message))
      return ⟨1, false⟩
    else throw fault

/-- Adds the rule to the firewall. -/
def configureFirewall (settings : Settings) : Activity Console Exit := do
  let added ← shown do
    Action.log .info .agent "Configuring firewall rules"
    Firewall.configure settings
  return ⟨if added then 0 else 1, false⟩

/-- What is written about settings with problems. -/
def problemsText (count : Nat) : String :=
  "Invalid GUEST_AGENT_* environment settings: " ++ Number.ofInt count ++ " validation error"
    ++ (if count = 1 then "" else "s") ++ " for AgentSettings\n"

/-- Does what the arguments ask for under some settings and a configuration. -/
def execute (i : CommandLine.Invocation) (settings : Settings) (config : Config.Values) :
    Activity Console Exit := do
  let isOn := fun key => ((config.get? key).map Config.Value.holds).getD false
  if i.command = some .showConfiguration then
    print config.listing
    return ⟨0, false⟩
  else
    let level := i.level.getD (if isOn "Logs.Verbose" then .debug else .info)
    setUpLog level settings.logFile (isOn "Logs.Console")
    if i.command = some .configureFirewall then configureFirewall settings
    else runAgent settings

/-- The file to read the configuration from. -/
def configName (i : CommandLine.Invocation) (settings : Settings) : String :=
  match i.configFile with
  | none | some "" => settings.configFile
  | some name => name

/-- Reads the settings and the configuration, and goes on. -/
def proceed (i : CommandLine.Invocation) (environment : List (String × String)) :
    Activity Console Exit := do
  match Settings.read environment [] with
  | .error problems =>
    complain (problemsText problems.length)
    return ⟨1, false⟩
  | .ok settings =>
    let name := configName i settings
    match ← attempt (Config.load (.ofString name)) with
    | .ok config => execute i settings config
    | .error fault =>
      match fault with
      | .file error path =>
        if error.number?.isNone then throw fault
        else
          complain ("Cannot read configuration " ++ name ++ ": " ++ error.message path ++ "\n")
          return ⟨1, false⟩
      | fault => throw fault

/-- Runs the program with some arguments in an environment. -/
def run (arguments : List String) (environment : List (String × String)) :
    Activity Console Exit := do
  match CommandLine.read arguments with
  | .ok i => proceed i environment
  | .error (.help command) => do
    print (CommandLine.helpText command)
    return ⟨0, true⟩
  | .error (.complaint command what) => do
    complain (CommandLine.complaintText command what)
    return ⟨2, true⟩

/-- The level from which on records are shown in the end. -/
def rootLevel (c : Console) : LogLevel :=
  match c.log with
  | some setup => setup.level
  | none => .warning

end Program

end WireAgent
