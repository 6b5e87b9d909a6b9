import WireAgent.Json.Value
import WireAgent.Number.Reader
import WireAgent.Text.Lowercase

/-!
# Settings

The settings of the agent are fixed when it starts. Each has a name, a form and a default, and may
be given in the environment, under the name behind a common beginning, or directly, which counts
more. Names are compared without regard to case. `Settings.read` checks every value against its form
and lists all problems it finds.
-/

namespace WireAgent

/-- What the agent is told when it starts. Times are in seconds. -/
structure Settings where
  agentName : String := "guest-agent"
  agentVersion : String := "0.1.0"
  endpoint : String := "http://168.63.129.16"
  statusPort : Int := 32526
  wireVersion : String := "2012-11-30"
  statusVersion : String := "2015-09-01"
  storeVersion : String := "2014-02-14"
  requestTimeout : Number.Binary64 := .ofInt 10
  settleDelay : Number.Binary64 := .ofInt 2
  heartbeatInterval : Number.Binary64 := .ofInt 30
  firewallDestination : String := "168.63.129.16/32"
  firewallOwner : Option String := none
  firewallUsesSudo : Bool := false
  remediatesStatus : Bool := false
  configFile : String := "/etc/waagent.conf"
  logFile : Option String := some "/var/log/guest-agent.log"
  deriving DecidableEq, Repr

namespace Settings

/-- The name and version of the agent, as it reports them. -/
def versionString (s : Settings) : String := s.agentName ++ "/" ++ s.agentVersion

/-- The endpoint without slashes at its end. -/
def endpointStem (s : Settings) : String :=
  String.ofList (s.endpoint.toList.reverse.dropWhile (· = '/')).reverse

/-- The address of the machine endpoint. -/
def machineUrl (s : Settings) : String := s.endpointStem ++ "/machine"

/-- The address of the status channel. -/
def statusUrl (s : Settings) : String :=
  s.endpointStem ++ ":" ++ Number.ofInt s.statusPort ++ "/status"

/-! ## Values -/

/-- What is wrong with a value. -/
inductive Problem where
  | notWhole
  | notWholeText
  | wholeTooLong
  | fractional
  | notFinite
  | notReal
  | notRealText
  | notFlag
  | notFlagText
  | notText
  | unknownName
  | frozen
  deriving DecidableEq, Repr

/-- The code of a problem. -/
def Problem.code : Problem → String
  | .notWhole => "int_type"
  | .notWholeText => "int_parsing"
  | .wholeTooLong => "int_parsing_size"
  | .fractional => "int_from_float"
  | .notFinite => "finite_number"
  | .notReal => "float_type"
  | .notRealText => "float_parsing"
  | .notFlag => "bool_type"
  | .notFlagText => "bool_parsing"
  | .notText => "string_type"
  | .unknownName => "extra_forbidden"
  | .frozen => "frozen_instance"

/-- The text of a problem. -/
def Problem.message : Problem → String
  | .notWhole => "Input should be a valid integer"
  | .notWholeText => "Input should be a valid integer, unable to parse string as an integer"
  | .wholeTooLong => "Unable to parse input string as an integer, exceeded maximum size"
  | .fractional => "Input should be a valid integer, got a number with a fractional part"
  | .notFinite => "Input should be a finite number"
  | .notReal => "Input should be a valid number"
  | .notRealText => "Input should be a valid number, unable to parse string as a number"
  | .notFlag => "Input should be a valid boolean"
  | .notFlagText => "Input should be a valid boolean, unable to interpret input"
  | .notText => "Input should be a valid string"
  | .unknownName => "Extra inputs are not permitted"
  | .frozen => "Instance is frozen"

/-- The white space that may stand around a number. -/
def paddingRanges : Text.Ranges :=
  [(0x09, 0x0D), (0x20, 0x20), (0x85, 0x85), (0xA0, 0xA0), (0x1680, 0x1680), (0x2000, 0x200A),
   (0x2028, 0x2029), (0x202F, 0x202F), (0x205F, 0x205F), (0x3000, 0x3000)]

/-- A text without white space at its ends. -/
def unpadded (cs : List Char) : List Char :=
  ((cs.dropWhile paddingRanges.holds).reverse.dropWhile paddingRanges.holds).reverse

/-- The whole number that an unsigned numeral denotes: digits with single underscores between them,
and after a point nothing but zeros. -/
def wholeDigits? (cs : List Char) : Option Nat := do
  let (whole, rest) := cs.span (· ≠ '.')
  if !(rest.drop 1).all (· = '0') then none
  else
    let digits ← Number.dropUnderscores? false whole
    match ← Number.asciiWorths? digits with
    | [] => none
    | worths => some (Number.valueOf worths)

/-- The whole number that a text denotes. -/
def wholeOfText (s : String) : Except Problem Int :=
  let cs := unpadded s.toList
  if Number.maxDigits < cs.length then .error .wholeTooLong
  else
    let (negative, body) := Number.signOf cs
    match wholeDigits? body with
    | some n => .ok (Number.Binary64.signed negative n)
    | none => .error .notWholeText

/-- A value as a whole number. -/
def whole : Json → Except Problem Int
  | .integer n => .ok n
  | .bool b => .ok (if b then 1 else 0)
  | .real x =>
    match x.truncate with
    | .error _ => .error .notFinite
    | .ok n =>
      if !x.isIntegral then .error .fractional
      else if n < -Number.Binary64.twoTo 63 ∨ Number.Binary64.twoTo 63 ≤ n then .error .wholeTooLong
      else .ok n
  | .string s => wholeOfText s
  | _ => .error .notWhole

/-- A value as a real number. -/
def real : Json → Except Problem Number.Binary64
  | .integer n => .ok (.ofInt n)
  | .bool b => .ok (.ofInt (if b then 1 else 0))
  | .real x => .ok x
  | .string s =>
    match Number.real? (unpadded s.toList) with
    | some x => .ok x
    | none => .error .notRealText
  | _ => .error .notReal

/-- The words for yes. -/
def yesWords : List String := ["1", "true", "t", "yes", "y", "on"]

/-- The words for no. -/
def noWords : List String := ["0", "false", "f", "no", "n", "off"]

/-- A whole number as a flag. -/
def flagOfInt (n : Int) : Except Problem Bool :=
  if n = 0 then .ok false else if n = 1 then .ok true else .error .notFlagText

/-- A value as a flag. -/
def flag : Json → Except Problem Bool
  | .bool b => .ok b
  | .integer n => flagOfInt n
  | .real x =>
    match x.truncate with
    | .ok n => if x.isIntegral then flagOfInt n else .error .notFlag
    | .error _ => .error .notFlag
  | .string s =>
    let word := String.ofList (s.toList.map Char.toLower)
    if yesWords.contains word then .ok true
    else if noWords.contains word then .ok false
    else .error .notFlagText
  | _ => .error .notFlag

/-- A value as a text. -/
def text : Json → Except Problem String
  | .string s => .ok s
  | _ => .error .notText

/-- A value as a text that may be missing. -/
def optionalText : Json → Except Problem (Option String)
  | .null => .ok none
  | v => (text v).map some

/-! ## Reading -/

/-- What the names of settings begin with in the environment. -/
def environmentStem : String := "guest_agent_"

/-- The names of all settings. -/
def names : List String :=
  ["AGENT_NAME", "AGENT_VERSION", "WIRESERVER_ENDPOINT", "STATUS_PORT", "WIRESERVER_API_VERSION",
   "STATUS_API_VERSION", "STATUS_BLOB_API_VERSION", "REQUEST_TIMEOUT", "SETTLE_DELAY",
   "HEARTBEAT_INTERVAL", "FIREWALL_DESTINATION", "FIREWALL_OWNER", "FIREWALL_USE_SUDO",
   "REMEDIATE_STATUS_PUBLISH", "CONF_FILE", "LOG_FILE"]

/-- Do two names differ in case alone? -/
def sameName (a b : String) : Bool := Text.lowercase a == Text.lowercase b

/-- The value of a name in the environment, the last one if there are several. -/
def environmentValue? (environment : List (String × String)) (name : String) : Option Json :=
  (environment.reverse.find? fun entry => sameName entry.1 (environmentStem ++ name)).map
    fun entry => .string entry.2

/-- The value that is given directly to a name. -/
def directValue? (direct : List (String × Json)) (name : String) : Option Json :=
  match direct.find? fun entry => entry.1 == name with
  | some entry => some entry.2
  | none => (direct.find? fun entry => sameName entry.1 name).map Prod.snd

/-- Settings being read: the problems found so far, last first. -/
abbrev Draft := StateM (List (String × Problem))

/-- Reads one value, or takes the default. -/
def ask (value? : String → Option Json) (name : String) (read : Json → Except Problem α)
    (fallback : α) : Draft α :=
  match value? name with
  | none => return fallback
  | some value =>
    match read value with
    | .ok a => return a
    | .error problem => do
      modify ((name, problem) :: ·)
      return fallback

/-- Reads all settings. -/
def draft (value? : String → Option Json) : Draft Settings := do
  let base : Settings := {}
  let agentName ← ask value? "AGENT_NAME" text base.agentName
  let agentVersion ← ask value? "AGENT_VERSION" text base.agentVersion
  let endpoint ← ask value? "WIRESERVER_ENDPOINT" text base.endpoint
  let statusPort ← ask value? "STATUS_PORT" whole base.statusPort
  let wireVersion ← ask value? "WIRESERVER_API_VERSION" text base.wireVersion
  let statusVersion ← ask value? "STATUS_API_VERSION" text base.statusVersion
  let storeVersion ← ask value? "STATUS_BLOB_API_VERSION" text base.storeVersion
  let requestTimeout ← ask value? "REQUEST_TIMEOUT" real base.requestTimeout
  let settleDelay ← ask value? "SETTLE_DELAY" real base.settleDelay
  let heartbeatInterval ← ask value? "HEARTBEAT_INTERVAL" real base.heartbeatInterval
  let firewallDestination ← ask value? "FIREWALL_DESTINATION" text base.firewallDestination
  let firewallOwner ← ask value? "FIREWALL_OWNER" optionalText base.firewallOwner
  let firewallUsesSudo ← ask value? "FIREWALL_USE_SUDO" flag base.firewallUsesSudo
  let remediatesStatus ← ask value? "REMEDIATE_STATUS_PUBLISH" flag base.remediatesStatus
  let configFile ← ask value? "CONF_FILE" text base.configFile
  let logFile ← ask value? "LOG_FILE" optionalText base.logFile
  return {
    agentName, agentVersion, endpoint, statusPort, wireVersion, statusVersion, storeVersion,
    requestTimeout, settleDelay, heartbeatInterval, firewallDestination, firewallOwner,
    firewallUsesSudo, remediatesStatus, configFile, logFile }

/-- The settings in an environment, with some given directly; or all problems, in the order of the
settings, with names that are no setting last. -/
def read (environment : List (String × String)) (direct : List (String × Json)) :
    Except (List (String × Problem)) Settings :=
  let value? := fun name =>
    (directValue? direct name).or (environmentValue? environment name)
  let (settings, problems) := (draft value?).run []
  let unknown := (direct.filter fun entry => !names.any (sameName entry.1)).map fun entry =>
    (entry.1, Problem.unknownName)
  match problems.reverse ++ unknown with
  | [] => .ok settings
  | problems => .error problems

end Settings

end WireAgent
