import WireAgent.Log
import WireAgent.Text.Digit
import WireAgent.Text.Line
import WireAgent.Text.Quoted

/-!
# The command line

The command line names switches and then a command. A long switch may be cut short as long as only
one begins that way; a value may follow its switch or be attached to it by an equals sign. All that
follows the command belongs to it, and a command knows no switch but the one for help. `read` gives
the invocation that the arguments ask for, or the reason to end at once: help, or a complaint.
-/

namespace WireAgent.CommandLine

/-- The name of the program. -/
def programName : String := "guest-agent"

/-- What the agent can be asked to do. -/
inductive Command where
  | run
  | showConfiguration
  | configureFirewall
  deriving DecidableEq, Repr

namespace Command

/-- All commands. -/
def all : List Command := [.run, .showConfiguration, .configureFirewall]

/-- The name of a command. -/
def name : Command → String
  | .run => "run"
  | .showConfiguration => "show-configuration"
  | .configureFirewall => "configure-firewall"

/-- The command of a name. -/
def ofName? (name : String) : Option Command := all.find? fun command => command.name == name

end Command

/-- The switches. -/
inductive Switch where
  | help
  | config
  | level
  deriving DecidableEq, Repr

namespace Switch

/-- How a complaint names a switch. -/
def title : Switch → String
  | .help => "-h/--help"
  | .config => "--conf"
  | .level => "--log-level"

/-- The spellings of the switch for help. -/
def helpSpellings : List (String × Switch) := [("-h", .help), ("--help", .help)]

/-- The spellings of all switches. -/
def spellings : List (String × Switch) :=
  helpSpellings ++ [("--conf", .config), ("--log-level", .level)]

end Switch

/-- What the arguments ask for. -/
structure Invocation where
  command : Option Command := none
  configFile : Option String := none
  level : Option LogLevel := none
  deriving DecidableEq, Repr

/-- What is wrong with the arguments. -/
inductive Complaint where
  | ambiguous (argument : String) (candidates : List String)
  | valueMissing (switch : Switch)
  | valueIgnored (value : String)
  | badLevel (value : String)
  | badCommand (value : String)
  | unrecognized (arguments : List String)
  deriving DecidableEq, Repr

/-- Texts between quotes, separated by commas. -/
def choices (names : List String) : String := Text.join ", " (names.map Text.quoted)

/-- A complaint about a value that is none of the choices. -/
def badChoice (title value : String) (names : List String) : String :=
  "argument " ++ title ++ ": invalid choice: " ++ Text.quoted value ++ " (choose from "
    ++ choices names ++ ")"

/-- The text of a complaint. -/
def Complaint.message : Complaint → String
  | .ambiguous argument candidates =>
    "ambiguous option: " ++ argument ++ " could match " ++ Text.join ", " candidates
  | .valueMissing switch => "argument " ++ switch.title ++ ": expected one argument"
  | .valueIgnored value =>
    "argument " ++ Switch.help.title ++ ": ignored explicit argument " ++ Text.quoted value
  | .badLevel value => badChoice Switch.level.title value (LogLevel.all.map LogLevel.name)
  | .badCommand value => badChoice "command" value (Command.all.map Command.name)
  | .unrecognized arguments => "unrecognized arguments: " ++ Text.join " " arguments

/-- Why the program ends at once; the command is the one whose arguments were being read. -/
inductive Refusal where
  | help (command : Option Command)
  | complaint (command : Option Command) (what : Complaint)
  deriving DecidableEq, Repr

/-! ## Arguments -/

/-- What an argument is. -/
inductive Argument where
  | word (text : String)
  /-- The mark after which all arguments are words. -/
  | separator
  | switch (switch : Switch) (isLong : Bool) (attached : Option String)
  | unknown (text : String)
  deriving DecidableEq, Repr

/-- The mark after which all arguments are words. -/
def separatorText : String := "--"

/-- The argument as it was written, if it is no switch. -/
def Argument.text : Argument → String
  | .word text => text
  | .separator => separatorText
  | .switch .. => ""
  | .unknown text => text

/-- Does a text read like a negative number, perhaps with a line feed after it? -/
def isNegativeNumber (cs : List Char) : Bool :=
  match cs with
  | '-' :: body =>
    let body := if body.getLast? = some '\n' then body.dropLast else body
    let (whole, rest) := body.span fun c => (Text.digit? c).isSome
    match rest with
    | [] => !whole.isEmpty
    | '.' :: places => !places.isEmpty && places.all fun c => (Text.digit? c).isSome
    | _ => false
  | _ => false

/-- A text cut at its first equals sign. -/
def splitAttached? (cs : List Char) : Option (String × String) :=
  match cs.span (· ≠ '=') with
  | (name, _ :: value) => some (String.ofList name, String.ofList value)
  | _ => none

/-- The switch of a spelling. -/
def spelled? (known : List (String × Switch)) (text : String) : Option Switch :=
  (known.find? fun entry => entry.1 == text).map Prod.snd

/-- Is it a spelling behind two hyphens? -/
def isLong (spelling : String) : Bool := spelling.startsWith "--"

/-- The switches that an argument may be short for, with the spelling of each and the value that is
attached. -/
def candidates (known : List (String × Switch)) (text : String) :
    List (String × Switch × Option String) :=
  if isLong text then
    let (start, attached) := match splitAttached? text.toList with
      | some (name, value) => (name, some value)
      | none => (text, none)
    (known.filter fun entry => entry.1.startsWith start).map fun (spelling, switch) =>
      (spelling, switch, attached)
  else
    let cs := text.toList
    (known.filter fun entry => entry.1 == String.ofList (cs.take 2)).map fun (spelling, switch) =>
      (spelling, switch, some (String.ofList (cs.drop 2)))

/-- What an argument is that is not an exact spelling. -/
def guess (known : List (String × Switch)) (text : String) : Except Complaint Argument :=
  match candidates known text with
  | [(spelling, switch, attached)] => .ok (.switch switch (isLong spelling) attached)
  | first :: second :: more =>
    .error (.ambiguous text ((first :: second :: more).map Prod.fst))
  | [] =>
    if isNegativeNumber text.toList || text.contains ' ' then .ok (.word text)
    else .ok (.unknown text)

/-- What an argument is where some spellings are known. -/
def classify (known : List (String × Switch)) (text : String) : Except Complaint Argument :=
  if !text.startsWith "-" || text = "-" then .ok (.word text)
  else match spelled? known text with
    | some switch => .ok (.switch switch (isLong text) none)
    | none =>
      match splitAttached? text.toList with
      | some (name, value) =>
        match spelled? known name with
        | some switch => .ok (.switch switch (isLong name) (some value))
        | none => guess known text
      | none => guess known text

/-- What the arguments are. -/
def classifyAll (known : List (String × Switch)) : List String → Except Complaint (List Argument)
  | [] => .ok []
  | text :: rest =>
    if text = separatorText then .ok (.separator :: rest.map .word)
    else do
      let argument ← classify known text
      let more ← classifyAll known rest
      return argument :: more

/-! ## Reading -/

/-- What the switch for help leads to. With one hyphen it may be written several times over; any
other value attached to it is a mistake. -/
def helpRefusal (command : Option Command) (isLong : Bool) : Option String → Refusal
  | none => .help command
  | some value =>
    if isLong || value.isEmpty then .complaint command (.valueIgnored value)
    else match value.toList.dropWhile (· = 'h') with
      | [] => .help command
      | rest => .complaint command (.valueIgnored (String.ofList rest))

/-- Takes the value of a switch into an invocation. A value that is only the mark counts as none,
and takes back what was given before. -/
def takeValue (switch : Switch) (value : String) (i : Invocation) : Except Refusal Invocation :=
  match switch with
  | .help => .ok i
  | .config =>
    .ok { i with configFile := if value = separatorText then none else some value }
  | .level =>
    if value = separatorText then .ok { i with level := none }
    else match LogLevel.ofName? value with
      | some level => .ok { i with level := some level }
      | none => .error (.complaint none (.badLevel value))

/-- The arguments of a command that it does not know. Asking for help ends the program. -/
def unknownTo (command : Command) : List Argument → Except Refusal (List String)
  | [] => .ok []
  | .switch _ isLong attached :: _ => .error (helpRefusal (some command) isLong attached)
  | argument :: rest => (unknownTo command rest).map (argument.text :: ·)

/-- Reads a command and what follows it; the arguments are as they were written. -/
def readCommand (i : Invocation) (name : String) (arguments : List String) :
    Except Refusal (Invocation × List String) :=
  match Command.ofName? name with
  | none => .error (.complaint none (.badCommand name))
  | some command =>
    match classifyAll Switch.helpSpellings arguments with
    | .error what => .error (.complaint (some command) what)
    | .ok arguments => (unknownTo command arguments).map fun unknown =>
        ({ i with command := some command }, unknown)

/-- Reads the arguments one by one, each together with the text it was written as: the invocation,
the arguments that are not known, and those that a command does not know. -/
def readAll (i : Invocation) :
    List (Argument × String) → Except Refusal (Invocation × List String × List String)
  | [] => .ok (i, [], [])
  | (.word name, _) :: rest => do
    let (i, unknown) ← readCommand i name (rest.map Prod.snd)
    return (i, [], unknown)
  | (.separator, _) :: [] => .ok (i, [separatorText], [])
  | (.separator, _) :: _ :: _ => .error (.complaint none (.badCommand separatorText))
  | (.unknown text, _) :: rest => do
    let (i, unknown, more) ← readAll i rest
    return (i, text :: unknown, more)
  | (.switch .help isLong attached, _) :: _ => .error (helpRefusal none isLong attached)
  | (.switch switch _ (some value), _) :: rest => do readAll (← takeValue switch value i) rest
  | (.switch switch _ none, _) :: (.word value, _) :: rest => do
    readAll (← takeValue switch value i) rest
  | (.switch switch _ none, _) :: _ => .error (.complaint none (.valueMissing switch))

/-- Reads the arguments. -/
def read (arguments : List String) : Except Refusal Invocation :=
  match classifyAll Switch.spellings arguments with
  | .error what => .error (.complaint none what)
  | .ok classified => do
    let (i, unknown, more) ← readAll {} (classified.zip arguments)
    match unknown ++ more with
    | [] => return i
    | unknown => throw (.complaint none (.unrecognized unknown))

/-! ## Texts -/

/-- How the program, or a command, is used. -/
def usage : Option Command → String
  | none =>
    "usage: guest-agent [-h] [--conf CONF] [--log-level \x7bDEBUG,INFO,WARNING,ERROR\x7d]\n"
      ++ "                   \x7brun,show-configuration,configure-firewall\x7d ...\n"
  | some command => "usage: " ++ programName ++ " " ++ command.name ++ " [-h]\n"

/-- The help for the program, or for a command. -/
def helpText : Option Command → String
  | none => usage none ++ "\nGuest Agent\n\npositional arguments:\n"
      ++ "  \x7brun,show-configuration,configure-firewall\x7d\n"
      ++ "    run                 Bootstrap and run the heartbeat loop\n"
      ++ "    show-configuration  Print the merged configuration\n"
      ++ "    configure-firewall  Add the wire server allow rule and exit\n"
      ++ "\noptions:\n"
      ++ "  -h, --help            show this help message and exit\n"
      ++ "  --conf CONF           waagent.conf path\n"
      ++ "  --log-level \x7bDEBUG,INFO,WARNING,ERROR\x7d\n"
      ++ "                        Log level (default: INFO, DEBUG when Logs.Verbose=y)\n"
  | some command =>
    usage (some command) ++ "\noptions:\n  -h, --help  show this help message and exit\n"

/-- What is written about a complaint. -/
def complaintText (command : Option Command) (what : Complaint) : String :=
  let name := match command with
    | none => programName
    | some command => programName ++ " " ++ command.name
  usage command ++ name ++ ": error: " ++ what.message ++ "\n"

end WireAgent.CommandLine
