import WireAgent.Settings
import WireAgent.World

/-!
# The allow rule of the firewall

The agent keeps a rule in the output chain of the firewall that lets the processes of one user
reach the wire server. `ensure` adds the rule unless it is there: at the second position, or at the
first if the chain is empty. Its operations are stated over any `Shell`, which runs commands and
takes log records, and end early only where it does.
-/

namespace WireAgent

/-- Runs commands and takes log records. With `check`, a code other than zero counts as a failure of
the command itself. -/
class Shell (m : Type → Type) where
  run : List String → (check : Bool) → m CommandOutcome
  log : LogLevel → String → m Unit

instance : Shell Action where
  run := Action.run
  log level message := Action.log level .firewall message

/-- Where the rule lets packets go, and whether commands are run with the rights of the superuser.
-/
structure Firewall where
  destination : String := "168.63.129.16/32"
  usesSudo : Bool := false
  deriving DecidableEq, Repr

namespace Firewall

/-- The firewall that the settings name. -/
def ofSettings (s : Settings) : Firewall := ⟨s.firewallDestination, s.firewallUsesSudo⟩

/-- The table of the rule. -/
def table : String := "security"

/-- The chain of the rule. -/
def chain : String := "OUTPUT"

/-- Where the rule is put. -/
def insertPosition : Nat := 2

/-- The words of a command on the table. -/
def tableCommand (words : List String) : List String := "iptables" :: "-t" :: table :: words

/-- The words of a command on the rule of a user. -/
def ruleCommand (f : Firewall) (operation : String) (owner : Int) (position : Option Nat) :
    List String :=
  tableCommand (operation :: chain :: (position.map fun n => Number.ofInt n).toList
    ++ ["-d", f.destination, "-p", "tcp", "-m", "owner", "--uid-owner", Number.ofInt owner,
        "-j", "ACCEPT"])

/-- The words of a command as they are run. -/
def elevated (f : Firewall) (command : List String) : List String :=
  if f.usesSudo then "sudo" :: command else command

/-- The text of a command that ended with a code other than zero. -/
def failureText (command : List String) (code : Int) : String :=
  "Command '[" ++ Text.join ", " (command.map Text.quoted) ++ "]' " ++
    match code with
    | .negSucc n => match signalName? (n + 1) with
      | some name => "died with <Signals." ++ name ++ ": " ++ Number.ofInt (n + 1) ++ ">."
      | none => "died with unknown signal " ++ Number.ofInt (n + 1) ++ "."
    | code => "returned non-zero exit status " ++ Number.ofInt code ++ "."
where
  /-- The name of a signal. -/
  signalName? (number : Nat) : Option String :=
    (signalNames.find? fun entry => entry.1 == number).map Prod.snd
  /-- The signals by number. -/
  signalNames : List (Nat × String) :=
    [(1, "SIGHUP"), (2, "SIGINT"), (3, "SIGQUIT"), (4, "SIGILL"), (5, "SIGTRAP"), (6, "SIGABRT"),
     (7, "SIGBUS"), (8, "SIGFPE"), (9, "SIGKILL"), (10, "SIGUSR1"), (11, "SIGSEGV"),
     (12, "SIGUSR2"), (13, "SIGPIPE"), (14, "SIGALRM"), (15, "SIGTERM"), (16, "SIGSTKFLT"),
     (17, "SIGCHLD"), (18, "SIGCONT"), (19, "SIGSTOP"), (20, "SIGTSTP"), (21, "SIGTTIN"),
     (22, "SIGTTOU"), (23, "SIGURG"), (24, "SIGXCPU"), (25, "SIGXFSZ"), (26, "SIGVTALRM"),
     (27, "SIGPROF"), (28, "SIGWINCH"), (29, "SIGIO"), (30, "SIGPWR"), (31, "SIGSYS"),
     (34, "SIGRTMIN"), (64, "SIGRTMAX")]

section

variable {m : Type → Type} [Monad m] [Shell m]

/-- Runs a command. -/
def run (f : Firewall) (command : List String) (check : Bool) : m CommandOutcome := do
  let command := f.elevated command
  Shell.log .debug ("iptables: " ++ Text.join " " command)
  Shell.run command check

/-- Is it a line that states a rule of the chain? -/
def isRuleLine (line : String) : Bool := line.startsWith ("-A " ++ chain ++ " ")

/-- The number of rules that a listing states. -/
def countRules (listing : String) : Nat := (Text.lines listing).countP isRuleLine

/-- The number of rules in the chain, zero if it cannot be read. -/
def ruleCount (f : Firewall) : m Nat := do
  match ← f.run (tableCommand ["-S", chain]) false with
  | .unavailable failure => do
    Shell.log .error ("Failed to list iptables rules: " ++ failure.root.text)
    return 0
  | .ended code output _ => return if code = 0 then countRules output else 0

/-- Is the rule of a user in the chain? -/
def hasRule (f : Firewall) (owner : Int) : m Bool := do
  match ← f.run (f.ruleCommand "-C" owner none) false with
  | .unavailable failure => do
    Shell.log .error ("Failed to check iptables rule: " ++ failure.root.text)
    return false
  | .ended code _ _ => return code = 0

/-- Runs a command that changes the chain: did it succeed? -/
def change (f : Firewall) (command : List String) (done verb : String) : m Bool := do
  match ← f.run command true with
  | .unavailable failure => do
    Shell.log .error ("Error executing iptables command: " ++ failure.root.text)
    return false
  | .ended code _ errors => do
    if code = 0 then
      Shell.log .info done
      return true
    else
      Shell.log .error ("Failed to " ++ verb ++ " iptables rule: " ++ errors)
      return false

/-- Adds the rule of a user. -/
def add (f : Firewall) (owner : Int) : m Bool := do
  let position := min insertPosition ((← f.ruleCount) + 1)
  f.change (f.ruleCommand "-I" owner (some position))
    ("Added wire server allow rule for uid " ++ Number.ofInt owner ++ " at position "
      ++ Number.ofInt position)
    "add"

/-- Removes the rule of a user. -/
def remove (f : Firewall) (owner : Int) : m Bool :=
  f.change (f.ruleCommand "-D" owner none)
    ("Removed wire server allow rule for uid " ++ Number.ofInt owner) "remove"

/-- The listing of the chain, or why it cannot be read. -/
def listing (f : Firewall) : m String := do
  let command := tableCommand ["-L", chain, "-n", "--line-numbers"]
  match ← f.run command true with
  | .unavailable failure => return "Error: " ++ failure.root.text
  | .ended code output _ =>
    return if code = 0 then output else "Error: " ++ failureText (f.elevated command) code

/-- Makes sure that the rule of a user is in the chain. -/
def ensure (f : Firewall) (owner : Int) : m Bool := do
  if ← f.hasRule owner then
    Shell.log .info "Wire server allow rule already exists, skipping"
    return true
  else
    let added ← f.add owner
    if added then
      Shell.log .debug
        ("Current " ++ table ++ " " ++ chain ++ " rules:\n" ++ (← f.listing))
    return added

end

/-- The user that the rule is for: the one of a name, or the one that the agent runs as. -/
def ownerOf (name : Option String) : Action Int := do
  match name with
  | none | some "" => return (← get).effectiveUser
  | some name =>
    match (← get).users.find? fun entry => entry.1 == name with
    | some (_, owner) => return owner
    | none => throw (.unknownUser name)

/-- Adds the rule that the settings ask for. -/
def configure (s : Settings) : Action Bool := do
  match ← Action.outcome (ownerOf s.firewallOwner) with
  | .ok owner => (ofSettings s).ensure owner
  | .error (.unknownUser _) => do
    Action.log .error .agent ("Unknown firewall owner: " ++ s.firewallOwner.getD "")
    return false
  | .error fault => throw fault

end Firewall

end WireAgent
