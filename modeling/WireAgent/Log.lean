/-!
# Log records

A record has a level, a source and a message. The sources form a tree below the one of the agent.
-/

namespace WireAgent

/-- How important a record is. -/
inductive LogLevel where
  | debug
  | info
  | warning
  | error
  deriving DecidableEq, Repr

namespace LogLevel

/-- The name of a level. -/
def name : LogLevel → String
  | .debug => "DEBUG"
  | .info => "INFO"
  | .warning => "WARNING"
  | .error => "ERROR"

/-- The rank of a level. -/
def rank : LogLevel → Nat
  | .debug => 0
  | .info => 1
  | .warning => 2
  | .error => 3

/-- All levels. -/
def all : List LogLevel := [.debug, .info, .warning, .error]

/-- The level of a name. -/
def ofName? (name : String) : Option LogLevel := all.find? fun level => level.name == name

end LogLevel

/-- The part of the agent that a record comes from. -/
inductive LogSource where
  | agent
  | client
  | collector
  | config
  | firewall
  | heartbeat
  deriving DecidableEq, Repr

/-- The name of a source. -/
def LogSource.name : LogSource → String
  | .agent => "guest-agent"
  | .client => "guest-agent.client"
  | .collector => "guest-agent.collector"
  | .config => "guest-agent.config"
  | .firewall => "guest-agent.firewall"
  | .heartbeat => "guest-agent.heartbeat"

/-- A record of the log. -/
structure LogRecord where
  level : LogLevel
  source : LogSource
  message : String
  deriving DecidableEq, Repr

end WireAgent
