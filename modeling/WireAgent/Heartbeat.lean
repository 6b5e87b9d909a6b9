import WireAgent.Client
import WireAgent.Host.Collector

/-!
# The heartbeat

After the bootstrap the agent sends an event at regular intervals until it is told to stop. The
events are numbered from 1, and their kinds follow each other in a cycle. The number goes up when an
event has been delivered, whatever the answer was; one that was not is tried again. The readings
that one kind reports come from a source, which is the machine unless another one is given.
-/

namespace WireAgent

/-- The heartbeat: what it reports on, and the number of the next event. -/
structure Heartbeat where
  goalState : GoalState
  counter : Nat := 1
  deriving DecidableEq, Repr

namespace Heartbeat

/-- The kind of the next event. -/
def nextKind (h : Heartbeat) : Report.EventKind := .ofCounter h.counter

/-- Who sends events under some settings. -/
def senderOf (s : Settings) : Report.Event.Sender := ⟨s.versionString, s.agentName⟩

/-- The readings of the host for the next event. They are taken only for the kind that reports
them. -/
def readings (h : Heartbeat) (source : Action Host.Stats := Host.stats) :
    Action (Option Host.Stats) :=
  if h.nextKind = .heartBeat then some <$> source else pure none

/-- Builds the next event. -/
def nextEvent (c : Client) (h : Heartbeat) (source : Action Host.Stats := Host.stats) :
    Action Report.Event := do
  let stats ← h.readings source
  let now ← Action.now
  Action.lift .event
    (Report.Event.cycle h.nextKind h.goalState stats (senderOf c.settings) now)

/-- Sends the next event. -/
def sendNext (c : Client) (h : Heartbeat) (source : Action Host.Stats := Host.stats) :
    Action Answer := do
  let event ← h.nextEvent c source
  c.sendEvent event h.counter

/-- Sends the next event and goes on to the one after it. -/
def tick (c : Client) (source : Action Host.Stats := Host.stats) : Activity Heartbeat Answer := do
  let h ← Activity.current
  let answer ← h.sendNext c source
  Activity.become { h with counter := h.counter + 1 }
  return answer

/-- Waits and sends events until told to stop; the second argument bounds the number of waits. -/
def beat (c : Client) (waits : Nat) (source : Action Host.Stats := Host.stats) :
    Activity Heartbeat Unit :=
  match waits with
  | 0 => return
  | waits + 1 => do
    if ← Action.wait c.settings.heartbeatInterval then return
    else
      let _ ← tick c source
      beat c waits source

/-- Sends events until told to stop. -/
def run (c : Client) (source : Action Host.Stats := Host.stats) : Activity Heartbeat Unit := do
  Action.log .info .heartbeat ("Starting continuous heartbeat loop every "
    ++ c.settings.heartbeatInterval.text ++ "s (send SIGINT/SIGTERM to stop)...")
  let w ← (get : Action World)
  beat c (w.peacefulWaits + 1) source
  let h ← Activity.current
  Action.log .info .heartbeat
    ("Heartbeat loop stopped after " ++ Number.ofInt (h.counter - 1 : Nat) ++ " events")

end Heartbeat

end WireAgent
