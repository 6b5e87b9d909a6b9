/-!
# Stages of the bootstrap

The bootstrap passes through six stages in a fixed order.
-/

namespace WireAgent

/-- How far the bootstrap has come. -/
inductive Stage where
  | start
  | goalStateFetched
  | healthAcknowledged
  | startupSent
  | statusPublished
  | heartbeatLoop
  deriving DecidableEq, Repr

namespace Stage

/-- The name of a stage. -/
def name : Stage → String
  | .start => "start"
  | .goalStateFetched => "goal_state_fetched"
  | .healthAcknowledged => "health_acknowledged"
  | .startupSent => "startup_telemetry_sent"
  | .statusPublished => "status_published"
  | .heartbeatLoop => "heartbeat_loop"

/-- The position of a stage. -/
def rank : Stage → Nat
  | .start => 0
  | .goalStateFetched => 1
  | .healthAcknowledged => 2
  | .startupSent => 3
  | .statusPublished => 4
  | .heartbeatLoop => 5

end Stage

end WireAgent
