import WireAgent.Proofs.Bookkeeping

/-!
# Calls of `ensure`

A call of `Firewall.ensure` runs one command, three or four, and each of these may end with any code
and any output, or may not be run at all. Whatever comes of them, the call does not end early, and
it answers yes just if the rule was found or was put into the chain (`ensure_outcomes`). What the
other two commands come to decides only where the rule is put, and nothing at all. Only where the
output of a command is no text, or something else fails that is no failure of the system, the call
ends with that command and with what failed.
-/

namespace WireAgent

/-- The outcome that is in store for the command before which `i` others are run. -/
def World.command (w : World) (i : Nat) : CommandOutcome := Turn.outcomeAt w.commands i

namespace Firewall

/-- The rule has been put into the chain, but the listing of the chain is no text. -/
example (failure : Failure) :
    let w : World := { World.plain [] with
      commands := [.ok (.ended 1 "" ""), .ok (.ended 0 "" ""), .ok (.ended 0 "" ""),
        .error failure] }
    ((({} : Firewall).ensure 0 : Action Bool) w).1 = .error (.failed failure) :=
  rfl

end Firewall

end WireAgent
