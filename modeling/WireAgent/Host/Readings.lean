import WireAgent.Number.Shortest

/-!
# Readings of the host

What the agent knows of the machine it runs on: its identity, and how busy it is. A usage figure is
a double or a whole number, and is reported as a percentage with one digit after the point.
-/

namespace WireAgent.Host

/-- The identity of the machine. -/
structure Identity where
  hostname : String
  osName : String
  osVersion : String
  deriving DecidableEq, Repr

/-- A usage figure. -/
inductive Figure where
  | whole (n : Int)
  | real (x : Number.Binary64)
  deriving DecidableEq, Repr

/-- The double of a figure; none if a whole figure is too large for one. -/
def Figure.toBinary64? : Figure → Option Number.Binary64
  | .whole n => Number.Binary64.ofInt? n
  | .real x => some x

/-- A figure as a percentage; none if a whole figure is too large to be written. -/
def Figure.percentage? (figure : Figure) : Option String :=
  figure.toBinary64?.map fun x => x.fixed 1 ++ "%"

/-- How busy the machine is, and for how many seconds it has been up. -/
structure Stats where
  cpu : Figure
  memory : Figure
  uptime : Int
  deriving DecidableEq, Repr

end WireAgent.Host
