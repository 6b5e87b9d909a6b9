import WireAgent.Host.Readings
import WireAgent.Number.Reader
import WireAgent.Text.Blank
import WireAgent.Text.Lowercase
import WireAgent.World

/-!
# Collecting readings

The identity of the machine and how busy it is, as far as both can be read. A figure that cannot be
read counts as zero. The usage of memory is the share of the total that is not available, as a
percentage with one digit after the point; the total and the available memory are given on lines of
their own, of which the last ones count.
-/

namespace WireAgent.Host

/-! ## Identity -/

/-- A text, or another one if it is empty. -/
def orElse (text fallback : String) : String := if text.isEmpty then fallback else text

/-- The identity of the machine. -/
def identity : Action Identity := do
  let machine := (← get).machine
  let hostname ← match machine.hostname with
    | .ok name => pure name
    | .error failure => do
      Action.log .debug .collector ("Failed to read hostname: " ++ failure.root.text)
      pure ""
  return {
    hostname := orElse hostname "Undefined"
    osName := Text.lowercase (orElse machine.osId "unknown")
    osVersion := orElse machine.osVersion "unknown" }

/-! ## Memory -/

/-- Why the memory figures cannot be read. -/
inductive MemoryError where
  /-- A line has no second word. -/
  | noFigure
  /-- The second word is no number. -/
  | notNumber (word : List Char)
  /-- The second word has too many digits. -/
  | tooLong (digits : Nat)
  deriving DecidableEq, Repr

/-- How many characters of a word a message shows, quotes included. -/
def shownWord : Nat := 200

/-- The text of an error. -/
def MemoryError.message : MemoryError → String
  | .noFigure => "list index out of range"
  | .notNumber word =>
    "invalid literal for int() with base 10: "
      ++ String.ofList ((Text.Quoted.encode word).take shownWord)
  | .tooLong digits => Number.tooLongMessage digits

/-- The total and the available memory. -/
structure Memory where
  total : Int := 0
  available : Int := 0
  deriving DecidableEq, Repr

/-- What the line of the total memory begins with. -/
def totalMark : List Char := "MemTotal:".toList

/-- What the line of the available memory begins with. -/
def availableMark : List Char := "MemAvailable:".toList

/-- The number in the second word of a line. -/
def figureOf (line : List Char) : Except MemoryError Int :=
  match Text.words line with
  | _ :: word :: _ =>
    match Number.integer? word with
    | .ok n => .ok n
    | .error .malformed => .error (.notNumber word)
    | .error (.tooLong digits) => .error (.tooLong digits)
  | _ => .error .noFigure

/-- Takes a line into the memory figures. -/
def Memory.takeLine (memory : Memory) (line : List Char) : Except MemoryError Memory :=
  if totalMark.isPrefixOf line then (figureOf line).map fun n => { memory with total := n }
  else if availableMark.isPrefixOf line then
    (figureOf line).map fun n => { memory with available := n }
  else .ok memory

/-- The memory figures in a text. -/
def Memory.ofText (text : List Char) : Except MemoryError Memory :=
  (Text.splitLines text).foldlM Memory.takeLine {}

/-- The used share of memory as a percentage, zero if there is no memory; none if the available
share is too large a number. -/
def Memory.usage? (memory : Memory) : Option Number.Binary64 :=
  if memory.total ≤ 0 then some (.zero false)
  else (Number.Binary64.quotient? memory.available memory.total).map fun share =>
    (((Number.Binary64.ofInt 1).sub share).mul (.ofInt 100)).roundTo 1

/-- The used share of memory as a percentage. -/
def memoryUsage : Action Number.Binary64 := do
  match (← get).machine.meminfo with
  | some (.file content) =>
    match fileText? content with
    | none => throw .undecodable
    | some text =>
      match Memory.ofText text with
      | .error e => do
        Action.log .debug .collector ("Unparsable meminfo: " ++ e.message)
        return .zero false
      | .ok memory =>
        match memory.usage? with
        | none => throw .memoryShareTooLarge
        | some usage => return usage
  | _ => return .zero false

/-! ## Load and uptime -/

/-- The load of the last minute as a percentage. -/
def cpuUsage : Action Number.Binary64 := do
  match (← get).machine.load with
  | none => return .zero false
  | some load => return load.mul (.ofInt 100)

/-- The seconds in the first word of a text, cut to a whole number; zero if there are none. -/
def secondsOf (text : List Char) : Except Number.Binary64.TruncationError Int :=
  match Text.words text with
  | [] => .ok 0
  | word :: _ =>
    match Number.real? (Number.toAsciiDigits word) with
    | none => .ok 0
    | some x =>
      match x.truncate with
      | .ok n => .ok n
      | .error .notANumber => .ok 0
      | .error .infinity => .error .infinity

/-- For how many seconds the machine has been up. -/
def uptime : Action Int := do
  match (← get).machine.uptime with
  | some (.file content) =>
    match fileText? content with
    | none => return 0
    | some text => Action.lift (fun _ => .uptimeInfinite) (secondsOf text)
  | _ => return 0

/-- How busy the machine is. -/
def stats : Action Stats := do
  let cpu ← cpuUsage
  let memory ← memoryUsage
  let uptime ← uptime
  return ⟨.real cpu, .real memory, uptime⟩

end WireAgent.Host
