import WireAgent.Config.Reader
import WireAgent.World

/-!
# Configuration files

A configuration file is UTF-8 text. What it says is laid over the defaults. To `load` a file that
does not exist gives the defaults; to read it with `fromFile` is an error.
-/

namespace WireAgent.Config

/-- Reads a text, and logs what is remarked about it. -/
def readText (text : List Char) : Action Values := do
  for remark in remarks text do
    Action.log .debug .config remark
  Action.lift .numeral (parse text)

/-- Reads a text and lays what it says over the defaults. -/
def readMerged (text : List Char) : Action Values := return (← readText text).merged

/-- Reads a file. -/
def fromFile (path : FilePath) : Action Values := do
  let content ← Action.lift (.file · path.toString) ((← get).files.open? path)
  match fileText? content with
  | none => throw .undecodable
  | some text => readMerged text

/-- Reads a file, or gives the defaults if there is none. -/
def load (path : FilePath) : Action Values := do
  if ← Action.lift (.file · path.toString) ((← get).files.exists? path) then fromFile path
  else
    Action.log .info .config
      ("Configuration file " ++ path.toString ++ " not found, using defaults")
    return .defaults

end WireAgent.Config
