import WireAgent.Program

/-!
# The command

The program as a command of a machine without network and without a firewall: every request fails
to connect and every command is missing. The files that the arguments and the settings may name are
looked up in the working directory and below the root.
-/

open WireAgent

/-- A failure with a text. -/
def plainFailure (kind : Failure.Kind) (text : String) : Failure :=
  ⟨⟨kind, kind.label, text, []⟩, []⟩

/-- The settings in the environment. -/
def environmentOf (names : List String) : IO (List (String × String)) :=
  names.filterMapM fun name => do
    let key := Settings.environmentStem.toUpper ++ name
    return (← IO.getEnv key).map fun value => (key, value)

/-- The file at a path, if it can be read. -/
def entryAt (path : FilePath) : IO (Option (List String × FileEntry)) := do
  try
    return some (path.names, .file (← IO.FS.readBinFile path.toString))
  catch _ => return none

/-- The world of such a machine. -/
def isolatedWorld (working root : Folder) : World where
  exchanges := List.replicate 2 { failure := some (plainFailure .connection "No network") }
  commands := List.replicate 4 (.ok (.unavailable (plainFailure .system "No such command")))
  remediations := []
  peacefulWaits := 0
  now := ⟨⟨2026, 1, 1⟩, 0, 0, 0, 0, some 0⟩
  later := []
  users := []
  effectiveUser := 0
  machine := ⟨.ok "", "", "", none, none, none⟩
  files := ⟨[], working, root⟩

/-- Runs the program and writes what it has written. -/
def main (arguments : List String) : IO UInt32 := do
  let environment ← environmentOf Settings.names
  let names := arguments.map (fun text => (text.splitOn "=").getLast?.getD text)
    ++ environment.map Prod.snd ++ [({} : Settings).configFile]
  let paths := names.map FilePath.ofString
  let working ← (paths.filter fun path => !path.isAbsolute).filterMapM entryAt
  let root ← (paths.filter FilePath.isAbsolute).filterMapM entryAt
  let ((result, console), _) := Program.run arguments environment {} (isolatedWorld working root)
  (← IO.getStdout).putStr console.output
  (← IO.getStderr).putStr console.errors
  match result with
  | .ok exit => return exit.code.toUInt32
  | .error fault =>
    (← IO.getStderr).putStrLn fault.message
    return 1
