import WireAgent.Config.Schema
import WireAgent.Text.Line

/-!
# Configurations

A configuration gives values to keys. Setting a key replaces its value; `overlay` lays one
configuration over another, and `merged` lays it over the defaults, so that every option has a
value. A configuration is listed in the order of its keys.
-/

namespace WireAgent.Config

/-- Values by key; no key stands twice. -/
abbrev Values := List (String × Value)

namespace Values

/-- The value of a key. -/
def get? (values : Values) (key : String) : Option Value :=
  (values.find? fun entry => entry.1 == key).map Prod.snd

/-- Gives a value to a key, in its place if it has one. -/
def set : Values → String → Value → Values
  | [], key, value => [(key, value)]
  | (own, old) :: rest, key, value =>
    if own = key then (key, value) :: rest else (own, old) :: set rest key value

/-- Lays a configuration over another one. -/
def overlay (upper lower : Values) : Values :=
  upper.foldl (fun values (key, value) => values.set key value) lower

/-- The defaults of all options. -/
def defaults : Values := schema.map fun entry => (entry.key, entry.fallback)

/-- A configuration laid over the defaults. -/
def merged (values : Values) : Values := values.overlay defaults

/-- The entries in the order of their keys. -/
def sorted (values : Values) : Values :=
  values.mergeSort fun a b => decide (a.1 ≤ b.1)

/-- One line for each option and each other key. -/
def listing (values : Values) : String :=
  Text.join "\n" (values.merged.sorted.map fun (key, value) => key ++ " = " ++ value.format)
    ++ "\n"

end Values

end WireAgent.Config
