import WireAgent.Number.Binary64

/-!
# JSON values

A value of the JSON data format. Numbers with a fraction or an exponent are doubles, all others are
integers of any size. The members of an object keep their order.
-/

namespace WireAgent

/-- A JSON value. -/
inductive Json where
  | null
  | bool (b : Bool)
  | integer (n : Int)
  | real (x : Number.Binary64)
  | string (s : String)
  | array (items : List Json)
  | object (members : List (String × Json))
  deriving Inhabited

namespace Json

/-- The last member of a name in an object. -/
def member? (name : String) : Json → Option Json
  | .object members => (members.reverse.find? fun member => member.1 == name).map Prod.snd
  | _ => none

end Json

end WireAgent
