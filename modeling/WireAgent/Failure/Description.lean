import WireAgent.Failure.Graph
import WireAgent.Number.Shortest
import WireAgent.Text.Line
import WireAgent.Text.Quoted

/-!
# Descriptions of failures

A description says how a failure was made: its kind, its arguments, and what it is linked to. From
it come the text of the failure, the form in which other failures quote it, and the graph of all it
leads to. Three kinds of the connection pool make their text out of their arguments and keep nothing
else of them.
-/

namespace WireAgent.Failure

mutual

/-- How a failure was made. -/
inductive Description where
  | mk (kind : Kind) (arguments : List Argument) (cause context reason : Argument)
      (causesItself : Bool)

/-- An argument of a failure. -/
inductive Argument where
  | none
  | integer (n : Int)
  | real (x : Number.Binary64)
  | text (s : String)
  | failure (d : Description)

end

namespace Description

/-- A failure with arguments alone. -/
def ofArguments (kind : Kind) (arguments : List Argument) : Description :=
  .mk kind arguments .none .none .none false

/-- The kind of a failure. -/
def kind : Description → Kind
  | .mk kind .. => kind

end Description

/-- The label of a failure; one of the operating system has the label of its error number. -/
def labelFor (kind : Kind) (arguments : List Argument) : String :=
  match kind, arguments with
  | .system, .integer errno :: _ :: _ => systemLabel errno
  | kind, _ => kind.label

/-- Values in parentheses; a single one has a comma after it. -/
def tupleText : List String → String
  | [item] => "(" ++ item ++ ",)"
  | items => "(" ++ Text.join ", " items ++ ")"

/-- Is it an argument that says something? -/
def Argument.isGiven : Argument → Bool
  | .none => false
  | _ => true

/-- The first `n` arguments that a failure of the operating system keeps: two if it names a file. -/
def keptCount (kind : Kind) (arguments : List Argument) : Nat :=
  match arguments with
  | _ :: _ :: file :: _ =>
    if kind.isSystem && kind != .undecodableJson && arguments.length ≤ 5 && file.isGiven then 2
    else arguments.length
  | _ => arguments.length

/-- The text of a failure, given the plain and the quoted texts of its arguments. -/
def textFor (kind : Kind) (given : List Bool) (plain quoted : List String) : String :=
  match kind, plain, quoted with
  | .newConnection, [message], _ => "None: " ++ message
  | .nameResolution, [host, reason], _ =>
    "None: Failed to resolve '" ++ host ++ "' (" ++ reason ++ ")"
  | .retriesExceeded, [url, _], [_, reason] =>
    "None: Max retries exceeded with url: " ++ url ++ " (Caused by " ++ reason ++ ")"
  | .key, [_], [key] => key
  | _, [], _ => ""
  | _, [text], _ => text
  | kind, number :: text :: _, _ =>
    if kind.isSystem && plain.length ≤ 5 then
      let stem := "[Errno " ++ number ++ "] " ++ text
      match given, quoted with
      | _ :: _ :: true :: more, _ :: _ :: file :: others =>
        match more, others with
        | [_, true], [_, second] => stem ++ ": " ++ file ++ " -> " ++ second
        | _, _ => stem ++ ": " ++ file
      | _, _ => stem
    else tupleText quoted

/-- Does a failure of this kind keep its text as its only argument? -/
def keepsTextOnly : Kind → Bool
  | .newConnection | .nameResolution | .retriesExceeded | .undecodableJson => true
  | _ => false

/-- The line and the column of a position in a text. -/
def lineAndColumn (text : List Char) (position : Nat) : Nat × Nat :=
  let before := text.take position
  (before.count '\n' + 1, position - (before.length - (before.reverse.takeWhile (· ≠ '\n')).length)
    + 1)

mutual

/-- The text of an argument. -/
def Argument.plain : Argument → String
  | .none => "None"
  | .integer n => Number.ofInt n
  | .real x => x.text
  | .text s => s
  | .failure d => d.text

/-- An argument as other texts quote it. -/
def Argument.quoted : Argument → String
  | .none => "None"
  | .integer n => Number.ofInt n
  | .real x => x.text
  | .text s => Text.quoted s
  | .failure d => d.quoted

/-- The texts of arguments. -/
def plainTexts : List Argument → List String
  | [] => []
  | argument :: rest => argument.plain :: plainTexts rest

/-- Arguments as other texts quote them. -/
def quotedTexts : List Argument → List String
  | [] => []
  | argument :: rest => argument.quoted :: quotedTexts rest

/-- The text of a failure. -/
def Description.text : Description → String
  | .mk .undecodableJson [.text message, .text document, .integer position] _ _ _ _ =>
    let (line, column) := lineAndColumn document.toList position.toNat
    message ++ ": line " ++ Number.ofInt line ++ " column " ++ Number.ofInt column ++ " (char "
      ++ Number.ofInt position ++ ")"
  | .mk kind arguments _ _ _ _ =>
    textFor kind (arguments.map Argument.isGiven) (plainTexts arguments) (quotedTexts arguments)

/-- A failure as other texts quote it. -/
def Description.quoted : Description → String
  | .mk kind arguments cause context reason causesItself =>
    let items := if keepsTextOnly kind then
        [Text.quoted (Description.text (.mk kind arguments cause context reason causesItself))]
      else (quotedTexts arguments).take (keptCount kind arguments)
    labelFor kind arguments ++ "(" ++ Text.join ", " items ++ ")"

end

/-- Which arguments a failure leads to: how many are passed over, and how many are then taken. The
reason that a failure of the pool names counts, unless another one is given. -/
def linkedRange (kind : Kind) (arguments : List Argument) (reason : Argument) : Nat × Nat :=
  if kind = .retriesExceeded then (1, if reason.isGiven then 0 else 1)
  else if keepsTextOnly kind then (0, 0)
  else (0, keptCount kind arguments)

/-- The link to the first of some members that are numbered from `start`. -/
def linkTo (start : Nat) (members : List Node) : List Nat := if members.isEmpty then [] else [start]

mutual

/-- A failure and all it leads to, numbered from `start`. -/
def Description.members (start : Nat) : Description → List Node
  | .mk kind arguments cause context reason causesItself =>
    let causes := if causesItself then [] else cause.members (start + 1)
    let contextStart := start + 1 + causes.length
    let contexts := context.members contextStart
    let reasonStart := contextStart + contexts.length
    let reasons := reason.members reasonStart
    let (passed, taken) := linkedRange kind arguments reason
    let (links, others) := memberList (reasonStart + reasons.length) passed taken arguments
    let causeLinks := if causesItself then [start] else linkTo (start + 1) causes
    ⟨kind, labelFor kind arguments,
      Description.text (.mk kind arguments cause context reason causesItself),
      causeLinks ++ linkTo contextStart contexts ++ linkTo reasonStart reasons ++ links⟩
      :: causes ++ contexts ++ reasons ++ others

/-- The failure that an argument is, and all it leads to. -/
def Argument.members (start : Nat) : Argument → List Node
  | .failure d => d.members start
  | _ => []

/-- The links to the failures among some arguments, and all they lead to. -/
def memberList (start passed taken : Nat) : List Argument → List Nat × List Node
  | [] => ([], [])
  | argument :: rest =>
    match passed, taken with
    | passed + 1, taken => memberList start passed taken rest
    | 0, 0 => ([], [])
    | 0, taken + 1 =>
      let members := argument.members start
      let (links, others) := memberList (start + members.length) 0 taken rest
      (linkTo start members ++ links, members ++ others)

end

/-- The failure that a description describes. -/
def Description.toFailure (d : Description) : Failure :=
  match d.members 0 with
  | [] => ⟨⟨d.kind, d.kind.label, "", []⟩, []⟩
  | root :: others => ⟨root, others⟩

end WireAgent.Failure
