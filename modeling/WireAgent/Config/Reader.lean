import WireAgent.Config.Values
import WireAgent.Text.Blank
import WireAgent.Text.Quoted

/-!
# Reading configurations

A line gives a value to a key: the key stands before the first equals sign and the value after it,
both trimmed; what follows a number sign is a comment. A key that is no option is passed over. A
value that has not the form of its option counts as the default. A later line for a key replaces an
earlier one. The only failure is a number with too many digits.
-/

namespace WireAgent.Config

/-! ## Values -/

/-- The text without one plus sign in front and one line feed at the end. -/
def numeralBody (cs : List Char) : List Char :=
  let body := match cs with
    | '+' :: rest => rest
    | cs => cs
  match body.getLast? with
  | some '\n' => body.dropLast
  | _ => body

/-- The number that a text denotes, if it is one and at most `limit`. -/
def unsigned (limit : Nat) (cs : List Char) : Except Number.NumeralError (Option Nat) :=
  match Number.asciiWorths? (numeralBody cs) with
  | none | some [] => .ok none
  | some worths => (Number.convert worths).map fun n => if n ≤ limit then some n else none

/-- The value of a text in a form; none if the text has not that form. -/
def Form.read (form : Form) (text : List Char) : Except Number.NumeralError (Option Value) :=
  match form with
  | .flag =>
    if text = ['y'] ∨ text = ['Y'] then .ok (some (.flag true))
    else if text = ['n'] ∨ text = ['N'] then .ok (some (.flag false))
    else .ok none
  | .text =>
    if text = ['"', '"'] then .ok (some (.text absentText))
    else if text.isEmpty then .ok none
    else .ok (some (.text (String.ofList text)))
  | .number => (unsigned Number.greatest32 text).map fun n => n.map fun n => .number n
  | .port =>
    if text.isEmpty ∨ text = absentText.toList then .ok (some .absent)
    else (unsigned Number.greatest16 text).map fun n => n.map fun n => .number n

/-! ## Lines -/

/-- The key and the value of a line; none if it has no key. -/
def splitEntry? (line : List Char) : Option (List Char × List Char) :=
  let content := Text.trim (line.takeWhile (· ≠ '#'))
  let key := Text.trim (content.takeWhile (· ≠ '='))
  if key.isEmpty then none
  else some (key, Text.trim ((content.dropWhile (· ≠ '=')).drop 1))

/-- What a line says. -/
inductive Line where
  /-- It is blank or a comment, or has no key. -/
  | empty
  /-- Its key is no option. -/
  | unknown (key : String)
  /-- It gives a value to an option. -/
  | assigned (key : String) (value : Value)
  /-- Its value has not the form of the option, which gets its default. -/
  | rejected (key text : String) (fallback : Value)
  /-- Its number cannot be converted. -/
  | failed (error : Number.NumeralError)
  deriving DecidableEq, Repr

namespace Line

/-- Reads a line. -/
def ofText (line : List Char) : Line :=
  match splitEntry? line with
  | none => .empty
  | some (key, text) =>
    let key := String.ofList key
    match option? key with
    | none => .unknown key
    | some entry =>
      match entry.form.read text with
      | .error e => .failed e
      | .ok (some value) => .assigned key value
      | .ok none => .rejected key (String.ofList text) entry.fallback

/-- What is remarked about a line. -/
def remark? : Line → Option String
  | .unknown key => some ("Ignoring unknown configuration key: " ++ key)
  | .rejected key text _ =>
    some ("Invalid value for " ++ key ++ ": " ++ Text.quoted text ++ ", using default")
  | _ => none

/-- Takes a line into a configuration. -/
def apply (values : Values) : Line → Except Number.NumeralError Values
  | .assigned key value => .ok (values.set key value)
  | .rejected key _ fallback => .ok (values.set key fallback)
  | .failed e => .error e
  | _ => .ok values

/-- Is it a line that cannot be taken? -/
def isFailed : Line → Bool
  | .failed _ => true
  | _ => false

end Line

/-! ## Texts -/

/-- The lines of a text. -/
def linesOf (text : List Char) : List Line := (Text.splitLines text).map Line.ofText

/-- The configuration that a text gives. -/
def parse (text : List Char) : Except Number.NumeralError Values :=
  (linesOf text).foldlM Line.apply []

/-- What is remarked while a text is read, up to a line that cannot be taken. -/
def remarks (text : List Char) : List String :=
  ((linesOf text).takeWhile fun line => !line.isFailed).filterMap Line.remark?

end WireAgent.Config
