import WireAgent.Number.Binary64
import WireAgent.Xml.Encoding
import WireAgent.Xml.Reader

/-!
# Expansion

By its entities a short document can stand for a very long one. A document is cut into pieces, and
each piece is charged with the bytes that it takes up itself and with the bytes that the references
in it come to, those of the references inside the replacements included. The document is tolerated
if at the end of each piece all bytes so far are less than 8 MiB or no more than a hundred times
those of the document itself (`isTolerated`). Only a tolerated document is read (`parse?`).
-/

namespace WireAgent.Xml

/-! ## Pieces -/

/-- What a piece of a document is. -/
inductive PieceKind where
  /-- Text, or what stands between declarations. -/
  | data
  /-- A part of a comment, of a processing instruction or of a marked section. -/
  | verbatim
  /-- A tag, a declaration or a reference. -/
  | markup
  deriving DecidableEq, Repr

/-- A piece of a document. -/
structure Piece where
  kind : PieceKind
  text : List Char
  deriving DecidableEq, Repr

/-- Does it end a line? -/
def isBreak (c : Char) : Bool := c = '\n' || c = '\r'

/-- A text cut in front of one character and in front of and behind its line breaks. -/
def runs (stop : Option Char) (cs : List Char) : List (List Char) :=
  cs.splitBy fun c d => (c = '\r' && d = '\n') || !(isBreak c || isBreak d || some d = stop)

/-- The text through the first of a mark, and what follows it. -/
def through (mark cs : List Char) : List Char × List Char :=
  match until? mark cs with
  | some (before, rest) => (before ++ mark, rest)
  | none => (cs, [])

/-- The text through the end of a tag or through the opening of a list of declarations, and what
follows it. `quote` is the quote that is open. -/
def throughTag : Option Char → List Char → List Char × List Char
  | _, [] => ([], [])
  | some quote, c :: cs =>
    let (part, rest) := throughTag (if c = quote then none else some quote) cs
    (c :: part, rest)
  | none, c :: cs =>
    if c = '>' || c = '[' then ([c], cs)
    else
      let (part, rest) := throughTag (if c = '"' || c = '\'' then some c else none) cs
      (c :: part, rest)

/-- The first pieces of a text, and what follows them. -/
def cut : List Char → List Piece × List Char
  | '<' :: '!' :: '-' :: '-' :: rest =>
    let (part, rest) := through ['-', '-', '>'] rest
    ([⟨.verbatim, '<' :: '!' :: '-' :: '-' :: part⟩], rest)
  | '<' :: '!' :: '[' :: rest =>
    let (part, rest) := (until? [']', ']', '>'] rest).getD (rest, [])
    let (opening, text) := part.splitAt "CDATA[".length
    let texts := ('<' :: '!' :: '[' :: opening) :: runs (some ']') text ++ [[']', ']', '>']]
    (texts.map fun text => ⟨.verbatim, text⟩, rest)
  | '<' :: '?' :: rest =>
    let (part, rest) := through ['?', '>'] rest
    ([⟨.verbatim, '<' :: '?' :: part⟩], rest)
  | '<' :: rest =>
    let (part, rest) := throughTag none rest
    ([⟨.markup, '<' :: part⟩], rest)
  | '&' :: rest =>
    let (part, rest) := through [';'] rest
    ([⟨.markup, '&' :: part⟩], rest)
  | cs =>
    let (part, rest) := cs.span fun c => c ≠ '<' && c ≠ '&'
    ((runs none part).map fun text => ⟨.data, text⟩, rest)

/-- The pieces of a text. -/
def pieces : Nat → List Char → List Piece
  | 0, _ => []
  | _ + 1, [] => []
  | fuel + 1, cs =>
    let (first, rest) := cut cs
    first ++ pieces fuel rest

/-! ## Charges -/

/-- The bytes that a piece takes up itself, and those that its references come to. -/
structure Charge where
  direct : Nat
  expanded : Nat
  deriving DecidableEq, Repr

/-- The bytes of a text. -/
def byteCount (encoding : Encoding) (cs : List Char) : Nat :=
  (cs.map encoding.width).foldr (· + ·) 0

/-- The bytes that the references in a text come to. An entity that every document knows is one
byte, and `weights` lists those of the document. -/
def referredBytes (weights : List (List Char × Nat)) : List Char → Nat
  | [] => 0
  | '&' :: rest =>
    let name := rest.takeWhile (· ≠ ';')
    (if (knownEntity? name).isSome then 1 else (weights.lookup name).getD 0) +
      referredBytes weights rest
  | _ :: rest => referredBytes weights rest

/-- The charge of a piece in which nothing is replaced. -/
def Piece.written (encoding : Encoding) (p : Piece) : Charge := ⟨byteCount encoding p.text, 0⟩

/-- The charge of a piece. -/
def Piece.charge (encoding : Encoding) (weights : List (List Char × Nat)) (p : Piece) : Charge :=
  ⟨byteCount encoding p.text, if p.kind = .markup then referredBytes weights p.text else 0⟩

/-- The bytes of a text and of what its references come to. -/
def weight (weights : List (List Char × Nat)) (cs : List Char) : Nat :=
  ((pieces (cs.length + 1) cs).map fun p =>
    let charge := p.charge .utf8 weights
    charge.direct + charge.expanded).foldr (· + ·) 0

/-- The weights of entities, found in rounds from weights that may be too low. -/
def weighEntities (entities : List (List Char × Entity)) :
    Nat → List (List Char × Nat) → List (List Char × Nat)
  | 0, weights => weights
  | rounds + 1, weights =>
    let better := entities.map fun entry => (entry.1, weight weights entry.2.replacement)
    if better = weights then weights else weighEntities entities rounds better

/-- The weights of the declared entities. A reference that leads back to its own entity is read by
nobody, so there are as many rounds to make as there are entities. -/
def Declarations.weights (d : Declarations) : List (List Char × Nat) :=
  weighEntities d.entities d.entities.length []

/-- The declarations after an entity declaration, given its text behind the keyword. -/
def Declarations.takeEntity (d : Declarations) (skipped : Bool) (text : List Char) : Declarations :=
  match lexemes? (text.length + 1) (Text.unifyBreaks text) with
  | some (form, _, _) => (entityDeclaration? d skipped form).getD d
  | none => d

/-- The charges of the pieces of a document. What an entity stands for is read where it is referred
to, and the defaults of attributes are read where they are declared. -/
def charges (encoding : Encoding) (d : Declarations) (skipped : Bool) : List Piece → List Charge
  | [] => []
  | p :: rest =>
    match p.kind with
    | .verbatim => p.written encoding :: charges encoding d skipped rest
    | .data => p.written encoding :: charges encoding d (skipped || p.text.contains '%') rest
    | .markup =>
      match after? ['<', '!'] p.text with
      | none =>
        let weights := d.weights
        (p :: rest).map (Piece.charge encoding weights)
      | some declaration =>
        let (word, text) := declaration.span Char.isAlpha
        if word = "ENTITY".toList then
          p.written encoding :: charges encoding (d.takeEntity skipped text) skipped rest
        else if word = "ATTLIST".toList && d.listens skipped then
          p.charge encoding d.weights :: charges encoding d skipped rest
        else p.written encoding :: charges encoding d skipped rest

/-! ## Tolerance -/

/-- A number rounded to the 24 binary digits of single precision. -/
def single (n : Nat) : Nat :=
  let unit := Nat.pow 2 (n.log2 - 23)
  Number.roundHalfEven n unit * unit

/-- Are so many bytes tolerated? Their quotient is taken in single precision, where what is above
100 by half a unit in the last place, one part in 262144, is 100. -/
def isModest (direct expanded : Nat) : Bool :=
  direct + expanded < 8388608 ||
    single (direct + expanded) * 262144 ≤ single direct * 26214401

/-- Are the bytes tolerated at the end of each piece? -/
def areModest (direct expanded : Nat) : List Charge → Bool
  | [] => true
  | charge :: rest =>
    isModest (direct + charge.direct) (expanded + charge.expanded) &&
      areModest (direct + charge.direct) (expanded + charge.expanded) rest

/-- Does a document keep within bounds with what its entities add to it? -/
def isTolerated (encoding : Encoding) (text : List Char) : Bool :=
  let (d, _) := (opening? (Text.unifyBreaks (skipMark text))).getD ({}, [])
  areModest 0 0 (charges encoding d false (pieces (text.length + 1) text))

/-- The root of the document that the bytes of a text are, if the document is tolerated. -/
def parse? (text : List Char) : Option Node := do
  let encoding := Encoding.ofText text
  let text ← encoding.decode? text
  if isTolerated encoding text then read? text else none

end WireAgent.Xml
