import LockService.Text.Digit

/-!
# The lexemes of a JSON text

A JSON text is a sequence of lexemes with blanks between them.  `tokens?` finds the lexemes by
reading one character after the other, so that reading a text is reading its first half and going
on from there with the second: `Scan.step` is folded over the characters, and what has been read
of an unfinished lexeme is the `Mode`.

Two kinds of lexeme keep less than their spelling.

* A number keeps nothing.  No record has a number for a member, so it only matters that its
  spelling is a number's.
* A quoted text keeps its `Piece`s: characters, and the 16-bit units that were written as `\u`
  with four digits.  Whether the units pair up into characters is judged by `text?`, because the
  texts in the members of a record that nobody reads may hold any units at all.

Blanks are the four characters of JSON: space, tab, line feed and carriage return.
-/

namespace LockService.Json

/-- One unit of a quoted text: a character, or the 16-bit unit of an escape by code. -/
inductive Piece
  | char (c : Char)
  | unit (code : Nat)
deriving DecidableEq, Repr

/-- A lexeme. -/
inductive Token
  | openBrace
  | closeBrace
  | openBracket
  | closeBracket
  | comma
  | colon
  | null
  | bool (value : Bool)
  | number
  | text (pieces : List Piece)
deriving DecidableEq, Repr

/-! ## The text of pieces -/

/-- Whether a unit is the first half of a surrogate pair. -/
def isHighSurrogate (code : Nat) : Bool :=
  0xD800 ≤ code ∧ code ≤ 0xDBFF

/-- Whether a unit is the second half of a surrogate pair. -/
def isLowSurrogate (code : Nat) : Bool :=
  0xDC00 ≤ code ∧ code ≤ 0xDFFF

/-- The character written by a surrogate pair. -/
def pairedChar (high low : Nat) : Char :=
  Char.ofNat (0x10000 + (high - 0xD800) * 0x400 + (low - 0xDC00))

/-- The characters of some pieces behind those already found, which are given latest first.  Half
of a surrogate pair without the other has none. -/
def textFrom : List Char → List Piece → Option (List Char)
  | found, [] => some found.reverse
  | found, .char c :: rest => textFrom (c :: found) rest
  | found, .unit high :: .unit low :: rest =>
    if isHighSurrogate high then
      if isLowSurrogate low then textFrom (pairedChar high low :: found) rest else none
    else if isLowSurrogate high then none
    else textFrom (Char.ofNat high :: found) (.unit low :: rest)
  | found, .unit code :: rest =>
    if isHighSurrogate code ∨ isLowSurrogate code then none
    else textFrom (Char.ofNat code :: found) rest

/-- The text that some pieces write, if their units pair up. -/
def text? (pieces : List Piece) : Option String :=
  (textFrom [] pieces).map String.ofList

/-! ## Numbers -/

/-- How far a number has been read. -/
inductive NumberStage
  | minus
  | zero
  | whole
  | point
  | fraction
  | mark
  | sign
  | exponent
deriving DecidableEq, Repr

namespace NumberStage

/-- How a number goes on with one more character, if it does. -/
def next? : NumberStage → Char → Option NumberStage
  | .minus, c => if c = '0' then some .zero else if c.isDigit then some .whole else none
  | .zero, c => if c = '.' then some .point else if c = 'e' ∨ c = 'E' then some .mark else none
  | .whole, c =>
    if c.isDigit then some .whole
    else if c = '.' then some .point
    else if c = 'e' ∨ c = 'E' then some .mark
    else none
  | .point, c => if c.isDigit then some .fraction else none
  | .fraction, c =>
    if c.isDigit then some .fraction else if c = 'e' ∨ c = 'E' then some .mark else none
  | .mark, c =>
    if c.isDigit then some .exponent else if c = '+' ∨ c = '-' then some .sign else none
  | .sign, c => if c.isDigit then some .exponent else none
  | .exponent, c => if c.isDigit then some .exponent else none

/-- Whether a number may end here. -/
def isComplete : NumberStage → Bool
  | .zero | .whole | .fraction | .exponent => true
  | .minus | .point | .mark | .sign => false

end NumberStage

/-! ## Scanning -/

/-- The lexeme in progress: none, a word of which `rest` is still to come, a quoted text with the
pieces read so far (latest first), the same behind a backslash or within an escape by code of
which `digits` are still to come, or a number. -/
inductive Mode
  | between
  | word (rest : List Char) (token : Token)
  | quoted (pieces : List Piece)
  | escape (pieces : List Piece)
  | code (pieces : List Piece) (digits : Nat) (value : Nat)
  | number (stage : NumberStage)
deriving DecidableEq, Repr

/-- A scan under way: the lexemes found so far, latest first, and the one in progress. -/
structure Scan where
  found : List Token := []
  mode : Mode := .between
deriving DecidableEq, Repr

/-- The blanks of JSON. -/
def isBlank (c : Char) : Bool :=
  c = ' ' ∨ c = '\t' ∨ c = '\n' ∨ c = '\r'

/-- The character written by a backslash and one letter. -/
def escaped? : Char → Option Char
  | '"' => some '"'
  | '\\' => some '\\'
  | '/' => some '/'
  | 'b' => some '\x08'
  | 'f' => some '\x0c'
  | 'n' => some '\n'
  | 'r' => some '\r'
  | 't' => some '\t'
  | _ => none

namespace Scan

/-- Reads a character between lexemes. -/
def begin? (found : List Token) (c : Char) : Option Scan :=
  if isBlank c then some ⟨found, .between⟩
  else
    match c with
    | '{' => some ⟨.openBrace :: found, .between⟩
    | '}' => some ⟨.closeBrace :: found, .between⟩
    | '[' => some ⟨.openBracket :: found, .between⟩
    | ']' => some ⟨.closeBracket :: found, .between⟩
    | ',' => some ⟨.comma :: found, .between⟩
    | ':' => some ⟨.colon :: found, .between⟩
    | '"' => some ⟨found, .quoted []⟩
    | 'n' => some ⟨found, .word ['u', 'l', 'l'] .null⟩
    | 't' => some ⟨found, .word ['r', 'u', 'e'] (.bool true)⟩
    | 'f' => some ⟨found, .word ['a', 'l', 's', 'e'] (.bool false)⟩
    | '-' => some ⟨found, .number .minus⟩
    | '0' => some ⟨found, .number .zero⟩
    | c => if c.isDigit then some ⟨found, .number .whole⟩ else none

/-- Reads one character. -/
def step (s : Scan) (c : Char) : Option Scan :=
  match s.mode with
  | .between => begin? s.found c
  | .word [] token => begin? (token :: s.found) c
  | .word (expected :: rest) token =>
    if c = expected then some ⟨s.found, .word rest token⟩ else none
  | .quoted pieces =>
    if c = '"' then some ⟨.text pieces.reverse :: s.found, .between⟩
    else if c = '\\' then some ⟨s.found, .escape pieces⟩
    else if c.toNat < 0x20 then none
    else some ⟨s.found, .quoted (.char c :: pieces)⟩
  | .escape pieces =>
    if c = 'u' then some ⟨s.found, .code pieces 4 0⟩
    else (escaped? c).map fun c => ⟨s.found, .quoted (.char c :: pieces)⟩
  | .code pieces digits value =>
    (Text.digit? 16 c).map fun digit =>
      let value := value * 16 + digit
      if digits ≤ 1 then ⟨s.found, .quoted (.unit value :: pieces)⟩
      else ⟨s.found, .code pieces (digits - 1) value⟩
  | .number stage =>
    match stage.next? c with
    | some stage => some ⟨s.found, .number stage⟩
    | none => if stage.isComplete then begin? (.number :: s.found) c else none

/-- The lexemes of a text that ends here, if it may. -/
def finish (s : Scan) : Option (List Token) :=
  match s.mode with
  | .between => some s.found.reverse
  | .word [] token => some (token :: s.found).reverse
  | .number stage => if stage.isComplete then some (.number :: s.found).reverse else none
  | _ => none

end Scan

/-- The lexemes of a text. -/
def tokens? (cs : List Char) : Option (List Token) :=
  (cs.foldlM Scan.step {}).bind Scan.finish

end LockService.Json
