import LockService.Json.Token

/-!
# JSON values

`Value.ofTokens?` reads one value from a sequence of lexemes.  Values nest without a limit, so the
reading keeps the unfinished arrays and objects around the current place in a list of `Frame`s
instead of calling itself, and what may come next is the `Expectation`.

`Value.tokens` is the other direction: the one sequence of lexemes that a value is read from.
-/

namespace LockService.Json

/-- A JSON value.  The members of an object stay in the order in which they were written, and one
name may occur several times. -/
inductive Value
  | null
  | bool (value : Bool)
  | number
  | text (pieces : List Piece)
  | array (items : List Value)
  | object (members : List (List Piece × Value))
deriving Inhabited, Repr

/-- The members of an object: names and values. -/
abbrev Members := List (List Piece × Value)

namespace Value

/-! ## Lexemes of a value -/

mutual

/-- The lexemes of a value. -/
def tokens : Value → List Token
  | .null => [.null]
  | .bool value => [.bool value]
  | .number => [.number]
  | .text pieces => [.text pieces]
  | .array items => .openBracket :: (itemTokens items ++ [.closeBracket])
  | .object members => .openBrace :: (memberTokens members ++ [.closeBrace])

/-- The lexemes of the items of an array, with commas between the items. -/
def itemTokens : List Value → List Token
  | [] => []
  | [item] => item.tokens
  | item :: items => item.tokens ++ .comma :: itemTokens items

/-- The lexemes of the members of an object, with commas between the members. -/
def memberTokens : List (List Piece × Value) → List Token
  | [] => []
  | [(name, value)] => .text name :: .colon :: value.tokens
  | (name, value) :: members =>
    .text name :: .colon :: (value.tokens ++ .comma :: memberTokens members)

end

/-! ## Reading -/

/-- An array or object that is not finished: what it has so far, latest first, and for an object
the name whose value comes next. -/
inductive Frame
  | array (items : List Value)
  | object (members : Members) (name : List Piece)
deriving Repr

/-- What may come next: a value; the first item of an array or its end; the first member of an
object or its end; the name of a further member; the colon behind a name; or, behind a complete
value, whatever the innermost unfinished array or object allows. -/
inductive Expectation
  | value
  | firstItem
  | firstMember
  | name (members : Members)
  | colon (members : Members) (name : List Piece)
  | after (value : Value)
deriving Repr

/-- A reading under way, with the unfinished arrays and objects from the innermost outwards. -/
structure Reading where
  expect : Expectation := .value
  outer : List Frame := []
deriving Repr

namespace Reading

/-- Reads the first lexeme of a value. -/
def begin? (outer : List Frame) : Token → Option Reading
  | .null => some ⟨.after .null, outer⟩
  | .bool value => some ⟨.after (.bool value), outer⟩
  | .number => some ⟨.after .number, outer⟩
  | .text pieces => some ⟨.after (.text pieces), outer⟩
  | .openBracket => some ⟨.firstItem, .array [] :: outer⟩
  | .openBrace => some ⟨.firstMember, outer⟩
  | _ => none

/-- Reads one lexeme. -/
def step (r : Reading) (token : Token) : Option Reading :=
  match r.expect, r.outer, token with
  | .value, outer, token => begin? outer token
  | .firstItem, .array _ :: outer, .closeBracket => some ⟨.after (.array []), outer⟩
  | .firstItem, outer, token => begin? outer token
  | .firstMember, outer, .closeBrace => some ⟨.after (.object []), outer⟩
  | .firstMember, outer, .text name => some ⟨.colon [] name, outer⟩
  | .name members, outer, .text name => some ⟨.colon members name, outer⟩
  | .colon members name, outer, .colon => some ⟨.value, .object members name :: outer⟩
  | .after value, .array items :: outer, .comma => some ⟨.value, .array (value :: items) :: outer⟩
  | .after value, .array items :: outer, .closeBracket =>
    some ⟨.after (.array (value :: items).reverse), outer⟩
  | .after value, .object members name :: outer, .comma =>
    some ⟨.name ((name, value) :: members), outer⟩
  | .after value, .object members name :: outer, .closeBrace =>
    some ⟨.after (.object ((name, value) :: members).reverse), outer⟩
  | _, _, _ => none

/-- The value of a sequence of lexemes that ends here, if it may. -/
def finish (r : Reading) : Option Value :=
  match r.expect, r.outer with
  | .after value, [] => some value
  | _, _ => none

end Reading

/-- The value that a sequence of lexemes is. -/
def ofTokens? (tokens : List Token) : Option Value :=
  (tokens.foldlM Reading.step {}).bind Reading.finish

/-- The value that a text spells. -/
def parse? (text : String) : Option Value :=
  (tokens? text.toList).bind ofTokens?

end Value

end LockService.Json
