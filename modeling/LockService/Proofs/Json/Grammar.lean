import LockService.Json.Value

/-!
# How a JSON text is spelled

The grammar of JSON texts, said without a reader: which characters spell a piece of a quoted text,
a number, a lexeme, a sequence of lexemes and a value, and which characters the pieces of a text
write.  One value has many spellings.  Blanks may stand between any two lexemes and around all of
them, every character of a quoted text may be escaped by its code and some also by a letter, and
nothing is kept of a number but that it is one.

A quoted text is spelled by pieces of which some may write no character, because halves of
surrogate pairs are spelled like any other unit.  Whether they pair up is what `Writes` says, and
it is not part of the spelling.
-/

namespace LockService.Json

/-- Characters that are made of one part for each item, in the order of the items. -/
inductive Joined {α : Type} (Spells : α → List Char → Prop) : List α → List Char → Prop
  | nil : Joined Spells [] []
  | cons {item : α} {items : List α} {front back : List Char} (hfront : Spells item front)
    (hback : Joined Spells items back) : Joined Spells (item :: items) (front ++ back)

theorem Joined.concat {α : Type} {Spells : α → List Char → Prop} {items : List α} {item : α}
    {front back : List Char} (hfront : Joined Spells items front) (hback : Spells item back) :
    Joined Spells (items ++ [item]) (front ++ back) := by
  induction hfront with
  | nil => simpa using Joined.cons hback .nil
  | cons hfirst _ ih =>
      rw [List.append_assoc]
      exact .cons hfirst ih

/-! ## Quoted texts -/

/-- The number that some digits of base sixteen write. -/
def hexValue? (digits : List Char) : Option Nat :=
  digits.foldlM (fun value c => (Text.digit? 16 c).map (value * 16 + ·)) 0

/-- The characters that spell a piece of a quoted text. -/
inductive Piece.Spells : Piece → List Char → Prop
  | plain {c : Char} (hquote : c ≠ '"') (hbackslash : c ≠ '\\') (hcontrol : ¬ c.toNat < 0x20) :
    Spells (.char c) [c]
  | letter {letter c : Char} (hletter : escaped? letter = some c) : Spells (.char c) ['\\', letter]
  | code {digits : List Char} {code : Nat} (hlength : digits.length = 4)
    (hcode : hexValue? digits = some code) : Spells (.unit code) ('\\' :: 'u' :: digits)

/-- The characters that some pieces write: a unit writes a character by itself if it is no half of
a surrogate pair, and two halves in their order write one together. -/
inductive Writes : List Piece → List Char → Prop
  | nil : Writes [] []
  | char (c : Char) {pieces : List Piece} {cs : List Char} (h : Writes pieces cs) :
    Writes (.char c :: pieces) (c :: cs)
  | unit {code : Nat} {pieces : List Piece} {cs : List Char} (hhigh : isHighSurrogate code = false)
    (hlow : isLowSurrogate code = false) (h : Writes pieces cs) :
    Writes (.unit code :: pieces) (Char.ofNat code :: cs)
  | pair {high low : Nat} {pieces : List Piece} {cs : List Char}
    (hhigh : isHighSurrogate high = true) (hlow : isLowSurrogate low = true)
    (h : Writes pieces cs) :
    Writes (.unit high :: .unit low :: pieces) (pairedChar high low :: cs)

/-! ## Numbers -/

/-- One digit or more. -/
def IsDigits (cs : List Char) : Prop :=
  cs ≠ [] ∧ ∀ c ∈ cs, c.isDigit = true

/-- Zero, or digits of which the first is not zero. -/
def IsWhole (cs : List Char) : Prop :=
  cs = ['0'] ∨ (IsDigits cs ∧ cs.head? ≠ some '0')

/-- A whole number, possibly negative. -/
def IsInteger (cs : List Char) : Prop :=
  ∃ sign whole, sign ∈ [[], ['-']] ∧ IsWhole whole ∧ cs = sign ++ whole

/-- An integer, possibly with a fraction. -/
def IsDecimal (cs : List Char) : Prop :=
  IsInteger cs ∨ ∃ integer digits, IsInteger integer ∧ IsDigits digits ∧
    cs = integer ++ '.' :: digits

/-- A decimal number, possibly with an exponent. -/
def IsNumber (cs : List Char) : Prop :=
  IsDecimal cs ∨ ∃ decimal mark sign digits, IsDecimal decimal ∧ mark ∈ ['e', 'E'] ∧
    sign ∈ [[], ['+'], ['-']] ∧ IsDigits digits ∧ cs = decimal ++ mark :: (sign ++ digits)

/-! ## Lexemes and values -/

/-- The characters that spell a lexeme. -/
inductive Token.Spells : Token → List Char → Prop
  | openBrace : Spells .openBrace ['{']
  | closeBrace : Spells .closeBrace ['}']
  | openBracket : Spells .openBracket ['[']
  | closeBracket : Spells .closeBracket [']']
  | comma : Spells .comma [',']
  | colon : Spells .colon [':']
  | null : Spells .null ['n', 'u', 'l', 'l']
  | true : Spells (.bool true) ['t', 'r', 'u', 'e']
  | false : Spells (.bool false) ['f', 'a', 'l', 's', 'e']
  | number {cs : List Char} (h : IsNumber cs) : Spells .number cs
  | text {pieces : List Piece} {cs : List Char} (h : Joined Piece.Spells pieces cs) :
    Spells (.text pieces) ('"' :: (cs ++ ['"']))

/-- Any number of blanks. -/
def AreBlank (cs : List Char) : Prop :=
  ∀ c ∈ cs, isBlank c = true

theorem areBlank_nil : AreBlank [] :=
  nofun

/-- A lexeme behind any number of blanks. -/
def Token.SpellsBehindBlanks (token : Token) (cs : List Char) : Prop :=
  ∃ blanks spelling, AreBlank blanks ∧ token.Spells spelling ∧ cs = blanks ++ spelling

/-- Lexemes with blanks between and around them. -/
def Spelled (tokens : List Token) (cs : List Char) : Prop :=
  ∃ front blanks, Joined Token.SpellsBehindBlanks tokens front ∧ AreBlank blanks ∧
    cs = front ++ blanks

/-- **The texts that spell a value**: its lexemes, with blanks between and around them. -/
def Value.Spells (v : Value) (text : String) : Prop :=
  Spelled v.tokens text.toList

end LockService.Json
