import Refute.Decimal.Read
import Refute.ParseError
import Refute.Text.Blank
import Refute.Text.Letter
import Refute.Token.Lexicon

/-!
# Lexemes

A lexeme is the longest word, number, quoted text or mark at the start of a text. Its extent does
not depend on what names mean: a word is a name that is resolved later, everything else is a symbol
already. Positions in messages count the bytes of the text in UTF-8.
-/

namespace Refute

/-- What is read before names are resolved. -/
inductive Lexeme where
  /-- A name or a reserved word. -/
  | word (name : String)
  /-- A literal or a mark. -/
  | symbol (meaning : Symbol)

namespace Lexeme

/-- The number of bytes that a list of characters takes. -/
def byteLength (text : List Char) : Nat :=
  text.foldl (fun total c => total + c.utf8Size) 0

/-- The digits of a number at the start of a text: those before the point, and those after it if
the point is followed by a digit. -/
def numeral (text : List Char) : List Char × Option (List Char) :=
  let whole := text.takeWhile Char.isDigit
  match text.dropWhile Char.isDigit with
  | '.' :: after =>
    match after.takeWhile Char.isDigit with
    | [] => (whole, none)
    | fraction => (whole, some fraction)
  | _ => (whole, none)

/-- The value of a numeral; without a fraction it is an integer, which has to fit. -/
def numeralValue? (spelling : List Char) (fraction : Option (List Char)) : Option Value :=
  match fraction with
  | none => (Decimal.readInteger? spelling).map .integer
  | some _ => (Decimal.readFloat? spelling).map .float

/-- A lexeme, its spelling, and the text after it. -/
structure Reading where
  /-- What was read. -/
  lexeme : Lexeme
  /-- The characters it is written with. -/
  spelling : List Char
  /-- The text that follows. -/
  rest : List Char

/-- Reads a number; its spelling is the name of the constant. -/
def readNumber (text : List Char) : Except ParseError Reading :=
  let (whole, fraction) := numeral text
  let spelling := match fraction with
    | none => whole
    | some digits => whole ++ '.' :: digits
  let name := String.ofList spelling
  match numeralValue? spelling fraction with
  | none => .error (.invalidNumber name)
  | some value => .ok ⟨.symbol (.const ⟨name, value⟩), spelling, text.drop spelling.length⟩

/-- Reads a quoted text after its opening quote; the quotes belong to the name of the constant. -/
def readQuoted (offset : Nat) (afterQuote : List Char) : Except ParseError Reading :=
  let body := afterQuote.takeWhile (· != '"')
  match afterQuote.drop body.length with
  | [] => .error (.unterminatedString offset)
  | quote :: rest =>
    let spelling := '"' :: (body ++ [quote])
    .ok ⟨.symbol (.const ⟨String.ofList spelling, .text (String.ofList body)⟩), spelling, rest⟩

/-- Reads the lexeme that starts with the given character. -/
def read (lexicon : Lexicon) (offset : Nat) (c : Char) (rest : List Char) :
    Except ParseError Reading :=
  if Text.startsName c then
    let name := c :: rest.takeWhile Text.continuesName
    .ok ⟨.word (String.ofList name), name, rest.dropWhile Text.continuesName⟩
  else if c.isDigit then readNumber (c :: rest)
  else if c == '"' then readQuoted offset rest
  else
    match lexicon.mark? (c :: rest) with
    | some (mark, meaning) =>
      .ok ⟨.symbol meaning, mark.toList, (c :: rest).drop mark.length⟩
    | none => .error (.unexpectedCharacter c offset)

end Lexeme

end Refute
