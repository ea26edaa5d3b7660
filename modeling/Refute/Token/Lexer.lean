import Refute.Session
import Refute.Text.Line
import Refute.Token.Lexeme

/-!
# From text to symbols

Names are resolved while a text is read. A name in the header of a quantifier always introduces a
new variable, bound until the parenthesis around the quantifier closes or the text ends. Any other
name is, in this order, a reserved word, the innermost variable bound to it, what the session
declares under it, or a free variable, one for each name of the text. An undeclared name may not be
applied to arguments.

The variables of a header are bound in the session while their scope is open. When the reader stops,
at the end of the text or at an error, it closes all scopes and so gives back the session with the
bindings it was lent.
-/

namespace Refute

/-- Where the reader stands in relation to the header of a quantifier. -/
inductive Header where
  /-- Outside of every header. -/
  | closed
  /-- Right after a quantifier. -/
  | opened
  /-- Inside a parenthesised list, with the names read so far. -/
  | listed (names : List String)
  deriving DecidableEq

/-- The names that one quantifier binds, and how deep in parentheses it stands. -/
structure Scope where
  /-- The number of groups open around the quantifier. -/
  depth : Nat
  /-- The names it binds. -/
  names : List String

/-- The state of the reader. -/
structure Lexer where
  /-- The session, in which the variables of open scopes are bound. -/
  session : Session
  /-- The free variables of this text. -/
  free : List (String × Variable) := []
  /-- The number of open groups. -/
  depth : Nat := 0
  /-- The open scopes, the innermost first. -/
  scopes : List Scope := []
  /-- Where the reader stands in relation to a header. -/
  header : Header := .closed
  /-- The symbols read, the last one first. -/
  tokens : List Symbol := []

/-- The names that an unfinished header has bound. -/
def Header.names : Header → List String
  | closed => []
  | opened => []
  | listed names => names

namespace Lexer

/-- Introduces the variable of a header. -/
def introduce (lexer : Lexer) (name : String) : Variable × Lexer :=
  let (v, session) := lexer.session.bindVariable name
  (v, { lexer with session })

/-- Introduces a free variable. -/
def introduceFree (lexer : Lexer) (name : String) : Variable × Lexer :=
  let (v, session) := lexer.session.freshVariable name
  (v, { lexer with session, free := (name, v) :: lexer.free })

/-- The free variable that a name of this text was given. -/
def free? (lexer : Lexer) (name : String) : Option Variable :=
  (lexer.free.find? (·.1 == name)).map (·.2)

/-- The text goes on with an opening parenthesis, perhaps after blanks. -/
def startsCall (rest : List Char) : Bool :=
  (Text.trimStart rest).head? == some '('

/-- What a name stands for outside of headers, if it is bound, declared or was met before. -/
def known? (lexer : Lexer) (name : String) : Option Symbol :=
  match lexer.session.binding? name, lexer.session.lookup? name with
  | some v, _ => some (.var v)
  | none, some symbol => some symbol
  | none, none => (lexer.free? name).map .var

/-- Resolves a word in front of the given rest of the text. -/
def resolve (lexicon : Lexicon) (lexer : Lexer) (name : String) (rest : List Char) :
    Except ParseError (Symbol × Lexer) :=
  match lexicon.word? name with
  | some symbol => .ok (symbol, lexer)
  | none =>
    if lexer.header != .closed then
      let (v, lexer) := lexer.introduce name
      .ok (.var v, lexer)
    else
      match lexer.known? name with
      | some symbol => .ok (symbol, lexer)
      | none =>
        if startsCall rest then .error (.unknownFunction name)
        else
          let (v, lexer) := lexer.introduceFree name
          .ok (.var v, lexer)

/-- The symbol of a lexeme in front of the given rest of the text. -/
def symbolOf (lexicon : Lexicon) (lexer : Lexer) (rest : List Char) :
    Lexeme → Except ParseError (Symbol × Lexer)
  | .word name => lexer.resolve lexicon name rest
  | .symbol symbol => .ok (symbol, lexer)

/-- Drops the innermost binding of each name. -/
def release (session : Session) (names : List String) : Session :=
  names.foldl (fun session name => (session.unbind name).2) session

/-- Opens a scope for the names of a header. -/
def openScope (lexer : Lexer) (names : List String) : Lexer :=
  { lexer with scopes := ⟨lexer.depth, names⟩ :: lexer.scopes, header := .closed }

/-- Closes a group and the scopes that were opened inside it. -/
def closeGroup (lexer : Lexer) : Lexer :=
  let depth := lexer.depth - 1
  let closing := lexer.scopes.takeWhile (depth < ·.depth)
  { lexer with
    depth
    scopes := lexer.scopes.dropWhile (depth < ·.depth)
    session := release lexer.session (closing.flatMap (·.names)) }

/-- What a symbol outside of headers does to groups and headers. -/
def enter (lexer : Lexer) : Symbol → Lexer
  | .leftParen => { lexer with depth := lexer.depth + 1 }
  | .rightParen => lexer.closeGroup
  | .quantifier _ => { lexer with header := .opened }
  | _ => lexer

/-- What a symbol does to headers, scopes and groups. -/
def advance (lexer : Lexer) (symbol : Symbol) : Except ParseError Lexer :=
  match lexer.header with
  | .closed => .ok (lexer.enter symbol)
  | .opened =>
    match symbol with
    | .var v => .ok (lexer.openScope [v.name])
    | .leftParen => .ok { lexer with header := .listed [] }
    | other => .ok ({ lexer with header := .closed }.enter other)
  | .listed names =>
    match symbol with
    | .var v => .ok { lexer with header := .listed (names ++ [v.name]) }
    | .comma => .ok lexer
    | .rightParen => .ok (lexer.openScope names)
    | other => .error (.unexpectedToken other.render)

/-- Takes a symbol over into the tokens. -/
def accept (lexer : Lexer) (symbol : Symbol) : Except ParseError Lexer := do
  let lexer ← lexer.advance symbol
  .ok { lexer with tokens := symbol :: lexer.tokens }

/-- Reads one token: its spelling, the rest of the text and the state after it. When the token is
read but not acceptable, the state is that of the reading. -/
def step (lexicon : Lexicon) (lexer : Lexer) (offset : Nat) (c : Char) (rest : List Char) :
    Except ParseError (List Char × List Char) × Lexer :=
  match Lexeme.read lexicon offset c rest with
  | .error cause => (.error cause, lexer)
  | .ok reading =>
    match lexer.symbolOf lexicon reading.rest reading.lexeme with
    | .error cause => (.error cause, lexer)
    | .ok (symbol, resolved) =>
      match resolved.accept symbol with
      | .error cause => (.error cause, resolved)
      | .ok accepted => (.ok (reading.spelling, reading.rest), accepted)

/-- Reads the text from the given offset on. Every step consumes a character unless the lexicon
spells a mark with the empty word, and the fuel is enough for every text that such a mark does not
keep the reader from leaving; a reader that is kept refuses the character it stands at. -/
def scan (lexicon : Lexicon) : Nat → Lexer → Nat → List Char → Except ParseError Unit × Lexer
  | _, lexer, _, [] => (.ok (), lexer)
  | 0, lexer, offset, c :: _ => (.error (.unexpectedCharacter c offset), lexer)
  | fuel + 1, lexer, offset, c :: rest =>
    if Text.isBlank c then scan lexicon fuel lexer (offset + c.utf8Size) rest
    else
      match lexer.step lexicon offset c rest with
      | (.error cause, lexer) => (.error cause, lexer)
      | (.ok (spelling, remaining), lexer) =>
        scan lexicon fuel lexer (offset + Lexeme.byteLength spelling) remaining

/-- Closes all scopes and an unfinished header, and gives back the session. -/
def close (lexer : Lexer) : Session :=
  release (release lexer.session (lexer.scopes.flatMap (·.names))) lexer.header.names

end Lexer

namespace Session

/-- The symbols of a text under a lexicon. Whether or not it can be read, the session comes back
with all scopes of the text closed and its counter of variables past those introduced. -/
def tokenizeWith (lexicon : Lexicon) (session : Session) (text : String) :
    Except ParseError (List Symbol) × Session :=
  let characters := text.toList
  let (result, lexer) := Lexer.scan lexicon (characters.length + 3) { session } 0 characters
  (result.map fun _ => lexer.tokens.reverse, lexer.close)

/-- The symbols of a text in the spelling of the language. -/
def tokenize (session : Session) (text : String) : Except ParseError (List Symbol) × Session :=
  session.tokenizeWith Lexicon.standard text

end Session

end Refute
