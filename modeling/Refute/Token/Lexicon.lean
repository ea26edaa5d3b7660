import Refute.Symbol

/-!
# Lexicons

A lexicon says how operators, quantifiers and punctuation are spelled. Marks are found at the start
of a text, a longer spelling before a shorter one and otherwise in the order in which they were
added. Words are recognised only as whole names.
-/

namespace Refute

/-- A spelling and the symbol it stands for. -/
abbrev Spelling := String × Symbol

/-- The spellings of marks and of reserved words. -/
structure Lexicon where
  /-- The marks, longer spellings first. -/
  marks : List Spelling
  /-- The reserved words, the latest first, each spelled once. -/
  words : List Spelling

namespace Lexicon

/-- The lexicon that spells nothing. -/
def empty : Lexicon := ⟨[], []⟩

/-- Puts a mark after all marks that are at least as long. -/
def place (mark : Spelling) : List Spelling → List Spelling
  | [] => [mark]
  | first :: others =>
    if first.1.length < mark.1.length then mark :: first :: others
    else first :: place mark others

/-- Adds a mark in place of an earlier mark of that spelling. -/
def addMark (lexicon : Lexicon) (spelling : String) (symbol : Symbol) : Lexicon :=
  { lexicon with
    marks := place (spelling, symbol) (lexicon.marks.filter fun mark => mark.1 != spelling) }

/-- Adds a reserved word in place of an earlier word of that spelling. -/
def addWord (lexicon : Lexicon) (spelling : String) (symbol : Symbol) : Lexicon :=
  { lexicon with
    words := (spelling, symbol) :: lexicon.words.filter fun word => word.1 != spelling }

/-- The first mark whose spelling the text starts with. -/
def mark? (lexicon : Lexicon) (text : List Char) : Option Spelling :=
  lexicon.marks.find? fun mark => mark.1.toList.isPrefixOf text

/-- The symbol of the mark that the text starts with, and the number of bytes of its spelling. -/
def leadingMark? (lexicon : Lexicon) (text : String) : Option (Symbol × Nat) :=
  (lexicon.mark? text.toList).map fun mark => (mark.2, mark.1.utf8ByteSize)

/-- The symbol that a whole word stands for. -/
def word? (lexicon : Lexicon) (word : String) : Option Symbol :=
  (lexicon.words.find? fun entry => entry.1 == word).map (·.2)

/-- Every word of the first list stands for the same symbol in the second lexicon. -/
def coversWords (words : List Spelling) (lexicon : Lexicon) : Bool :=
  words.all fun entry => lexicon.word? entry.1 == some entry.2

/-- Lexicons are equal when their marks agree in order and their words agree in any order. -/
instance : BEq Lexicon where
  beq first second :=
    first.marks == second.marks &&
      coversWords first.words second && coversWords second.words first

/-- The marks of the language in the order in which they are added. -/
def standardMarks : List Spelling :=
  [("(", .leftParen), (")", .rightParen), (",", .comma), (":", .suchThat), (".", .suchThat),
    ("!", .op .not), ("¬", .op .not), ("==", .op .equals), ("!=", .op .notEquals),
    ("&&", .op .and), ("∧", .op .and), ("||", .op .or), ("∨", .op .or),
    ("=>", .op .implication), ("→", .op .implication),
    ("<=>", .op .biconditional), ("↔", .op .biconditional),
    ("∀", .quantifier .universal), ("∃", .quantifier .existential)]

/-- The reserved words of the language. -/
def standardWords : List Spelling :=
  [("NOT", .op .not), ("EQUALS", .op .equals), ("NEQUALS", .op .notEquals), ("AND", .op .and),
    ("OR", .op .or), ("IMPLICATION", .op .implication), ("BICONDITIONAL", .op .biconditional),
    ("FORALL", .quantifier .universal), ("EXISTS", .quantifier .existential)]

/-- The lexicon of the language. -/
def standard : Lexicon :=
  let marked := standardMarks.foldl (fun lexicon mark => lexicon.addMark mark.1 mark.2) empty
  standardWords.foldl (fun lexicon word => lexicon.addWord word.1 word.2) marked

end Lexicon

end Refute
