import Refute.Clause.Basic
import Refute.Clause.Form
import Refute.CommandLine
import Refute.Decimal.Read
import Refute.Decimal.Shortest
import Refute.Decimal.Write
import Refute.Derivation
import Refute.Expr.Basic
import Refute.Expr.Evaluate
import Refute.Expr.Postfix
import Refute.Expr.Print
import Refute.Function
import Refute.Inference.Factoring
import Refute.Inference.Resolution
import Refute.Inference.Restriction
import Refute.Infix
import Refute.Main
import Refute.Normal.Distribution
import Refute.Normal.Form
import Refute.Normal.Negation
import Refute.Normal.Renaming
import Refute.Normal.Skolem
import Refute.ParseError
import Refute.Problem
import Refute.Prover.Basic
import Refute.Prover.Budget
import Refute.Prover.Search
import Refute.Session
import Refute.Settings
import Refute.Statement
import Refute.Symbol
import Refute.Tally
import Refute.Text.Blank
import Refute.Text.Letter
import Refute.Text.Line
import Refute.Text.Range
import Refute.Token.Lexeme
import Refute.Token.Lexer
import Refute.Token.Lexicon
import Refute.Unifier.Basic
import Refute.Unifier.Unify
import Refute.Value
import Refute.Proofs.Identity
import Refute.Proofs.Structure
import Refute.Proofs.Substitution
import Refute.Proofs.Image
import Refute.Proofs.Unification
import Refute.Proofs.Inference
import Refute.Proofs.Collection
import Refute.Proofs.Search
import Refute.Proofs.Run
import Refute.Proofs.Soundness
import Refute.Proofs.Ground
import Refute.Proofs.Formula
import Refute.Proofs.Reading
import Refute.Proofs.Renaming
import Refute.Proofs.Skolemization
import Refute.Proofs.Universal
import Refute.Proofs.ClausalForm
import Refute.Proofs.NormalForm
import Refute.Proofs.Entailment
import Refute.Proofs.Halting
import Refute.Proofs.MostGeneral
import Refute.Proofs.Acyclicity
import Refute.Proofs.Stability
import Refute.Proofs.Restriction
import Refute.Proofs.Lifting
import Refute.Proofs.Saturation
import Refute.Proofs.Factoring
import Refute.Proofs.Grammar
import Refute.Proofs.Infix
import Refute.Proofs.Alternation
import Refute.Proofs.Equivariance
import Refute.Proofs.Counters
import Refute.Proofs.Independence
import Refute.Proofs.Justification
import Refute.Proofs.Agenda
import Refute.Proofs.Balance
import Refute.Proofs.Shape
import Refute.Proofs.Existential
import Refute.Proofs.Discipline
import Refute.Proofs.Scanning
import Refute.Proofs.Naming
import Refute.Proofs.Scoping
import Refute.Proofs.Evaluation
import Refute.Proofs.Rewriting
import Refute.Proofs.Distribution
import Refute.Proofs.Elimination
import Refute.Proofs.Standardization
import Refute.Proofs.Ancestry
import Refute.Proofs.Suffix
import Refute.Proofs.Lending
import Refute.Proofs.Spelling
import Refute.Proofs.Semilattice
import Refute.Proofs.Conservation
import Refute.Proofs.Margin
import Refute.Proofs.Directive
import Refute.Proofs.Declaration
import Refute.Proofs.LongestMatch
