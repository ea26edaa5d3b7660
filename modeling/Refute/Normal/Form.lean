import Refute.Normal.Distribution
import Refute.Normal.Negation
import Refute.Normal.Renaming
import Refute.Normal.Skolem

/-!
# Conjunctive normal form

An expression is brought to conjunctive normal form in five steps: negation normal form, renaming
apart, Skolem functions, dropping universal quantifiers, and distribution.
-/

namespace Refute.Expr

/-- The conjunctive normal form of an expression, with new numbers from the session. -/
def toCnf (session : Session) (e : Expr) : Expr × Session :=
  let (renamed, session) := e.eliminateConnectives.standardize session
  let (replaced, session) := renamed.skolemize session
  (replaced.dropUniversals.distribute, session)

end Refute.Expr
