import Refute.Decimal.Write

/-!
# Values

A constant denotes a boolean, an integer of 64 bits, a double or a text. Equality of values follows
equality of their payloads, so a NaN differs from itself and the two zeros are equal.
-/

namespace Refute

/-- The kinds of value that a signature speaks about. -/
inductive ValueKind where
  | bool
  | integer
  | float
  | text
  deriving DecidableEq

/-- A typed value. -/
inductive Value where
  | bool (truth : Bool)
  | integer (number : Int64)
  | float (number : Float)
  | text (content : String)
  deriving BEq

namespace ValueKind

/-- The name of a kind in a message. -/
def render : ValueKind → String
  | bool => "bool"
  | integer => "integer"
  | float => "float"
  | text => "text"

/-- The name of a kind in the description of a signature. -/
def title : ValueKind → String
  | bool => "Bool"
  | integer => "Integer"
  | float => "Float"
  | text => "Text"

end ValueKind

namespace Value

/-- The kind of a value. -/
def kind : Value → ValueKind
  | bool _ => .bool
  | integer _ => .integer
  | float _ => .float
  | text _ => .text

/-- The text of a value; a text is quoted and not escaped. -/
def render : Value → String
  | bool truth => if truth then "true" else "false"
  | integer number => toString number.toInt
  | float number => Decimal.write number
  | text content => "\"" ++ content ++ "\""

end Value

end Refute
