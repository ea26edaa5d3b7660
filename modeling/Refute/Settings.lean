import Std.Data.TreeMap
import Refute.Decimal.Read
import Refute.Decimal.Write
import Refute.Text.Line

/-!
# Settings

A setting is a named integer, float or text, written `name=value`. A value is an integer if it reads
as one, else a float if it reads as one, and a text otherwise.
-/

namespace Refute

/-- The value of a setting. -/
inductive Setting where
  | integer (number : Int64)
  | float (number : Float)
  | text (content : String)

namespace Setting

/-- Reads a value; blanks around it do not count. -/
def ofText (text : List Char) : Setting :=
  let trimmed := Text.trim text
  match Decimal.readInteger? trimmed, Decimal.readFloat? trimmed with
  | some number, _ => .integer number
  | none, some number => .float number
  | none, none => .text (String.ofList trimmed)

/-- The text of a value. -/
def render : Setting → String
  | integer number => toString number.toInt
  | float number => Decimal.write number
  | text content => content

end Setting

/-- Why a setting cannot be read or used. -/
inductive SettingError where
  /-- The text is not of the form `name=value`. -/
  | invalidAssignment (text : String)
  /-- No setting has this name. -/
  | unknown (name : String)
  /-- The value is no count. -/
  | notCount (name : String) (found : Setting)

/-- The wording of a setting error. -/
def SettingError.message : SettingError → String
  | invalidAssignment text => s!"expected `name=value`, found `{text}`"
  | unknown name => s!"unknown parameter `{name}`"
  | notCount name found =>
    "parameter `" ++ name ++ "` expects a non-negative integer, found `" ++ found.render ++ "`"

/-- Settings by name. -/
structure Settings where
  /-- The values by name. -/
  values : Std.TreeMap String Setting

namespace Settings

/-- No settings. -/
def empty : Settings := ⟨∅⟩

/-- Gives a setting a value. -/
def set (settings : Settings) (name : String) (value : Setting) : Settings :=
  ⟨settings.values.insert name value⟩

/-- Reads `name=value`; the name may not be blank. -/
def assign (settings : Settings) (text : String) : Except SettingError Settings :=
  match Text.cutAt? (· == '=') text.toList with
  | none => .error (.invalidAssignment text)
  | some (name, value) =>
    match Text.trim name with
    | [] => .error (.invalidAssignment text)
    | trimmed => .ok (settings.set (String.ofList trimmed) (Setting.ofText value))

/-- The value of a setting. -/
def get? (settings : Settings) (name : String) : Option Setting := settings.values[name]?

/-- The value of an integer setting. -/
def integer? (settings : Settings) (name : String) : Option Int64 :=
  match settings.get? name with
  | some (.integer number) => some number
  | _ => none

/-- The value of a numeric setting as a float. -/
def float? (settings : Settings) (name : String) : Option Float :=
  match settings.get? name with
  | some (.float number) => some number
  | some (.integer number) => some number.toFloat
  | _ => none

/-- The value of a text setting. -/
def text? (settings : Settings) (name : String) : Option String :=
  match settings.get? name with
  | some (.text content) => some content
  | _ => none

/-- The value of a setting that has to be a non-negative integer. -/
def count? (settings : Settings) (name : String) : Except SettingError (Option Nat) :=
  match settings.get? name with
  | none => .ok none
  | some (.integer number) =>
    if 0 ≤ number then .ok (some number.toInt.toNat) else .error (.notCount name (.integer number))
  | some other => .error (.notCount name other)

/-- The settings in the order of their names. -/
def toList (settings : Settings) : List (String × Setting) := settings.values.toList

end Settings

end Refute
