/-!
# Flaws of a configuration

What can be wrong with one setting. A rejected configuration is a list of flaws with their places.

## Main definitions

* `Config.Flaw` — what is wrong with a setting.
* `Config.Problem` — a flaw and the path to the setting that has it.
-/

namespace NodeKeeper.Config

/-- What is wrong with a setting. -/
inductive Flaw where
  | missing
  | unknown
  | notText
  | notInteger
  | unreadableInteger
  | oversized
  | fractional
  | notFinite
  | notNumber
  | unreadableNumber
  | notTruthValue
  | unreadableTruthValue
  /-- None of the choices, which are given as they are shown. -/
  | noChoice (choices : String)
  /-- No record where a section of this name belongs. -/
  | notSection (name : String)
  | wrongPattern (pattern : String)
  /-- Not above the bound. -/
  | notAbove (bound : Int)
  /-- Below the bound. -/
  | below (bound : Int)
  /-- The settings of a section do not go together. -/
  | conflict (reason : String)
deriving DecidableEq, Repr

namespace Flaw

/-- The short name of a flaw. -/
def word : Flaw → String
  | missing => "missing"
  | unknown => "extra_forbidden"
  | notText => "string_type"
  | notInteger => "int_type"
  | unreadableInteger => "int_parsing"
  | oversized => "int_parsing_size"
  | fractional => "int_from_float"
  | notFinite => "finite_number"
  | notNumber => "float_type"
  | unreadableNumber => "float_parsing"
  | notTruthValue => "bool_type"
  | unreadableTruthValue => "bool_parsing"
  | noChoice _ => "enum"
  | notSection _ => "model_type"
  | wrongPattern _ => "string_pattern_mismatch"
  | notAbove _ => "greater_than"
  | below _ => "greater_than_equal"
  | conflict _ => "value_error"

/-- What is said about a flaw. -/
def message : Flaw → String
  | missing => "Field required"
  | unknown => "Extra inputs are not permitted"
  | notText => "Input should be a valid string"
  | notInteger => "Input should be a valid integer"
  | unreadableInteger => "Input should be a valid integer, unable to parse string as an integer"
  | oversized => "Unable to parse input string as an integer, exceeded maximum size"
  | fractional => "Input should be a valid integer, got a number with a fractional part"
  | notFinite => "Input should be a finite number"
  | notNumber => "Input should be a valid number"
  | unreadableNumber => "Input should be a valid number, unable to parse string as a number"
  | notTruthValue => "Input should be a valid boolean"
  | unreadableTruthValue => "Input should be a valid boolean, unable to interpret input"
  | noChoice choices => s!"Input should be {choices}"
  | notSection name => s!"Input should be a valid dictionary or instance of {name}"
  | wrongPattern pattern => s!"String should match pattern '{pattern}'"
  | notAbove bound => s!"Input should be greater than {bound}"
  | below bound => s!"Input should be greater than or equal to {bound}"
  | conflict reason => s!"Value error, {reason}"

end Flaw

/-- A flaw and the path to the setting that has it, from the root down. -/
structure Problem where
  path : List String
  flaw : Flaw
deriving DecidableEq, Repr

/-- The problem of a setting inside the section `name`. -/
def Problem.within (name : String) (p : Problem) : Problem := ⟨name :: p.path, p.flaw⟩

end NodeKeeper.Config
