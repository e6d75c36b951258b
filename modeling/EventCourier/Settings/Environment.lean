import EventCourier.Failure
import EventCourier.Text.Blank

/-!
# Reading the environment

Settings are variables with raw bytes as values; one whose value is not UTF-8 counts as unset. `parsed`
reads a value with a reader of its type: a blank one takes the default, and white space around it does not
matter.
-/

namespace EventCourier

/-- The bytes of the variables that are set. -/
structure Environment where
  raw : String → Option (List UInt8)

/-- Why a value cannot be read. -/
inductive ValueFault where
  | noDigits
  | invalidDigit
  | tooLarge
  | notBool
  | unknownWord
deriving DecidableEq, Repr

/-- The fault in words. -/
def ValueFault.message : ValueFault → String
  | .noDigits => "cannot parse integer from empty string"
  | .invalidDigit => "invalid digit found in string"
  | .tooLarge => "number too large to fit in target type"
  | .notBool => "provided string was not `true` or `false`"
  | .unknownWord => "Matching variant not found"

/-- Why the settings cannot be used: a variable is not set, its value cannot be read, or it makes no sense.
-/
inductive SettingError where
  | missing (key : String)
  | unreadable (key : String) (fault : ValueFault)
  | invalid (key : String) (details : String)
deriving DecidableEq, Repr

/-- The error in words. -/
def SettingError.message : SettingError → String
  | .missing key => s!"Environment variable '{key}' is required but not set"
  | .unreadable key fault => s!"Failed to parse environment variable '{key}': {fault.message}"
  | .invalid key details => s!"Invalid value for '{key}': {details}"

/-! ## Values -/

/-- Reads digits onto a number so far, which must stay below `limit`. -/
def digitsOnto (limit : Nat) : Nat → List Char → Except ValueFault Nat
  | n, [] => .ok n
  | n, c :: cs =>
    if c.isDigit then
      if n * 10 + (c.toNat - 48) < limit then digitsOnto limit (n * 10 + (c.toNat - 48)) cs
      else .error .tooLarge
    else .error .invalidDigit

/-- Reads a number below `limit`, which may have a plus sign. -/
def readNumber (limit : Nat) (s : String) : Except ValueFault Nat :=
  match s.toList with
  | [] => .error .noDigits
  | ['+'] => .error .invalidDigit
  | '+' :: cs => digitsOnto limit 0 cs
  | cs => digitsOnto limit 0 cs

/-- Reads a truth value. -/
def readBool (s : String) : Except ValueFault Bool :=
  if s = "true" then .ok true else if s = "false" then .ok false else .error .notBool

/-- Reads a reject policy. -/
def readPolicy (s : String) : Except ValueFault RejectPolicy :=
  match RejectPolicy.ofName? s with
  | some p => .ok p
  | none => .error .unknownWord

namespace Environment

/-- The value of a variable, if it is set to UTF-8 text. -/
def get? (env : Environment) (key : String) : Option String := (env.raw key).bind Utf8.text?

/-- The value of a variable, or a default. -/
def getOr (env : Environment) (key default : String) : String := (env.get? key).getD default

/-- The value of a variable that must be set. -/
def require (env : Environment) (key : String) : Except SettingError String :=
  match env.get? key with
  | some s => .ok s
  | none => .error (.missing key)

/-- The value of a variable that is not blank. -/
def nonblank? (env : Environment) (key : String) : Option String :=
  (env.get? key).filter fun s => !(trim s).isEmpty

/-- The value of a variable as `read` reads it, or a default if it is blank. -/
def parsed {α : Type} (env : Environment) (read : String → Except ValueFault α) (key : String)
    (default : α) :
    Except SettingError α :=
  match env.nonblank? key with
  | none => .ok default
  | some s =>
    match read (trim s) with
    | .ok a => .ok a
    | .error fault => .error (.unreadable key fault)

end Environment
end EventCourier
