import SqlTemplate.Json

/-!
# Settings on the command line

A parameter is given on the command line as its name and its value with an equals sign between. The
value is read as JSON and, where it is none, taken as a text.
-/

namespace SqlTemplate

namespace Setting

/-- Why an argument is no setting. -/
inductive Error where
  /-- There is no equals sign. -/
  | noEquals (argument : Text)
  /-- The value is a number with too many digits. -/
  | unreadable (e : Json.Error) (source : Text)
deriving DecidableEq, Repr

namespace Error

def message [Runtime] : Error → Text
  | noEquals argument => "Parameters must be key=value, got '".toList ++ argument ++ ['\'']
  | unreadable e source => e.message source

end Error

/-- The value that a text is given for. -/
def value [Runtime] (t : Text) : Except Error Value :=
  match Json.parse t with
  | .ok v => .ok v
  | .error (.fault ..) => .ok (.text (.ofText t))
  | .error e => .error (.unreadable e t)

/-- The name and the value of a setting. -/
def parse [Runtime] (argument : Text) : Except Error (Text × Value) :=
  match argument.dropWhile (· != '=') with
  | [] => .error (.noEquals argument)
  | _ :: t =>
    match value t with
    | .ok v => .ok (argument.takeWhile (· != '='), v)
    | .error e => .error e

end Setting

end SqlTemplate
