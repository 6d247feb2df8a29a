import SqlTemplate.CommandLine.Setting

/-!
# Options

The arguments of the command line are options, which begin with a dash, and one template file. An
option may be shortened as long as no other one begins in the same way, its value may be attached to
it, and options of one letter may be written together. Behind a bare double dash everything is taken
as it is; a double dash attached to an option omits its value.

Every argument is classified first, by `Argument.classify`; `Request.read` then reads them from left
to right. What is not understood is collected and refused at the end.
-/

namespace SqlTemplate

/-- The options of the command line. -/
inductive CommandOption where
  | help
  | param
  | paramsFile
  | emptyAsNegative
  | tree
  | verbose
deriving DecidableEq, Repr

namespace CommandOption

def spellings : List (Text × CommandOption) :=
  [("-h".toList, help), ("--help".toList, help), ("-p".toList, param), ("--param".toList, param),
    ("--params-file".toList, paramsFile), ("--empty-as-negative".toList, emptyAsNegative),
    ("--tree".toList, tree), ("-v".toList, verbose), ("--verbose".toList, verbose)]

def ofSpelling? (spelling : Text) : Option CommandOption :=
  (spellings.find? fun (s, _) => s == spelling).map (·.2)

def takesValue : CommandOption → Bool
  | param | paramsFile => true
  | _ => false

/-- The name of an option in messages: its spellings. -/
def name (o : CommandOption) : Text :=
  List.intercalate ['/'] ((spellings.filter fun (_, p) => p == o).map (·.1))

end CommandOption

/-- Why the arguments are refused. -/
inductive UsageError where
  | ambiguous (argument : Text) (candidates : List Text)
  | missingValue (o : CommandOption)
  | ignoredValue (o : CommandOption) (value : Text)
  | badSetting (e : Setting.Error) (argument : Text)
  | missingTemplate
  | unrecognized (arguments : List Text)
deriving DecidableEq, Repr

namespace UsageError

def about (o : CommandOption) (message : Text) : Text :=
  "argument ".toList ++ o.name ++ ": ".toList ++ message

def message : UsageError → Text
  | ambiguous argument candidates =>
    "ambiguous option: ".toList ++ argument ++ " could match ".toList ++
      List.intercalate ", ".toList candidates
  | missingValue o => about o "expected one argument".toList
  | ignoredValue o value => about o ("ignored explicit argument ".toList ++ Escaped.text value)
  | badSetting (.unreadable ..) argument =>
    about .param ("invalid parse_param value: ".toList ++ Escaped.text argument)
  | badSetting e _ => about .param e.message
  | missingTemplate => "the following arguments are required: template".toList
  | unrecognized arguments =>
    "unrecognized arguments: ".toList ++ List.intercalate [' '] arguments

end UsageError

/-- An argument of the command line. -/
inductive Argument where
  | plain (t : Text)
  /-- The first bare double dash. -/
  | separator
  /-- An option, spelled out or by its letter, with what is attached to it: behind an equals sign,
  or right behind the letter. -/
  | option (o : CommandOption) (long : Bool) (attached : Option Text)
  | unknown (t : Text)
deriving DecidableEq, Repr

namespace Argument

/-- An argument as it was written, as far as it can be left over. -/
def text : Argument → Text
  | plain t => t
  | separator => "--".toList
  | option o _ _ => o.name
  | unknown t => t

/-- Whether an argument is a number below zero, in the digits of any script. A line feed may end
it. -/
def isNegativeNumber : Text → Bool
  | '-' :: t =>
    let (whole, rest) := Decimal.takeDigits (t.map Decimal.plainDigit)
    match rest with
    | [] | ['\n'] => !whole.isEmpty
    | '.' :: t =>
      let (fraction, rest) := Decimal.takeDigits t
      !fraction.isEmpty && (rest.isEmpty || rest == ['\n'])
    | _ => false
  | _ => false

/-- A text up to its first equals sign and what is attached behind it. -/
def splitEquals (t : Text) : Text × Option Text :=
  match t.dropWhile (· != '=') with
  | [] => (t, none)
  | _ :: value => (t.takeWhile (· != '='), some value)

/-- The options that an argument may be short for: an option of one letter with its value, or all
long options that begin in the same way. -/
def candidates (t : Text) : List (Text × Argument) :=
  match t with
  | '-' :: '-' :: _ =>
    let (start, attached) := splitEquals t
    (CommandOption.spellings.filter fun (s, _) => start.isPrefixOf s).map fun (s, o) =>
      (s, option o true attached)
  | _ =>
    (CommandOption.spellings.filter fun (s, _) => s == t.take 2).map fun (s, o) =>
      (s, option o false (some (t.drop 2)))

/-- What an argument in front of the double dash is. -/
def classify (t : Text) : Except UsageError Argument :=
  let isLong := "--".toList.isPrefixOf t
  match t with
  | '-' :: _ :: _ =>
    match CommandOption.ofSpelling? t with
    | some o => .ok (option o isLong none)
    | none =>
      let (start, attached) := splitEquals t
      match attached, CommandOption.ofSpelling? start with
      | some value, some o => .ok (option o isLong (some value))
      | _, _ =>
        match candidates t with
        | [(_, found)] => .ok found
        | [] => .ok (if isNegativeNumber t || t.contains ' ' then plain t else unknown t)
        | several => .error (.ambiguous t (several.map (·.1)))
  | _ => .ok (plain t)

def classifyAll : List Text → Except UsageError (List Argument)
  | [] => .ok []
  | t :: ts =>
    if t = "--".toList then .ok (separator :: ts.map plain)
    else
      match classify t with
      | .error e => .error e
      | .ok a =>
        match classifyAll ts with
        | .error e => .error e
        | .ok as => .ok (a :: as)

/-- The options of one letter that are written together, where `value` is attached to the option
`o`: those without a value, and the one that ends the row, with its value if it is attached. -/
def row (o : CommandOption) (long : Bool) (value : Text) :
    Except UsageError (List CommandOption × CommandOption × Option Text) :=
  if o.takesValue then .ok ([], o, some value)
  else
    match value with
    | [] => .error (.ignoredValue o [])
    | c :: rest =>
      if long then .error (.ignoredValue o value)
      else
        match CommandOption.ofSpelling? ['-', c] with
        | none => .error (.ignoredValue o value)
        | some next =>
          if rest.isEmpty then .ok ([o], next, none)
          else
            match row next false rest with
            | .ok (flags, last) => .ok (o :: flags, last)
            | .error e => .error e

/-- The row of options that begins with `o`. -/
def rowOf (o : CommandOption) (long : Bool) :
    Option Text → Except UsageError (List CommandOption × CommandOption × Option Text)
  | none => .ok ([], o, none)
  | some value => row o long value

end Argument

/-- What the command line asks for. The value of a setting may be omitted. -/
structure Request where
  settings : List (Option (Text × Value))
  paramsFile : Option Text
  emptyAsNegative : Bool
  tree : Bool
  verbose : Bool
  template : Option Text
  unrecognized : List Text
deriving Repr

/-- The outcome of reading the command line. -/
inductive Demand where
  | help
  | render (r : Request)

namespace Request

def start : Request := ⟨[], none, false, false, false, none, []⟩

/-- Collects an argument that is not understood. -/
def leave (r : Request) (t : Text) : Request := { r with unrecognized := r.unrecognized ++ [t] }

def isOmitted (value : Text) : Bool := value == "--".toList

/-- The setting that a value spells, unless it is omitted. -/
def setting (value : Text) : Except UsageError (Option (Text × Value)) :=
  if isOmitted value then .ok none
  else
    match Setting.parse value with
    | .ok setting => .ok (some setting)
    | .error e => .error (.badSetting e value)

/-- Takes an option, with its value if it has one. The help takes precedence over what follows. -/
def take (r : Request) (o : CommandOption) (value : Text) : Except UsageError Demand :=
  match o with
  | .help => .ok .help
  | .param =>
    match setting value with
    | .ok setting => .ok (.render { r with settings := r.settings ++ [setting] })
    | .error e => .error e
  | .paramsFile =>
    .ok (.render { r with paramsFile := if isOmitted value then none else some value })
  | .emptyAsNegative => .ok (.render { r with emptyAsNegative := true })
  | .tree => .ok (.render { r with tree := true })
  | .verbose => .ok (.render { r with verbose := true })

def takeFlags (r : Request) : List CommandOption → Except UsageError Demand
  | [] => .ok (.render r)
  | o :: os =>
    match r.take o [] with
    | .ok (.render r) => r.takeFlags os
    | other => other

/-- Options without values taken, and a last one with its value. -/
def takeRow (r : Request) (flags : List CommandOption) (o : CommandOption) (value : Text) :
    Except UsageError Demand :=
  match r.takeFlags flags with
  | .ok (.render r) => r.take o value
  | other => other

/-- The request at the end of the arguments. -/
def finish (r : Request) : Except UsageError Demand :=
  if r.template.isNone then .error .missingTemplate
  else if r.unrecognized.isEmpty then .ok (.render r)
  else .error (.unrecognized r.unrecognized)

/-- Reads arguments from left to right. -/
def read (r : Request) : List Argument → Except UsageError Demand
  | [] => r.finish
  | .plain t :: rest =>
    if r.template.isSome then (r.leave t).read rest
    else
      let r := { r with template := some t }
      match rest with
      | .separator :: rest => r.read rest
      | rest => r.read rest
  | .separator :: rest =>
    match r.template, rest with
    | none, .plain t :: rest => { r with template := some t }.read rest
    | _, rest => (r.leave "--".toList).read rest
  | .unknown t :: rest => (r.leave t).read rest
  | .option o long attached :: rest =>
    match Argument.rowOf o long attached with
    | .error e => .error e
    | .ok (flags, o, some value) =>
      match r.takeRow flags o value with
      | .ok (.render r) => r.read rest
      | other => other
    | .ok (flags, o, none) =>
      if o.takesValue then
        match rest with
        | .plain value :: rest =>
          match r.takeRow flags o value with
          | .ok (.render r) => r.read rest
          | other => other
        | _ => .error (.missingValue o)
      else
        match r.takeRow flags o [] with
        | .ok (.render r) => r.read rest
        | other => other

/-- What the arguments of a command line ask for. -/
def ofArguments (arguments : List Text) : Except UsageError Demand :=
  match Argument.classifyAll arguments with
  | .ok classified => start.read classified
  | .error e => .error e

end Request

end SqlTemplate
