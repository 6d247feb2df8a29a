import SqlTemplate.CommandLine.Folder
import SqlTemplate.CommandLine.Options
import SqlTemplate.Rendering.Splits
import SqlTemplate.Table
import SqlTemplate.Template.Dump

/-!
# Running the command line

The command line reads a template file, renders it with the given parameters and prints the
statement and a table of the values to bind. `run` computes everything that is printed from the
contents of the files. A faulty template and a missing parameter are reported and make the run fail;
files that cannot be read end it with a failure of its own.
-/

namespace SqlTemplate

namespace CommandLine

/-- What reading files by their paths gives. -/
abbrev Files := Text → Except FileFault Text

/-- A file whose line ends are all written the same. -/
def normalizeLineEnds : Text → Text
  | [] => []
  | '\r' :: '\n' :: t => '\n' :: normalizeLineEnds t
  | c :: t => (if c = '\r' then '\n' else c) :: normalizeLineEnds t

/-- Why a run ended before its end. -/
inductive Failure where
  | file (fault : FileFault) (path : Text)
  | unreadable (e : Json.Error) (source : Text)
  | unnamed (e : SourceError)
  | omittedSetting
  | rendering (e : RenderError)
  | tabulating (e : TableError)
deriving DecidableEq, Repr

namespace Failure

def message : Failure → Text
  | file fault path => fault.message path
  | unreadable e source => e.message source
  | unnamed e => e.message
  | omittedSetting => "not enough values to unpack (expected 2, got 0)".toList
  | rendering e => e.message
  | tabulating e => e.message

end Failure

/-- What a run printed, and how it ended: with an exit code or a failure. -/
structure Outcome where
  output : Text
  errors : Text
  ending : Except Failure Nat

def line (t : Text) : Text := t ++ ['\n']

/-- The contents of a file; no path holds the null character. -/
def readFile (files : Files) (path : Text) : Except Failure Text :=
  if path.contains '\x00' then .error (.file .nullCharacter path)
  else
    match files path with
    | .ok content => .ok (normalizeLineEnds content)
    | .error fault => .error (.file fault path)

def fileParameters (files : Files) (name : Text) : Except Failure Parameters := do
  let content ← readFile files name
  match Json.parse content with
  | .error e => .error (.unreadable e content)
  | .ok v =>
    match Parameters.empty.updateFrom (.value v) with
    | .ok parameters => .ok parameters
    | .error e => .error (.unnamed e)

/-- The parameters of a request: those in the file, then those on the command line. None of the
latter may be omitted. -/
def parameters (files : Files) (r : Request) : Except Failure Parameters := do
  let fromFile ←
    match r.paramsFile with
    | none | some [] => .ok .empty
    | some name => fileParameters files name
  match r.settings.mapM id with
  | some settings => return fromFile.setAll settings
  | none => .error .omittedSetting

def logged (source : String) (message : Text) : Text :=
  line ("DEBUG:twowaysql.".toList ++ source.toList ++ ':' :: message)

def readingLog (name content : Text) (t : Template) : Text :=
  logged "parser" ("Parsed template ".toList ++ name ++ ": ".toList ++
    Decimal.ofNat (lineEnds content + 1) ++ " physical lines, ".toList ++
    Decimal.ofNat t.lines.length ++ " root lines".toList)

/-- The log of a list that was split. -/
def splitLog (s : Split) : Text :=
  logged "placeholders" ("Splitting ".toList ++ Decimal.ofNat s.values ++ " values in ".toList ++
    Decimal.ofNat s.parts ++ " IN lists".toList)

def statementLog (name : Text) (values : List Value) : Text :=
  logged "generator" ("Generated SQL for ".toList ++ name ++ " with ".toList ++
    Decimal.ofNat values.length ++ " bound values".toList)

/-- The most rows of the table of values. -/
def maxRows : Nat := 50

/-- What is printed of a statement and the table of its values, and how printing ends. -/
def printed (f : Fragment) : Text × Except Failure Nat :=
  if f.values.isEmpty then (line f.sql, .ok 0)
  else
    let start := line f.sql ++ ['\n']
    match Table.ofValues f.values >>= fun columns => Table.render columns maxRows with
    | .ok table => (start ++ line table, .ok 0)
    | .error e => (start, .error (.tabulating e))

def renderTemplate (r : Request) (name : Text) (parameters : Parameters) (log : Text)
    (t : Template) : Outcome :=
  let logIf (t : Text) : Text := if r.verbose then t else []
  let renderer := if r.emptyAsNegative then Renderer.standard.emptyAsNegative else Renderer.standard
  let log := log ++ logIf ((renderer.splits t parameters).flatMap splitLog)
  match renderer.render t parameters with
  | .error (.missingParameter key resource) =>
    let message := (RenderError.missingParameter key resource).message
    ⟨line ("Missing parameter, ".toList ++ message), log, .ok 1⟩
  | .error e => ⟨[], log, .error (.rendering e)⟩
  | .ok f =>
    let (output, ending) := printed f
    ⟨output, log ++ logIf (statementLog name f.values), ending⟩

def answer (files : Files) (r : Request) : Outcome :=
  let name := r.template.getD []
  let read : Except Failure (Parameters × Text) := do
    let parameters ← parameters files r
    let content ← readFile files name
    return (parameters, content)
  match read with
  | .error failure => ⟨[], [], .error failure⟩
  | .ok (parameters, content) =>
    match Template.parse .standard (some name) content with
    | .error e => ⟨line ("Invalid template, ".toList ++ e.message), [], .ok 1⟩
    | .ok t =>
      let log := if r.verbose then readingLog name content t else []
      if r.tree then ⟨line t.dump, log, .ok 0⟩ else renderTemplate r name parameters log t

/-- What is printed to explain the command line. -/
def usage : Text :=
  ("usage: [-h] [-p PARAM] [--params-file PARAMS_FILE] [--empty-as-negative] [--tree] [-v] " ++
    "template\n\nRender a two-way SQL template.\n").toList

/-- Runs the command line with the given arguments. -/
def run (files : Files) (arguments : List Text) : Outcome :=
  match Request.ofArguments arguments with
  | .error e => ⟨[], line e.message, .ok 2⟩
  | .ok .help => ⟨usage, [], .ok 0⟩
  | .ok (.render r) => answer files r

end CommandLine

end SqlTemplate
