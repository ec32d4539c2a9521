import Stencil.CommandLine.Arguments
import Stencil.CommandLine.Report
import Stencil.Json.Document
import Stencil.Catalog.Load

/-!
# The command line

The command loads the templates of a directory, reads the context file if there is one, and writes
the output of a template. The stages come one after the other, and the first failure ends the run;
there is no output before all of them have succeeded. How arguments and documents are read, and how
a report is laid out, are taken from an interface; the one of the command itself reads JSON.

## Main definitions

* `Stencil.CommandLine.Outcome`: what a run of the command does.
* `Stencil.CommandLine.Interface`, `Stencil.CommandLine.standard`: what the command is built on.
* `Stencil.CommandLine.render`: the output of a request, or the report of the first failure.
* `Stencil.CommandLine.runWith`, `Stencil.CommandLine.run`: a run of the command.
-/

namespace Stencil.CommandLine

/-- What a run of the command writes, and its exit code. What is logged on the way is left out. -/
structure Outcome where
  exitCode : Nat
  /-- The standard output. -/
  output : String
  /-- The report of a failure. -/
  errors : String
  deriving DecidableEq, Repr

/-- What the command is built on. -/
structure Interface where
  /-- The request of some arguments, or the outcome of a run for arguments that make none. -/
  parse : List String → Except Outcome Request
  /-- The datum of a document, or the reason why there is none. -/
  readDocument : String → Except String Datum
  /-- How a report is laid out. -/
  reportText : Report → String

/-! ### Rendering -/

/-- The failure of a stage that a fault ends. -/
def faultReport (failure : String) (fault : Fault) : Report :=
  ⟨failure, fault.chain⟩

/-- The templates of the directory of a request. -/
def loadTemplates (disk : Disk) (directory : String) : Except Report Catalog :=
  let loaded := Catalog.empty.configure disk (Settings.default.withDirectory directory)
  match loaded.2 with
  | .ok _ => .ok loaded.1
  | .error fault => .error (faultReport ("failed to load templates from " ++ directory) fault)

/-- The datum of a context file. -/
def readContext (on : Interface) (disk : Disk) (path : String) : Except Report Datum :=
  match disk.readText path with
  | .error fault => .error ⟨"failed to read " ++ path, [fault.message]⟩
  | .ok document =>
    match on.readDocument document with
    | .ok d => .ok d
    | .error reason => .error ⟨"invalid JSON in " ++ path, [reason]⟩

/-- The output of a request. -/
def render (on : Interface) (disk : Disk) (request : Request) : Except Report String := do
  let catalog ← loadTemplates disk request.directory
  let context ← request.contextFile.mapM (readContext on disk)
  (catalog.render request.name context request.layout).mapError
    (faultReport ("failed to render " ++ request.name))

/-- What a run for a request does. -/
def answer (on : Interface) (disk : Disk) (request : Request) : Outcome :=
  match render on disk request with
  | .ok output => ⟨0, output, ""⟩
  | .error report => ⟨1, "", on.reportText report⟩

/-- What a run with some arguments does. -/
def runWith (on : Interface) (disk : Disk) (args : List String) : Outcome :=
  match on.parse args with
  | .ok request => answer on disk request
  | .error outcome => outcome

/-! ### The interface of the command -/

/-- The name under which the command presents itself. -/
def commandName : String := "utpl"

/-- The text for the version option. -/
def versionText : String := commandName ++ " 0.1.0\n"

/-- The text with the given lines. -/
def ofLines (lines : List String) : String :=
  String.join (lines.map (· ++ "\n"))

/-- The text for the help option. -/
def helpText : String :=
  ofLines [
    "Render one template from a directory of `.html` templates", "",
    "Usage: " ++ commandName ++ " [OPTIONS] <DIR> <NAME> [CONTEXT]", "",
    "Arguments:",
    "  <DIR>      Directory walked for templates",
    "  <NAME>     Template name, relative to `dir` without the extension",
    "  [CONTEXT]  JSON file used as the render context", "",
    "Options:",
    "      --layout <LAYOUT>  Layout template the page is wrapped in",
    "  -h, --help             Print help",
    "  -V, --version          Print version"]

/-- What a run with wrong arguments, or for help or the version, does. Wrong arguments are refused
without a word on what is wrong with them. -/
def Usage.outcome : Usage → Outcome
  | .help => ⟨0, helpText, ""⟩
  | .version => ⟨0, versionText, ""⟩
  | .wrong => ⟨2, "", ""⟩

/-- The reason given for a context file that is no document. -/
def invalidDocumentReason : String := "the document is not well formed"

/-- The datum of a JSON document. -/
def readJson (document : String) : Except String Datum :=
  match Json.parse? document with
  | some d => .ok d
  | none => .error invalidDocumentReason

/-- The interface of the command itself. -/
def standard : Interface where
  parse args := (parse args).mapError Usage.outcome
  readDocument := readJson
  reportText := Report.text

/-- What a run of the command with some arguments does. -/
def run (disk : Disk) (args : List String) : Outcome :=
  runWith standard disk args

end Stencil.CommandLine
