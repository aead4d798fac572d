import Bindery.CommandLine.Host
import Bindery.CommandLine.Listing
import Bindery.CommandLine.Report
import Bindery.Model.Decode

/-! Running the program.

A run reads a graph, and lists its models or assembles them and writes the units. It
stops at the first thing that goes wrong; what has been written stays. -/
namespace Bindery.CommandLine

/-- What a run is told besides its arguments. -/
structure Surroundings where
  /-- Whether the output is a terminal. -/
  terminal : Bool := false
  /-- What the terminal says about its colors. -/
  colors : Option String := none
deriving DecidableEq, Repr, Inhabited

namespace Host

variable {m : Type → Type} [Monad m] (host : Host m)

def readGraph (path : String) : ExceptT RunError m ModelGraph := do
  match ← host.read path with
  | none => throw (.unreadable path)
  | some bytes =>
    match (Text.text? bytes).map ModelGraph.parse with
    | some (.ok graph) => return graph
    | _ => throw (.malformed path)

def writeFile (path text : String) : ExceptT RunError m Unit := do
  match Files.parent? path with
  | none => pure ()
  | some folder =>
    match ← host.makeFolders folder with
    | .ok () => pure ()
    | .error fault => throw (.noFolder fault)
  unless ← host.write path text do throw (.notWritten path)

def listModels (input : String) : ExceptT RunError m Unit := do
  let graph ← host.readGraph input
  match sortModels defaultPasses graph.models with
  | .error unresolved => throw (.assembly (.unresolved unresolved))
  | .ok placed =>
    ((listing placed).lines pageWidth).forM fun line => host.say line
    if placed.fallback then host.complain fallbackNotice

/-- Write a line with the time in front of it. -/
def announce (style : Style) (role : Role) (text : String) : m Unit := do
  host.say (style.paint .timestamp ("[" ++ (← host.clock) ++ "]") ++ " " ++ style.paint role text)

def assemble (style : Style) (request : AssembleRequest) : ExceptT RunError m Unit := do
  let plan ← (AssemblePlan.ofRequest request : Except RunError AssemblePlan)
  let speaks : Bool := plan.verbosity ≠ .quiet
  if speaks then host.announce style .primary ("Loading model graph from: " ++ plan.input)
  let graph ← host.readGraph plan.input
  if speaks then
    host.announce style .primary ("Assembling " ++ toString graph.models.length ++ " models...")
  let (stats, output) ← plan.assemble graph
  if speaks then
    (statistics style plan stats output).forM fun line => host.say line
    stats.warnings.forM fun w => host.complain (warningLine style w)
    host.announce style .primary ("Writing to: " ++ plan.output)
  (outputFiles plan.output output).forM fun (path, text) => host.writeFile path text
  if speaks then
    host.say ""
    host.announce style .success "Successfully assembled models"

def answer (style : Style) : Request → ExceptT RunError m Unit
  | .listModels input => host.listModels input
  | .assemble request => host.assemble style request

/-- How the program is called. -/
def helpLines : List String :=
  ["Assembles generated data models into source modules", "",
    "Usage: modelgen [OPTIONS] <COMMAND>", "",
    "Commands:",
    "  list models  List models in emission order with their namespace",
    "  assemble     Assemble a model graph into ordered, cross-referenced source units",
    "  help         Print this message", "",
    "Options:",
    "      --color <COLOR>  Control color output [possible values: always, auto, never]",
    "      --theme <THEME>  Terminal theme [possible values: dark, light, auto]",
    "  -h, --help           Print help",
    "  -V, --version        Print version", "",
    "Options of `list models`:",
    "  -i, --input <FILE>  Path to the model graph JSON file", "",
    "Options of `assemble`:",
    "  -i, --input <FILE>               Path to the model graph JSON file",
    "  -o, --output <PATH>              Output file for a single root unit, " ++
      "otherwise the package directory",
    "      --reuse-models               Collapse structurally identical models within a unit",
    "      --snake-case-field           Rename fields to snake_case, " ++
      "keeping the first name as an alias",
    "      --strip-default-none         Omit None defaults from optional fields",
    "      --no-imports                 Emit model bodies without import statements",
    "      --no-deferred-updates        Skip the trailing block of deferred updates",
    "      --formatter <COMMAND>        Formatter reading stdin and writing stdout",
    "      --global-import <STATEMENT>  Extra import statement added to every unit (repeatable)",
    "  -v, --verbose                    Enable verbose output with detailed progress information",
    "  -q, --quiet                      Suppress non-essential output (errors only)"]

def versionLine : String := "modelgen 0.4.0"

/-- Run the program and tell its exit status: one for a failure, two for wrong usage. -/
def run (surroundings : Surroundings) (arguments : List String) : m Nat := do
  match Request.parse arguments with
  | .error .usage =>
    host.complain "error: wrong usage"
    host.complain ""
    host.complain "For more information, try '--help'."
    return 2
  | .error .help =>
    helpLines.forM fun line => host.say line
    return 0
  | .error .version =>
    host.say versionLine
    return 0
  | .ok (appearance, request) =>
    let style := Style.choose appearance.color appearance.theme surroundings.terminal
      surroundings.colors
    match ← (host.answer style request).run with
    | .ok () => return 0
    | .error e =>
      host.complain ("Error: " ++ e.message)
      return 1

end Host

end Bindery.CommandLine
