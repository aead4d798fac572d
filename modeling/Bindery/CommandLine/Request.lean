import Bindery.CommandLine.Parameter
import Bindery.CommandLine.Theme

/-! What the program can be asked to do.

There are two commands: one lists the models of a graph and one assembles them. Colors
and theme can be given to any command on the way; what is given last counts. -/
namespace Bindery.CommandLine

/-- How messages are to look. -/
structure Appearance where
  color : ColorMode := .automatic
  theme : ThemeMode := .automatic
deriving DecidableEq, Repr, Inhabited

/-- What is to be assembled, and how. -/
structure AssembleRequest where
  input : String
  output : String
  reuseModels : Bool := false
  snakeCaseFields : Bool := false
  stripDefaultNone : Bool := false
  noImports : Bool := false
  noDeferredUpdates : Bool := false
  formatter : Option String := none
  globalImports : List String := []
  verbose : Bool := false
  quiet : Bool := false
deriving DecidableEq, Repr, Inhabited

/-- A request. -/
inductive Request where
  | listModels (input : String)
  | assemble (request : AssembleRequest)
deriving DecidableEq, Repr, Inhabited

/-! ### The commands -/

def appearanceParameters : List Parameter :=
  [{ name := "color", accepts := some fun v => (ColorMode.ofText? v).isSome },
    { name := "theme", accepts := some fun v => (ThemeMode.ofText? v).isSome }]

/-- A parameter whose value is a path, so not empty. -/
def pathParameter (name : String) (letter : Char) : Parameter :=
  { name, letter := some letter, accepts := some (· ≠ "") }

def programLevel : Level where
  parameters := appearanceParameters
  commands := ["list", "assemble", "help"]
  versioned := true

def listLevel : Level where
  parameters := appearanceParameters
  commands := ["models", "help"]

def listModelsLevel : Level where
  parameters := appearanceParameters ++ [pathParameter "input" 'i']

def assembleLevel : Level where
  parameters := appearanceParameters ++
    [pathParameter "input" 'i', pathParameter "output" 'o',
      { name := "reuse-models" }, { name := "snake-case-field" },
      { name := "strip-default-none" }, { name := "no-imports" },
      { name := "no-deferred-updates" },
      { name := "formatter", accepts := some fun _ => true },
      { name := "global-import", accepts := some fun _ => true, repeatable := true },
      { name := "verbose", letter := some 'v' }, { name := "quiet", letter := some 'q' }]

/-! ### From settings to requests -/

namespace Settings

def last? (s : Settings) (name : String) : Option String := List.lookup name s.reverse

def all (s : Settings) (name : String) : List String :=
  (s.filter (·.1 = name)).map (·.2)

/-- Whether a switch was given. -/
def has (s : Settings) (name : String) : Bool := s.any (·.1 = name)

def required (s : Settings) (name : String) : Except Stop String :=
  match s.last? name with
  | some value => .ok value
  | none => .error .usage

def appearance (s : Settings) : Appearance where
  color := ((s.last? "color").bind ColorMode.ofText?).getD .automatic
  theme := ((s.last? "theme").bind ThemeMode.ofText?).getD .automatic

end Settings

def AssembleRequest.ofSettings (s : Settings) : Except Stop AssembleRequest := do
  return {
    input := ← s.required "input"
    output := ← s.required "output"
    reuseModels := s.has "reuse-models"
    snakeCaseFields := s.has "snake-case-field"
    stripDefaultNone := s.has "strip-default-none"
    noImports := s.has "no-imports"
    noDeferredUpdates := s.has "no-deferred-updates"
    formatter := s.last? "formatter"
    globalImports := s.all "global-import"
    verbose := s.has "verbose"
    quiet := s.has "quiet" }

/-- The commands that help can be asked for. -/
def helpTopics : List (List String) :=
  [[], ["list"], ["list", "models"], ["list", "help"], ["assemble"], ["help"]]

def Request.parse (arguments : List String) : Except Stop (Appearance × Request) := do
  let program ← programLevel.read [] arguments
  match program.command with
  | some ("assemble", arguments) =>
    let r ← assembleLevel.read [] arguments
    return ((program.settings ++ r.settings).appearance,
      .assemble (← AssembleRequest.ofSettings r.settings))
  | some ("list", arguments) =>
    let list ← listLevel.read [] arguments
    match list.command with
    | some ("models", arguments) =>
      let r ← listModelsLevel.read [] arguments
      return ((program.settings ++ list.settings ++ r.settings).appearance,
        .listModels (← r.settings.required "input"))
    | some (_, topic) => throw (if "list" :: topic ∈ helpTopics then .help else .usage)
    | none => throw .usage
  | some (_, topic) => throw (if topic ∈ helpTopics then .help else .usage)
  | none => throw .usage

end Bindery.CommandLine
