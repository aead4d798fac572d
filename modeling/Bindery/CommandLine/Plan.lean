import Bindery.Assembly.Assemble
import Bindery.CommandLine.Request
import Bindery.Files.Fault
import Bindery.Files.Path
import Bindery.Formatter.Command

/-! What a request for an assembly comes down to, and what can go wrong with it.

A request can contradict itself: it cannot be answered at length and in silence. Then
its formatter is looked at, then its imports. -/
namespace Bindery.CommandLine

open Formatter (FormatCommand FormatError)

/-- Why a run failed. -/
inductive RunError where
  | loudAndQuiet
  | noFormatter (cause : FormatError)
  | badStatements (cause : StatementsError)
  | unreadable (path : String)
  | malformed (path : String)
  | assembly (cause : AssemblyError FormatError)
  | noFolder (fault : Files.Fault)
  | notWritten (path : String)

def RunError.message : RunError → String
  | .loudAndQuiet => "--verbose and --quiet cannot be used together"
  | .noFormatter cause => cause.message
  | .badStatements cause => cause.message
  | .unreadable path => "Failed to read model graph from " ++ path
  | .malformed path => "Failed to parse model graph " ++ path
  | .assembly cause => cause.message FormatError.message
  | .noFolder fault => fault.message
  | .notWritten path => "Failed to write " ++ path

/-- How much is said. -/
inductive Verbosity where
  | quiet
  | normal
  | verbose
deriving DecidableEq, Repr, Inhabited

/-- An assembly that can be tried. -/
structure AssemblePlan where
  input : String
  output : String
  verbosity : Verbosity := .normal
  /-- The switches; the global imports are those of the request. -/
  options : AssemblyOptions := {}
  deferredUpdates : Bool := true
  formatter : Option FormatCommand := none

namespace AssemblePlan

def verbosityOf (r : AssembleRequest) : Except RunError Verbosity :=
  match r.verbose, r.quiet with
  | true, true => .error .loudAndQuiet
  | true, false => .ok .verbose
  | false, true => .ok .quiet
  | false, false => .ok .normal

def formatterOf (r : AssembleRequest) : Except RunError (Option FormatCommand) :=
  match r.formatter with
  | none => .ok none
  | some line =>
    match FormatCommand.parse line with
    | .ok command => .ok (some command)
    | .error cause => .error (.noFormatter cause)

def importsOf (imports : Except StatementsError Imports) : Except RunError Imports :=
  match imports with
  | .ok imports => .ok imports
  | .error cause => .error (.badStatements cause)

def ofRequest (r : AssembleRequest) : Except RunError AssemblePlan := do
  let verbosity ← verbosityOf r
  let formatter ← formatterOf r
  let globalImports ← importsOf (Imports.parse r.globalImports)
  return {
    input := r.input
    output := r.output
    verbosity
    options := {
      reuseModels := r.reuseModels
      withImports := !r.noImports
      snakeCaseFields := r.snakeCaseFields
      stripDefaultNone := r.stripDefaultNone
      globalImports }
    deferredUpdates := !r.noDeferredUpdates
    formatter }

/-- The assembler for a graph: its imports stand before those of the request. -/
def assembler (p : AssemblePlan) (g : ModelGraph) : Except RunError (Assembler FormatError) := do
  let globalImports ← importsOf g.globalImports
  return {
    options := { p.options with
      globalImports := globalImports.insertAll p.options.globalImports.toList
      singleSource := g.sourceFile }
    index := g.index
    format := p.formatter.map FormatCommand.format
    deferred := if p.deferredUpdates then some Source.deferredUpdates else none }

def assemble (p : AssemblePlan) (g : ModelGraph) : Except RunError (Stats × AssemblyOutput) := do
  match (← p.assembler g).assemble g.models with
  | .ok done => return done
  | .error cause => throw (.assembly cause)

end AssemblePlan

/-- The files of an output: a unit that stands alone is the output itself, the units of a
package lie below it. -/
def outputFiles (output : String) : AssemblyOutput → List (String × String)
  | .single text => [(output, text)]
  | .modules units => units.map fun (key, unit) => (Files.joinAll output key, unit.body)

end Bindery.CommandLine
