import Bindery.CommandLine.Plan
import Bindery.Text.Lines

/-! What is said about an assembly.

Labels stand twelve blanks in, details fourteen. A figure is given if it belongs to what
was asked for, or if it is not zero. -/
namespace Bindery.CommandLine

/-- A figure behind its label. -/
def figure (s : Style) (label value : String) : String :=
  Text.replicate 12 " " ++ s.paint .label label ++ " " ++ s.paint .value value

def figures (s : Style) (p : AssemblePlan) (stats : Stats) : List String :=
  [figure s "Models sorted:" (toString stats.modelsSorted),
    figure s "Units generated:" (toString stats.unitsGenerated)] ++
  (if 0 < stats.packageUnits then
    [figure s "" (toString stats.packageUnits ++ " packages, " ++
      toString stats.placeholderUnits ++ " placeholders")]
  else []) ++
  (if p.options.withImports then [figure s "Imports emitted:" (toString stats.importsEmitted)]
  else []) ++
  (if 0 < stats.deferredUpdates then
    [figure s "Deferred updates:" (toString stats.deferredUpdates)]
  else []) ++
  (if p.options.reuseModels then
    [figure s "Duplicates collapsed:" (toString stats.duplicatesCollapsed)]
  else [])

/-- The cycles, one by one if that much is to be said. -/
def cycleLines (s : Style) (p : AssemblePlan) (cycles : List (List String)) : List String :=
  if cycles.isEmpty then []
  else
    figure s "Cycles:" (toString cycles.length) ::
      if p.verbosity = .verbose then
        cycles.zipIdx.map fun (cycle, i) =>
          Text.replicate 14 " " ++ s.paint .accent ("Cycle " ++ toString (i + 1)) ++ ": " ++
            s.paint .info (Text.join " -> " cycle)
      else []

/-- How long the text of a unit is. -/
def sizeText (unit : GeneratedUnit) : String :=
  if unit.body = "" then "placeholder" else toString (Text.lines unit.body).length ++ " lines"

/-- The units of a package, if that much is to be said. -/
def unitLines (s : Style) (p : AssemblePlan) : AssemblyOutput → List String
  | .single _ => []
  | .modules units =>
    if p.verbosity = .verbose then
      units.map fun (key, unit) =>
        Text.replicate 14 " " ++ s.paint .info (Text.join "/" key) ++ " " ++
          s.paint .value (sizeText unit)
    else []

/-- The lines about an assembly; an empty one stands before its warnings. -/
def statistics (s : Style) (p : AssemblePlan) (stats : Stats) (output : AssemblyOutput) :
    List String :=
  figures s p stats ++ cycleLines s p stats.cycles ++ unitLines s p output ++
    if stats.warnings.isEmpty then [] else [""]

def warningLine (s : Style) (w : Warning) : String :=
  s.paint .accent "Warning:" ++ " " ++ s.paint .primary w.text

end Bindery.CommandLine
