import Bindery.Model.Basic
import Bindery.Text.SnakeCase

/-! Preparing models before they are put in order.

A `FieldRule` changes a field: its name is put into snake case, with the old name kept
for the data, or its `None` default is left out. A `Collector` applies its rules to the
fields of each model that is registered, one rule after the other. -/
namespace Bindery

/-- What is done to every field. -/
inductive FieldRule where
  | snakeCase (cache : Text.SnakeCache)
  | stripDefaultNone

namespace FieldRule

/-- Put a field's name into snake case; a name that changes is kept for the data. -/
def renameField (cache : Text.SnakeCache) (f : Field) : Text.SnakeCache × Field :=
  if f.name = "" then (cache, f)
  else
    let (cache, snake) := cache.convert f.name
    (cache, if snake = f.name then f else { f with name := snake, wireAlias := some f.name })

/-- Apply a rule to a field; the rule may remember something. -/
def apply : FieldRule → Field → FieldRule × Field
  | .snakeCase cache, f =>
    let (cache, f) := renameField cache f
    (.snakeCase cache, f)
  | .stripDefaultNone, f => (.stripDefaultNone, { f with stripDefaultNone := true })

/-- Apply a rule to fields, one after the other. -/
def applyAll : FieldRule → List Field → FieldRule × List Field
  | rule, [] => (rule, [])
  | rule, f :: rest =>
    let (rule, f) := rule.apply f
    let (rule, others) := rule.applyAll rest
    (rule, f :: others)

/-- Apply rules to fields, each rule to all of them before the next one. -/
def applyEach : List FieldRule → List Field → List FieldRule × List Field
  | [], fields => ([], fields)
  | rule :: rest, fields =>
    let (rule, fields) := rule.applyAll fields
    let (rules, fields) := applyEach rest fields
    (rule :: rules, fields)

end FieldRule

/-- Rules, and the models that were registered. -/
structure Collector where
  rules : List FieldRule := []
  models : List Model := []

namespace Collector

/-- The rules for two switches: names before defaults. -/
def forSwitches (snakeCaseFields stripDefaultNone : Bool) : Collector where
  rules :=
    (if snakeCaseFields then [.snakeCase .standard] else []) ++
      (if stripDefaultNone then [.stripDefaultNone] else [])

def register (c : Collector) (m : Model) : Collector :=
  let (rules, fields) := FieldRule.applyEach c.rules m.fields
  ⟨rules, c.models ++ [{ m with fields }]⟩

def registerAll (c : Collector) (models : List Model) : Collector :=
  models.foldl register c

end Collector

end Bindery
