import Bindery.Model.Basic

/-! Output units and their keys.

A unit is one source file. Its key is where the file lies in the package: the names of
the directories and then of the file. A namespace with others below it is written into
the `__init__.py` of its own directory, one without into a file beside its siblings. -/
namespace Bindery

/-- Directories and the file name. -/
abbrev UnitKey : Type := List String

namespace UnitKey

/-- The file that stands for a directory. -/
def initFile : String := "__init__.py"

def root : UnitKey := [initFile]

/-- The key of a namespace with others below it. -/
def init (path : List String) : UnitKey := path ++ [initFile]

/-- The key of a namespace with none below it, from its parents and its last segment. -/
def leaf (parents : List String) (last : String) : UnitKey := parents ++ [last ++ ".py"]

def text (key : UnitKey) : String := Text.join "/" key

end UnitKey

/-- What a unit is to the package. -/
inductive UnitKind where
  | rootInit
  | packageInit
  | leaf
deriving DecidableEq, Repr, Inhabited

def UnitKind.text : UnitKind → String
  | .rootInit => "root_init"
  | .packageInit => "package_init"
  | .leaf => "leaf"

def UnitKind.ofText? : String → Option UnitKind
  | "root_init" => some .rootInit
  | "package_init" => some .packageInit
  | "leaf" => some .leaf
  | _ => none

/-- A unit that is to be written: one namespace with its models in order. -/
structure UnitPlan where
  key : UnitKey
  path : List String
  kind : UnitKind
  models : List Model

/-- The namespace of a unit. -/
def UnitPlan.moduleName (u : UnitPlan) : String := Text.join "." u.path

/-- A place in the package. -/
inductive Slot where
  /-- An empty file that makes a directory of namespaces a package. -/
  | placeholder
  | planned (plan : UnitPlan)

end Bindery
