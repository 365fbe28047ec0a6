import Mathlib.Data.Nat.Notation

set_option autoImplicit false

/-!
# Imports and module instances

A module object is known by its qualified name: the package root it was imported under
and its file. An absolute import names a root of its own, a relative one keeps that of
the importer, so one file may give several instances.
-/
namespace FastapiProject.PythonImports

variable {Root File Name : Type}

structure ModuleInstance (Root File : Type) where
  root : Root
  file : File
  deriving DecidableEq, Repr

inductive Origin (Root : Type) where
  | absolute (root : Root)
  | relative
  deriving DecidableEq, Repr

/-- `from module import names`. -/
structure ImportLine (Root File Name : Type) where
  origin : Origin Root
  file : File
  names : List Name

structure Package (Root File Name : Type) where
  defines : File → List Name
  imports : File → List (ImportLine Root File Name)

def ImportLine.target (line : ImportLine Root File Name) (importer : ModuleInstance Root File) :
    ModuleInstance Root File :=
  match line.origin with
  | .absolute root => ⟨root, line.file⟩
  | .relative => ⟨importer.root, line.file⟩

section Resolve
variable [DecidableEq Name] (p : Package Root File Name)

/-- The instance that defines what `name` is bound to in a module, through at most
`depth` imports. -/
def Package.resolve : ℕ → ModuleInstance Root File → Name → Option (ModuleInstance Root File)
  | 0, _, _ => none
  | depth + 1, m, name =>
    if name ∈ p.defines m.file then some m
    else (p.imports m.file).findSome? fun line =>
      if name ∈ line.names then Package.resolve depth (line.target m) name else none

def Package.follow (depth : ℕ) : ModuleInstance Root File → List Name → Option (ModuleInstance Root File)
  | m, [] => some m
  | m, name :: path => (p.resolve depth m name).bind fun d => Package.follow depth d path

end Resolve

end FastapiProject.PythonImports
