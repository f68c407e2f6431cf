import MarkupBinding.Expression.Template
import MarkupBinding.Text.Quoted
import MarkupBinding.Value.Basic

/-!
# Scoped resolution

A stack of named scopes, innermost first, above the root scope that holds the input. A dotted path
is resolved in the innermost scope of its name and nowhere else; a bare path in the innermost scope
whose value has the property. Pushing gives a new stack and leaves the old one as it was.
-/

set_option autoImplicit false
set_option relaxedAutoImplicit false

namespace MarkupBinding

/-- The name of the scope that holds the input. -/
def rootScope : String := "root"

/-- A named value that paths are resolved in. -/
structure Scope where
  name : String
  value : Value
  deriving Repr, BEq

/-- The scopes around a place of a template: the innermost one and those around it. -/
structure Stack where
  top : Scope
  outer : List Scope
  deriving Repr, BEq

/-- Why a path cannot be resolved; the scope names are listed from the outermost on. -/
inductive ResolutionFault where
  /-- No scope of the name. -/
  | unknownScope (scope : String) (names : List String)
  /-- The scope lacks the property. -/
  | missingProperty (scope name : String)
  /-- No scope has the property. -/
  | nowhere (name : String) (names : List String)
  deriving DecidableEq, Repr

/-- A path that cannot be resolved. -/
structure ResolutionError where
  path : Path
  fault : ResolutionFault
  deriving DecidableEq, Repr

/-- The fault in words. -/
def ResolutionFault.message : ResolutionFault → String
  | unknownScope scope names =>
    "scope '" ++ scope ++ "' not in context " ++ Text.quotedNames names
  | missingProperty scope name => "scope '" ++ scope ++ "' has no property '" ++ name ++ "'"
  | nowhere name names =>
    "no scope in " ++ Text.quotedNames names ++ " has property '" ++ name ++ "'"

/-- The error in words. -/
def ResolutionError.message (e : ResolutionError) : String :=
  "Could not resolve '" ++ e.path.text ++ "': " ++ e.fault.message

/-- The scope that the path names; empty for a bare path. -/
def ResolutionError.scope (e : ResolutionError) : String :=
  e.path.scope.getD ""

namespace Stack

/-- The stack with the root scope only. -/
def root (data : Value) : Stack :=
  ⟨⟨rootScope, data⟩, []⟩

/-- The stack with one more scope inside. -/
def push (s : Stack) (name : String) (value : Value) : Stack :=
  ⟨⟨name, value⟩, s.top :: s.outer⟩

/-- The stack without its innermost scope; the root scope stays. -/
def pop? (s : Stack) : Option Stack :=
  match s.outer with
  | [] => none
  | top :: outer => some ⟨top, outer⟩

/-- The scopes, innermost first. -/
def scopes (s : Stack) : List Scope :=
  s.top :: s.outer

/-- Whether only the root scope is there. -/
def isRoot (s : Stack) : Bool :=
  s.outer.isEmpty

/-- The scope names from the outermost to the innermost. -/
def names (s : Stack) : List String :=
  (s.scopes.map Scope.name).reverse

/-- The innermost scope of a name. -/
def lookup (s : Stack) (name : String) : Option Scope :=
  s.scopes.find? fun scope ↦ scope.name == name

/-- The innermost scope whose value has a property, and the property's value. -/
def findProperty (s : Stack) (name : String) : Option (Scope × Value) :=
  s.scopes.findSome? fun scope ↦ (scope.value.property? name).map fun value ↦ (scope, value)

/-- The value of a path. -/
def resolve (s : Stack) (path : Path) : Except ResolutionError Value :=
  match path.scope with
  | some scopeName =>
    match s.lookup scopeName with
    | none => .error ⟨path, .unknownScope scopeName s.names⟩
    | some scope =>
      match scope.value.property? path.name with
      | none => .error ⟨path, .missingProperty scopeName path.name⟩
      | some value => .ok value
  | none =>
    match s.findProperty path.name with
    | none => .error ⟨path, .nowhere path.name s.names⟩
    | some (_, value) => .ok value

end Stack

end MarkupBinding
