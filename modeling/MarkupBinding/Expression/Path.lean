import MarkupBinding.Text.Blank
import MarkupBinding.Text.Split

/-!
# Binding paths

A path is a name, or a scope name and a name around one dot. A dotted path names a scope and a
property on it; a bare path names a property of whichever scope exposes it. `Path.parse` reads a
path with blanks around its parts, and `Path.text` writes it without.
-/

set_option autoImplicit false
set_option relaxedAutoImplicit false

namespace MarkupBinding

/-- Why a text is not an expression. -/
inductive ExpressionFault where
  /-- More than one dot. -/
  | manyDots
  /-- A part that is no identifier. -/
  | notIdentifier (part : String)
  /-- A placeholder that opens inside a placeholder. -/
  | nested
  /-- A placeholder that never closes. -/
  | unterminated
  deriving DecidableEq, Repr

/-- A text that was read as an expression, and why it is none. -/
structure ExpressionError where
  text : String
  fault : ExpressionFault
  deriving DecidableEq, Repr

/-- The fault in words. -/
def ExpressionFault.message : ExpressionFault → String
  | manyDots => "at most one '.' is allowed"
  | notIdentifier part => "'" ++ part ++ "' is not an identifier"
  | nested => "nested '$\x7b' inside a placeholder"
  | unterminated => "unterminated '$\x7b'"

/-- The error in words. -/
def ExpressionError.message (e : ExpressionError) : String :=
  "Invalid expression '" ++ e.text ++ "': " ++ e.fault.message

/-- A parsed binding path. -/
structure Path where
  /-- The property name. -/
  name : String
  /-- The scope name of a dotted path. -/
  scope : Option String
  deriving DecidableEq, Repr

namespace Path

/-- A letter of the basic alphabet or the underscore. -/
def isIdentifierStart (c : Char) : Bool :=
  c.isAlpha || c == '_'

/-- A letter or digit of the basic alphabet, the underscore or the hyphen. -/
def isIdentifierPart (c : Char) : Bool :=
  c.isAlphanum || c == '_' || c == '-'

/-- An identifier: a letter or underscore, then letters, digits, underscores and hyphens. -/
def isIdentifier : List Char → Bool
  | [] => false
  | c :: rest => isIdentifierStart c && rest.all isIdentifierPart

/-- Whether the path names its scope. -/
def isDotted (p : Path) : Bool :=
  p.scope.isSome

/-- The path as written without blanks. -/
def text (p : Path) : String :=
  match p.scope with
  | some scope => scope ++ "." ++ p.name
  | none => p.name

/-- The trimmed parts of a text between its dots. -/
def parts (s : String) : List (List Char) :=
  (Text.cutAt '.' (Text.trimChars s.toList)).map Text.trimChars

/-- Reads a path: one identifier, or two around a dot. Dots are counted before parts are looked
at, and the first part that is no identifier is the one reported. -/
def parse (s : String) : Except ExpressionError Path :=
  let parts := parts s
  if 2 < parts.length then .error ⟨s, .manyDots⟩
  else match parts.find? fun part ↦ !isIdentifier part with
    | some part => .error ⟨s, .notIdentifier (String.ofList part)⟩
    | none =>
      match parts with
      | [scope, name] => .ok ⟨String.ofList name, some (String.ofList scope)⟩
      | name :: _ => .ok ⟨String.ofList name, none⟩
      | [] => .error ⟨s, .notIdentifier ""⟩

end Path

end MarkupBinding
