import MarkupBinding.Number.Shortest
import MarkupBinding.Text.Quoted
import MarkupBinding.Value.Basic

/-!
# Literal forms of values

The literal form shows a value inside a message or another value: quoted text, bracketed lists and
objects, and records as their type with the fields in parentheses. The summary of a record, which
stands for a record inside JSON text, has the fields only.
-/

set_option autoImplicit false
set_option relaxedAutoImplicit false

namespace MarkupBinding

/-- A whole number in decimal digits. -/
def intText (n : Int) : String :=
  match n with
  | .ofNat n => String.ofList (Nat.toDigits 10 n)
  | .negSucc n => String.ofList ('-' :: Nat.toDigits 10 (n + 1))

namespace Value

mutual

/-- The literal form of a value. -/
def literal : Value → String
  | null => "None"
  | bool b => if b then "True" else "False"
  | int n => intText n
  | float x => x.text
  | string s => Text.quoted s
  | list items => "[" ++ Text.join ", " (literals items) ++ "]"
  | object fields => "\x7b" ++ Text.join ", " (entryLiterals fields) ++ "\x7d"
  | record type fields => type ++ "(" ++ Text.join ", " (fieldLiterals fields) ++ ")"

/-- The literal forms of the items of a list. -/
def literals : List Value → List String
  | [] => []
  | v :: rest => literal v :: literals rest

/-- The entries of an object, each a quoted key and a literal form. -/
def entryLiterals : List (String × Value) → List String
  | [] => []
  | (key, v) :: rest => (Text.quoted key ++ ": " ++ literal v) :: entryLiterals rest

/-- The fields of a record, each a name and a literal form. -/
def fieldLiterals : List (FieldName × Value) → List String
  | [] => []
  | (field, v) :: rest => (field.name ++ "=" ++ literal v) :: fieldLiterals rest

end

/-- The fields of a record in their literal forms, one blank between neighbours. -/
def summary (fields : List (FieldName × Value)) : String :=
  Text.join " " (fieldLiterals fields)

/-- The value as plain text: a text stands for itself, all else for its literal form. -/
def plainText : Value → String
  | string s => s
  | record _ fields => summary fields
  | other => literal other

end Value

end MarkupBinding
