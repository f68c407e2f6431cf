import MarkupBinding.Keyed
import MarkupBinding.Number.Binary64

/-!
# Values

The data that templates are bound to: the values of a JSON document, and records, which have a type
and named fields. `Value.property?` is the one way in which templates read a value: objects and
records expose named properties, all other values expose none, and `null` counts as absent.
-/

set_option autoImplicit false
set_option relaxedAutoImplicit false

namespace MarkupBinding

/-- The name of a record's field, and the name that templates and documents use where it differs. -/
structure FieldName where
  name : String
  publicName : Option String := none
  deriving DecidableEq, Repr

/-- The name that documents use for the field. -/
def FieldName.shown (f : FieldName) : String :=
  f.publicName.getD f.name

/-- A value: JSON data or a record. The keys of an object are distinct and in document order. -/
inductive Value where
  | null
  | bool (value : Bool)
  | int (value : Int)
  | float (value : Binary64)
  | string (value : String)
  | list (items : List Value)
  | object (fields : List (String × Value))
  | record (type : String) (fields : List (FieldName × Value))
  deriving Repr, BEq, Inhabited

namespace Value

/-- The value of a record's field by field name, else by the public name that some field has. -/
def fieldValue? (name : String) (fields : List (FieldName × Value)) : Option Value :=
  match fields.find? fun field ↦ field.1.name == name with
  | some field => some field.2
  | none => (fields.find? fun field ↦ field.1.publicName == some name).map Prod.snd

/-- The value where it is not `null`. -/
def present : Option Value → Option Value
  | some null => none
  | other => other

/-- The named property of a value, where it has one that is not `null`. -/
def property? (name : String) : Value → Option Value
  | object fields => present (fields.lookup name)
  | record _ fields => present (fieldValue? name fields)
  | _ => none

/-- The word for the kind of a value, a record's being its type. -/
def kind : Value → String
  | null => "NoneType"
  | bool _ => "bool"
  | int _ => "int"
  | float _ => "float"
  | string _ => "str"
  | list _ => "list"
  | object _ => "dict"
  | record type _ => type

end Value

end MarkupBinding
