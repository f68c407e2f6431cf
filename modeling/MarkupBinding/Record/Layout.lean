import MarkupBinding.Record.Name
import MarkupBinding.Schema.Component
import MarkupBinding.Value.Basic

/-!
# Record types of a schema

Each component of a schema becomes a record type with one field per nested component, in order, and
then one text field per property. Type names are distinct; a type claims its name before the types
inside it do. `Schema.recordTypes` lists the types so that each stands behind the ones it uses.

Several template names may give one field name. `RecordType.settled` is the type as it is built: the
later definition stands in the place of the earlier one, and an empty template name is none to the
built field (`RecordLayout.settledName`). `Schema.inputType` is the type of the whole
input: the outermost component is its content, or a field of it unless it is called like the root
scope, and each toggle flag is an optional truth value.
-/

set_option autoImplicit false
set_option relaxedAutoImplicit false

namespace MarkupBinding

/-- What a field of a record holds. -/
inductive FieldKind where
  | text
  /-- A truth value or nothing. -/
  | flag
  /-- A record of the named type with the given fields, or a list of such records. -/
  | nested (isList : Bool) (type : String) (fields : List (FieldName × FieldKind))
  deriving Repr, BEq

/-- A record type: its name and its fields in order. -/
structure RecordType where
  name : String
  fields : List (FieldName × FieldKind)
  deriving Repr, BEq

namespace FieldKind

/-- The kind in words, as record sources show it. -/
def label : FieldKind → String
  | text => "str"
  | flag => "bool | None"
  | nested isList type _ => if isList then "list[" ++ type ++ "]" else type

/-- Whether a record must have a field of the kind. -/
def isRequired : FieldKind → Bool
  | flag => false
  | _ => true

end FieldKind

namespace RecordLayout

/-- The name of the type for the whole input. -/
def inputName : String := "Input"

/-- The first of `base2`, `base3`, … from the given number on that is not taken. -/
def numbered (base : String) (taken : List String) : Nat → Nat → String
  | 0, n => base ++ toString n
  | fuel + 1, n =>
    let candidate := base ++ toString n
    if taken.contains candidate then numbered base taken fuel (n + 1) else candidate

/-- The class name for a template name, with a number behind it where it is taken. -/
def freshName (taken : List String) (name : String) : String :=
  let base := RecordName.className name
  if taken.contains base then numbered base taken taken.length 2 else base

/-- The field name for a template name. -/
def fieldOf (name : String) : FieldName :=
  let field := RecordName.fieldName name
  ⟨field, if field == name then none else some name⟩

/-- The field name as it is built and written: an empty public name counts as none. -/
def settledName (field : FieldName) : FieldName :=
  ⟨field.name, field.publicName.filter (· ≠ "")⟩

/-- The template name from which the type of a nested component is named: its item name if it is a
list with one. -/
def typeSource (name : String) (c : Component) : String :=
  match c.array, c.itemName with
  | true, some item => if item.isEmpty then name else item
  | _, _ => name

mutual

/-- The record type of a component, and the type names taken after it. -/
def typeOf (name : String) (taken : List String) : Component → RecordType × List String
  | ⟨properties, components, _, _⟩ =>
    let own := freshName taken name
    let (fields, taken) := nestedFields (own :: taken) components
    (⟨own, fields ++ properties.map fun (property, _) ↦ (fieldOf property, .text)⟩, taken)

/-- The fields for nested components, and the type names taken after them. -/
def nestedFields (taken : List String) :
    List (String × Component) → List (FieldName × FieldKind) × List String
  | [] => ([], taken)
  | (name, c) :: rest =>
    let (type, taken) := typeOf (typeSource name c) taken c
    let (fields, taken) := nestedFields taken rest
    ((fieldOf name, .nested c.array type.name type.fields) :: fields, taken)

end

mutual

/-- The types that a field uses, each behind the ones it uses. -/
def typesOfKind : FieldKind → List RecordType
  | .nested _ type fields => typesOfFields fields ++ [⟨type, fields⟩]
  | _ => []

/-- The types that fields use. -/
def typesOfFields : List (FieldName × FieldKind) → List RecordType
  | [] => []
  | (_, kind) :: rest => typesOfKind kind ++ typesOfFields rest

end

/-- Sets a field: a field of the same name is replaced in its place. -/
def setField (field : FieldName × FieldKind) :
    List (FieldName × FieldKind) → List (FieldName × FieldKind)
  | [] => [field]
  | other :: rest =>
    if other.1.name == field.1.name then field :: rest else other :: setField field rest

mutual

/-- A kind with its nested types settled. -/
def settledKind : FieldKind → FieldKind
  | .nested isList type fields => .nested isList type (settledFields [] fields)
  | other => other

/-- Fields set one behind the other, each name and kind settled. -/
def settledFields (built : List (FieldName × FieldKind)) :
    List (FieldName × FieldKind) → List (FieldName × FieldKind)
  | [] => built
  | (name, kind) :: rest =>
    settledFields (setField (settledName name, settledKind kind) built) rest

end

/-- Adds the fields for toggle flags, except those whose name a field has already. Unlike what is
declared, a flag keeps an empty public name. -/
def addFlags (flags : List String) (fields : List (FieldName × FieldKind)) :
    List (FieldName × FieldKind) :=
  flags.foldl
    (fun fields flag ↦
      let name := fieldOf flag
      if fields.any fun field ↦ field.1.name == name.name then fields
      else fields ++ [(name, .flag)])
    fields

end RecordLayout

/-- The type as it is built: of the fields of one name the last, in the place of the first. -/
def RecordType.settled (t : RecordType) : RecordType :=
  ⟨t.name, RecordLayout.settledFields [] t.fields⟩

namespace Schema

/-- The record type of the outermost component. -/
def rootType (s : Schema) : RecordType :=
  (RecordLayout.typeOf s.name [RecordLayout.inputName] s.root).1

/-- The record types of all components, each behind the ones it uses. -/
def recordTypes (s : Schema) : List RecordType :=
  RecordLayout.typesOfFields s.rootType.fields ++ [s.rootType]

/-- The record type of the whole input. A root component without toggle flags of its own is the
input itself; a flag whose field name is in use, also in the outermost component, adds nothing. -/
def inputType (s : Schema) : RecordType :=
  let root := s.rootType.settled
  let isRoot := s.name == "root"
  let own : List (FieldName × FieldKind) :=
    if isRoot then []
    else [(RecordLayout.settledName (RecordLayout.fieldOf s.name),
      .nested false root.name root.fields)]
  let flags := s.toggles.filter fun flag ↦
    !root.fields.any fun field ↦ field.1.name == (RecordLayout.fieldOf flag).name
  let definitions := RecordLayout.addFlags flags own
  if definitions.isEmpty then root
  else ⟨RecordLayout.inputName, if isRoot then root.fields ++ definitions else definitions⟩

end Schema

end MarkupBinding
