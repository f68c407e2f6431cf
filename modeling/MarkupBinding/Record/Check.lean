import MarkupBinding.Number.Shortest
import MarkupBinding.Record.Layout
import MarkupBinding.Validation.Issue
import MarkupBinding.Value.Literal

/-!
# Reading records

`RecordType.check` reads a value as a record of a type. Every field is read under its public name,
else under its own name; other entries are ignored. Numbers are taken for texts, truth values are
not. All that does not fit is listed, field by field and inside out.
-/

set_option autoImplicit false
set_option relaxedAutoImplicit false

namespace MarkupBinding

namespace RecordCheck

/-- The key and value under which an object has a field. -/
def entry? (field : FieldName) (entries : List (String × Value)) : Option (String × Value) :=
  match field.publicName with
  | none => (entries.lookup field.name).map fun v ↦ (field.name, v)
  | some shown =>
    match entries.lookup shown with
    | some v => some (shown, v)
    | none => (entries.lookup field.name).map fun v ↦ (field.name, v)

/-- Reads a text, or a number as its text. -/
def checkTextOrNumber (v : Value) : Checked Value :=
  match v with
  | .string s => .ok (.string s)
  | .int n => .ok (.string (intText n))
  | .float x => .ok (.string x.text)
  | _ => .issue .notText v

/-- Reads a truth value or nothing. -/
def checkOptionalFlag (v : Value) : Checked Value :=
  match v with
  | .null => .ok .null
  | _ => (checkFlag v).map .bool

mutual

/-- Reads a value as what a field holds. -/
def checkKind : FieldKind → Value → Checked Value
  | .text, v => checkTextOrNumber v
  | .flag, v => checkOptionalFlag v
  | .nested false type fields, v =>
    match v with
    | .object entries => (checkFields fields entries).map (.record type)
    | _ => .issue (.notRecord type) v
  | .nested true type fields, v =>
    match v with
    | .list items =>
      (Checked.all (items.mapIdx fun i item ↦
        Checked.below (.index i)
          (match item with
          | .object entries => (checkFields fields entries).map (.record type)
          | _ => .issue (.notRecord type) item))).map .list
    | _ => .issue .notList v

/-- Reads the fields of a record from the entries of an object. -/
def checkFields : List (FieldName × FieldKind) → List (String × Value) →
    Checked (List (FieldName × Value))
  | [], _ => .ok []
  | (field, kind) :: rest, entries =>
    let value : Checked Value :=
      match entry? field entries with
      | some (key, v) => (checkKind kind v).below (.key key)
      | none =>
        if kind.isRequired then .error [⟨.missing, [.key field.shown], .object entries⟩]
        else .ok .null
    match value.both (checkFields rest entries) with
    | .ok (v, others) => .ok ((field, v) :: others)
    | .error issues => .error issues

end

end RecordCheck

/-- Reads a value as a record of the type. -/
def RecordType.check (t : RecordType) (v : Value) : Checked Value :=
  match v with
  | .object entries => (RecordCheck.checkFields t.fields entries).map (.record t.name)
  | _ => .issue (.notRecord t.name) v

/-- Reads input as a record of the schema's input type. -/
def Schema.checkInput (s : Schema) (input : Value) : Checked Value :=
  s.inputType.check input

end MarkupBinding
