import MarkupBinding.Record.Layout

/-!
# Source text of record types

The record types of a schema written as a module of class definitions, one field per line. A field
with a public name states it behind its type. The first line is a text literal about the module.
-/

set_option autoImplicit false
set_option relaxedAutoImplicit false

namespace MarkupBinding

namespace RecordSource

/-- What the module says about itself. -/
def about (name : String) : String :=
  "Typed records for the '" ++ name ++ "' template."

/-- The line of a field. -/
def fieldLine (field : FieldName × FieldKind) : String :=
  let declared := "    " ++ field.1.name ++ ": " ++ field.2.label
  match (RecordLayout.settledName field.1).publicName with
  | some shown => declared ++ " = Field(alias=\"" ++ shown ++ "\")"
  | none => declared

/-- The lines of a class, two empty ones in front. -/
def classLines (t : RecordType) : List String :=
  ["", "", "class " ++ t.name ++ "(DataRecord):"] ++
    if t.fields.isEmpty then ["    pass"] else t.fields.map fieldLine

/-- Whether some field of some type has a public name. -/
def usesAlias (types : List RecordType) : Bool :=
  types.any fun t ↦ t.fields.any fun field ↦
    (RecordLayout.settledName field.1).publicName.isSome

/-- The lines of the module behind the one about it. -/
def bodyLines (types : List RecordType) : List String :=
  [""] ++ (if usesAlias types then ["from pydantic import Field", ""] else []) ++
    ["from bindery.strategies.template_engine.context import DataRecord"] ++
    types.flatMap classLines ++ [""]

/-- The text of a module that says something about itself and defines record types. -/
def moduleText (about : String) (types : List RecordType) : String :=
  Text.join "\n" (("\"\"\"" ++ about ++ "\"\"\"") :: bodyLines types)

end RecordSource

/-- The source text of the record types of a schema. -/
def Schema.recordSource (s : Schema) : String :=
  RecordSource.moduleText (RecordSource.about s.name) s.recordTypes

end MarkupBinding
