import MarkupBinding.Schema.Document

/-!
# Schemas as values

A schema read as a record, whose properties templates can look up by field name: the name, the
outermost component and the toggle flags, and for a component its properties, its nested components,
whether it is a list, and its item name.
-/

set_option autoImplicit false
set_option relaxedAutoImplicit false

namespace MarkupBinding

namespace Component

/-- The value of an optional text. -/
def optionalText : Option String → Value
  | some s => .string s
  | none => .null

mutual

/-- The component as a record. -/
def toRecord : Component → Value
  | ⟨properties, components, array, itemName⟩ =>
    .record typeName
      [(⟨"properties", none⟩, propertiesValue properties),
        (⟨"components", none⟩, .object (allRecords components)), (⟨"array", none⟩, .bool array),
        (⟨"item_name", none⟩, optionalText itemName)]

/-- Nested components as records under their names. -/
def allRecords : List (String × Component) → List (String × Value)
  | [] => []
  | (name, c) :: rest => (name, c.toRecord) :: allRecords rest

end

end Component

/-- The schema as a record. -/
def Schema.toRecord (s : Schema) : Value :=
  .record "ExtractedSchema"
    [(⟨"name", none⟩, .string s.name), (⟨"root", none⟩, s.root.toRecord),
      (⟨"toggles", none⟩, .list (s.toggles.map .string))]

end MarkupBinding
