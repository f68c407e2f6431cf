import MarkupBinding.Markup.Mark

/-!
# Component schemas

A component schema says what data a component takes: its properties by name with their types, and
its nested components by name, each a single object or a list of items with a scope name. Properties
and components keep the order in which they were declared, and a name is declared once as each.
-/

set_option autoImplicit false
set_option relaxedAutoImplicit false

namespace MarkupBinding

/-- The data that a component takes. -/
structure Component where
  /-- The properties by name, with the name of their type. -/
  properties : List (String × String)
  /-- The nested components by name. -/
  components : List (String × Component)
  /-- Whether the component is a list of items. -/
  array : Bool
  /-- The scope name of an item. -/
  itemName : Option String
  deriving Repr, BEq

/-- The type of every property that a template declares. -/
def textType : String := "string"

/-- The path of names from a component down to a nested one. -/
abbrev Address := List String

namespace Component

/-- A component that takes nothing yet. -/
def empty (array : Bool) (itemName : Option String) : Component :=
  ⟨[], [], array, itemName⟩

/-- No properties and no components. -/
def isEmpty (c : Component) : Bool :=
  c.properties.isEmpty && c.components.isEmpty

/-- The component with a property declared; a declared one stays as it is. -/
def addProperty (c : Component) (name : String) : Component :=
  if Keyed.has name c.properties then c
  else { c with properties := c.properties ++ [(name, textType)] }

/-- The component with a nested one declared. One of the same kind is used again; one of another
kind or with another item name is a clash. -/
def addComponent (c : Component) (name : String) (array : Bool) (itemName : Option String) :
    Except StructureError Component :=
  match c.components.lookup name with
  | none => .ok { c with components := c.components ++ [(name, empty array itemName)] }
  | some declared =>
    if declared.array = array ∧ declared.itemName = itemName then .ok c
    else .error (.clash name declared.array array)

mutual

/-- The component without nested components that take nothing, at any depth. -/
def prune : Component → Component
  | ⟨properties, components, array, itemName⟩ => ⟨properties, pruneAll components, array, itemName⟩

/-- The components that take something, each pruned. -/
def pruneAll : List (String × Component) → List (String × Component)
  | [] => []
  | (name, c) :: rest =>
    if c.prune.isEmpty then pruneAll rest else (name, c.prune) :: pruneAll rest

end

/-- The nested component at an address. -/
def at? (c : Component) : Address → Option Component
  | [] => some c
  | name :: address =>
    match c.components.lookup name with
    | some inner => inner.at? address
    | none => none

/-- The component with the nested one at an address changed. -/
def modifyAt (f : Component → Component) : Address → Component → Component
  | [], c => f c
  | name :: address, c =>
    match c.components.lookup name with
    | some inner =>
      { c with components := Keyed.set name (modifyAt f address inner) c.components }
    | none => c

end Component

/-- The schema of a template: the outermost component with its name, and the toggle flags. -/
structure Schema where
  name : String
  root : Component
  toggles : List String
  deriving Repr, BEq

end MarkupBinding
