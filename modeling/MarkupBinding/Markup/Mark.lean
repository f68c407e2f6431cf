import MarkupBinding.Markup.Place
import MarkupBinding.Text.Blank

/-!
# Binding marks

The attributes by which a template says what data it takes. A mark counts when its value is not
blank. A collection owns a stencil: the first element below it that is marked as an item and
has no other collection in between.
-/

set_option autoImplicit false
set_option relaxedAutoImplicit false

namespace MarkupBinding

namespace Mark

/-- Opens a scope for the named component. -/
def component : String := "data-component"

/-- Binds the text of the element. -/
def textContent : String := "data-text-content"

/-- Begins the name of a mark that binds an attribute. -/
def attributeStart : String := "data-attribute-"

/-- Repeats the stencil below the element for each item of a list. -/
def collection : String := "data-collection"

/-- Marks the stencil of a collection and names the scope of its items. -/
def collectionItem : String := "data-collection-item"

/-- Names the flag that switches the element off. -/
def toggleable : String := "data-toggleable"

end Mark

namespace Tag

/-- The trimmed value of a mark that is not blank. -/
def mark? (t : Tag) (name : String) : Option String :=
  match t.attr? name with
  | some raw => if Text.isBlankText raw then none else some (Text.trim raw)
  | none => none

/-- The attribute that a mark of the given name binds. -/
def boundAttribute? (name : String) : Option String :=
  match Text.after? Mark.attributeStart.toList name.toList with
  | some (c :: cs) => some (String.ofList (c :: cs))
  | _ => none

/-- The attribute bindings in order: the bound attribute and the value of the mark. -/
def attributeBindings (t : Tag) : List (String × String) :=
  t.attrs.filterMap fun (name, value) ↦
    (boundAttribute? name).map fun target ↦ (target, value.text)

end Tag

/-- Why markup does not have the structure that its marks ask for. -/
inductive StructureError where
  /-- A collection without a stencil; its path as marked. -/
  | noStencil (collection : Option String)
  /-- A collection whose stencil names no scope. -/
  | unnamedStencil (collection : Option String)
  /-- A component declared in two ways; for each whether it is a list. -/
  | clash (component : String) (declaredAsList usedAsList : Bool)
  deriving DecidableEq, Repr

namespace StructureError

/-- The word for a component that is a list or a single object. -/
def kindWord (isList : Bool) : String :=
  if isList then "a list" else "an object"

/-- The error in words. -/
def message : StructureError → String
  | noStencil collection =>
    "Collection '" ++ collection.getD "None" ++ "' has no element marked " ++
      Mark.collectionItem
  | unnamedStencil collection =>
    "Collection '" ++ collection.getD "None" ++ "' has a stencil with an empty " ++
      Mark.collectionItem
  | clash component declaredAsList usedAsList =>
    "Component '" ++ component ++ "' is declared both as " ++ kindWord declaredAsList ++
      " and as " ++ kindWord usedAsList

end StructureError

namespace Node

mutual

/-- The place of the first item mark in a tree whose root is child number `i`, not below another
collection. -/
def stencilIn (i : Nat) : Node → Option Place
  | text _ _ => none
  | element tag children =>
    if tag.has Mark.collectionItem then some [i]
    else if tag.has Mark.collection then none
    else (stencilAmong 0 children).map (i :: ·)

/-- The place of the first item mark among siblings, the first of which is child number `i`. -/
def stencilAmong (i : Nat) : List Node → Option Place
  | [] => none
  | n :: rest =>
    match stencilIn i n with
    | some place => some place
    | none => stencilAmong (i + 1) rest

end

end Node

/-- The stencil of a collection: its place below the collection, its node and the scope name. -/
structure Stencil where
  place : Place
  node : Node
  item : String

/-- The stencil of the collection with the given tag and children. -/
def Stencil.of (tag : Tag) (children : List Node) : Except StructureError Stencil :=
  let collection := tag.mark? Mark.collection
  match Node.stencilAmong 0 children with
  | none => .error (.noStencil collection)
  | some place =>
    match Node.atPlace? children place with
    | some (.element itemTag itemChildren) =>
      match itemTag.mark? Mark.collectionItem with
      | some item => .ok ⟨place, .element itemTag itemChildren, item⟩
      | none => .error (.unnamedStencil collection)
    | _ => .error (.noStencil collection)

/-- Whether the tag declares a component. -/
def Tag.declaresComponent (t : Tag) : Bool :=
  (t.mark? Mark.component).isSome

/-- The outermost component: the first element of a document that declares one. -/
def Document.outermostComponent? (d : Document) : Option Node :=
  Node.findAmong? Tag.declaresComponent d

end MarkupBinding
