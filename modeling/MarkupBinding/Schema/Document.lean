import MarkupBinding.Schema.Component
import MarkupBinding.Text.Quoted
import MarkupBinding.Validation.Issue
import MarkupBinding.Value.Literal

/-!
# Schema documents

A schema document is the schema as a JSON value: an object with one entry, the outermost component
under its name. `Schema.toDocument` writes the document and `Schema.ofDocument` reads it. A reader
takes more than a writer makes: missing parts have defaults, unknown entries are ignored, the body
may be a list of pairs, and truth values may be written as numbers or words.
-/

set_option autoImplicit false
set_option relaxedAutoImplicit false

namespace MarkupBinding

namespace Component

/-- The entries of a document that hold the properties of a component. -/
def propertiesValue (properties : List (String × String)) : Value :=
  .object (properties.map fun (name, type) ↦ (name, .string type))

/-- The entry for an item name, if there is one. -/
def itemEntry : Option String → List (String × Value)
  | some item => [("itemName", .string item)]
  | none => []

mutual

/-- The entries of a component's document. -/
def entries : Component → List (String × Value)
  | ⟨properties, components, array, itemName⟩ =>
    [("properties", propertiesValue properties), ("components", .object (allEntries components)),
      ("array", .bool array)] ++ itemEntry itemName

/-- The documents of nested components under their names. -/
def allEntries : List (String × Component) → List (String × Value)
  | [] => []
  | (name, c) :: rest => (name, .object c.entries) :: allEntries rest

end

/-- The document of a component. -/
def toDocument (c : Component) : Value :=
  .object c.entries

/-- The word for the type of a component in messages. -/
def typeName : String := "ComponentSchema"

/-- The value of an entry with its key: the documents' own name first, else the other one. -/
def itemValue? (fields : List (String × Value)) : Option (String × Value) :=
  match fields.lookup "itemName" with
  | some v => some ("itemName", v)
  | none => (fields.lookup "item_name").map fun v ↦ ("item_name", v)

/-- Reads the properties entry. -/
def checkProperties (v : Value) : Checked (List (String × String)) :=
  match v with
  | .object fields =>
    .all (fields.map fun (name, type) ↦
      ((checkText type).below (.key name)).map fun type ↦ (name, type))
  | _ => .issue .notObject v

/-- Reads the item name entry. -/
def checkItemName (fields : List (String × Value)) : Checked (Option String) :=
  match itemValue? fields with
  | none => .ok none
  | some (_, .null) => .ok none
  | some (key, v) => ((checkText v).below (.key key)).map some

/-- Reads an optional entry with a default. -/
def checkEntry {α : Type} (key : String) (default : α) (check : Value → Checked α)
    (fields : List (String × Value)) : Checked α :=
  match fields.lookup key with
  | none => .ok default
  | some v => (check v).below (.key key)

/-- Puts the parts of a component together. -/
def assemble (properties : Checked (List (String × String)))
    (components : Checked (List (String × Component))) (array : Checked Bool)
    (itemName : Checked (Option String)) : Checked Component :=
  (properties.both (components.both (array.both itemName))).map
    fun (properties, components, array, itemName) ↦ ⟨properties, components, array, itemName⟩

mutual

/-- Reads a component from its document; `fuel` bounds the depth. -/
def check : Nat → Value → Checked Component
  | 0, v => .issue (.notRecord typeName) v
  | fuel + 1, v =>
    match v with
    | .object fields => checkFields fuel fields
    | _ => .issue (.notRecord typeName) v

/-- Reads a component from the entries of its document. -/
def checkFields (fuel : Nat) (fields : List (String × Value)) : Checked Component :=
  assemble (checkEntry "properties" [] checkProperties fields)
    (checkEntry "components" [] (checkComponents fuel) fields)
    (checkEntry "array" false checkFlag fields) (checkItemName fields)

/-- Reads the nested components. -/
def checkComponents (fuel : Nat) (v : Value) : Checked (List (String × Component)) :=
  match v with
  | .object fields =>
    .all (fields.map fun (name, c) ↦ ((check fuel c).below (.key name)).map fun c ↦ (name, c))
  | _ => .issue .notObject v

end

end Component

/-- Why a value is no schema document. -/
inductive DocumentError where
  /-- Not exactly one entry; the literal form of what there is. -/
  | notSingle (found : String)
  /-- Not an object, nor anything that has a number of parts. -/
  | notSized
  /-- One part that is not an entry. -/
  | notEntries
  /-- A part of the body, counted from zero, that has another length than a pair. -/
  | badPair (place length : Nat)
  /-- A body that is not made of pairs at all. -/
  | notPairs
  /-- A body that does not have the shape of a component. -/
  | misfit (record : String) (issues : List Issue)

/-- The error in words. -/
def DocumentError.message : DocumentError → String
  | notSingle found => "Schema document must have exactly one root component, got " ++ found
  | badPair place length =>
    "dictionary update sequence element #" ++ toString place ++ " has length " ++
      toString length ++ "; 2 is required"
  | notSized => "Schema document has no entries"
  | notEntries => "Schema document is not an object"
  | notPairs => "Root component is not an object"
  | misfit record issues => toString issues.length ++ " issue(s) in " ++ record

namespace Schema

/-- The schema as a JSON value. -/
def toDocument (s : Schema) : Value :=
  let toggles := if s.toggles.isEmpty then []
    else [("toggles", Value.list (s.toggles.map .string))]
  .object [(s.name, .object (s.root.entries ++ toggles))]

/-- A key and a value that an item of a list stands for: the two items of a list, the two
characters of a text, or the two keys of an object. `place` is the number of the item. -/
def pairOf (place : Nat) : Value → Except DocumentError (Value × Value)
  | .list [key, v] => .ok (key, v)
  | .list items => .error (.badPair place items.length)
  | .string s =>
    match s.toList with
    | [key, v] => .ok (.string (String.singleton key), .string (String.singleton v))
    | cs => .error (.badPair place cs.length)
  | .object [(key, _), (v, _)] => .ok (.string key, .string v)
  | .object fields => .error (.badPair place fields.length)
  | _ => .error .notPairs

/-- Whether a value may be a key. -/
def isKey : Value → Bool
  | .list _ => false
  | .object _ => false
  | _ => true

/-- The entries that a list of pairs stands for, the first of which has a number; entries under
other keys than texts are dropped. -/
def entriesOf (place : Nat) : List Value → Except DocumentError (List (String × Value))
  | [] => .ok []
  | item :: rest => do
    let (key, v) ← pairOf place item
    if isKey key then
      let others ← entriesOf (place + 1) rest
      match key with
      | .string name => return (name, v) :: others
      | _ => return others
    else .error .notPairs

/-- The entries of a body. -/
def bodyOf : Value → Except DocumentError (List (String × Value))
  | .object fields => .ok fields
  | .list items => (entriesOf 0 items).map Keyed.ofPairs
  | .string s => if s.isEmpty then .ok [] else .error (.badPair 0 1)
  | _ => .error .notPairs

/-- The one entry of a document. -/
def singleEntry : Value → Except DocumentError (String × Value)
  | .object [entry] => .ok entry
  | .object fields => .error (.notSingle (Text.quotedNames (Keyed.keys fields)))
  | .list [_] => .error .notEntries
  | .list items => .error (.notSingle (Value.list items).literal)
  | .string s =>
    match s.toList with
    | [_] => .error .notEntries
    | cs => .error (.notSingle (Text.quotedNames (cs.map String.singleton)))
  | _ => .error .notSized

/-- Reads the list of toggle flags. -/
def checkToggles (v : Value) : Checked (List String) :=
  match v with
  | .list items => .all (items.mapIdx fun i item ↦ (checkText item).below (.index i))
  | _ => .issue .notList v

mutual

/-- The number of levels of a value. -/
def levels : Value → Nat
  | .object fields => levelsOf fields + 1
  | _ => 0

/-- The greatest number of levels among the entries. -/
def levelsOf : List (String × Value) → Nat
  | [] => 0
  | (_, v) :: rest => max (levels v) (levelsOf rest)

end

/-- Reads a schema from its document. The body is read first, then the toggle flags. -/
def ofDocument (document : Value) : Except DocumentError Schema := do
  let (name, body) ← singleEntry document
  let fields ← bodyOf body
  let toggles := (fields.lookup "toggles").getD (.list [])
  let rest := Keyed.erase "toggles" fields
  match Component.checkFields (levelsOf rest) rest with
  | .error issues => .error (.misfit Component.typeName issues)
  | .ok root =>
    match (checkToggles toggles).below (.key "toggles") with
    | .error issues => .error (.misfit "ExtractedSchema" issues)
    | .ok toggles => return ⟨name, root, toggles⟩

end Schema

end MarkupBinding
