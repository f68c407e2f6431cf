import MarkupBinding.Value.Literal

/-!
# Outlines of input forms

An outline is what an input form takes from a schema document: for each node its property names, its
nested nodes by name, whether it is a list, and the word for an item of the list. Documents come
from elsewhere, so that parts may be missing or of the wrong kind: what is missing has a default,
and what is of the wrong kind is kept as such until it is needed.
-/

set_option autoImplicit false
set_option relaxedAutoImplicit false

namespace MarkupBinding

/-- Whether a value counts as true: all values do but `null`, `false`, zero, and what is empty. -/
def Value.holds : Value → Bool
  | null => false
  | bool b => b
  | int n => n != 0
  | float (.finite _ 0 _) => false
  | float _ => true
  | string s => !s.isEmpty
  | list items => !items.isEmpty
  | object fields => !fields.isEmpty
  | record _ _ => true

/-- The names that a value lists: the keys of an object, the texts of a list, or the characters of a
text. -/
def Value.names? : Value → Option (List String)
  | object fields => some (fields.map Prod.fst)
  | list items => items.mapM fun
    | string s => some s
    | _ => none
  | string s => some (s.toList.map Char.toString)
  | _ => none

/-- The number of entries, items or characters. -/
def Value.count? : Value → Option Nat
  | object fields => some fields.length
  | list items => some items.length
  | string s => some s.length
  | _ => none

namespace InputForm

/-- What an input form takes from a node of a schema document. -/
inductive Outline where
  /-- The node is not an object. -/
  | misfit
  /-- Property names and nested nodes are absent where the node has them in a wrong kind. -/
  | node (properties : Option (List String)) (components : Option (List (String × Outline)))
      (isList : Bool) (itemName : String)
  deriving Repr

namespace Outline

/-- The word for an item of a list that names none. -/
def plainItemName : String := "item"

mutual

/-- The outline of a node. -/
def ofDocument : Value → Outline
  | .object fields =>
    .node (((fields.lookup "properties").getD (.object [])).names?)
      (componentsOf fields)
      (((fields.lookup "array").getD .null).holds)
      (((fields.lookup "itemName").map Value.plainText).getD plainItemName)
  | _ => .misfit

/-- The outlines below the entry of nested nodes. -/
def componentsOf : List (String × Value) → Option (List (String × Outline))
  | [] => some []
  | (key, value) :: rest => if key == "components" then entriesOf value else componentsOf rest

/-- The outlines of the entries of an object. -/
def entriesOf : Value → Option (List (String × Outline))
  | .object fields => some (outlines fields)
  | _ => none

/-- The outlines of entries. -/
def outlines : List (String × Value) → List (String × Outline)
  | [] => []
  | (name, value) :: rest => (name, ofDocument value) :: outlines rest

end

end Outline

end InputForm

end MarkupBinding
