import MarkupBinding.Markup.Node

/-!
# Places in a markup tree

A place below an element is the list of child numbers on the way down to it. A node can be read at
a place, and the node at a place can be replaced by any number of nodes, which leaves its siblings
in order around them.
-/

set_option autoImplicit false
set_option relaxedAutoImplicit false

namespace MarkupBinding

/-- The child numbers on the way down from a list of siblings. -/
abbrev Place := List Nat

namespace Node

/-- The children of an element. -/
def children : Node → List Node
  | element _ children => children
  | text _ _ => []

/-- The node with other children, if it is an element. -/
def withChildren (node : Node) (children : List Node) : Node :=
  match node with
  | element tag _ => element tag children
  | text kind content => text kind content

/-- The node at a place among siblings. -/
def atPlace? : List Node → Place → Option Node
  | _, [] => none
  | siblings, [i] => siblings[i]?
  | siblings, i :: place =>
    match siblings[i]? with
    | some node => atPlace? node.children place
    | none => none

/-- The siblings with the node at a place replaced by several nodes. -/
def replaceAt (new : List Node) : List Node → Place → List Node
  | siblings, [] => siblings
  | siblings, [i] => siblings.take i ++ new ++ siblings.drop (i + 1)
  | siblings, i :: place =>
    match siblings[i]? with
    | some node =>
      siblings.take i ++ node.withChildren (replaceAt new node.children place) ::
        siblings.drop (i + 1)
    | none => siblings

/-- The number of elements before a place in document order. -/
def elementsBefore : List Node → Place → Nat
  | _, [] => 0
  | siblings, i :: place =>
    (tagsAll (siblings.take i)).length +
      match siblings[i]?, place with
      | some node, _ :: _ => 1 + elementsBefore node.children place
      | _, _ => 0

mutual

/-- The first element in document order whose tag passes a test. -/
def find? (test : Tag → Bool) : Node → Option Node
  | element tag children =>
    if test tag then some (element tag children) else findAmong? test children
  | text _ _ => none

/-- The first element of several trees whose tag passes a test. -/
def findAmong? (test : Tag → Bool) : List Node → Option Node
  | [] => none
  | n :: rest =>
    match n.find? test with
    | some found => some found
    | none => findAmong? test rest

end

end Node

end MarkupBinding
