import MarkupBinding.Markup.Mark
import MarkupBinding.Value.Basic

/-!
# Toggles

An element marked with a flag is removed, with all below it, when the input sets the flag to
`false`; absent flags and values other than `false` keep it. Only the properties of the input itself
are consulted. `Document.filterToggles` removes the elements, and `Document.toggleFlags` lists the
flags of a document.
-/

set_option autoImplicit false
set_option relaxedAutoImplicit false

namespace MarkupBinding

/-- Whether the input switches a flag off. -/
def Value.switchesOff (input : Value) (flag : String) : Bool :=
  match input.property? flag with
  | some (.bool false) => true
  | _ => false

/-- Whether the tag carries a flag that the test switches off. -/
def Tag.isOff (off : String → Bool) (t : Tag) : Bool :=
  (t.attr? Mark.toggleable).any off

namespace Node

mutual

/-- The tree without the elements that are switched off below it, and their number. -/
def filterOff (off : String → Bool) : Node → Node × Nat
  | element tag children =>
    let (kept, count) := filterOffAll off children
    (element tag kept, count)
  | text kind content => (text kind content, 0)

/-- The trees without the elements that are switched off, and their number; elements inside a
removed one are not counted. -/
def filterOffAll (off : String → Bool) : List Node → List Node × Nat
  | [] => ([], 0)
  | element tag children :: rest =>
    let (kept, count) := filterOffAll off rest
    if tag.isOff off then (kept, count + 1)
    else
      let (node, inside) := filterOff off (element tag children)
      (node :: kept, inside + count)
  | text kind content :: rest =>
    let (kept, count) := filterOffAll off rest
    (text kind content :: kept, count)

end

end Node

/-- The document without the elements that the input switches off, and the number of elements
removed. -/
def Document.filterToggles (d : Document) (input : Value) : Document × Nat :=
  Node.filterOffAll input.switchesOff d

/-- The distinct flags of a document in order of first occurrence. -/
def Document.toggleFlags (d : Document) : List String :=
  Keyed.distinct ((d.tags.filterMap (·.attr? Mark.toggleable)).filter (!·.isEmpty))

end MarkupBinding
