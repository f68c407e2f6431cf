import MarkupBinding.Binding.Bind
import MarkupBinding.Schema.Component

/-!
# Extracting schemas

`Document.extract` reads off a template what data it takes. The walk follows the walk of binding:
components and collections open scopes, and every binding declares a property on the scope that its
path resolves to. A dotted path declares on the innermost ancestor of its scope name, and is dropped
where there is none. A bare path declares on the innermost ancestor that declares the name already,
else on the innermost ancestor.
-/

set_option autoImplicit false
set_option relaxedAutoImplicit false

namespace MarkupBinding

namespace Extraction

/-- A scope around a place of the template, with the address of its component. -/
structure Ancestor where
  name : String
  address : Address
  deriving DecidableEq, Repr

/-- The scopes around a place: the innermost one and those around it. -/
structure Ancestors where
  top : Ancestor
  outer : List Ancestor
  deriving DecidableEq, Repr

/-- The scopes, innermost first. -/
def Ancestors.list (a : Ancestors) : List Ancestor :=
  a.top :: a.outer

/-- The scope names from the outermost to the innermost. -/
def Ancestors.names (a : Ancestors) : List String :=
  (a.list.map Ancestor.name).reverse

/-- The scopes with one more inside. -/
def Ancestors.push (a : Ancestors) (name : String) (address : Address) : Ancestors :=
  ⟨⟨name, address⟩, a.list⟩

/-- What is reported on the way. -/
inductive Report where
  /-- An element was reached inside scopes. -/
  | visited (tag : Tag) (ancestors : Ancestors)
  /-- A dotted path names no scope around it; its scope, its source and the scope names. -/
  | propertyDropped (scope source : String) (names : List String)
  /-- A dotted collection path names no scope around it; the path as marked and its scope. -/
  | collectionDropped (collection scope : String)
  deriving DecidableEq, Repr

/-- A report as a notice, where something was dropped. -/
def Report.notice? : Report → Option Notice
  | visited _ _ => none
  | propertyDropped scope source names =>
    some ⟨.warning, "Scope '" ++ scope ++ "' not found among ancestors " ++
      Text.quotedNames names ++ " for '" ++ source ++ "'; property dropped"⟩
  | collectionDropped collection scope =>
    some ⟨.warning, "Collection '" ++ collection ++ "' names scope '" ++ scope ++
      "' which is not an ancestor; collection dropped"⟩

/-- A walk that builds a component. -/
abbrev Walk (α : Type) := MarkupBinding.Walk Report BindError α

/-- The ancestor that a path declares on; `declares` tells whether a component declares a name. -/
def owner (declares : String → Component → Bool) (root : Component) (ancestors : Ancestors)
    (path : Path) : Option Ancestor :=
  match path.scope with
  | some scope => ancestors.list.find? fun a ↦ a.name == scope
  | none =>
    match ancestors.list.find? fun a ↦ (root.at? a.address).any (declares path.name) with
    | some a => some a
    | none => some ancestors.top

/-- Whether a component has a property of the name. -/
def hasProperty (name : String) (c : Component) : Bool :=
  Keyed.has name c.properties

/-- Whether a component has a nested component of the name. -/
def hasComponent (name : String) (c : Component) : Bool :=
  Keyed.has name c.components

/-- Declares the property that a path names; `source` is the text the path comes from. -/
def declareProperty (ancestors : Ancestors) (source : String) (path : Path) (root : Component) :
    Walk Component :=
  match owner hasProperty root ancestors path with
  | none => .report root (.propertyDropped (path.scope.getD "") source ancestors.names)
  | some a => .done (root.modifyAt (·.addProperty path.name) a.address)

/-- Declares a nested component below an address. -/
def declareComponent (address : Address) (name : String) (array : Bool) (itemName : Option String)
    (root : Component) : Walk Component :=
  match root.at? address with
  | none => .done root
  | some c =>
    match c.addComponent name array itemName with
    | .ok c => .done (root.modifyAt (fun _ ↦ c) address)
    | .error e => .stop root (.structural e)

/-- Declares the property of a text binding. -/
def declareText (ancestors : Ancestors) (tag : Tag) (root : Component) : Walk Component :=
  match tag.mark? Mark.textContent with
  | none => .done root
  | some raw =>
    match Path.ofBinding raw with
    | .error e => .stop root (.expression e)
    | .ok path => declareProperty ancestors raw path root

/-- Declares the properties of an attribute binding. -/
def declareAttribute (ancestors : Ancestors) (binding : String × String) (root : Component) :
    Walk Component :=
  match TemplateText.parse binding.2 with
  | .error e => .stop root (.expression e)
  | .ok segments =>
    .forEach (declareProperty ancestors binding.2) segments.paths root

/-- Declares the properties of all bindings of a tag that is reached. -/
def declareBindings (ancestors : Ancestors) (tag : Tag) (root : Component) : Walk Component :=
  ((Walk.report root (.visited tag ancestors)).andThen (declareText ancestors tag)).andThen
    (.forEach (declareAttribute ancestors) tag.attributeBindings)

/-- Walks siblings, the first of which is child number `i`. -/
def visitChildren (visit : Option Place → Node → Component → Walk Component)
    (hold : Option Place) (i : Nat) : List Node → Component → Walk Component
  | [], root => .done root
  | n :: rest, root =>
    (visit (Binding.holdBelow i hold) n root).andThen (visitChildren visit hold (i + 1) rest)

/-- Walks a collection: its list component is declared and the stencil walked inside it, then the
content around the stencil outside of it. -/
def visitCollection (visit : Ancestors → Option Place → Node → Component → Walk Component)
    (ancestors : Ancestors) (raw : String) (tag : Tag) (children : List Node) (root : Component) :
    Walk Component :=
  match Path.ofBinding raw with
  | .error e => .stop root (.expression e)
  | .ok path =>
    match Stencil.of tag children with
    | .error e => .stop root (.structural e)
    | .ok stencil =>
      let inside : Walk Component :=
        match owner hasComponent root ancestors path with
        | none => .report root (.collectionDropped raw (path.scope.getD ""))
        | some a =>
          (declareComponent a.address path.name true (some stencil.item) root).andThen
            (visit (ancestors.push stencil.item (a.address ++ [path.name])) none stencil.node)
      inside.andThen (visitChildren (visit ancestors) (some stencil.place) 0 children)

/-- Walks a node inside the given scopes. `depth` bounds the levels of elements that are walked,
`hold` is the place of the stencil held back at or below the node. -/
def visit : Nat → Ancestors → Option Place → Node → Component → Walk Component
  | 0, _, _, _, root => .done root
  | _ + 1, _, _, .text _ _, root => .done root
  | depth + 1, ancestors, hold, .element tag children, root =>
    if Binding.isHeld hold then .done root
    else
      (declareBindings ancestors tag root).andThen fun root ↦
        match tag.mark? Mark.collection with
        | some raw => visitCollection (visit depth) ancestors raw tag children root
        | none =>
          match tag.mark? Mark.component with
          | none => visitChildren (visit depth ancestors) hold 0 children root
          | some name =>
            (declareComponent ancestors.top.address name false none root).andThen
              (visitChildren
                (visit depth (ancestors.push name (ancestors.top.address ++ [name]))) hold 0
                children)

/-- Walks the outermost component, whose own scope is there already. -/
def visitOutermost (name : String) (tag : Tag) (children : List Node) : Walk Component :=
  let ancestors : Ancestors := ⟨⟨name, []⟩, []⟩
  let visit := visit (Node.heightAll children)
  (declareBindings ancestors tag (.empty false none)).andThen fun root ↦
    match tag.mark? Mark.collection with
    | some raw => visitCollection visit ancestors raw tag children root
    | none => visitChildren (visit ancestors) none 0 children root

/-- The notices of a walk. -/
def notices {α : Type} (w : Walk α) : List Notice :=
  w.reports.filterMap Report.notice?

end Extraction

/-- The schema of a template as far as the walk got, or nothing where no element declares a
component. Components that take nothing are kept or pruned as `includeEmpty` says. -/
def Document.extract (d : Document) (includeEmpty : Bool) : Extraction.Walk (Option Schema) :=
  match d.outermostComponent? with
  | some (.element tag children) =>
    let name := (tag.mark? Mark.component).getD ""
    (Extraction.visitOutermost name tag children).map fun root ↦
      some ⟨name, if includeEmpty then root else root.prune, d.toggleFlags⟩
  | _ => .done none

end MarkupBinding
