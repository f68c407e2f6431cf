import MarkupBinding.Binding.Stack
import MarkupBinding.Binding.Toggle
import MarkupBinding.Binding.Walk
import MarkupBinding.Markup.Printer
import MarkupBinding.Notice
import MarkupBinding.Value.Display

/-!
# Binding data into markup

`Document.bind` removes what the input switches off and then walks the document depth first. Each
element is handled in a fixed order: its text binding replaces its children by a text; each
attribute binding sets an attribute; a collection repeats its stencil once per item of a list, each
copy bound with the item as the innermost scope; and a component opens a scope for its children. A
component that is called like the root scope and lies directly in it binds the input itself.

A dotted path that cannot be resolved stops the walk; a bare one leaves the markup as it was. A
collection whose value is not a list loses its content.

While the content around a stencil is bound, the stencil is held back. An attribute binding may make
an element on the way down to a held stencil a collection in its turn. That collection has the same
stencil, and when it is through, the stencil is no longer there for the outer one; a text binding on
the parent of the stencil detaches it too. In both cases the outer collection cannot be filled,
which is the fault `lostStencil`. A text binding further up takes the stencil out of the document
together with its parent; the outer collection is then filled where it no longer shows.
-/

set_option autoImplicit false
set_option relaxedAutoImplicit false

namespace MarkupBinding

/-- Why data cannot be bound. -/
inductive BindError where
  | expression (error : ExpressionError)
  | structural (error : StructureError)
  | resolution (error : ResolutionError)
  /-- The stencil of a collection left the tree while the content around it was bound; `filling`
  tells whether there was an item to fill in. -/
  | lostStencil (filling : Bool)
  deriving DecidableEq, Repr

/-- The error in words. A lost stencil has none of its own: the walk runs into it. -/
def BindError.message : BindError → String
  | expression e => e.message
  | structural e => e.message
  | resolution e => e.message
  | lostStencil _ => "Lost stencil"

namespace Binding

/-- What is reported on the way. -/
inductive Report where
  /-- An element was reached under a stack of scopes; its tag and children as they were then. -/
  | visited (tag : Tag) (children : List Node) (stack : Stack)
  /-- A bare path found nothing; its source and the scope names. -/
  | leftUnbound (source : String) (names : List String)
  /-- A collection is no list; its path as marked and the kind of its value. -/
  | contentRemoved (collection kind : String)

/-- A report as a notice, where it is one. -/
def Report.notice? : Report → Option Notice
  | visited _ _ _ => none
  | leftUnbound source names =>
    some ⟨.warning, "Leaving '" ++ source ++ "' unbound: no scope in " ++ Text.quotedNames names ++
      " has it"⟩
  | contentRemoved collection kind =>
    some ⟨.warning, "Collection '" ++ collection ++ "' resolved to " ++ kind ++
      ", not a list; removing its content"⟩

/-- A walk over part of a document. -/
abbrev Walk (α : Type) := MarkupBinding.Walk Report BindError α

/-- What became of the stencil that an enclosing collection holds back. -/
inductive Held where
  /-- It is where it was, or there is none. -/
  | kept
  /-- It is out of the tree on its own, but whole. -/
  | detached
  /-- It is out of the tree together with its parent, and whole. -/
  | adrift
  /-- It is gone. -/
  | destroyed
  deriving DecidableEq, Repr

/-- The fate of a held stencil that lies under a place with the given fate, or under no place. -/
def Held.under (hold : Option Place) (fate : Held) : Held :=
  if hold.isSome then fate else kept

/-- The fate of a held stencil below an element whose children a text replaces. -/
def Held.replaced : Option Place → Held
  | none => kept
  | some (_ :: _ :: _) => adrift
  | some _ => detached

/-- A node that was walked, and the fate of the stencil held back below it. -/
structure Visited where
  node : Node
  held : Held

/-- Resolves a path for a binding: a value, nothing for a bare path that finds nothing, or a fault.
`source` is the text the path comes from. -/
def resolve (stack : Stack) (source : String) (path : Path) : Walk (Option Value) :=
  match stack.resolve path with
  | .ok value => .done (some value)
  | .error e =>
    if path.isDotted then .stop none (.resolution e)
    else .report none (.leftUnbound source stack.names)

/-- The children of an element after its text binding; `some` where the binding replaced them. -/
def boundText (stack : Stack) (tag : Tag) : Walk (Option (List Node)) :=
  match tag.mark? Mark.textContent with
  | none => .done none
  | some raw =>
    match Path.ofBinding raw with
    | .error e => .stop none (.expression e)
    | .ok path =>
      (resolve stack raw path).map (·.map fun value ↦ [.text .characters value.display])

/-- The text of template segments with the values of their placeholders; nothing where a
placeholder has no value. -/
def fillSegments (stack : Stack) (source : String) : TemplateText → Walk (Option String)
  | [] => .done (some "")
  | .literal text :: rest => (fillSegments stack source rest).map (·.map (text ++ ·))
  | .placeholder path _ :: rest =>
    (resolve stack source path).chain (fun _ ↦ none) fun
      | none => .done none
      | some value => (fillSegments stack source rest).map (·.map (value.display ++ ·))

/-- Carries out one attribute binding on a tag. -/
def bindAttribute (stack : Stack) (binding : String × String) (tag : Tag) : Walk Tag :=
  match TemplateText.parse binding.2 with
  | .error e => .stop tag (.expression e)
  | .ok segments =>
    (fillSegments stack binding.2 segments).map fun
      | some text => tag.set binding.1 text
      | none => tag

/-- Carries out the attribute bindings that a tag has at the outset. -/
def bindAttributes (stack : Stack) (tag : Tag) : Walk Tag :=
  .forEach (bindAttribute stack) tag.attributeBindings tag

/-- The stack for the children of a component. -/
def enter (stack : Stack) (tag : Tag) : Stack :=
  match tag.mark? Mark.component with
  | none => stack
  | some component =>
    if component == rootScope && stack.isRoot then stack
    else match stack.findProperty component with
      | none => stack
      | some (_, value) => stack.push component value

/-- The place to hold below child number `i`. -/
def holdBelow (i : Nat) : Option Place → Option Place
  | some (j :: place) => if i = j then some place else none
  | _ => none

/-- Whether the node itself is held back. -/
def isHeld (hold : Option Place) : Bool :=
  hold == some []

/-- Walks siblings, the first of which is child number `i`. -/
def visitChildren (visit : Option Place → Node → Walk Visited) (hold : Option Place) (i : Nat) :
    List Node → Walk (List Node × Held)
  | [] => .done ([], .kept)
  | n :: rest =>
    (visit (holdBelow i hold) n).chain (fun v ↦ (v.node :: rest, v.held)) fun v ↦
      (visitChildren visit hold (i + 1) rest).map fun (nodes, held) ↦
        (v.node :: nodes, if v.held = .kept then held else v.held)

/-- The items for a collection: those of a list, none where a bare path finds nothing, and no
answer where the value is not a list. -/
def itemsFor (stack : Stack) (raw : String) : Walk (Option (List Value)) :=
  match Path.ofBinding raw with
  | .error e => .stop none (.expression e)
  | .ok path =>
    (resolve stack raw path).chain (fun _ ↦ none) fun
      | none => .done (some [])
      | some (.list items) => .done (some items)
      | some other => .report none (.contentRemoved raw other.kind)

/-- The copy of a stencil that is bound for each item. -/
def copyOf : Node → Node
  | .element tag children => .element (tag.erase Mark.collectionItem) children
  | other => other

/-- The bound copies of a stencil, one per item in order. -/
def copies (visit : Stack → Node → Walk Visited) (stack : Stack) (stencil : Stencil) :
    List Value → Walk (List Node)
  | [] => .done []
  | item :: rest =>
    (visit (stack.push stencil.item item) (copyOf stencil.node)).chain (fun _ ↦ []) fun v ↦
      (copies visit stack stencil rest).map (v.node :: ·)

/-- Puts the copies in the place of the stencil. On a fault the stencil stays in front of the copies
made so far. -/
def fillIn (children : List Node) (stencil : Stencil) (bound : Walk (List Node)) :
    Walk (List Node) :=
  bound.chain (fun made ↦ Node.replaceAt (stencil.node :: made) children stencil.place)
    fun made ↦ .done (Node.replaceAt made children stencil.place)

/-- Fills a collection whose surroundings were bound. -/
def fill (visit : Stack → Node → Walk Visited) (stack : Stack) (stencil : Stencil)
    (items : List Value) (around : List Node × Held) : Walk (List Node) :=
  match around.2, items with
  | .kept, items => fillIn around.1 stencil (copies visit stack stencil items)
  | .adrift, items =>
    (copies visit stack stencil items).chain (fun _ ↦ around.1) fun _ ↦ .done around.1
  | _, [] => .stop around.1 (.lostStencil false)
  | .destroyed, _ :: _ => .stop around.1 (.lostStencil true)
  | .detached, item :: _ =>
    (copies visit stack stencil [item]).chain (fun _ ↦ around.1) fun _ ↦
      .stop around.1 (.lostStencil true)

/-- Expands the collection with the given tag and children. -/
def expand (visit : Stack → Option Place → Node → Walk Visited) (stack : Stack) (raw : String)
    (tag : Tag) (children : List Node) : Walk (List Node) :=
  match Stencil.of tag children with
  | .error e => .stop children (.structural e)
  | .ok stencil =>
    (itemsFor stack raw).chain (fun _ ↦ children) fun
      | none => .done []
      | some items =>
        (visitChildren (visit stack) (some stencil.place) 0 children).chain (·.1) fun around ↦
          fill (fun s n ↦ visit s none n) stack stencil items around

/-- Handles a collection, or else walks the children inside the component's scope. `hold` is the
place of the stencil held back below the element. -/
def visitContent (visit : Stack → Option Place → Node → Walk Visited) (stack : Stack)
    (hold : Option Place) (tag : Tag) (children : List Node) : Walk Visited :=
  match tag.mark? Mark.collection with
  | some raw =>
    (expand visit stack raw tag children).map fun children ↦
      ⟨.element tag children, .under hold .destroyed⟩
  | none =>
    (visitChildren (visit (enter stack tag)) hold 0 children).map fun (children, held) ↦
      ⟨.element tag children, held⟩

/-- Walks a node under a stack of scopes. `depth` bounds the levels of elements that are walked,
`hold` is the place of the stencil held back at or below the node. -/
def visit : Nat → Stack → Option Place → Node → Walk Visited
  | 0, _, _, node => .done ⟨node, .kept⟩
  | _ + 1, _, _, .text kind content => .done ⟨.text kind content, .kept⟩
  | depth + 1, stack, hold, .element tag children =>
    if isHeld hold then .done ⟨.element tag children, .kept⟩
    else
      (Walk.report () (.visited tag children stack)).chain
        (fun _ ↦ ⟨.element tag children, .kept⟩) fun _ ↦
      (boundText stack tag).chain (fun _ ↦ ⟨.element tag children, .kept⟩) fun replaced ↦
      let text := replaced.getD children
      (bindAttributes stack tag).chain (fun tag ↦ ⟨.element tag text, .kept⟩) fun bound ↦
      match replaced with
      | none => visitContent (visit depth) stack hold bound children
      | some text =>
        (visitContent (visit depth) stack none bound text).map fun v ↦
          ⟨v.node, .replaced hold⟩

end Binding

/-- The document with the input's switched off elements removed and the input bound into the rest,
as far as the walk got. -/
def Document.bind (d : Document) (input : Value) : Binding.Walk Document :=
  let filtered := (d.filterToggles input).1
  (Binding.visitChildren (Binding.visit (Document.height filtered) (.root input)) none 0
    filtered).map (·.1)

/-- The notices of a walk: those of its reports, and one for the path that stopped it. -/
def Binding.notices {α : Type} (w : Binding.Walk α) : List Notice :=
  w.reports.filterMap Binding.Report.notice? ++
    match w.fault with
    | some (.resolution e) => [⟨.error, "Render aborted: " ++ e.message⟩]
    | _ => []

/-- The markup of a document with the input bound into it. -/
def Document.render (d : Document) (input : Value) : Except BindError String :=
  (d.bind input).result.map Document.print

end MarkupBinding
