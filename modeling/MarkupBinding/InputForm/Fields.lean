import MarkupBinding.InputForm.Drawing
import MarkupBinding.InputForm.Outline

/-!
# The fields of an input form

Draws an input form for a schema document and answers the input document that the user has entered.
Each property is a text field, each component a container of its own, and each list a container with
its rows and two buttons that add and remove one. The number of rows is remembered from drawing to
drawing under a key of the list; the first drawing takes it from the defaults. The flags of the
schema are boxes to tick below all that.

Defaults may have any shape: what does not fit a component counts as no default.
-/

set_option autoImplicit false
set_option relaxedAutoImplicit false

namespace MarkupBinding.InputForm

/-- The remembered numbers of rows, by key. -/
abbrev RowCounts := List (String × Int)

/-- The key under which the number of rows of a list is remembered. -/
def countKey (key : String) : String := key ++ "#count"

/-- The key of the button that adds a row. -/
def addKey (key : String) : String := key ++ "#add"

/-- The key of the button that removes a row. -/
def removeKey (key : String) : String := key ++ "#remove"

/-- The key of a row. -/
def rowKey (key : String) (index : Nat) : String := key ++ "[" ++ toString index ++ "]"

/-- The key of a part of a component. -/
def partKey (key name : String) : String := key ++ "." ++ name

/-- The key of the box of a flag. -/
def flagKey (flag : String) : String := "toggle." ++ flag

/-- The default of a part, which must be asked of an object. -/
def defaultOf (defaults : Value) (name : String) : Drawing RowCounts (Option Value) :=
  match defaults with
  | .object fields => pure (fields.lookup name)
  | _ => Drawing.fail .notObject

/-- The value where it is an object, else the empty object. -/
def objectOr : Option Value → Value
  | some (.object fields) => .object fields
  | _ => .object []

/-- The value where it counts as true, else the empty list. -/
def rowsOr (value : Option Value) : Value :=
  if (value.getD .null).holds then value.getD .null else .list []

/-- Draws the text fields of properties. -/
def drawProperties (key : String) (defaults : Value) :
    List String → Drawing RowCounts (List (String × Value))
  | [] => pure []
  | name :: rest => do
    let default ← defaultOf defaults name
    let text ← Drawing.textField name ((default.map Value.plainText).getD "") (partKey key name)
    let entries ← drawProperties key defaults rest
    pure ((name, .string text) :: entries)

/-- The default of a row. -/
def rowDefault (defaults : Value) (index : Nat) : Drawing RowCounts Value := do
  let count ← Drawing.demand .notCountable defaults.count?
  if index < count then
    match defaults with
    | .list items => pure (objectOr items[index]?)
    | .object _ => Drawing.fail (.noItem index)
    | _ => pure (.object [])
  else pure (.object [])

/-- Draws so many rows from an index on. -/
def drawRows (itemName : String) (defaults : Value)
    (row : Nat → Value → Drawing RowCounts Value) (index : Nat) :
    Nat → Drawing RowCounts (List Value)
  | 0 => pure []
  | more + 1 => do
    let default ← rowDefault defaults index
    Drawing.say .caption (itemName ++ " " ++ toString (index + 1))
    let first ← row index default
    let others ← drawRows itemName defaults row (index + 1) more
    pure (first :: others)

/-- Takes the number of rows from the defaults where none is remembered. -/
def startCount (key : String) (defaults : Value) : Drawing RowCounts Unit := do
  let counts ← Drawing.state
  if Keyed.has (countKey key) counts then pure ()
  else
    let count ← Drawing.demand .notCountable defaults.count?
    Drawing.change (Keyed.set (countKey key) (count : Int))

/-- The remembered number of rows. -/
def rowCount (key : String) : Drawing RowCounts Int := do
  let counts ← Drawing.state
  pure ((counts.lookup (countKey key)).getD 0)

/-- Changes the remembered number of rows and asks for the form to be drawn anew. -/
def changeCount (key : String) (change : Int) : Drawing RowCounts Unit := do
  let count ← rowCount key
  Drawing.change (Keyed.set (countKey key) (count + change))
  Drawing.interrupt .rerun

/-- Draws a list with its rows and the buttons that add and remove one. -/
def drawList (name key itemName : String) (defaults : Value)
    (row : Nat → Value → Drawing RowCounts Value) : Drawing RowCounts Value := do
  startCount key defaults
  Drawing.draw .container
  Drawing.say .markdown ("**" ++ name ++ "** (list of " ++ itemName ++ ")")
  let count ← rowCount key
  let items ← drawRows itemName defaults row 0 count.toNat
  if ← Drawing.button ("➕ Add " ++ itemName) (addKey key) false then changeCount key 1
  let count ← rowCount key
  if ← Drawing.button ("➖ Remove " ++ itemName) (removeKey key) (count == 0) then
    changeCount key (-1)
  pure (.list items)

/-- Draws a component, either as a list or in a container of its own; `inner` draws the fields under
a key. -/
def drawComponent (name key : String) (default : Option Value)
    (inner : String → Value → Drawing RowCounts Value) : Outline → Drawing RowCounts Value
  | .misfit => Drawing.fail .notObject
  | .node _ _ true itemName =>
    drawList name key itemName (rowsOr default) fun index row ↦ inner (rowKey key index) row
  | .node _ _ false _ => do
    Drawing.draw .container
    Drawing.say .markdown ("**" ++ name ++ "**")
    inner key (objectOr default)

mutual

/-- Draws the fields of a node and answers its entries. A component of a property's name takes the
property's place. -/
def drawNode (key : String) (defaults : Value) :
    Outline → Drawing RowCounts (List (String × Value))
  | .misfit => Drawing.fail .notObject
  | .node properties components _ _ => do
    let names ← Drawing.demand .notCountable properties
    let entries ← drawProperties key defaults names
    drawComponents key defaults (Keyed.ofPairs entries) components

/-- Draws the components of a node, which must be given as an object. -/
def drawComponents (key : String) (defaults : Value) (entries : List (String × Value)) :
    Option (List (String × Outline)) → Drawing RowCounts (List (String × Value))
  | none => Drawing.fail .notObject
  | some components => drawEach key defaults entries components

/-- Draws components one below the other and sets their entries. -/
def drawEach (key : String) (defaults : Value) (entries : List (String × Value)) :
    List (String × Outline) → Drawing RowCounts (List (String × Value))
  | [] => pure entries
  | (name, outline) :: rest => do
    let default ← defaultOf defaults name
    let inner := fun key defaults ↦ do
      let entries ← drawNode key defaults outline
      pure (.object entries)
    let value ← drawComponent name (partKey key name) default inner outline
    drawEach key defaults (Keyed.set name value entries) rest

end

/-- Whether the box of a flag is ticked at first: it is unless the default is `false`. -/
def tickedAtFirst : Option Value → Bool
  | some (.bool false) => false
  | _ => true

/-- Draws the boxes of flags. -/
def drawFlags (defaults : Value) : List String → Drawing RowCounts (List (String × Value))
  | [] => pure []
  | flag :: rest => do
    let default ← defaultOf defaults flag
    let ticked ← Drawing.checkbox flag (tickedAtFirst default) (flagKey flag)
    let entries ← drawFlags defaults rest
    pure ((flag, ticked) :: entries)

/-- The name of the component whose entries stand in the input document itself. -/
def rootName : String := "root"

/-- The flags that the outermost node lists. -/
def flagsOf : Value → Value
  | .object fields => (fields.lookup "toggles").getD .null
  | _ => .null

/-- Draws the boxes of the outermost node's flags, if it has any. -/
def drawSections (node defaults : Value) : Drawing RowCounts (List (String × Value)) :=
  if (flagsOf node).holds then do
    Drawing.say .subheader "Sections"
    let flags ← Drawing.demand .notCountable (flagsOf node).names?
    drawFlags defaults flags
  else pure []

/-- Draws the form for a schema document and answers the entries of the input document. The boxes,
which come behind all lists, answer what `heed` makes of the answers and the numbers of rows. -/
def drawFormBy (heed : RowCounts → Answers → Answers) (schema defaults : Value) :
    Drawing RowCounts (List (String × Value)) :=
  match schema with
  | .object [] => Drawing.fail .noComponent
  | .object ((name, node) :: _) => do
    let inner ← if name == rootName then pure defaults
      else (return (← defaultOf defaults name).getD (.object []))
    let entries ← drawNode name inner (.ofDocument node)
    let flags ← (drawSections node defaults).heeding heed
    pure (Keyed.update (if name == rootName then entries else [(name, .object entries)]) flags)
  | _ => Drawing.fail .notObject

/-- Draws the form for a schema document with controls that answer what the user has entered. -/
def drawForm (schema defaults : Value) : Drawing RowCounts (List (String × Value)) :=
  drawFormBy (fun _ answers ↦ answers) schema defaults

end MarkupBinding.InputForm
