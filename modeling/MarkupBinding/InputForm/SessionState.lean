import MarkupBinding.InputForm.Fields

/-!
# Session state

The toolkit that draws a form keeps one table for a session: the form remembers its numbers of rows
there, and what a control with a key holds is the entry under this key. Assumed of the toolkit is
that a box answers the entry as it stands there, whoever made it, and that the entry is replaced
before the next drawing when the user changes the box.

So a box with the key of a list shows and answers the number of rows, and changing the box changes
the number: a box that is ticked counts as one row and one that is not as none. `SessionState.draw`
draws a form over such a table. Text fields are not followed here: a text field and a list under one
key make the drawing end in a fault, whichever comes first.
-/

set_option autoImplicit false
set_option relaxedAutoImplicit false

namespace MarkupBinding.InputForm

/-- What the table holds under the key of a list. -/
inductive Held where
  /-- A number of rows that the form has stored. -/
  | rows (count : Int)
  /-- What the user has left in a box of this key. -/
  | ticked (value : Bool)
  deriving DecidableEq, Repr

/-- The entry as a number of rows. -/
def Held.count : Held → Int
  | rows count => count
  | ticked value => if value then 1 else 0

/-- The entries of a session's table under keys of lists. -/
abbrev SessionState := List (String × Held)

namespace SessionState

/-- The entries as numbers of rows. -/
def counts (state : SessionState) : RowCounts :=
  state.map fun (key, held) ↦ (key, held.count)

/-- The numbers that the form has stored. -/
def numbers (state : SessionState) : List (String × Int) :=
  state.filterMap fun
    | (key, .rows count) => some (key, count)
    | (_, .ticked _) => none

/-- What the user has left in boxes. -/
def ticks (state : SessionState) : List (String × Bool) :=
  state.filterMap fun
    | (key, .ticked value) => some (key, value)
    | (_, .rows _) => none

/-- The table after the user has changed boxes of the given keys. -/
def enter (boxes : List String) (answers : Answers) (state : SessionState) : SessionState :=
  state.map fun (key, held) ↦
    match boxes.contains key, answers.ticks.lookup key with
    | true, some value => (key, .ticked value)
    | _, _ => (key, held)

/-- The table with numbers of rows stored; an entry that has the number already stays as it is. -/
def store (counts : RowCounts) (state : SessionState) : SessionState :=
  counts.map fun (key, count) ↦
    match state.lookup key with
    | some held => (key, if held.count = count then held else .rows count)
    | none => (key, .rows count)

/-- What controls answer whose keys the table has entries for. -/
def heed (state : SessionState) (counts : RowCounts) (answers : Answers) : Answers :=
  let now := state.store counts
  { answers with ticks := answers.ticks ++ now.ticks, numbers := now.numbers }

/-- The keys of the boxes in the form for a schema document. -/
def boxKeys : Value → List String
  | .object ((_, node) :: _) =>
    if (flagsOf node).holds then ((flagsOf node).names?.getD []).map flagKey else []
  | _ => []

/-- Draws the form for a schema document over a table, after the user has changed its boxes. Numbers
are held by the table alone. -/
def draw (schema defaults : Value) (answers : Answers) (state : SessionState) :
    Outcome SessionState (List (String × Value)) :=
  let entered := state.enter (boxKeys schema) answers
  let pressed := { answers with numbers := [] }
  let outcome := drawFormBy entered.heed schema defaults pressed entered.counts
  ⟨entered.store outcome.state, outcome.drawn, outcome.result⟩

end SessionState

end MarkupBinding.InputForm
