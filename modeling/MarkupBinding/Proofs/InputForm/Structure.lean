import MarkupBinding.Proofs.InputForm.Shape
import MarkupBinding.Proofs.InputForm.Unanswered

/-!
# How an input form is put together

A form for a schema consists of the fields of its outermost component and the boxes of its flags
(`exists_drawFormBy_eq`); the fields of a component are the text fields of its properties and the
parts for its nested components (`drawNode_outline`), each an object of its own or a list
(`drawComponent_outline`); and a list consists of its rows and two buttons (`drawList_eq`). Only the
outermost component can be given defaults that are no object, and then has no fields or none that
can be drawn (`drawNode_cases`).

What the single parts come to is said for all that may be entered: the texts of properties
(`answered_drawProperties`), the boxes of flags (`answered_drawFlags`), and the numbers of rows,
which are read off or stored (`answered_startCount`) and changed by the buttons
(`answered_listButtons`).
-/

set_option autoImplicit false
set_option relaxedAutoImplicit false

namespace MarkupBinding.InputForm

/-! ### Text fields and boxes -/

/-- The text that the user has entered for a property, else the one that its field holds at
first. -/
def enteredText (answers : Answers) (key : String) (fields : List (String × Value))
    (name : String) : String :=
  (answers.texts.lookup (partKey key name)).getD (startText fields name)

/-- What the box of a flag answers. -/
def enteredFlag (answers : Answers) (fields : List (String × Value)) (flag : String) : Value :=
  answers.box (flagKey flag) (tickedAtFirst (fields.lookup flag))

section Entered

variable {answers : Answers} {counts : RowCounts} (fields : List (String × Value))

theorem answered_drawProperties (key : String) (names : List String) :
    (drawProperties key (.object fields) names).answered answers counts =
      (.ok (names.map fun name ↦ (name, .string (enteredText answers key fields name))),
        counts) := by
  induction names with
  | nil => rfl
  | cons name rest ih =>
    simp [drawProperties, defaultOf, ih, enteredText, startText, Except.map]

theorem answered_drawFlags (flags : List String) :
    (drawFlags (.object fields) flags).answered answers counts =
      (.ok (flags.map fun flag ↦ (flag, enteredFlag answers fields flag)), counts) := by
  induction flags with
  | nil => rfl
  | cons flag rest ih => simp [drawFlags, defaultOf, ih, enteredFlag, Except.map]

/-- Boxes that answer the same are drawn the same. -/
theorem drawFlags_congr {others : Answers} :
    ∀ {flags : List String}, (∀ flag ∈ flags, ∀ value,
      others.box (flagKey flag) value = answers.box (flagKey flag) value) → ∀ counts,
        drawFlags (.object fields) flags others counts =
          drawFlags (.object fields) flags answers counts
  | [], _, _ => rfl
  | flag :: rest, h, counts => by
    obtain ⟨hflag, hrest⟩ := List.forall_mem_cons.1 h
    rw [drawFlags, defaultOf, pure_bind]
    refine Drawing.bind_congr ?_ fun _ ↦
      Drawing.bind_congr (drawFlags_congr hrest _) fun _ ↦ rfl
    rw [Drawing.checkbox, Drawing.checkbox, hflag]

end Entered

/-! ### Lists -/

/-- A button that changes the number of rows. -/
def countButton (label key list : String) (disabled : Bool) (change : Int) :
    Drawing RowCounts Unit := do
  if ← Drawing.button label key disabled then changeCount list change

/-- The buttons below a list, which add and remove a row. -/
def listButtons (key itemName : String) : Drawing RowCounts Unit := do
  countButton ("➕ Add " ++ itemName) (addKey key) key false 1
  let count ← rowCount key
  countButton ("➖ Remove " ++ itemName) (removeKey key) key (count == 0) (-1)

/-- The buttons are drawn below the rows, and what is entered in the rows stands. -/
theorem drawList_eq (name key itemName : String) (defaults : Value)
    (row : Nat → Value → Drawing RowCounts Value) :
    drawList name key itemName defaults row = (do
      startCount key defaults
      Drawing.draw .container
      Drawing.say .markdown ("**" ++ name ++ "** (list of " ++ itemName ++ ")")
      let count ← rowCount key
      let items ← drawRows itemName defaults row 0 count.toNat
      listButtons key itemName
      pure (.list items)) := by
  have hpressed : ∀ (isPressed : Bool) (change : Int) (next : Drawing RowCounts Value),
      (if isPressed then (do changeCount key change; next) else next) =
        (do (if isPressed then changeCount key change else pure ()); next) := by
    intro isPressed change next
    cases isPressed <;> simp
  simp only [drawList, listButtons, countButton, bind_assoc]
  refine bind_congr fun _ ↦ bind_congr fun _ ↦ bind_congr fun _ ↦ bind_congr fun count ↦
    bind_congr fun items ↦ bind_congr fun isAdded ↦ ?_
  rw [← hpressed]
  simp only [← hpressed]

theorem objectOr_eq (value : Option Value) :
    objectOr value = .object (value.getD .null).entries := by
  cases value with
  | none => rfl
  | some value => cases value <;> rfl

/-- A row is drawn with an object as default, or not at all. -/
theorem rowDefault_cases (defaults : Value) (index : Nat) :
    (∃ fields, rowDefault defaults index = pure (.object fields)) ∨
      ∃ fault, rowDefault defaults index = Drawing.fail fault := by
  unfold rowDefault
  cases hcount : defaults.count? with
  | none => exact Or.inr ⟨.notCountable, rfl⟩
  | some count =>
    have hdemand : (Drawing.demand .notCountable (some count) : Drawing RowCounts Nat) =
      pure count := rfl
    rw [hdemand, pure_bind]
    by_cases hindex : index < count
    · rw [if_pos hindex]
      cases defaults with
      | object fields => exact Or.inr ⟨.noItem index, rfl⟩
      | list items => exact Or.inl ⟨_, congrArg pure (objectOr_eq _)⟩
      | null | bool | int | float | string | record => exact Or.inl ⟨[], rfl⟩
    · rw [if_neg hindex]
      exact Or.inl ⟨[], rfl⟩

/-- A list that is met for the first time has as many rows as its default has entries, items or
characters. -/
theorem answered_startCount (key : String) (defaults : Value) (answers : Answers)
    (counts : RowCounts) :
    (startCount key defaults).answered answers counts =
      if Keyed.has (countKey key) counts then (.ok (), counts)
      else match defaults.count? with
        | some rows => (.ok (), Keyed.set (countKey key) (rows : Int) counts)
        | none => (.error (.fault .notCountable), counts) := by
  rw [startCount, Drawing.answered_bind, Drawing.answered_state]
  dsimp only
  split
  · rfl
  · cases defaults.count? <;> simp

@[simp] theorem answered_rowCount (key : String) (answers : Answers) (counts : RowCounts) :
    (rowCount key).answered answers counts =
      (.ok ((counts.lookup (countKey key)).getD 0), counts) := by
  simp [rowCount, Except.map]

theorem answered_changeCount (key : String) (change : Int) (answers : Answers)
    (counts : RowCounts) :
    (changeCount key change).answered answers counts =
      (.error .rerun,
        Keyed.set (countKey key) ((counts.lookup (countKey key)).getD 0 + change) counts) := by
  simp [changeCount]

/-- A pressed button changes the number of rows and has the form drawn anew. -/
theorem answered_countButton (label key list : String) (disabled : Bool) (change : Int)
    (answers : Answers) (counts : RowCounts) :
    (countButton label key list disabled change).answered answers counts =
      if !disabled && (answers.ticks.lookup key).getD false then
        (.error .rerun,
          Keyed.set (countKey list) ((counts.lookup (countKey list)).getD 0 + change) counts)
      else (.ok (), counts) := by
  rw [countButton, Drawing.answered_bind, Drawing.answered_button]
  dsimp only
  split
  · exact answered_changeCount list change answers counts
  · rfl

/-- A row can be removed only where there are some. -/
theorem answered_listButtons (key itemName : String) (answers : Answers) (counts : RowCounts) :
    (listButtons key itemName).answered answers counts =
      if (answers.ticks.lookup (addKey key)).getD false then
        (.error .rerun,
          Keyed.set (countKey key) ((counts.lookup (countKey key)).getD 0 + 1) counts)
      else if (counts.lookup (countKey key)).getD 0 ≠ 0 ∧
          (answers.ticks.lookup (removeKey key)).getD false then
        (.error .rerun,
          Keyed.set (countKey key) ((counts.lookup (countKey key)).getD 0 + -1) counts)
      else (.ok (), counts) := by
  simp only [listButtons, Drawing.answered_bind, answered_countButton, answered_rowCount]
  cases (answers.ticks.lookup (addKey key)).getD false <;> simp

/-! ### Components -/

theorem drawComponent_outline (name key : String) (default : Option Value)
    (inner : String → Value → Drawing RowCounts Value) (c : Component) :
    drawComponent name key default inner c.outline =
      if c.array then
        drawList name key (c.itemName.getD Outline.plainItemName) (rowsOr default) fun index row ↦
          inner (rowKey key index) row
      else (do
        Drawing.draw .container
        Drawing.say .markdown ("**" ++ name ++ "**")
        inner key (objectOr default)) := by
  obtain ⟨properties, components, array, itemName⟩ := c
  cases array <;> rfl

/-- The fields of a component are the text fields of its properties, and then the parts for its
nested components. -/
theorem drawNode_outline (c : Component) (key : String) (fields : List (String × Value)) :
    drawNode key (.object fields) c.outline = (do
      let entries ← drawProperties key (.object fields) (Keyed.keys c.properties)
      let values ← drawValues key fields (Component.outlines c.components)
      pure (Keyed.update (Keyed.ofPairs entries) values)) := by
  obtain ⟨properties, components, array, itemName⟩ := c
  rw [Component.outline, drawNode]
  simp only [drawComponents, drawEach_eq]
  rfl

/-- From defaults that are no object nothing can be drawn but a component that takes nothing. -/
theorem drawNode_of_not_object (c : Component) (key : String) {defaults : Value}
    (h : ∀ fields, defaults ≠ .object fields) :
    drawNode key defaults c.outline = if c.isEmpty then pure [] else Drawing.fail .notObject := by
  have hdefault : ∀ name, defaultOf defaults name = Drawing.fail .notObject := by
    intro name
    cases defaults with
    | object fields => exact absurd rfl (h fields)
    | null | bool | int | float | string | list | record => rfl
  have hsome : ∀ names : List String,
      (Drawing.demand .notCountable (some names) : Drawing RowCounts _) = pure names := fun _ ↦ rfl
  obtain ⟨properties, components, array, itemName⟩ := c
  rw [Component.outline, drawNode, hsome, pure_bind]
  cases properties with
  | cons property rest =>
    simp [Keyed.keys, drawProperties, hdefault, Drawing.fail_bind, Component.isEmpty]
  | nil =>
    cases components with
    | nil => rfl
    | cons pair rest =>
      simp [Keyed.keys, drawProperties, drawComponents, Component.outlines, drawEach, hdefault,
        Drawing.fail_bind, Component.isEmpty]

/-- A component is drawn with an object as defaults, or it has nothing to draw, or it cannot be
drawn.
-/
theorem drawNode_cases (c : Component) (key : String) (defaults : Value) :
    (∃ fields, defaults = .object fields) ∨
      (c.isEmpty = true ∧ drawNode key defaults c.outline = pure []) ∨
        drawNode key defaults c.outline = Drawing.fail .notObject := by
  by_cases hobject : ∃ fields, defaults = .object fields
  · exact Or.inl hobject
  · have hdraw := drawNode_of_not_object c key fun fields heq ↦ hobject ⟨fields, heq⟩
    by_cases hempty : c.isEmpty = true
    · exact Or.inr (Or.inl ⟨hempty, hdraw.trans (if_pos hempty)⟩)
    · exact Or.inr (Or.inr (hdraw.trans (if_neg hempty)))

/-! ### Forms -/

/-- What the fields of the outermost component are drawn with: the defaults, or what these hold
under its name. -/
def rootDefaults (s : Schema) (fields : List (String × Value)) : Value :=
  if s.name == rootScope then .object fields else (fields.lookup s.name).getD (.object [])

theorem rootDefaults_nil (s : Schema) : rootDefaults s [] = .object [] := by
  rw [rootDefaults]
  split <;> rfl

/-- The entries of an input with those of the outermost component. -/
def rootEntries (s : Schema) (entries : List (String × Value)) : List (String × Value) :=
  if s.name == rootScope then entries else [(s.name, .object entries)]

/-- A form consists of the fields of the outermost component and the boxes of the flags, which may
have a heading, whatever the boxes make of the answers. -/
theorem exists_drawFormBy_eq {s : Schema} {document : Value} (hdocument : s.IsDrawnFrom document) :
    ∃ heading : Drawing RowCounts Unit,
      (heading = pure () ∨ heading = Drawing.say .subheader "Sections") ∧
      ∀ heed fields, drawFormBy heed document (.object fields) = (do
        let entries ← drawNode s.name (rootDefaults s fields) s.root.outline
        let flags ← (do heading; drawFlags (.object fields) s.toggles).heeding heed
        pure (Keyed.update (rootEntries s entries) flags)) := by
  obtain ⟨node, rest, rfl, houtline, hflags⟩ := hdocument
  have hform : ∀ heed fields, drawFormBy heed (.object ((s.name, node) :: rest))
      (.object fields) = (do
        let entries ← drawNode s.name (rootDefaults s fields) s.root.outline
        let flags ← (drawSections node (.object fields)).heeding heed
        pure (Keyed.update (rootEntries s entries) flags)) := by
    intro heed fields
    rw [drawFormBy, houtline, rootDefaults]
    cases hroot : s.name == rootScope with
    | true =>
      have hname : (s.name == rootName) = true := hroot
      simp only [rootEntries, hname, hroot, if_true, pure_bind]
    | false =>
      have hname : (s.name == rootName) = false := hroot
      simp only [rootEntries, hname, hroot, Bool.false_eq_true, if_false, defaultOf, pure_bind]
  by_cases hholds : (flagsOf node).holds = true
  · rw [if_pos hholds] at hflags
    refine ⟨_, Or.inr rfl, fun heed fields ↦ ?_⟩
    rw [hform, drawSections, if_pos hholds, hflags]
    rfl
  · rw [if_neg hholds] at hflags
    refine ⟨_, Or.inl rfl, fun heed fields ↦ ?_⟩
    rw [hform, drawSections, if_neg hholds, ← Option.some.inj hflags]
    rfl

theorem exists_drawForm_eq {s : Schema} {document : Value} (hdocument : s.IsDrawnFrom document) :
    ∃ heading : Drawing RowCounts Unit,
      (heading = pure () ∨ heading = Drawing.say .subheader "Sections") ∧
      ∀ fields, drawForm document (.object fields) = (do
        let entries ← drawNode s.name (rootDefaults s fields) s.root.outline
        let flags ← (do heading; drawFlags (.object fields) s.toggles)
        pure (Keyed.update (rootEntries s entries) flags)) := by
  obtain ⟨heading, hheading, hform⟩ := exists_drawFormBy_eq hdocument
  exact ⟨heading, hheading, hform fun _ answers ↦ answers⟩

end MarkupBinding.InputForm
