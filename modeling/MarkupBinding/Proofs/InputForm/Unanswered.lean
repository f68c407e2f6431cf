import MarkupBinding.Proofs.InputForm.Answered

/-!
# Forms that nobody has filled in

While the user has entered nothing, every control answers its default and no button is pressed.
`Drawing.unanswered` is what a drawing then comes to: its result and its state. Drawings one below
the other come to one after the other (`Drawing.unanswered_bind`), and what only shows something
comes to nothing.

Text fields and boxes then give what the defaults hold (`unanswered_drawProperties`,
`unanswered_drawFlags`), and a list gives so many rows as are remembered for its key
(`unanswered_drawList`); the numbers that are remembered by the key of their list are `remembered`.
The components of a node may be drawn before any is set (`drawEach_eq`).
-/

set_option autoImplicit false
set_option relaxedAutoImplicit false

namespace MarkupBinding.InputForm

namespace Drawing

variable {σ α β : Type}

/-- The result and the state that a drawing comes to if the user has entered nothing. -/
def unanswered (d : Drawing σ α) (s : σ) : Except Interruption α × σ :=
  ((d .none s).result, (d .none s).state)

@[simp] theorem unanswered_pure (value : α) (s : σ) :
    (pure value : Drawing σ α).unanswered s = (.ok value, s) := rfl

/-- A drawing below another one goes on with its value and its state, unless it was cut short. -/
@[simp] theorem unanswered_bind (d : Drawing σ α) (next : α → Drawing σ β) (s : σ) :
    (d >>= next).unanswered s =
      match d.unanswered s with
      | (.ok value, t) => (next value).unanswered t
      | (.error interruption, t) => (.error interruption, t) :=
  answered_bind d next

@[simp] theorem unanswered_map (f : α → β) (d : Drawing σ α) (s : σ) :
    (f <$> d).unanswered s = ((d.unanswered s).1.map f, (d.unanswered s).2) :=
  answered_map f d

/-- What is made of a drawing's value is there if the value is. -/
theorem unanswered_map_eq_ok_iff {d : Drawing σ α} {f : α → β} {s after : σ} {result : β} :
    (f <$> d).unanswered s = (.ok result, after) ↔
      ∃ value, d.unanswered s = (.ok value, after) ∧ f value = result :=
  answered_map_eq_ok_iff

/-- What is made of the values of two drawings, one below the other, is there if both values are. -/
theorem unanswered_both_eq_ok_iff {γ : Type} {d : Drawing σ α} {b : Drawing σ β} {f : α → β → γ}
    {s after : σ} {result : γ} :
    (do let first ← d
        let second ← b
        pure (f first second)).unanswered s = (.ok result, after) ↔
      ∃ first middle second, d.unanswered s = (.ok first, middle) ∧
        b.unanswered middle = (.ok second, after) ∧ f first second = result :=
  answered_both_eq_ok_iff

@[simp] theorem unanswered_draw (thing : Drawn) (s : σ) :
    (draw thing : Drawing σ Unit).unanswered s = (.ok (), s) := rfl

@[simp] theorem unanswered_say (tone : Tone) (text : String) (s : σ) :
    (say tone text : Drawing σ Unit).unanswered s = (.ok (), s) := rfl

@[simp] theorem unanswered_state (s : σ) : (state : Drawing σ σ).unanswered s = (.ok s, s) := rfl

@[simp] theorem unanswered_change (f : σ → σ) (s : σ) :
    (change f).unanswered s = (.ok (), f s) := rfl

@[simp] theorem unanswered_demand_some (fault : DrawingFault) (value : α) (s : σ) :
    (demand fault (some value) : Drawing σ α).unanswered s = (.ok value, s) := rfl

@[simp] theorem unanswered_textField (label value key : String) (s : σ) :
    (textField label value key).unanswered s = (.ok value, s) := rfl

@[simp] theorem unanswered_checkbox (label : String) (value : Bool) (key : String) (s : σ) :
    (checkbox label value key).unanswered s = (.ok (.bool value), s) := rfl

@[simp] theorem unanswered_button (label key : String) (disabled : Bool) (s : σ) :
    (button label key disabled).unanswered s = (.ok false, s) := by
  simp [unanswered, button, Answers.none]

end Drawing

/-! ### Text fields and boxes -/

/-- The text that the field of a property holds at first. -/
def startText (fields : List (String × Value)) (name : String) : String :=
  ((fields.lookup name).map Value.plainText).getD ""

/-- The entries that the fields of properties give at first. -/
def startEntries (fields : List (String × Value)) (names : List String) : List (String × Value) :=
  names.map fun name ↦ (name, .string (startText fields name))

theorem lookup_ofPairs_startEntries (fields : List (String × Value)) (names : List String)
    (name : String) :
    (Keyed.ofPairs (startEntries fields names)).lookup name =
      if name ∈ names then some (.string (startText fields name)) else none :=
  Keyed.lookup_update_map [] names _ name

theorem unanswered_drawProperties (key : String) (fields : List (String × Value))
    (names : List String) (counts : RowCounts) :
    (drawProperties key (.object fields) names).unanswered counts =
      (.ok (startEntries fields names), counts) := by
  induction names with
  | nil => rfl
  | cons name rest ih =>
    simp [drawProperties, defaultOf, ih, startEntries, startText, Except.map]

theorem unanswered_drawFlags (fields : List (String × Value)) (flags : List String)
    (counts : RowCounts) :
    (drawFlags (.object fields) flags).unanswered counts =
      (.ok (flags.map fun flag ↦ (flag, .bool (tickedAtFirst (fields.lookup flag)))), counts) := by
  induction flags with
  | nil => rfl
  | cons flag rest ih => simp [drawFlags, defaultOf, ih, Except.map]

/-! ### Numbers of rows -/

theorem countKey_injective : Function.Injective countKey := by
  intro key other h
  have hlists := congrArg String.toList h
  rw [countKey, countKey, String.toList_append, String.toList_append] at hlists
  exact String.toList_injective (List.append_cancel_right hlists)

/-- The number of rows that is remembered for the key of a list. -/
def remembered (counts : RowCounts) (key : String) : Option Nat :=
  (counts.lookup (countKey key)).map Int.toNat

/-- The numbers after a list has been met: its own is new only if none is remembered. -/
def started (key : String) (rows : Nat) (counts : RowCounts) : RowCounts :=
  if Keyed.has (countKey key) counts then counts
  else Keyed.set (countKey key) (rows : Int) counts

theorem remembered_started_self (key : String) (rows : Nat) (counts : RowCounts) :
    remembered (started key rows counts) key = some ((remembered counts key).getD rows) := by
  unfold started remembered
  cases hfound : counts.lookup (countKey key) with
  | some count =>
    have hhas : Keyed.has (countKey key) counts = true :=
      (Keyed.has_eq_true_iff _ _).2 (Keyed.mem_keys_of_lookup hfound)
    rw [if_pos hhas, hfound]
    rfl
  | none =>
    have hnot : ¬ Keyed.has (countKey key) counts = true := fun hhas ↦
      Keyed.not_mem_keys_of_lookup hfound ((Keyed.has_eq_true_iff _ _).1 hhas)
    rw [if_neg hnot, Keyed.lookup_set_self]
    rfl

theorem remembered_started_of_ne {key other : String} (h : other ≠ key) (rows : Nat)
    (counts : RowCounts) :
    remembered (started key rows counts) other = remembered counts other := by
  unfold started remembered
  split
  · rfl
  · rw [Keyed.lookup_set_of_ne (countKey_injective.ne h)]

theorem unanswered_startCount (key : String) (items : List Value) (counts : RowCounts) :
    (startCount key (.list items)).unanswered counts =
      (.ok (), started key items.length counts) := by
  unfold startCount started
  split <;> simp [*, Value.count?]

theorem unanswered_rowCount (key : String) (counts : RowCounts) :
    (rowCount key).unanswered counts = (.ok ((counts.lookup (countKey key)).getD 0), counts) := by
  simp [rowCount, Except.map]

theorem rowDefault_list (items : List Value) (index : Nat) :
    rowDefault (.list items) index = pure (objectOr items[index]?) := by
  have hcount : (Drawing.demand .notCountable (Value.list items).count? : Drawing RowCounts Nat) =
      pure items.length := rfl
  rw [rowDefault, hcount, pure_bind]
  split
  · rfl
  · next hindex => rw [List.getElem?_eq_none (by omega)]; rfl

/-- A character of a text gives a row no defaults. -/
theorem rowDefault_string (s : String) (index : Nat) :
    rowDefault (.string s) index = pure (.object []) := by
  have hcount : (Drawing.demand .notCountable (Value.string s).count? : Drawing RowCounts Nat) =
      pure s.length := rfl
  unfold rowDefault
  rw [hcount, pure_bind]
  exact ite_self _

/-- A list gives so many rows as are remembered for its key, else as its default has. -/
theorem unanswered_drawList (name key itemName : String) (items : List Value)
    (row : Nat → Value → Drawing RowCounts Value) (counts : RowCounts) :
    (drawList name key itemName (.list items) row).unanswered counts =
      (do let rows ← drawRows itemName (.list items) row 0
            ((remembered counts key).getD items.length)
          pure (Value.list rows)).unanswered (started key items.length counts) := by
  have hcount : (((started key items.length counts).lookup (countKey key)).getD 0).toNat =
      (remembered counts key).getD items.length := by
    have hself := remembered_started_self key items.length counts
    rw [remembered, Option.map_eq_some_iff] at hself
    obtain ⟨count, hlookup, hcount⟩ := hself
    rw [hlookup, Option.getD_some, hcount]
  simp only [drawList, Drawing.unanswered_bind, unanswered_startCount, Drawing.unanswered_draw,
    Drawing.unanswered_say, unanswered_rowCount, hcount]
  cases (drawRows itemName (.list items) row 0
    ((remembered counts key).getD items.length)).unanswered (started key items.length counts) with
  | mk result after => cases result <;> simp [unanswered_rowCount]

/-- The first of several rows is drawn with its item as default, and then the others. -/
theorem unanswered_drawRows_succ (itemName : String) (items : List Value)
    (row : Nat → Value → Drawing RowCounts Value) (index more : Nat) (counts : RowCounts) :
    (drawRows itemName (.list items) row index (more + 1)).unanswered counts =
      (do let first ← row index (objectOr items[index]?)
          let others ← drawRows itemName (.list items) row (index + 1) more
          pure (first :: others)).unanswered counts := by
  rw [drawRows, rowDefault_list, pure_bind, Drawing.unanswered_bind, Drawing.unanswered_say]

theorem length_of_unanswered_drawRows {itemName : String} {items : List Value}
    {row : Nat → Value → Drawing RowCounts Value} {more : Nat} :
    ∀ {index : Nat} {counts after : RowCounts} {rows : List Value},
      (drawRows itemName (.list items) row index more).unanswered counts = (.ok rows, after) →
        rows.length = more := by
  induction more with
  | zero =>
    intro index counts after rows h
    obtain ⟨rfl, -⟩ := Prod.mk.inj h |>.imp_left Except.ok.inj
    rfl
  | succ more ih =>
    intro index counts after rows h
    rw [unanswered_drawRows_succ, Drawing.unanswered_both_eq_ok_iff] at h
    obtain ⟨first, middle, others, -, hothers, rfl⟩ := h
    rw [List.length_cons, ih hothers]

/-! ### Components -/

/-- Draws the fields of a node and gives its entries as an object. -/
def drawObject (outline : Outline) (key : String) (defaults : Value) : Drawing RowCounts Value := do
  let entries ← drawNode key defaults outline
  pure (.object entries)

/-- Draws components one below the other, with their values under their names. -/
def drawValues (key : String) (fields : List (String × Value)) :
    List (String × Outline) → Drawing RowCounts (List (String × Value))
  | [] => pure []
  | (name, outline) :: rest => do
    let value ← drawComponent name (partKey key name) (fields.lookup name) (drawObject outline)
      outline
    let others ← drawValues key fields rest
    pure ((name, value) :: others)

/-- Setting each component as it is drawn is setting all of them in the end. -/
theorem drawEach_eq (key : String) (fields : List (String × Value)) :
    ∀ (components : List (String × Outline)) (entries : List (String × Value)),
      drawEach key (.object fields) entries components = do
        let values ← drawValues key fields components
        pure (Keyed.update entries values)
  | [], entries => by
    rw [drawEach, drawValues, pure_bind]
    rfl
  | (name, outline) :: rest, entries => by
    simp only [drawEach, drawValues, defaultOf, pure_bind, bind_assoc, drawEach_eq key fields rest]
    rfl

theorem keys_of_unanswered_drawValues {key : String} {fields : List (String × Value)}
    {components : List (String × Outline)} :
    ∀ {counts after : RowCounts} {values : List (String × Value)},
      (drawValues key fields components).unanswered counts = (.ok values, after) →
        Keyed.keys values = Keyed.keys components := by
  induction components with
  | nil =>
    intro counts after values h
    obtain ⟨rfl, -⟩ := Prod.mk.inj h |>.imp_left Except.ok.inj
    rfl
  | cons pair rest ih =>
    intro counts after values h
    rw [drawValues, Drawing.unanswered_both_eq_ok_iff] at h
    obtain ⟨value, middle, others, -, hothers, rfl⟩ := h
    exact congrArg (pair.1 :: ·) (ih hothers)

/-- The fields of a node are those of its properties, in which its components are set. -/
theorem unanswered_drawNode (key : String) (fields : List (String × Value)) (names : List String)
    (components : List (String × Outline)) (isList : Bool) (itemName : String)
    (counts : RowCounts) :
    (drawNode key (.object fields)
        (.node (some names) (some components) isList itemName)).unanswered counts =
      (do let values ← drawValues key fields components
          pure (Keyed.update (Keyed.ofPairs (startEntries fields names)) values)).unanswered
        counts := by
  rw [drawNode, Drawing.unanswered_bind, Drawing.unanswered_demand_some]
  dsimp only
  rw [Drawing.unanswered_bind, unanswered_drawProperties]
  dsimp only
  rw [drawComponents, drawEach_eq]

end MarkupBinding.InputForm
