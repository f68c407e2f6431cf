import MarkupBinding.Proofs.InputForm.Keys
import MarkupBinding.Proofs.InputForm.Structure

/-!
# Forms that can be drawn

The fields of a component can be drawn with defaults that hold for every list something whose rows
can be counted and asked for: a list, a text, or what counts as nothing (`Component.drawable`). With
no defaults at all this is the case (`Component.drawable_nil`).

`Advances` says what such a form then comes to, whatever is entered and remembered: numbers of rows
are stored for lists that are met for the first time, and either there is a result, or some button
is pressed, one number is changed by one, and the form is to be drawn anew. Drawings one below the
other advance together (`Advances.bind`), as long as nothing is pressed. So the rows of a list do
(`advances_drawRows`), a list with its buttons (`advances_drawList`) and, by induction on the
component, its fields (`advances_drawNode`). How many rows are stored is up to the defaults; without
any, it is none.
-/

set_option autoImplicit false
set_option relaxedAutoImplicit false

namespace MarkupBinding

namespace InputForm

/-- Whether rows can be drawn for a default; `inner` tells whether one can with entries as its own
defaults. The characters of a text count as rows without defaults. -/
def drawsRows (inner : List (String × Value) → Bool) : Value → Bool
  | .list items => items.all fun item ↦ inner item.entries
  | .string _ => true
  | _ => false

end InputForm

namespace Component

open InputForm

mutual

/-- Whether the fields of a component can be drawn with entries as defaults. -/
def drawable : Component → List (String × Value) → Bool
  | ⟨_, components, _, _⟩, entries => drawableAll components entries

/-- Whether the parts for nested components can be drawn with entries as defaults. -/
def drawableAll : List (String × Component) → List (String × Value) → Bool
  | [], _ => true
  | (name, c) :: rest, entries =>
    (if c.array then drawsRows (fun entries ↦ drawable c entries) (rowsOr (entries.lookup name))
      else drawable c ((entries.lookup name).getD .null).entries) && drawableAll rest entries

end

/-- Whether the part for a nested component can be drawn with what there is for it. -/
def drawsPart (c : Component) (value : Option Value) : Bool :=
  if c.array then drawsRows c.drawable (rowsOr value) else c.drawable (value.getD .null).entries

theorem drawableAll_cons (pair : String × Component) (rest : List (String × Component))
    (entries : List (String × Value)) :
    drawableAll (pair :: rest) entries =
      (pair.2.drawsPart (entries.lookup pair.1) && drawableAll rest entries) := by
  rw [drawableAll, drawsPart]

theorem drawableAll_iff {components : List (String × Component)}
    {entries : List (String × Value)} :
    drawableAll components entries = true ↔
      ∀ pair ∈ components, pair.2.drawsPart (entries.lookup pair.1) = true := by
  induction components with
  | nil => simp [drawableAll]
  | cons pair rest ih => rw [drawableAll_cons, Bool.and_eq_true, ih, List.forall_mem_cons]

/-- The fields of a component can be drawn without defaults. -/
theorem drawable_nil (c : Component) : c.drawable [] = true := by
  induction c using induction_on_components with
  | step properties components array itemName ih =>
    rw [drawable, drawableAll_iff]
    intro pair hpair
    rw [drawsPart]
    split
    · rfl
    · exact ih pair hpair

end Component

namespace InputForm

/-! ### What a drawing comes to -/

/-- Numbers of rows as they are remembered under the keys of lists. -/
def stored (sizes : List (String × Nat)) : RowCounts :=
  sizes.map fun list ↦ (countKey list.1, (list.2 : Int))

theorem stored_append (sizes others : List (String × Nat)) :
    stored (sizes ++ others) = stored sizes ++ stored others :=
  List.map_append

/-- One number that is remembered for a list was changed by one, and not to below zero. -/
def ChangesOne (counts after : RowCounts) : Prop :=
  ∃ key count change, counts.lookup (countKey key) = some count ∧
    (change = 1 ∨ change = -1 ∧ count ≠ 0) ∧
    after = Keyed.set (countKey key) (count + change) counts

/-- Numbers are stored for lists that may start so. Then there is a result, or a button is pressed,
one number was changed and the form is to be drawn anew. -/
def Advances {α : Type} (start : String × Nat → Prop) (d : Drawing RowCounts α) : Prop :=
  ∀ answers before, ∃ met : List (String × Nat), (∀ list ∈ met, start list) ∧
    ((Keyed.keys before).Nodup → (Keyed.keys (before ++ stored met)).Nodup) ∧
    ((∃ value, d.answered answers before = (.ok value, before ++ stored met)) ∨
      (∃ key, answers.ticks.lookup key = some true) ∧
        ∃ after, ChangesOne (before ++ stored met) after ∧
          d.answered answers before = (.error .rerun, after))

section Advances

variable {α β γ : Type} {start : String × Nat → Prop}

/-- What has a result and changes no number advances. -/
theorem advances_of_still {d : Drawing RowCounts α}
    (h : ∀ answers before, ∃ value, d.answered answers before = (.ok value, before)) :
    Advances start d := by
  intro answers before
  obtain ⟨value, hvalue⟩ := h answers before
  refine ⟨[], fun _ hlist ↦ absurd hlist List.not_mem_nil, ?_, Or.inl ⟨value, ?_⟩⟩
  · simp [stored]
  · simpa [stored] using hvalue

theorem advances_pure (value : α) : Advances start (pure value) :=
  advances_of_still fun _ _ ↦ ⟨value, rfl⟩

/-- Drawings one below the other advance together. -/
theorem Advances.bind {d : Drawing RowCounts α} {next : α → Drawing RowCounts β}
    (hd : Advances start d) (hnext : ∀ value, Advances start (next value)) :
    Advances start (d >>= next) := by
  intro answers before
  obtain ⟨met, hmet, hnodup, ⟨value, hvalue⟩ | ⟨hpressed, after, hchanges, hrerun⟩⟩ :=
    hd answers before
  · obtain ⟨others, hothers, hnodupOthers, hend⟩ := hnext value answers (before ++ stored met)
    refine ⟨met ++ others, fun list hlist ↦ ?_, ?_, ?_⟩
    · exact (List.mem_append.1 hlist).elim (hmet list) (hothers list)
    · rw [stored_append, ← List.append_assoc]
      exact fun h ↦ hnodupOthers (hnodup h)
    · rw [stored_append, ← List.append_assoc, Drawing.answered_bind, hvalue]
      exact hend
  · refine ⟨met, hmet, hnodup, Or.inr ⟨hpressed, after, hchanges, ?_⟩⟩
    rw [Drawing.answered_bind, hrerun]

theorem Advances.map {d : Drawing RowCounts α} (f : α → β) (hd : Advances start d) :
    Advances start (f <$> d) := by
  rw [← bind_pure_comp]
  exact hd.bind fun value ↦ advances_pure (f value)

end Advances

/-! ### Lists -/

section Lists

variable {start : String × Nat → Prop} {row : Nat → Value → Drawing RowCounts Value}
  {defaults : Value}

/-- The rows of a list advance if each is drawn with defaults with which it does. -/
theorem advances_drawRows (itemName : String)
    (hrow : ∀ index, ∃ fields, rowDefault defaults index = pure (.object fields) ∧
      Advances start (row index (.object fields))) (more : Nat) :
    ∀ index, Advances start (drawRows itemName defaults row index more) := by
  induction more with
  | zero => exact fun index ↦ advances_pure []
  | succ more ih =>
    intro index
    obtain ⟨fields, hdefault, hfirst⟩ := hrow index
    rw [drawRows, hdefault, pure_bind]
    exact (advances_of_still fun _ _ ↦ ⟨(), rfl⟩).bind fun _ ↦ hfirst.bind fun first ↦
      (ih (index + 1)).bind fun others ↦ advances_pure _

/-- A list that can be counted stores the number if it is new, and has one in the end. -/
theorem exists_met_of_startCount (key : String) {rows : Nat} (hrows : defaults.count? = some rows)
    (hstart : start (key, rows)) (answers : Answers) (before : RowCounts) :
    ∃ met : List (String × Nat), (∀ list ∈ met, start list) ∧
      ((Keyed.keys before).Nodup → (Keyed.keys (before ++ stored met)).Nodup) ∧
      (startCount key defaults).answered answers before = (.ok (), before ++ stored met) ∧
      ∃ count, (before ++ stored met).lookup (countKey key) = some count := by
  rw [answered_startCount, hrows]
  by_cases hhas : Keyed.has (countKey key) before = true
  · refine ⟨[], fun _ hlist ↦ absurd hlist List.not_mem_nil, ?_, ?_, ?_⟩
    · simp [stored]
    · simp [stored, hhas]
    · cases hfound : before.lookup (countKey key) with
      | some count => exact ⟨count, by simpa [stored] using hfound⟩
      | none =>
        exact absurd ((Keyed.has_eq_true_iff _ _).1 hhas) (Keyed.not_mem_keys_of_lookup hfound)
  · have hnew : countKey key ∉ Keyed.keys before := fun hmem ↦
      hhas ((Keyed.has_eq_true_iff _ _).2 hmem)
    have hset := Keyed.set_of_not_mem hnew (rows : Int)
    refine ⟨[(key, rows)], List.forall_mem_singleton.2 hstart,
      fun h ↦ Keyed.nodup_keys_append h hnew _, ?_, rows, ?_⟩
    · rw [if_neg hhas]
      exact congrArg _ hset
    · exact (congrArg _ hset.symm).trans (Keyed.lookup_set_self _ _ _)

/-- Below the rows nothing is pressed, or the number of rows is changed by one. -/
theorem listButtons_cases (key itemName : String) (answers : Answers) {counts : RowCounts}
    {count : Int} (hcount : counts.lookup (countKey key) = some count) :
    (listButtons key itemName).answered answers counts = (.ok (), counts) ∨
      (∃ key, answers.ticks.lookup key = some true) ∧ ∃ after, ChangesOne counts after ∧
        (listButtons key itemName).answered answers counts = (.error .rerun, after) := by
  have hpressed : ∀ key, (answers.ticks.lookup key).getD false = true →
      ∃ key, answers.ticks.lookup key = some true := by
    intro key hkey
    cases hfound : answers.ticks.lookup key with
    | none => rw [hfound] at hkey; cases hkey
    | some tick => exact ⟨key, by rw [hfound] at hkey ⊢; exact congrArg some hkey⟩
  rw [answered_listButtons, hcount, Option.getD_some]
  split
  · next hadd =>
    exact Or.inr ⟨hpressed _ hadd, _, ⟨key, count, 1, hcount, Or.inl rfl, rfl⟩, rfl⟩
  · split
    · next hremove =>
      exact Or.inr ⟨hpressed _ hremove.2, _,
        ⟨key, count, -1, hcount, Or.inr ⟨rfl, hremove.1⟩, rfl⟩, rfl⟩
    · exact Or.inl rfl

/-- A list advances if it can be counted and its rows advance: the number of its rows is stored
before they are drawn, and is still there for the buttons below them. -/
theorem advances_drawList (name key itemName : String) {rows : Nat}
    (hrows : defaults.count? = some rows) (hstart : start (key, rows))
    (hrow : ∀ index, ∃ fields, rowDefault defaults index = pure (.object fields) ∧
      Advances start (row index (.object fields))) :
    Advances start (drawList name key itemName defaults row) := by
  intro answers before
  obtain ⟨met, hmet, hnodup, hcounted, count, hcount⟩ :=
    exists_met_of_startCount key hrows hstart answers before
  obtain ⟨others, hothers, hnodupOthers, hdrawn⟩ :=
    advances_drawRows itemName hrow count.toNat 0 answers (before ++ stored met)
  have hstored : before ++ stored (met ++ others) = before ++ stored met ++ stored others := by
    rw [stored_append, List.append_assoc]
  have hlist : (drawList name key itemName defaults row).answered answers before =
      (do
        let items ← drawRows itemName defaults row 0 count.toNat
        listButtons key itemName
        pure (Value.list items)).answered answers (before ++ stored met) := by
    rw [drawList_eq]
    simp only [Drawing.answered_bind (startCount key defaults), hcounted,
      Drawing.answered_bind (Drawing.draw _), Drawing.answered_draw,
      Drawing.answered_bind (Drawing.say _ _), Drawing.answered_say,
      Drawing.answered_bind (rowCount key), answered_rowCount, hcount, Option.getD_some]
  rw [hlist]
  refine ⟨met ++ others, fun list hmem ↦ ?_, hstored ▸ fun h ↦ hnodupOthers (hnodup h), ?_⟩
  · exact (List.mem_append.1 hmem).elim (hmet list) (hothers list)
  rw [hstored]
  rcases hdrawn with ⟨items, hitems⟩ | ⟨hpressed, after, hchanges, hrerun⟩
  · have hthere : (before ++ stored met ++ stored others).lookup (countKey key) = some count := by
      rw [List.lookup_append, hcount, Option.some_or]
    rcases listButtons_cases key itemName answers hthere with
      hbuttons | ⟨hpressed, after, hchanges, hbuttons⟩
    · exact Or.inl ⟨.list items, by
        simp only [Drawing.answered_bind, hitems, hbuttons, Drawing.answered_pure]⟩
    · exact Or.inr ⟨hpressed, after, hchanges, by
        simp only [Drawing.answered_bind, hitems, hbuttons]⟩
  · exact Or.inr ⟨hpressed, after, hchanges, by rw [Drawing.answered_bind, hrerun]⟩

end Lists

/-! ### Components -/

/-- The lists whose keys go on behind a key may start without rows, and with any number of them
where there are defaults. -/
def StartsBehind (start : String × Nat → Prop) (key : String) (fields : List (String × Value)) :
    Prop :=
  ∀ other, Extends key other → start (other, 0) ∧ (fields = [] ∨ ∀ rows, start (other, rows))

theorem startsBehind_extends (key : String) (fields : List (String × Value)) :
    StartsBehind (fun list ↦ Extends key list.1) key fields :=
  fun _ hother ↦ ⟨hother, Or.inr fun _ ↦ hother⟩

theorem StartsBehind.behind {start : String × Nat → Prop} {key other : String}
    {fields inner : List (String × Value)} (h : StartsBehind start key fields)
    (hextends : Extends key other) (hempty : fields = [] → inner = []) :
    StartsBehind start other inner :=
  fun last hlast ↦ (h last (hextends.trans hlast)).imp_right (Or.imp_left hempty)

/-- What the rows of a list are drawn with. -/
theorem rowDefault_of_drawsRows {inner : List (String × Value) → Bool} (hnil : inner [] = true)
    {value : Option Value} (h : drawsRows inner (rowsOr value) = true) :
    ∃ rows, (rowsOr value).count? = some rows ∧ (value = none → rows = 0) ∧
      ∀ index, ∃ fields, rowDefault (rowsOr value) index = pure (.object fields) ∧
        inner fields = true ∧ (value = none → fields = []) := by
  have hempty : rowsOr none = .list [] := rfl
  cases hrows : rowsOr value with
  | list items =>
    rw [hrows, drawsRows, List.all_eq_true] at h
    have hnone : value = none → items = [] := by
      rintro rfl
      exact Value.list.inj (hrows.symm.trans hempty)
    refine ⟨items.length, rfl, fun h ↦ by rw [hnone h]; rfl, fun index ↦ ?_⟩
    refine ⟨(items[index]?.getD .null).entries, ?_, ?_, fun h ↦ ?_⟩
    · rw [rowDefault_list, objectOr_eq]
    · cases hitem : items[index]? with
      | none => exact hnil
      | some item => exact h item (List.mem_of_getElem? hitem)
    · rw [hnone h]
      rfl
  | string s =>
    have hthere : value ≠ none := by
      rintro rfl
      cases hrows.symm.trans hempty
    exact ⟨s.length, rfl, fun h ↦ absurd h hthere, fun index ↦
      ⟨[], rowDefault_string s index, hnil, fun _ ↦ rfl⟩⟩
  | null | bool | int | float | object | record =>
    rw [hrows] at h
    cases h

/-- The fields of a component advance with defaults with which they can be drawn. -/
def AdvancesPart (c : Component) : Prop :=
  ∀ start key fields, StartsBehind start key fields → c.drawable fields = true →
    Advances start (drawObject c.outline key (.object fields))

section Components

variable {start : String × Nat → Prop} {fields : List (String × Value)}

theorem advances_drawComponent (name key : String) {c : Component} (hinner : AdvancesPart c)
    (hstart : StartsBehind start key fields) (h : c.drawsPart (fields.lookup name) = true) :
    Advances start
      (drawComponent name key (fields.lookup name) (drawObject c.outline) c.outline) := by
  have hnone : fields = [] → fields.lookup name = none := by
    rintro rfl
    rfl
  rw [Component.drawsPart] at h
  rw [drawComponent_outline]
  split
  · next harray =>
    rw [if_pos harray] at h
    obtain ⟨rows, hrows, hzero, hdefaults⟩ := rowDefault_of_drawsRows c.drawable_nil h
    obtain ⟨hempty, hany⟩ := hstart key (.refl key)
    refine advances_drawList name key _ hrows ?_ fun index ↦ ?_
    · rcases hany with hfields | hall
      · exact hzero (hnone hfields) ▸ hempty
      · exact hall rows
    · obtain ⟨inner, hdefault, hdrawable, hinnerEmpty⟩ := hdefaults index
      exact ⟨inner, hdefault, hinner start _ inner
        (hstart.behind (extends_rowKey key index) fun hfields ↦ hinnerEmpty (hnone hfields))
        hdrawable⟩
  · next harray =>
    rw [if_neg harray] at h
    rw [objectOr_eq]
    refine (advances_of_still fun _ _ ↦ ⟨(), rfl⟩).bind fun _ ↦
      (advances_of_still fun _ _ ↦ ⟨(), rfl⟩).bind fun _ ↦
        hinner start key _ (hstart.behind (.refl key) fun hfields ↦ ?_) h
    rw [hnone hfields]
    rfl

theorem advances_drawValues (key : String) (hstart : StartsBehind start key fields) :
    ∀ {components : List (String × Component)}, (∀ pair ∈ components, AdvancesPart pair.2) →
      Component.drawableAll components fields = true →
        Advances start (drawValues key fields (Component.outlines components))
  | [], _, _ => advances_pure []
  | (name, c) :: rest, hinner, h => by
    obtain ⟨hfirst, hrest⟩ := List.forall_mem_cons.1 hinner
    rw [Component.drawableAll_cons, Bool.and_eq_true] at h
    rw [Component.outlines, drawValues]
    exact (advances_drawComponent name _ hfirst (hstart.behind (extends_partKey key name) id)
      h.1).bind fun value ↦ (advances_drawValues key hstart hrest h.2).bind fun values ↦
        advances_pure _

end Components

/-- The fields of a component advance, by induction on the component. -/
theorem advances_drawNode (c : Component) : ∀ {start : String × Nat → Prop} {key : String}
    {fields : List (String × Value)}, StartsBehind start key fields → c.drawable fields = true →
      Advances start (drawNode key (.object fields) c.outline) := by
  induction c using Component.induction_on_components with
  | step properties components array itemName ih =>
    intro start key fields hstart h
    have hinner : ∀ pair ∈ components, AdvancesPart pair.2 := by
      intro pair hpair start key fields hstart h
      exact (ih pair hpair hstart h).map _
    rw [Component.drawable] at h
    rw [drawNode_outline]
    exact (advances_of_still fun _ _ ↦ ⟨_, answered_drawProperties fields key _⟩).bind fun entries ↦
      (advances_drawValues key hstart hinner h).bind fun values ↦ advances_pure _

theorem advances_drawObject (c : Component) : AdvancesPart c :=
  fun _ _ _ hstart h ↦ (advances_drawNode c hstart h).map _

/-! ### Forms -/

end InputForm

namespace Schema

open InputForm

/-- Whether a form for the schema can be drawn with entries as defaults: what these hold for the
outermost component is an object whose entries can be drawn with, unless there is nothing to draw.
-/
def drawable (s : Schema) (fields : List (String × Value)) : Bool :=
  match rootDefaults s fields with
  | .object entries => s.root.drawable entries
  | _ => s.root.isEmpty

/-- A form can be drawn without defaults. -/
theorem drawable_nil (s : Schema) : s.drawable [] = true := by
  rw [drawable, rootDefaults_nil]
  exact s.root.drawable_nil

end Schema

namespace InputForm

/-- A form advances with defaults with which it can be drawn. -/
theorem advances_drawForm {s : Schema} {document : Value} (hdocument : s.IsDrawnFrom document)
    {start : String × Nat → Prop} {fields : List (String × Value)}
    (hstart : StartsBehind start s.name fields) (h : s.drawable fields = true) :
    Advances start (drawForm document (.object fields)) := by
  obtain ⟨heading, hheading, hform⟩ := exists_drawForm_eq hdocument
  have hboxes : Advances start (do heading; drawFlags (.object fields) s.toggles) := by
    refine Advances.bind (advances_of_still fun _ _ ↦ ⟨(), ?_⟩) fun _ ↦
      advances_of_still fun _ _ ↦ ⟨_, answered_drawFlags fields _⟩
    rcases hheading with rfl | rfl <;> rfl
  have hroot : Advances start (drawNode s.name (rootDefaults s fields) s.root.outline) := by
    rw [Schema.drawable] at h
    cases hdefaults : rootDefaults s fields with
    | object entries =>
      rw [hdefaults] at h
      refine advances_drawNode s.root (hstart.behind (.refl s.name) fun hfields ↦ ?_) h
      subst hfields
      exact Value.object.inj (hdefaults.symm.trans (rootDefaults_nil s))
    | null | bool | int | float | string | list | record =>
      rw [hdefaults] at h
      rw [drawNode_of_not_object s.root s.name (fun _ heq ↦ by cases heq), if_pos h]
      exact advances_pure []
  rw [hform]
  exact hroot.bind fun entries ↦ hboxes.bind fun flags ↦ advances_pure _

/-- Without defaults, every list that is met for the first time starts without rows. -/
theorem advances_drawForm_nil {s : Schema} {document : Value} (hdocument : s.IsDrawnFrom document) :
    Advances (fun list ↦ list.2 = 0) (drawForm document (.object [])) :=
  advances_drawForm hdocument (fun _ _ ↦ ⟨rfl, Or.inl rfl⟩) s.drawable_nil

end InputForm

end MarkupBinding
