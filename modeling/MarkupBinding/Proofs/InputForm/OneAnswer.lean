import MarkupBinding.Proofs.InputForm.ControlKeys
import MarkupBinding.Proofs.InputForm.Restoring

/-!
# One other text

What becomes of a form when the user enters something else under one key, and all else stays the
same: the same is drawn, the numbers of rows are the same, and of the input at most one text is
another (`LeafAway`).

`Steady` compares two such drawings. A drawing that does not read the text is the same (`Unread`),
and one that draws no control under the key has the same result. So of two drawings one below the
other, whose controls have different keys, at least one has the same result (`Steady.both`), and in
the other one text may be another. What is put together of both is then away by one text too, also
where entries take each other's places (`LeafAway.update`, `leafAway_update`). By induction on the
component this holds of its fields (`steady_drawNode`), and with the keys of controls being
different it holds of forms (`controls_distinct`).
-/

set_option autoImplicit false
set_option relaxedAutoImplicit false

namespace MarkupBinding.InputForm

/-- The same is entered but for a text under a key. -/
structure SameBut (key : String) (answers others : Answers) : Prop where
  texts : ∀ other, other ≠ key → others.texts.lookup other = answers.texts.lookup other
  ticks : ∀ other, others.ticks.lookup other = answers.ticks.lookup other
  numbers : ∀ other, others.numbers.lookup other = answers.numbers.lookup other

/-- Two values are the same but for one text at most, at any depth. -/
inductive LeafAway : Value → Value → Prop
  | same (value : Value) : LeafAway value value
  | text (s t : String) : LeafAway (.string s) (.string t)
  | item {a b : Value} (rest : List Value) (h : LeafAway a b) :
      LeafAway (.list (a :: rest)) (.list (b :: rest))
  | items (a : Value) {rest others : List Value} (h : LeafAway (.list rest) (.list others)) :
      LeafAway (.list (a :: rest)) (.list (a :: others))
  | entry (name : String) {a b : Value} (rest : List (String × Value)) (h : LeafAway a b) :
      LeafAway (.object ((name, a) :: rest)) (.object ((name, b) :: rest))
  | entries (entry : String × Value) {rest others : List (String × Value)}
      (h : LeafAway (.object rest) (.object others)) :
      LeafAway (.object (entry :: rest)) (.object (entry :: others))

section LeafAway

variable {a b : Value} {fields others : List (String × Value)}

/-- Entries that are away by one text are so after the same is set in both. -/
theorem LeafAway.set (name : String) (value : Value) :
    ∀ {fields others : List (String × Value)}, LeafAway (.object fields) (.object others) →
      LeafAway (.object (Keyed.set name value fields)) (.object (Keyed.set name value others))
  | [], _, h => by
    cases h
    exact .same _
  | (first, a) :: rest, _, h => by
    cases h with
    | same => exact .same _
    | entry _ _ h =>
      rw [Keyed.set, Keyed.set]
      split
      · exact .same _
      · exact .entry first _ h
    | entries _ h =>
      rw [Keyed.set, Keyed.set]
      split
      · exact .entries _ h
      · exact .entries _ (LeafAway.set name value h)

/-- Entries are away by one text after two values that are so are set in them. -/
theorem leafAway_set (name : String) (h : LeafAway a b) (fields : List (String × Value)) :
    LeafAway (.object (Keyed.set name a fields)) (.object (Keyed.set name b fields)) := by
  induction fields with
  | nil => exact .entry name [] h
  | cons first rest ih =>
    obtain ⟨other, value⟩ := first
    rw [Keyed.set, Keyed.set]
    split
    · exact .entry other rest h
    · exact .entries _ ih

theorem LeafAway.update (values : List (String × Value)) :
    ∀ {fields others : List (String × Value)}, LeafAway (.object fields) (.object others) →
      LeafAway (.object (Keyed.update fields values)) (.object (Keyed.update others values)) := by
  induction values with
  | nil => exact fun h ↦ h
  | cons value rest ih => exact fun h ↦ ih (h.set value.1 value.2)

theorem leafAway_update :
    ∀ {values more : List (String × Value)} (fields : List (String × Value)),
      LeafAway (.object values) (.object more) →
        LeafAway (.object (Keyed.update fields values)) (.object (Keyed.update fields more))
  | [], _, _, h => by
    cases h
    exact .same _
  | (name, a) :: rest, _, fields, h => by
    cases h with
    | same => exact .same _
    | entry _ _ h => exact (leafAway_set name h fields).update rest
    | entries _ h => exact leafAway_update (Keyed.set name a fields) h

end LeafAway

/-! ### Two drawings -/

/-- The text under a key makes no difference to the drawing. -/
def Unread {α : Type} (key : String) (d : Drawing RowCounts α) : Prop :=
  ∀ answers others, SameBut key answers others → ∀ before, d others before = d answers before

/-- With another text under a key, the same is drawn and remembered, and the drawing is cut short in
the same way or not at all. Its results are the same if it has no control with the key, and away
from each other if its controls have different keys. -/
def Steady {α : Type} (key : String) (away : α → α → Prop) (d : Drawing RowCounts α) : Prop :=
  ∀ answers others, SameBut key answers others → ∀ before,
    (∃ after drawn interruption, d answers before = ⟨after, drawn, .error interruption⟩ ∧
      d others before = ⟨after, drawn, .error interruption⟩) ∨
    ∃ after drawn value other, d answers before = ⟨after, drawn, .ok value⟩ ∧
      d others before = ⟨after, drawn, .ok other⟩ ∧ (key ∉ controls drawn → other = value) ∧
        ((controls drawn).Nodup → away value other)

section Steady

variable {α β γ : Type} {key : String} {away : α → α → Prop} {awaySecond : β → β → Prop}
  {awayBoth : γ → γ → Prop} {d : Drawing RowCounts α} {b : Drawing RowCounts β}

/-- What is drawn above comes before what is drawn below. -/
theorem bind_eq_of_ok {next : α → Drawing RowCounts β} {answers : Answers}
    {before after last : RowCounts} {drawn more : List Drawn} {value : α}
    {result : Except Interruption β} (h : d answers before = ⟨after, drawn, .ok value⟩)
    (hnext : next value answers after = ⟨last, more, result⟩) :
    (d >>= next) answers before = ⟨last, drawn ++ more, result⟩ := by
  rw [Drawing.bind_apply_of_ok (congrArg Outcome.result h), h]
  dsimp only
  rw [hnext]

theorem bind_eq_of_error {answers : Answers} {before after : RowCounts} {drawn : List Drawn}
    {interruption : Interruption} (h : d answers before = ⟨after, drawn, .error interruption⟩)
    (next : α → Drawing RowCounts β) :
    (d >>= next) answers before = ⟨after, drawn, .error interruption⟩ := by
  rw [Drawing.bind_apply_of_error (congrArg Outcome.result h), h]

theorem Unread.bind {next : α → Drawing RowCounts β} (hd : Unread key d)
    (hnext : ∀ value, Unread key (next value)) : Unread key (d >>= next) := by
  intro answers others hsame before
  exact Drawing.bind_congr (hd answers others hsame before) fun value ↦
    hnext value answers others hsame _

/-- What is drawn the same for all that is entered. -/
theorem unread_of_forall (h : ∀ answers others before, d others before = d answers before) :
    Unread key d := fun answers others _ before ↦ h answers others before

theorem unread_button (label other : String) (disabled : Bool) :
    Unread key (Drawing.button label other disabled : Drawing RowCounts Bool) := by
  intro answers others hsame before
  rw [Drawing.button, Drawing.button, hsame.ticks]

theorem unread_checkbox (label : String) (value : Bool) (other : String) :
    Unread key (Drawing.checkbox label value other : Drawing RowCounts Value) := by
  intro answers others hsame before
  rw [Drawing.checkbox, Drawing.checkbox, Answers.box, Answers.box, hsame.ticks, hsame.numbers]

theorem Unread.steady (h : Unread key d) (hrefl : ∀ value, away value value) :
    Steady key away d := by
  intro answers others hsame before
  rw [h answers others hsame before]
  cases hrun : d answers before with
  | mk after drawn result =>
    cases result with
    | error interruption => exact Or.inl ⟨after, drawn, interruption, rfl, rfl⟩
    | ok value =>
      exact Or.inr ⟨after, drawn, value, value, rfl, rfl, fun _ ↦ rfl, fun _ ↦ hrefl value⟩

theorem Unread.steady_eq (h : Unread key d) : Steady key Eq d :=
  h.steady fun _ ↦ rfl

/-- What does not read the text may stand above. -/
theorem Unread.bind_steady {next : α → Drawing RowCounts β} (hd : Unread key d)
    (hnext : ∀ value, Steady key awaySecond (next value)) : Steady key awaySecond (d >>= next) := by
  intro answers others hsame before
  have hfirst := hd answers others hsame before
  cases hrun : d answers before with
  | mk after drawn result =>
    rw [hrun] at hfirst
    cases result with
    | error interruption =>
      exact Or.inl ⟨after, drawn, interruption, bind_eq_of_error hrun next,
        bind_eq_of_error hfirst next⟩
    | ok value =>
      rcases hnext value answers others hsame after with
        ⟨last, more, interruption, hone, hother⟩ |
          ⟨last, more, result, other, hone, hother, hsameResult, haway⟩
      · exact Or.inl ⟨last, _, interruption, bind_eq_of_ok hrun hone, bind_eq_of_ok hfirst hother⟩
      · refine Or.inr ⟨last, _, result, other, bind_eq_of_ok hrun hone, bind_eq_of_ok hfirst hother,
          ?_, ?_⟩
        · rw [controls_append, List.mem_append]
          exact fun hkey ↦ hsameResult fun hmem ↦ hkey (Or.inr hmem)
        · rw [controls_append]
          exact fun hnodup ↦ haway (List.nodup_append.1 hnodup).2.1

/-- Of what is put together of two drawings, one below the other, at most one part has another text.
-/
theorem Steady.both {f : α → β → γ} (hd : Steady key away d) (hb : Steady key awaySecond b)
    (hleft : ∀ value other second, away value other → awayBoth (f value second) (f other second))
    (hright : ∀ first value other, awaySecond value other →
      awayBoth (f first value) (f first other)) :
    Steady key awayBoth (do let first ← d
                            let second ← b
                            pure (f first second)) := by
  intro answers others hsame before
  rcases hd answers others hsame before with
    ⟨after, drawn, interruption, hone, hother⟩ |
      ⟨after, drawn, value, other, hone, hother, hsameFirst, hawayFirst⟩
  · exact Or.inl ⟨after, drawn, interruption, bind_eq_of_error hone _, bind_eq_of_error hother _⟩
  rcases hb answers others hsame after with
    ⟨last, more, interruption, honeNext, hotherNext⟩ |
      ⟨last, more, second, otherSecond, honeNext, hotherNext, hsameSecond, hawaySecond⟩
  · exact Or.inl ⟨last, _, interruption, bind_eq_of_ok hone (bind_eq_of_error honeNext _),
      bind_eq_of_ok hother (bind_eq_of_error hotherNext _)⟩
  refine Or.inr ⟨last, drawn ++ (more ++ []), f value second, f other otherSecond,
    bind_eq_of_ok hone (bind_eq_of_ok honeNext rfl),
    bind_eq_of_ok hother (bind_eq_of_ok hotherNext rfl), ?_, ?_⟩
  · rw [List.append_nil, controls_append, List.mem_append]
    intro hkey
    rw [hsameFirst fun hmem ↦ hkey (Or.inl hmem), hsameSecond fun hmem ↦ hkey (Or.inr hmem)]
  · rw [List.append_nil, controls_append]
    intro hnodup
    obtain ⟨hfirst, hsecond, hdisjoint⟩ := List.nodup_append.1 hnodup
    -- the control with the key, if there is one, is on one side only
    by_cases hkey : key ∈ controls drawn
    · rw [hsameSecond fun hmem ↦ hdisjoint key hkey key hmem rfl]
      exact hleft _ _ _ (hawayFirst hfirst)
    · rw [hsameFirst hkey]
      exact hright _ _ _ (hawaySecond hsecond)

theorem Steady.map {f : α → γ} (hd : Steady key away d)
    (h : ∀ value other, away value other → awayBoth (f value) (f other)) :
    Steady key awayBoth (f <$> d) := by
  intro answers others hsame before
  rw [← bind_pure_comp]
  rcases hd answers others hsame before with
    ⟨after, drawn, interruption, hone, hother⟩ |
      ⟨after, drawn, value, other, hone, hother, hsameResult, haway⟩
  · exact Or.inl ⟨after, drawn, interruption, bind_eq_of_error hone _, bind_eq_of_error hother _⟩
  · refine Or.inr ⟨after, drawn ++ [], f value, f other, bind_eq_of_ok hone rfl,
      bind_eq_of_ok hother rfl, ?_, ?_⟩
    · rw [List.append_nil]
      exact fun hkey ↦ congrArg f (hsameResult hkey)
    · rw [List.append_nil]
      exact fun hnodup ↦ h _ _ (haway hnodup)

/-- A text field is the only control that may answer something else. -/
theorem steady_textField (label value other : String) :
    Steady key (fun _ _ ↦ True) (Drawing.textField label value other) := by
  intro answers others hsame before
  refine Or.inr ⟨before, [.textField label value other], _, _, rfl, rfl, fun hkey ↦ ?_,
    fun _ ↦ trivial⟩
  rw [hsame.texts other fun heq ↦ hkey (heq ▸ List.mem_singleton_self other)]

end Steady

/-! ### Lists -/

section Lists

variable {key : String}

theorem unread_pure {α : Type} (value : α) : Unread key (pure value : Drawing RowCounts α) :=
  unread_of_forall fun _ _ _ ↦ rfl

theorem unread_say (tone : Tone) (text : String) :
    Unread key (Drawing.say tone text : Drawing RowCounts Unit) :=
  unread_of_forall fun _ _ _ ↦ rfl

theorem unread_container : Unread key (Drawing.draw .container : Drawing RowCounts Unit) :=
  unread_of_forall fun _ _ _ ↦ rfl

theorem unread_startCount (list : String) (defaults : Value) :
    Unread key (startCount list defaults) := by
  refine Unread.bind (unread_of_forall fun _ _ _ ↦ rfl) fun counts ↦ ?_
  split
  · exact unread_pure ()
  · refine Unread.bind ?_ fun _ ↦ unread_of_forall fun _ _ _ ↦ rfl
    cases defaults.count? <;> exact unread_of_forall fun _ _ _ ↦ rfl

theorem unread_rowCount (list : String) : Unread key (rowCount list) :=
  unread_of_forall fun _ _ _ ↦ rfl

theorem unread_changeCount (list : String) (change : Int) : Unread key (changeCount list change) :=
  unread_of_forall fun _ _ _ ↦ rfl

theorem unread_countButton (label other list : String) (disabled : Bool) (change : Int) :
    Unread key (countButton label other list disabled change) := by
  refine (unread_button _ _ _).bind fun isPressed ↦ ?_
  cases isPressed
  · exact unread_pure ()
  · exact unread_changeCount list change

theorem unread_listButtons (list itemName : String) : Unread key (listButtons list itemName) :=
  (unread_countButton _ _ list false 1).bind fun _ ↦ (unread_rowCount list).bind fun count ↦
    unread_countButton _ _ list (count == 0) (-1)

/-- Of the rows of a list at most one has another text. -/
theorem steady_drawRows (itemName : String) {defaults : Value}
    {row : Nat → Value → Drawing RowCounts Value}
    (hrow : ∀ index fields, Steady key LeafAway (row index (.object fields))) (more : Nat) :
    ∀ index, Steady key (fun rows others ↦ LeafAway (.list rows) (.list others))
      (drawRows itemName defaults row index more) := by
  induction more with
  | zero => exact fun index ↦ (unread_pure []).steady fun _ ↦ .same _
  | succ more ih =>
    intro index
    rw [drawRows]
    rcases rowDefault_cases defaults index with ⟨fields, hfields⟩ | ⟨fault, hfault⟩
    · rw [hfields, pure_bind]
      exact (unread_say _ _).bind_steady fun _ ↦ (hrow index fields).both (ih (index + 1))
        (fun _ _ rest h ↦ .item rest h) fun first _ _ h ↦ .items first h
    · rw [hfault, Drawing.fail_bind]
      exact Unread.steady (unread_of_forall fun _ _ _ ↦ rfl) fun _ ↦ .same _

theorem steady_drawList (name list itemName : String) {defaults : Value}
    {row : Nat → Value → Drawing RowCounts Value}
    (hrow : ∀ index fields, Steady key LeafAway (row index (.object fields))) :
    Steady key LeafAway (drawList name list itemName defaults row) := by
  rw [drawList_eq]
  exact (unread_startCount list defaults).bind_steady fun _ ↦ unread_container.bind_steady fun _ ↦
    (unread_say _ _).bind_steady fun _ ↦ (unread_rowCount list).bind_steady fun count ↦
      (steady_drawRows itemName hrow _ 0).both
        (unread_listButtons list itemName).steady_eq
        (fun _ _ _ h ↦ h) fun items _ _ _ ↦ .same (.list items)

end Lists

/-! ### Components -/

section Components

variable {key : String}

theorem steady_drawProperties (place : String) (fields : List (String × Value)) :
    ∀ names, Steady key (fun entries others ↦ LeafAway (.object entries) (.object others))
      (drawProperties place (.object fields) names)
  | [] => (unread_pure []).steady fun _ ↦ .same _
  | name :: rest => by
    rw [drawProperties, defaultOf, pure_bind]
    exact (steady_textField _ _ _).both (steady_drawProperties place fields rest)
      (fun text other entries _ ↦ .entry name entries (.text text other))
      fun text _ _ h ↦ .entries (name, .string text) h

theorem steady_drawComponent (name place : String) (default : Option Value) {c : Component}
    (hinner : ∀ place fields, Steady key LeafAway (drawObject c.outline place (.object fields))) :
    Steady key LeafAway (drawComponent name place default (drawObject c.outline) c.outline) := by
  rw [drawComponent_outline]
  split
  · exact steady_drawList name place _ fun index fields ↦ hinner (rowKey place index) fields
  · rw [objectOr_eq]
    exact unread_container.bind_steady fun _ ↦ (unread_say _ _).bind_steady fun _ ↦ hinner place _

theorem steady_drawValues (place : String) (fields : List (String × Value)) :
    ∀ {components : List (String × Component)}, (∀ pair ∈ components, ∀ place fields,
      Steady key LeafAway (drawObject pair.2.outline place (.object fields))) →
        Steady key (fun values others ↦ LeafAway (.object values) (.object others))
          (drawValues place fields (Component.outlines components))
  | [], _ => (unread_pure []).steady fun _ ↦ .same _
  | (name, c) :: rest, hinner => by
    obtain ⟨hfirst, hrest⟩ := List.forall_mem_cons.1 hinner
    rw [Component.outlines, drawValues]
    exact (steady_drawComponent name _ _ hfirst).both (steady_drawValues place fields hrest)
      (fun _ _ values h ↦ .entry name values h) fun value _ _ h ↦ .entries (name, value) h

/-- The entries of a component are away by one text at most, by induction on the component. -/
theorem steady_drawNode (c : Component) : ∀ place fields,
    Steady key (fun entries others ↦ LeafAway (.object entries) (.object others))
      (drawNode place (.object fields) c.outline) := by
  induction c using Component.induction_on_components with
  | step properties components array itemName ih =>
    intro place fields
    have hinner : ∀ pair ∈ components, ∀ place fields,
        Steady key LeafAway (drawObject pair.2.outline place (.object fields)) :=
      fun pair hpair place fields ↦ (ih pair hpair place fields).map fun _ _ h ↦ h
    rw [drawNode_outline]
    exact (steady_drawProperties place fields _).both (steady_drawValues place fields hinner)
      (fun _ _ values h ↦ (leafAway_update [] h).update values)
      fun entries _ _ h ↦ leafAway_update (Keyed.ofPairs entries) h

end Components

/-! ### Forms -/

section Form

variable {s : Schema} {document : Value} {key : String}

theorem steady_drawRoot (c : Component) (place : String) (defaults : Value) :
    Steady key (fun entries others ↦ LeafAway (.object entries) (.object others))
      (drawNode place defaults c.outline) := by
  rcases drawNode_cases c place defaults with ⟨fields, rfl⟩ | ⟨-, hempty⟩ | hfail
  · exact steady_drawNode c place fields
  · rw [hempty]
    exact (unread_pure []).steady fun _ ↦ .same _
  · rw [hfail]
    exact Unread.steady (unread_of_forall fun _ _ _ ↦ rfl) fun _ ↦ .same _

theorem unread_drawFlags (fields : List (String × Value)) :
    ∀ flags, Unread key (drawFlags (.object fields) flags)
  | [] => unread_pure []
  | flag :: rest => by
    rw [drawFlags, defaultOf, pure_bind]
    exact (unread_checkbox _ _ _).bind fun isOn ↦ (unread_drawFlags fields rest).bind fun _ ↦
      unread_pure _

theorem leafAway_rootEntries {entries others : List (String × Value)}
    (h : LeafAway (.object entries) (.object others)) :
    LeafAway (.object (rootEntries s entries)) (.object (rootEntries s others)) := by
  rw [rootEntries, rootEntries]
  split
  · exact h
  · exact .entry s.name [] h

/-- The input of a form is away by one text at most. -/
theorem steady_drawForm (hdocument : s.IsDrawnFrom document) (fields : List (String × Value)) :
    Steady key (fun entries others ↦ LeafAway (.object entries) (.object others))
      (drawForm document (.object fields)) := by
  obtain ⟨heading, hheading, hform⟩ := exists_drawForm_eq hdocument
  have hboxes : Unread key (do heading; drawFlags (.object fields) s.toggles) := by
    refine Unread.bind ?_ fun _ ↦ unread_drawFlags fields s.toggles
    rcases hheading with rfl | rfl
    · exact unread_pure ()
    · exact unread_say _ _
  rw [hform]
  exact (steady_drawRoot s.root s.name _).both hboxes.steady_eq
    (fun _ _ flags h ↦ (leafAway_rootEntries h).update flags) fun entries _ _ h ↦ h ▸ .same _

/-- The controls of a form and the numbers of rows have different keys, if the names in its schema
are identifiers and the outermost component is not called like the boxes of flags. The names of
flags may be anything, but are different, as they are where they are read off a document
(`Document.ListsFlags`). So when something else is entered as one text, the form stays as it is, and
of the input at most one text changes. -/
theorem controls_distinct (hdocument : s.IsDrawnFrom document) (hkeyed : s.root.WellKeyed)
    (hname : Path.isIdentifier s.name.toList = true) (htoggle : s.name ≠ "toggle")
    (hnames : ∀ node ∈ s.root.nodes, ∀ name ∈ node.declared, Path.isIdentifier name.toList = true)
    (hflags : s.toggles.Nodup) (fields : List (String × Value)) (answers : Answers)
    {before : RowCounts} (hbefore : HoldsCounts before) :
    let outcome := drawForm document (.object fields) answers before
    (controls outcome.drawn ++ Keyed.keys outcome.state).Nodup ∧
      ∀ key others, SameBut key answers others →
        let other := drawForm document (.object fields) others before
        other.drawn = outcome.drawn ∧ other.state = outcome.state ∧
          ((∃ interruption, outcome.result = .error interruption ∧
            other.result = .error interruption) ∨
          ∃ drawn changed, outcome.result = .ok drawn ∧ other.result = .ok changed ∧
            LeafAway (.object drawn) (.object changed)) := by
  intro outcome
  have hnodup : (controls outcome.drawn ++ Keyed.keys outcome.state).Nodup :=
    nodup_controls_drawForm hdocument hkeyed (isStopless_of_isIdentifier hname) htoggle
      (fun node hnode name hin ↦ isStopless_of_isIdentifier (hnames node hnode name hin)) hflags
      fields answers hbefore
  refine ⟨hnodup, fun key others hsame ↦ ?_⟩
  intro other
  rcases steady_drawForm hdocument fields answers others hsame before with
    ⟨after, drawn, interruption, hone, hother⟩ |
      ⟨after, drawn, value, changed, hone, hother, -, haway⟩
  · have hsameRun : other = outcome := hother.trans hone.symm
    exact ⟨congrArg Outcome.drawn hsameRun, congrArg Outcome.state hsameRun,
      Or.inl ⟨interruption, congrArg Outcome.result hone, congrArg Outcome.result hother⟩⟩
  · have hdrawn : outcome.drawn = drawn := congrArg Outcome.drawn hone
    rw [hdrawn] at hnodup
    refine ⟨(congrArg Outcome.drawn hother).trans hdrawn.symm,
      (congrArg Outcome.state hother).trans (congrArg Outcome.state hone).symm, Or.inr ?_⟩
    exact ⟨value, changed, congrArg Outcome.result hone, congrArg Outcome.result hother,
      haway (List.nodup_append.1 hnodup).1⟩

end Form

/-- Another label on a shelf of a museum with one shelf. -/
theorem controls_distinct_museum :
    let s := museumSchema "museum" "west"
    let key := "museum.west.shelves[0].label"
    let answers : Answers := ⟨[(key, "coins")], [], []⟩
    let others : Answers := ⟨[(key, "stamps")], [], []⟩
    let before : RowCounts := [("museum.west.shelves#count", 1)]
    let outcome := drawForm s.toDocument (.object []) answers before
    controls outcome.drawn = ["museum.title", key, "museum.west.shelves#add",
      "museum.west.shelves#remove", "museum.hall.east.shelves#add",
      "museum.hall.east.shelves#remove", "toggle.notice"] ∧
    (controls outcome.drawn ++ Keyed.keys outcome.state).Nodup ∧
      ∃ drawn changed, outcome.result = .ok drawn ∧
        (drawForm s.toDocument (.object []) others before).result = .ok changed ∧
          LeafAway (.object drawn) (.object changed) := by
  intro s key answers others before outcome
  have hkeyed : s.root.WellKeyed := by
    unfold Component.WellKeyed
    decide +kernel
  have hbefore : HoldsCounts before := by
    refine ⟨List.nodup_singleton _, fun key hkey ↦ ⟨"museum.west.shelves", ?_, ?_⟩⟩
    · rw [List.mem_singleton.1 hkey]
      decide +kernel
    · rintro ⟨rest, hrest, -⟩
      cases (List.cons.inj hrest).1
  have hsame : SameBut key answers others := by
    refine ⟨fun other hother ↦ ?_, fun _ ↦ rfl, fun _ ↦ rfl⟩
    rw [List.lookup_cons, List.lookup_cons, beq_false_of_ne hother]
  obtain ⟨hnodup, hsteady⟩ := controls_distinct s.isDrawnFrom_toDocument hkeyed (by decide +kernel)
    (by decide +kernel) (by decide +kernel) (by decide +kernel) [] answers hbefore
  have hdone : outcome.result.toBool = true := by decide +kernel
  refine ⟨by decide +kernel, hnodup, ?_⟩
  rcases (hsteady key others hsame).2.2 with ⟨interruption, hcut, -⟩ | haway
  · rw [hcut] at hdone
    cases hdone
  · exact haway

end MarkupBinding.InputForm
