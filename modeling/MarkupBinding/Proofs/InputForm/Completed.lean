import MarkupBinding.Proofs.InputForm.Restoring

/-!
# What a completed form gives

Whatever is entered into a form, whatever it is drawn with as defaults and whatever is remembered:
if it is drawn to its end, it gives an input of exactly the shape of its schema, in which each list
has as many rows as are remembered under its key (`fills_of_answered_drawForm`).

`Yields` says of a drawing what is true of its result together with the numbers of rows that are
remembered in the end. What is remembered is kept by all that is drawn below, so that what the parts
of a component yield (`FillsPlace`) stays true until they are put together (`fillsPart_update`). The
rows of a list (`yields_drawRows`), a list (`yields_drawList`) and the fields of a component
(`yields_drawNode`) follow the structure of the form, by induction on the component.
-/

set_option autoImplicit false
set_option relaxedAutoImplicit false

namespace MarkupBinding

namespace Component

open InputForm

/-- Whether a value is there for a nested component: an object of its shape, or a list of such
objects. -/
def FitsPlace (c : Component) (value : Value) : Prop :=
  c.array = false ∧ c.fits value = true ∨
    c.array = true ∧ ∃ items, value = .list items ∧ ∀ item ∈ items, c.fits item = true

theorem holdsAll_of_forall {components : List (String × Component)}
    {entries : List (String × Value)}
    (h : ∀ pair ∈ components, ∃ value, entries.lookup pair.1 = some value ∧
      pair.2.FitsPlace value) : holdsAll components entries = true := by
  induction components with
  | nil => rfl
  | cons pair rest ih =>
    obtain ⟨⟨value, hvalue, hfits⟩, hrest⟩ := List.forall_mem_cons.1 h
    rw [holdsAll, Bool.and_eq_true, hvalue]
    refine ⟨?_, ih hrest⟩
    rcases hfits with ⟨harray, hfits⟩ | ⟨harray, items, rfl, hfits⟩
    · simpa [harray, fits] using hfits
    · simpa [harray, fits] using hfits

theorem mem_listSizesAll_iff {components : List (String × Component)} {key : String}
    {entries : List (String × Value)} {list : String × Nat} :
    list ∈ listSizesAll components key entries ↔
      ∃ pair ∈ components, ∃ value, entries.lookup pair.1 = some value ∧
        list ∈ sizesIn pair.2.listSizes (partKey key pair.1) value := by
  induction components with
  | nil => simp [listSizesAll]
  | cons pair rest ih =>
    rw [listSizesAll, List.mem_append, ih, List.exists_mem_cons_iff]
    refine or_congr_left ?_
    cases entries.lookup pair.1 <;> simp

section Congr

variable {entries others : List (String × Value)}

theorem holdsAll_congr {components : List (String × Component)}
    (h : ∀ name ∈ Keyed.keys components, others.lookup name = entries.lookup name) :
    holdsAll components others = holdsAll components entries := by
  induction components with
  | nil => rfl
  | cons pair rest ih =>
    obtain ⟨hpair, hrest⟩ := List.forall_mem_cons.1 h
    rw [holdsAll, holdsAll, hpair, ih hrest]

theorem listSizesAll_congr {components : List (String × Component)} (key : String)
    (h : ∀ name ∈ Keyed.keys components, others.lookup name = entries.lookup name) :
    listSizesAll components key others = listSizesAll components key entries := by
  induction components with
  | nil => rfl
  | cons pair rest ih =>
    obtain ⟨hpair, hrest⟩ := List.forall_mem_cons.1 h
    rw [listSizesAll, listSizesAll, hpair, ih hrest]

/-- Of entries only those under the names that a component declares matter to it. -/
theorem holds_congr {c : Component}
    (h : ∀ name ∈ c.declared, others.lookup name = entries.lookup name) :
    c.holds others = c.holds entries ∧
      ∀ key, c.listSizes key others = c.listSizes key entries := by
  obtain ⟨properties, components, array, itemName⟩ := c
  have hcomponents : ∀ name ∈ Keyed.keys components, others.lookup name = entries.lookup name :=
    fun name hname ↦ h name (List.mem_append_left _ hname)
  have hproperties : (properties.all fun property ↦
      (others.lookup property.1).any Value.isTextOrInt) =
        properties.all fun property ↦ (entries.lookup property.1).any Value.isTextOrInt := by
    rw [Bool.eq_iff_iff, List.all_eq_true, List.all_eq_true]
    refine forall₂_congr fun property hproperty ↦ ?_
    rw [h _ (List.mem_append_right _ (List.mem_map_of_mem hproperty))]
  refine ⟨?_, fun key ↦ listSizesAll_congr key hcomponents⟩
  rw [holds, holds, hproperties, holdsAll_congr hcomponents]

end Congr

end Component

namespace InputForm

open Component (FitsPlace)
open RecordLayout (exists_entries_of_isExactly exists_of_mem_forall₂)

/-! ### What is remembered -/

theorem Keeps.refl (counts : RowCounts) : Keeps counts counts :=
  fun _ _ h ↦ h

theorem Keeps.trans {counts middle after : RowCounts} (h : Keeps counts middle)
    (h' : Keeps middle after) : Keeps counts after :=
  fun key n hkey ↦ h' key n (h key n hkey)

theorem keeps_started (key : String) (rows : Nat) (counts : RowCounts) :
    Keeps counts (started key rows counts) := by
  intro other n hother
  by_cases hkey : other = key
  · subst hkey
    rw [remembered_started_self, hother, Option.getD_some]
  · rw [remembered_started_of_ne hkey, hother]

/-- The sizes of lists are remembered under their keys. -/
def SizesRemembered (counts : RowCounts) (sizes : List (String × Nat)) : Prop :=
  ∀ list ∈ sizes, remembered counts list.1 = some list.2

/-- The value is an object of the shape of the component with texts for its properties, and the
sizes of the lists in it are remembered. -/
structure FillsPart (c : Component) (key : String) (counts : RowCounts) (value : Value) :
    Prop where
  fits : c.fits value = true
  numberFree : value.numberFree = true
  sizes : SizesRemembered counts (c.listSizes key value.entries)

/-- The value is such an object, or a list of such objects whose number is remembered. -/
def FillsPlace (c : Component) (key : String) (counts : RowCounts) (value : Value) : Prop :=
  c.array = false ∧ FillsPart c key counts value ∨
    c.array = true ∧ ∃ items, value = .list items ∧ remembered counts key = some items.length ∧
      ∀ row ∈ items.zipIdx, FillsPart c (rowKey key row.2) counts row.1

section Fills

variable {c : Component} {key : String} {counts after : RowCounts} {value : Value}

theorem FillsPart.mono (hkeeps : Keeps counts after) (h : FillsPart c key counts value) :
    FillsPart c key after value :=
  ⟨h.fits, h.numberFree, fun list hlist ↦ hkeeps _ _ (h.sizes list hlist)⟩

theorem FillsPlace.mono (hkeeps : Keeps counts after) (h : FillsPlace c key counts value) :
    FillsPlace c key after value := by
  rcases h with ⟨harray, h⟩ | ⟨harray, items, rfl, hcount, hrows⟩
  · exact Or.inl ⟨harray, h.mono hkeeps⟩
  · exact Or.inr
      ⟨harray, items, rfl, hkeeps _ _ hcount, fun row hrow ↦ (hrows row hrow).mono hkeeps⟩

theorem exists_zipIdx_of_mem {items : List Value} {item : Value} (h : item ∈ items) :
    ∃ index, (item, index) ∈ items.zipIdx := by
  obtain ⟨index, hindex⟩ := List.mem_iff_getElem?.1 h
  exact ⟨index, List.mem_zipIdx_iff_getElem?.2 hindex⟩

theorem FillsPlace.fitsPlace (h : FillsPlace c key counts value) : c.FitsPlace value := by
  rcases h with ⟨harray, h⟩ | ⟨harray, items, rfl, -, hrows⟩
  · exact Or.inl ⟨harray, h.fits⟩
  · refine Or.inr ⟨harray, items, rfl, fun item hitem ↦ ?_⟩
    obtain ⟨index, hindex⟩ := exists_zipIdx_of_mem hitem
    exact (hrows _ hindex).fits

theorem FillsPlace.numberFree (h : FillsPlace c key counts value) : value.numberFree = true := by
  rcases h with ⟨-, h⟩ | ⟨-, items, rfl, -, hrows⟩
  · exact h.numberFree
  · refine Value.numberFree_list_iff.2 fun item hitem ↦ ?_
    obtain ⟨index, hindex⟩ := exists_zipIdx_of_mem hitem
    exact (hrows _ hindex).numberFree

theorem FillsPlace.sizes (h : FillsPlace c key counts value) :
    SizesRemembered counts (sizesIn c.listSizes key value) := by
  rcases h with ⟨-, h⟩ | ⟨-, items, rfl, hcount, hrows⟩
  · obtain ⟨entries, rfl, -, -⟩ := exists_entries_of_isExactly h.fits
    exact h.sizes
  · refine List.forall_mem_cons.2 ⟨hcount, fun list hlist ↦ ?_⟩
    obtain ⟨row, hrow, hin⟩ := List.mem_flatMap.1 hlist
    exact (hrows row hrow).sizes list hin

end Fills

/-! ### What drawings yield -/

/-- Whenever a drawing has a result, all that was remembered still is, and the result is good for
what is remembered in the end. -/
def Yields {α : Type} (d : Drawing RowCounts α) (good : RowCounts → α → Prop) : Prop :=
  ∀ ⦃answers before value after⦄, d.answered answers before = (.ok value, after) →
    Keeps before after ∧ good after value

section Yields

variable {α β γ : Type} {d : Drawing RowCounts α} {b : Drawing RowCounts β}
  {good : RowCounts → α → Prop} {goodSecond : RowCounts → β → Prop}

theorem yields_pure {value : α} (h : ∀ counts, good counts value) : Yields (pure value) good := by
  intro answers before result after hrun
  rw [Drawing.answered_pure, Prod.mk.injEq, Except.ok.injEq] at hrun
  obtain ⟨rfl, rfl⟩ := hrun
  exact ⟨.refl before, h before⟩

theorem yields_fail (fault : DrawingFault) : Yields (Drawing.fail fault) good := by
  intro answers before value after hrun
  rw [Drawing.answered_fail] at hrun
  cases (Prod.mk.inj hrun).1

/-- Of two drawings, the second one below the first, both results are good in the end. -/
theorem Yields.both {f : α → β → γ} (hd : Yields d good) (hb : Yields b goodSecond)
    (hmono : ∀ {counts after value}, Keeps counts after → good counts value → good after value) :
    Yields (do let first ← d
               let second ← b
               pure (f first second))
      fun counts result ↦ ∃ first second, f first second = result ∧ good counts first ∧
        goodSecond counts second := by
  intro answers before result after hrun
  obtain ⟨first, middle, second, hfirst, hsecond, rfl⟩ := Drawing.answered_both_eq_ok_iff.1 hrun
  obtain ⟨hkeeps, hgood⟩ := hd hfirst
  obtain ⟨hkeepsSecond, hgoodSecond⟩ := hb hsecond
  exact ⟨hkeeps.trans hkeepsSecond, first, second, rfl, hmono hkeepsSecond hgood, hgoodSecond⟩

theorem Yields.imp {good' : RowCounts → α → Prop} (hd : Yields d good)
    (h : ∀ {counts value}, good counts value → good' counts value) : Yields d good' :=
  fun _ _ _ _ hrun ↦ (hd hrun).imp_right h

/-- What is drawn above and changes no number makes no difference. -/
theorem Yields.below {above : Drawing RowCounts α} {next : α → Drawing RowCounts β}
    (habove : above.IsStill) (hnext : ∀ value, Yields (next value) goodSecond) :
    Yields (above >>= next) goodSecond := by
  intro answers before result after hrun
  obtain ⟨value, middle, hvalue, hresult⟩ := Drawing.answered_bind_eq_ok_iff.1 hrun
  obtain rfl : middle = before := (congrArg Prod.snd hvalue).symm.trans (habove answers before)
  exact hnext value hresult

end Yields

/-! ### Lists -/

section Lists

variable {row : Nat → Value → Drawing RowCounts Value} {good : Nat → RowCounts → Value → Prop}

/-- The rows of a list from an index on are as many as were asked for, and each one is good. -/
theorem yields_drawRows (itemName : String) (defaults : Value)
    (hrow : ∀ index fields, Yields (row index (.object fields)) (good index))
    (hmono : ∀ {index counts after value}, Keeps counts after → good index counts value →
      good index after value) (more : Nat) :
    ∀ index, Yields (drawRows itemName defaults row index more) fun counts rows ↦
      rows.length = more ∧ ∀ item ∈ rows.zipIdx index, good item.2 counts item.1 := by
  induction more with
  | zero =>
    exact fun index ↦ yields_pure fun counts ↦ ⟨rfl, fun _ hitem ↦ absurd hitem List.not_mem_nil⟩
  | succ more ih =>
    intro index
    rw [drawRows]
    rcases rowDefault_cases defaults index with ⟨fields, hdefault⟩ | ⟨fault, hdefault⟩
    · rw [hdefault, pure_bind]
      refine Yields.below (Drawing.isStill_say _ _) fun _ ↦
        ((hrow index fields).both (ih (index + 1)) hmono).imp ?_
      rintro counts _ ⟨first, others, rfl, hfirst, hlength, hothers⟩
      exact ⟨congrArg Nat.succ hlength, List.forall_mem_cons.2 ⟨hfirst, hothers⟩⟩
    · rw [hdefault]
      exact yields_fail fault

/-- After a list was met, a number of rows is there under its key. -/
theorem started_of_answered_startCount {key : String} {defaults : Value} {answers : Answers}
    {before after : RowCounts} {value : Unit}
    (h : (startCount key defaults).answered answers before = (.ok value, after)) :
    ∃ rows, after = started key rows before := by
  rw [answered_startCount] at h
  split at h
  · next hhas =>
    obtain ⟨-, rfl⟩ := Prod.mk.inj h
    exact ⟨0, by rw [started, if_pos hhas]⟩
  · next hnot =>
    cases hrows : defaults.count? with
    | none => rw [hrows] at h; cases h
    | some rows =>
      rw [hrows] at h
      obtain ⟨-, rfl⟩ := Prod.mk.inj h
      exact ⟨rows, by rw [started, if_neg hnot]⟩

theorem eq_of_answered_listButtons {key itemName : String} {answers : Answers}
    {before after : RowCounts} {value : Unit}
    (h : (listButtons key itemName).answered answers before = (.ok value, after)) :
    after = before := by
  rw [answered_listButtons] at h
  split at h
  · cases h
  · split at h
    · cases h
    · exact (Prod.mk.inj h).2.symm

/-- A list has as many rows as are remembered in the end, and each one is good. -/
theorem yields_drawList (name key itemName : String) (defaults : Value)
    (hrow : ∀ index fields, Yields (row index (.object fields)) (good index))
    (hmono : ∀ {index counts after value}, Keeps counts after → good index counts value →
      good index after value) :
    Yields (drawList name key itemName defaults row) fun counts value ↦
      ∃ items, value = .list items ∧ remembered counts key = some items.length ∧
        ∀ item ∈ items.zipIdx, good item.2 counts item.1 := by
  intro answers before value after hrun
  rw [drawList_eq] at hrun
  simp only [Drawing.answered_bind_eq_ok_iff, Drawing.answered_draw, Drawing.answered_say,
    answered_rowCount, Drawing.answered_pure, Prod.mk.injEq, Except.ok.injEq] at hrun
  obtain ⟨_, counts, hstart, _, _, ⟨-, rfl⟩, _, _, ⟨-, rfl⟩, _, _, ⟨rfl, rfl⟩, items, middle, hrows,
    _, _, hbuttons, rfl, rfl⟩ := hrun
  obtain ⟨rows, rfl⟩ := started_of_answered_startCount hstart
  obtain rfl := eq_of_answered_listButtons hbuttons
  obtain ⟨hkeeps, hlength, hgood⟩ := yields_drawRows itemName defaults hrow hmono _ 0 hrows
  have hself := remembered_started_self key rows before
  obtain ⟨count, hcount, hnat⟩ := Option.map_eq_some_iff.1 hself
  refine ⟨(keeps_started key rows before).trans hkeeps, items, rfl, hkeeps _ _ ?_, hgood⟩
  rw [hself, hlength, hcount, Option.getD_some, hnat]

end Lists

/-! ### Components -/

/-- The values are those of the components, each under its name and there for it. -/
def FillPlaces (key : String) (components : List (String × Component)) (counts : RowCounts)
    (values : List (String × Value)) : Prop :=
  List.Forall₂ (fun pair value ↦ value.1 = pair.1 ∧
    FillsPlace pair.2 (partKey key pair.1) counts value.2) components values

theorem FillPlaces.keys_eq {key : String} {components : List (String × Component)}
    {counts : RowCounts} {values : List (String × Value)}
    (h : FillPlaces key components counts values) :
    Keyed.keys values = Keyed.keys components := by
  induction h with
  | nil => rfl
  | cons hfirst _ ih => exact congrArg₂ List.cons hfirst.1 ih

/-- An object fills a component if its entries are declared and free of numbers, and it has a text
for each property and for each nested component what is there for it. -/
theorem fillsPart_of_lookup {c : Component} {key : String} {counts : RowCounts}
    {entries : List (String × Value)} (text : String → String)
    (hentry : ∀ entry ∈ entries, entry.1 ∈ c.declared ∧ entry.2.numberFree = true)
    (htext : ∀ name ∈ Keyed.keys c.properties, entries.lookup name = some (.string (text name)))
    (hplace : ∀ pair ∈ c.components, ∃ value, entries.lookup pair.1 = some value ∧
      FillsPlace pair.2 (partKey key pair.1) counts value) :
    FillsPart c key counts (.object entries) := by
  have hholds : c.holds entries = true := by
    obtain ⟨properties, components, array, itemName⟩ := c
    rw [Component.holds, Bool.and_eq_true, List.all_eq_true]
    refine ⟨fun property hproperty ↦ ?_, Component.holdsAll_of_forall fun pair hpair ↦ ?_⟩
    · rw [htext _ (List.mem_map_of_mem hproperty)]
      rfl
    · obtain ⟨value, hvalue, hfills⟩ := hplace pair hpair
      exact ⟨value, hvalue, hfills.fitsPlace⟩
  refine ⟨?_, Value.numberFree_object_iff.2 fun entry h ↦ (hentry entry h).2, fun list hlist ↦ ?_⟩
  · rw [Component.fits, Value.isExactly, Bool.and_eq_true, List.all_eq_true]
    exact ⟨fun entry h ↦ List.contains_iff_mem.2 (hentry entry h).1, hholds⟩
  · obtain ⟨properties, components, array, itemName⟩ := c
    obtain ⟨pair, hpair, value, hvalue, hin⟩ := Component.mem_listSizesAll_iff.1 hlist
    obtain ⟨_, hthere, hfills⟩ := hplace pair hpair
    obtain rfl := Option.some.inj (hthere.symm.trans hvalue)
    exact hfills.sizes list hin

/-- Texts for the properties and what is there for the nested components make up an object of the
shape of the component. -/
theorem fillsPart_update {c : Component} {key : String} {counts : RowCounts}
    {values : List (String × Value)} (text : String → String)
    (hkeys : (Keyed.keys c.components).Nodup)
    (hapart : ∀ name ∈ Keyed.keys c.properties, name ∉ Keyed.keys c.components)
    (hvalues : FillPlaces key c.components counts values) :
    FillsPart c key counts (.object (Keyed.update (Keyed.ofPairs
      ((Keyed.keys c.properties).map fun name ↦ (name, .string (text name)))) values)) := by
  have hnodup : (Keyed.keys values).Nodup := hvalues.keys_eq ▸ hkeys
  -- the value of a name stands before its text
  have hlookup : ∀ name, (Keyed.update (Keyed.ofPairs ((Keyed.keys c.properties).map
      fun name ↦ (name, Value.string (text name)))) values).lookup name =
        (values.lookup name).or (if name ∈ Keyed.keys c.properties then
          some (.string (text name)) else none) := by
    intro name
    rw [Keyed.lookup_update hnodup]
    exact congrArg _ (Keyed.lookup_update_map [] _ _ name)
  refine fillsPart_of_lookup text (fun entry hentry ↦ ?_) (fun name hname ↦ ?_)
    fun pair hpair ↦ ?_
  · rcases Keyed.mem_update hentry with htext | hvalue
    · obtain ⟨name, hname, rfl⟩ := List.mem_map.1 (Keyed.mem_of_mem_ofPairs htext)
      exact ⟨List.mem_append_right _ hname, rfl⟩
    · obtain ⟨pair, hpair, hname, hfills⟩ := exists_of_mem_forall₂ hvalues hvalue
      exact ⟨List.mem_append_left _ (List.mem_map.2 ⟨pair, hpair, hname.symm⟩), hfills.numberFree⟩
  · have hnone : values.lookup name = none :=
      Keyed.lookup_eq_none (hvalues.keys_eq ▸ hapart name hname)
    rw [hlookup, hnone, Option.none_or, if_pos hname]
  · obtain ⟨value, hvalue, hname, hfills⟩ := exists_of_mem_forall₂ hvalues.flip hpair
    exact ⟨value.2, by rw [hlookup, ← hname, Keyed.lookup_of_mem hnodup hvalue, Option.some_or],
      hfills⟩

/-- The fields of a component, drawn with any object as defaults, give what fills the component. -/
def YieldsPart (c : Component) : Prop :=
  ∀ key fields, Yields (drawObject c.outline key (.object fields)) (FillsPart c key)

/-- What is drawn for a nested component is there for it. -/
theorem yields_drawComponent (name key : String) (default : Option Value) {c : Component}
    (hinner : YieldsPart c) :
    Yields (drawComponent name key default (drawObject c.outline) c.outline)
      (FillsPlace c key) := by
  rw [drawComponent_outline]
  split
  · next harray =>
    exact (yields_drawList name key _ _ (fun index fields ↦ hinner (rowKey key index) fields)
      FillsPart.mono).imp fun h ↦ Or.inr ⟨harray, h⟩
  · next harray =>
    refine Yields.below (Drawing.isStill_draw _) fun _ ↦ Yields.below (Drawing.isStill_say _ _)
      fun _ ↦ ?_
    rw [objectOr_eq]
    exact (hinner key _).imp fun h ↦ Or.inl ⟨by simpa using harray, h⟩

theorem yields_drawValues (key : String) (fields : List (String × Value)) :
    ∀ {components : List (String × Component)}, (∀ pair ∈ components, YieldsPart pair.2) →
      Yields (drawValues key fields (Component.outlines components)) (FillPlaces key components)
  | [], _ => yields_pure fun _ ↦ List.Forall₂.nil
  | (name, c) :: rest, hinner => by
    obtain ⟨hfirst, hrest⟩ := List.forall_mem_cons.1 hinner
    rw [Component.outlines, drawValues]
    refine ((yields_drawComponent name (partKey key name) (fields.lookup name) hfirst).both
      (yields_drawValues key fields hrest) FillsPlace.mono).imp ?_
    rintro counts _ ⟨value, values, rfl, hvalue, hvalues⟩
    exact .cons ⟨rfl, hvalue⟩ hvalues

/-- The fields of a component give what fills it, by induction on the component. -/
theorem yields_drawNode (c : Component) : c.WellKeyed → c.PartsApart → ∀ key fields,
    Yields (drawNode key (.object fields) c.outline)
      fun counts entries ↦ FillsPart c key counts (.object entries) := by
  induction c using Component.induction_on_components with
  | step properties components array itemName ih =>
    intro hkeyed hapart key fields
    obtain ⟨-, hkeys, hbelow⟩ := Component.wellKeyed_iff.1 hkeyed
    obtain ⟨hown, hapartBelow⟩ := Component.forall_mem_nodes_iff.1 hapart
    have hinner : ∀ pair ∈ components, YieldsPart pair.2 := by
      intro pair hpair key fields answers before value after hrun
      rw [drawObject, bind_pure_comp, Drawing.answered_map_eq_ok_iff] at hrun
      obtain ⟨entries, hentries, rfl⟩ := hrun
      exact ih pair hpair (hbelow pair hpair) (hapartBelow pair hpair) key fields hentries
    intro answers before entries after hrun
    rw [drawNode_outline, Drawing.answered_bind, answered_drawProperties] at hrun
    dsimp only at hrun
    rw [bind_pure_comp, Drawing.answered_map_eq_ok_iff] at hrun
    obtain ⟨values, hvalues, rfl⟩ := hrun
    obtain ⟨hkeeps, hplaces⟩ := yields_drawValues key fields hinner hvalues
    exact ⟨hkeeps, fillsPart_update (c := ⟨properties, components, array, itemName⟩) _ hkeys hown
      hplaces⟩

/-- The fields of a component give what fills it also where the defaults are no object. -/
theorem yields_drawRoot (c : Component) (hkeyed : c.WellKeyed) (hapart : c.PartsApart)
    {key : String} (defaults : Value) :
    Yields (drawNode key defaults c.outline)
      fun counts entries ↦ FillsPart c key counts (.object entries) := by
  rcases drawNode_cases c key defaults with ⟨fields, rfl⟩ | ⟨hempty, hdraw⟩ | hfail
  · exact yields_drawNode c hkeyed hapart key fields
  · rw [hdraw]
    refine yields_pure fun counts ↦ ?_
    obtain ⟨properties, components, array, itemName⟩ := c
    rw [Component.isEmpty, Bool.and_eq_true, List.isEmpty_iff, List.isEmpty_iff] at hempty
    obtain ⟨rfl, rfl⟩ := hempty
    exact ⟨rfl, rfl, fun _ hlist ↦ absurd hlist List.not_mem_nil⟩
  · rw [hfail]
    exact yields_fail _

/-! ### Forms -/

section Form

variable {s : Schema} {document : Value}

/-- The entries that what fills the outermost component makes are declared and free of numbers. -/
theorem mem_rootEntries {counts : RowCounts} {entries : List (String × Value)}
    (h : FillsPart s.root s.name counts (.object entries)) :
    ∀ entry ∈ rootEntries s entries, entry.1 ∈ s.declared ∧ entry.2.numberFree = true := by
  obtain ⟨_, heq, hkeys, -⟩ := exists_entries_of_isExactly h.fits
  obtain rfl := Value.object.inj heq
  intro entry hentry
  rw [Schema.declared]
  rw [rootEntries] at hentry
  split at hentry
  · next hname =>
    rw [if_pos hname]
    exact ⟨hkeys (List.mem_map_of_mem hentry), Value.numberFree_object_iff.1 h.numberFree _ hentry⟩
  · next hname =>
    rw [if_neg hname]
    obtain rfl := List.mem_singleton.1 hentry
    exact ⟨List.mem_cons_self, h.numberFree⟩

/-- An input with the same under every declared name holds what the schema declares, and the lists
of the outermost component. -/
theorem holds_of_lookup_rootEntries {counts : RowCounts} {entries drawn : List (String × Value)}
    (h : FillsPart s.root s.name counts (.object entries))
    (hdeclared : ∀ name ∈ s.declared, drawn.lookup name = (rootEntries s entries).lookup name) :
    s.holds drawn = true ∧ s.listSizes drawn = s.root.listSizes s.name entries := by
  obtain ⟨_, heq, -, hholds⟩ := exists_entries_of_isExactly h.fits
  obtain rfl := Value.object.inj heq
  rw [Schema.holds, Schema.listSizes]
  rw [Schema.declared] at hdeclared
  rw [rootEntries] at hdeclared
  split at hdeclared
  · next hname =>
    simp only [if_pos hname] at hdeclared ⊢
    obtain ⟨hsame, hsizes⟩ := Component.holds_congr hdeclared
    exact ⟨hsame.trans hholds, hsizes _⟩
  · next hname =>
    have hfound : drawn.lookup s.name = some (.object entries) := by
      rw [hdeclared _ List.mem_cons_self, List.lookup_cons_self]
    simp only [if_neg hname, hfound]
    exact ⟨h.fits, rfl⟩

/-- What fills the outermost component makes, with a truth value for each flag, an input of the
shape of the schema. -/
theorem fills_update {counts : RowCounts} {entries : List (String × Value)}
    (hflags : ∀ flag ∈ s.toggles, flag ∉ s.declared) (tick : String → Bool)
    (h : FillsPart s.root s.name counts (.object entries)) :
    s.fills (Keyed.update (rootEntries s entries)
        (s.toggles.map fun flag ↦ (flag, .bool (tick flag)))) = true ∧
      SizesRemembered counts (s.listSizes (Keyed.update (rootEntries s entries)
        (s.toggles.map fun flag ↦ (flag, .bool (tick flag))))) := by
  have hlookup : ∀ name, (Keyed.update (rootEntries s entries)
      (s.toggles.map fun flag ↦ (flag, Value.bool (tick flag)))).lookup name =
        if name ∈ s.toggles then some (.bool (tick name))
        else (rootEntries s entries).lookup name :=
    Keyed.lookup_update_map _ _ _
  have hentry : ∀ entry ∈ Keyed.update (rootEntries s entries)
      (s.toggles.map fun flag ↦ (flag, Value.bool (tick flag))),
        entry ∈ rootEntries s entries ∨ ∃ flag ∈ s.toggles, entry = (flag, .bool (tick flag)) := by
    intro entry hentry
    refine (Keyed.mem_update hentry).imp_right fun hmem ↦ ?_
    obtain ⟨flag, hflag, rfl⟩ := List.mem_map.1 hmem
    exact ⟨flag, hflag, rfl⟩
  obtain ⟨hholds, hsizes⟩ := holds_of_lookup_rootEntries h fun name hname ↦ by
    rw [hlookup, if_neg fun hflag ↦ hflags name hflag hname]
  refine ⟨?_, hsizes ▸ h.sizes⟩
  rw [Schema.fills, Schema.fits, Bool.and_eq_true, Bool.and_eq_true, Bool.and_eq_true]
  refine ⟨⟨⟨?_, hholds⟩, ?_⟩, ?_⟩
  · rw [List.all_eq_true]
    intro entry hmem
    rcases hentry entry hmem with hroot | ⟨flag, hflag, rfl⟩
    · simp [(mem_rootEntries h entry hroot).1]
    · simp [hflag, Value.isFlag]
  · refine Value.numberFree_object_iff.2 fun entry hmem ↦ ?_
    rcases hentry entry hmem with hroot | ⟨flag, hflag, rfl⟩
    · exact (mem_rootEntries h entry hroot).2
    · rfl
  · rw [List.all_eq_true]
    intro flag hflag
    rw [hlookup, if_pos hflag]
    rfl

/-- A form that is drawn to its end gives an input of the shape of its schema, in which each list
has as many rows as are remembered under its key. No number may be held under the key of a box. -/
theorem fills_of_answered_drawForm (hdocument : s.IsDrawnFrom document)
    (hkeyed : s.root.WellKeyed) (hapart : s.root.PartsApart)
    (hflags : ∀ flag ∈ s.toggles, flag ∉ s.declared) {fields drawn : List (String × Value)}
    {answers : Answers} (hnone : ∀ flag ∈ s.toggles, answers.numbers.lookup (flagKey flag) = none)
    {before after : RowCounts}
    (hrun : (drawForm document (.object fields)).answered answers before = (.ok drawn, after)) :
    s.fills drawn = true ∧ SizesRemembered after (s.listSizes drawn) := by
  obtain ⟨heading, hheading, hform⟩ := exists_drawForm_eq hdocument
  have hflag : ∀ flag ∈ s.toggles, enteredFlag answers fields flag =
      .bool ((answers.ticks.lookup (flagKey flag)).getD (tickedAtFirst (fields.lookup flag))) := by
    intro flag hmem
    rw [enteredFlag, Answers.box, hnone flag hmem]
  have hboxes : ∀ counts,
      (do heading; drawFlags (.object fields) s.toggles).answered answers counts =
        (.ok (s.toggles.map fun flag ↦ (flag, .bool ((answers.ticks.lookup (flagKey flag)).getD
          (tickedAtFirst (fields.lookup flag))))), counts) := by
    intro counts
    rw [← List.map_congr_left fun flag hmem ↦ congrArg (Prod.mk flag) (hflag flag hmem)]
    rcases hheading with rfl | rfl <;> simp [answered_drawFlags]
  rw [hform, Drawing.answered_both_eq_ok_iff] at hrun
  obtain ⟨entries, middle, flags, hentries, hflagged, rfl⟩ := hrun
  rw [hboxes] at hflagged
  obtain ⟨rfl, rfl⟩ := (Prod.mk.inj hflagged).imp_left Except.ok.inj
  exact fills_update hflags _ (yields_drawRoot s.root hkeyed hapart _ hentries).2

end Form

end InputForm

end MarkupBinding
